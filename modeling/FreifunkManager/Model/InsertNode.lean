import FreifunkManager.Model.SshUpdate

/-! # Handling a report

`InsertNode` learns a node or refreshes a known one. It reads the row of the node first and keeps
this copy until the end, through the whole SSH session.
-/

namespace FreifunkManager

open Effects

/-- What the object mapper does to a copy whose row it updates. -/
def Node.seenAt (n : Node) (now : Time) : Node := { n with lastseen := some now }

@[simp] theorem Node.seenAt_settings (n : Node) (now : Time) : (n.seenAt now).settings = n.settings := rfl

@[simp] theorem Node.seenAt_nodeID (n : Node) (now : Time) : (n.seenAt now).nodeID = n.nodeID := rfl

@[simp] theorem Node.seenAt_getAddress (n : Node) (now : Time) : (n.seenAt now).getAddress = n.getAddress := rfl

/-- Push what differs, if anything does; whether the node could be reached. -/
def Node.pushDifferences (lNode : Node) : Go Bool :=
  if lNode.checkRespondd then return true else lNode.sshUpdate

/-- The second half for a node whose row was found: `lNode` is the refreshed copy. -/
def refreshKnown (config : Config) (now : Time) (lNode : Node) : Go Unit := do
  let _ ← perform (.updateNode lNode.nodeID (.observed lNode.address now))
  let lNode := lNode.seenAt now
  if lNode.timeFilter config.blacklistFor (← perform (.now .timeFilter)) then return
  if ← lNode.pushDifferences then perform (.sendNode lNode)
  else let _ ← perform (.updateNode lNode.nodeID (.blacklist now))

def Node.blacklisted (n : Node) (now : Time) : Node := { n with blacklist := some now }

/-- Reach a new node once and make its row; a node that cannot be reached starts on the blacklist. -/
def Node.register (node : Node) (now : Time) : Go Unit := do
  let result ← Ssh.runOn node.getAddress "uptime"
  let node := if result.isNone then node.blacklisted now else node
  let _ ← perform (.createNode node.row)
  if node.blacklist.isNone then perform (.sendNode node)

/-- The second half for a node without a row. -/
def learnNew (n : Yanic.Node) (config : Config) (now : Time) : Go Unit := do
  match newNode n config.ipPrefix (← perform (.now .update)) with
  | some node => node.register now
  | none => return

def insertNode (config : Config) (n : Yanic.Node) : Go Unit := do
  let some nodeinfo := n.nodeinfo | return
  let now ← perform (.now .insertNode)
  match ← perform (.firstNode nodeinfo.nodeID) with
  | some row =>
    let lNode := row.node.update (some n) config.ipPrefix (← perform (.now .update))
    refreshKnown config now lNode
  | none => learnNew n config now

end FreifunkManager
