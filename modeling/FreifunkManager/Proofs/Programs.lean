import FreifunkManager.Model.InsertNode
import FreifunkManager.Model.Websocket

/-! # What the programs ask for

Code that talks to a node opens one connection, to the address of the node, and then only makes
sessions and runs commands, whatever the replies are. The handlers of messages, with the exception of
the one for nodes, keep away from the nodes.
-/

namespace FreifunkManager

open Effects Program

/-- The program asks for no other operations. -/
def Only {α : Type} (allowed : Op → Prop) (program : Prog α) : Prop :=
  program.Satisfies (S := operations) allowed (fun _ _ => True) fun _ => True

section Only

variable {α β : Type} {allowed : Op → Prop}

theorem only_done (value : α) : Only allowed (.done value : Prog α) := trivial

theorem only_perform {op : Op} (fine : allowed op) : Only allowed (perform op) := ⟨fine, fun _ _ => trivial⟩

theorem Only.and {other : Op → Prop} {program : Prog α} (only : Only allowed program) (also : Only other program) :
    Only (fun op => allowed op ∧ other op) program := by
  induction program with
  | done value => trivial
  | ask op next ih => exact ⟨⟨only.1, also.1⟩, fun reply kept => ih reply (only.2 reply kept) (also.2 reply kept)⟩

theorem Only.bind {program : Prog α} {rest : α → Prog β} (first : Only allowed program)
    (second : ∀ value, Only allowed (rest value)) : Only allowed (program >>= rest) :=
  satisfies_bind.mpr (first.mono fun value _ => second value)

theorem Only.goBind {code : Go α} {rest : α → Go β} (first : Only allowed code.run)
    (second : ∀ value, Only allowed (rest value).run) : Only allowed (code >>= rest).run := by
  rw [ExceptT.run_bind]
  refine first.bind fun result => ?_
  cases result with
  | ok value => exact second value
  | error panic => trivial

/-- The code asks for an operation and goes on. -/
theorem Only.asking {op : Op} {rest : op.Reply → Go β} (fine : allowed op)
    (second : ∀ reply, Only allowed (rest reply).run) : Only allowed ((perform op : Go op.Reply) >>= rest).run :=
  Only.goBind (only_perform fine) second

theorem Only.whenever {code : Go Unit} {condition : Bool} (only : condition = true → Only allowed code.run) :
    Only allowed (whenever condition code).run := by
  cases condition with
  | false => trivial
  | true => exact only rfl

/-- The code asks for nothing else, and sets the flag of the deferred call only with a reason. -/
def Arming (allowed : Op → Prop) (reason : Prop) (code : Deferring α) : Prop :=
  ∀ armed, (code.run.run armed).Satisfies (S := operations) allowed (fun _ _ => True)
    fun result => result.2 = true → armed = true ∨ reason

variable {reason : Prop}

theorem Arming.bind {code : Deferring α} {rest : α → Deferring β} (first : Arming allowed reason code)
    (second : ∀ value, Arming allowed reason (rest value)) : Arming allowed reason (code >>= rest) := by
  intro armed
  rw [ExceptT.run_bind, StateT.run_bind]
  apply satisfies_bind.mpr
  apply (first armed).mono
  rintro ⟨_ | value, armed'⟩ caused
  · exact caused
  · apply (second value armed').mono
    intro result later set
    rcases later set with already | because
    · exact caused already
    · exact .inr because

theorem Arming.lift {code : Go α} (only : Only allowed code.run) : Arming allowed reason (Deferring.lift code) := by
  intro armed
  apply satisfies_bind.mpr
  apply only.mono
  intro result _ set
  exact .inl set

theorem Arming.whenever {code : Deferring Unit} {condition : Bool}
    (arming : condition = true → Arming allowed reason code) : Arming allowed reason (whenever condition code) := by
  cases condition with
  | false => exact fun _ => .inl
  | true => exact arming rfl

theorem arming_pure (value : α) : Arming allowed reason (pure value : Deferring α) := fun _ => .inl

theorem arming_arm (because : reason) : Arming allowed reason Deferring.arm := fun _ _ => .inr because

/-- The deferred call happens only with a reason. -/
theorem Arming.finally_ {code : Deferring α} {deferred : Go Unit} (body : Arming allowed reason code)
    (last : reason → Only allowed deferred.run) : Only allowed (code.finally_ deferred).run := by
  have first : Satisfies (S := operations) allowed (fun _ _ => True)
      (fun result => ∀ pair, result = Except.ok pair → pair.2 = true → reason)
      (ExceptT.run (liftM (code.run.run false) : Go (Except Panic α × Bool))) := by
    apply satisfies_bind.mpr
    apply (body false).mono
    rintro result caused pair same set
    cases same
    exact (caused set).resolve_left Bool.false_ne_true
  change Only allowed (ExceptT.run (m := Prog) (liftM (code.run.run false) >>= _))
  rw [ExceptT.run_bind]
  apply satisfies_bind.mpr
  apply first.mono
  rintro (panic | ⟨result, armed⟩) caused
  · trivial
  · cases armed with
    | false => trivial
    | true => exact (last (caused _ rfl rfl)).goBind fun _ => trivial

end Only

/-- The operations on an open connection. -/
def Commands : Op → Prop
  | .newSession | .runCommand _ => True
  | _ => False

/-- The operations of an SSH session with one node. -/
def SshOnly (addr : TCPAddr) : Op → Prop
  | .connectTo target => target = addr
  | op => Commands op

section Ssh

theorem execute_only {allowed : Op → Prop} {cmd : String} (sessions : allowed .newSession)
    (runs : allowed (.runCommand cmd)) : Only allowed (Ssh.execute cmd).run := by
  apply Only.goBind (only_perform sessions)
  intro made
  cases made with
  | false => trivial
  | true => exact Only.goBind (only_perform runs) fun _ => trivial

theorem run_only {allowed : Op → Prop} {cmd : String} (sessions : allowed .newSession)
    (runs : allowed (.runCommand cmd)) : Only allowed (Ssh.run cmd).run := by
  apply Only.goBind (only_perform sessions)
  intro made
  cases made with
  | false => trivial
  | true => exact only_perform runs

/-- The operation runs no other command. -/
def RunsOnly (cmd : String) : Op → Prop
  | .runCommand other => other = cmd
  | _ => True

theorem runOn_runs (addr : TCPAddr) (cmd : String) :
    Only (fun op => SshOnly addr op ∧ RunsOnly cmd op) (Ssh.runOn addr cmd).run := by
  refine Only.asking ?_ fun err => ?_
  · exact ⟨rfl, trivial⟩
  · cases err with
    | none => exact run_only ⟨trivial, trivial⟩ ⟨trivial, rfl⟩
    | some err => trivial

theorem runOn_only (addr : TCPAddr) (cmd : String) : Only (SshOnly addr) (Ssh.runOn addr cmd).run :=
  (runOn_runs addr cmd).weaken fun _ => And.left

/-- The commands of an update: it asks for the radios, pushes what differs from the report, and restarts the
radios for a channel. -/
inductive Node.Pushes (n : Node) : String → Prop
  | hostname (differs : n.hostname ≠ n.hostnameRespondd) : n.Pushes (hostnameCommand n.hostname)
  | owner (differs : n.owner ≠ n.ownerRespondd) : n.Pushes (contactCommand n.owner)
  | location (differs : locationEqual n.location n.locationRespondd = false) : n.Pushes (locationCommand n.location)
  | asks24 : n.Pushes radio24Command
  | asks5 : n.Pushes radio5Command
  | txPower24 (radio : String) (permitted : (getChannel n.wireless.channel24).isSome)
      (differs : n.wireless.txPower24 ≠ n.wirelessRespondd.txPower24) :
      n.Pushes (txPowerCommand radio n.wireless.txPower24)
  | txPower5 (radio : String) (permitted : (getChannel n.wireless.channel5).isSome)
      (differs : n.wireless.txPower5 ≠ n.wirelessRespondd.txPower5) :
      n.Pushes (txPowerCommand radio n.wireless.txPower5)
  | channel24 (radio : String) (permitted : (getChannel n.wireless.channel24).isSome)
      (differs : n.wireless.channel24 ≠ n.wirelessRespondd.channel24) :
      n.Pushes (channelCommand radio n.wireless.channel24)
  | channel5 (radio : String) (permitted : (getChannel n.wireless.channel5).isSome)
      (differs : n.wireless.channel5 ≠ n.wirelessRespondd.channel5) :
      n.Pushes (channelCommand radio n.wireless.channel5)
  | ssid (radio : String) (differs : n.hostname ≠ n.hostnameRespondd) : n.Pushes (ssidCommand radio n.hostname)
  | wifi24 (permitted : (getChannel n.wireless.channel24).isSome)
      (differs : n.wireless.channel24 ≠ n.wirelessRespondd.channel24) : n.Pushes wifiCommand
  | wifi5 (permitted : (getChannel n.wireless.channel5).isSome)
      (differs : n.wireless.channel5 ≠ n.wirelessRespondd.channel5) : n.Pushes wifiCommand

/-- The operations of an update on its connection. -/
def Node.Pushing (n : Node) : Op → Prop
  | .newSession => True
  | .runCommand cmd => n.Pushes cmd
  | _ => False

theorem pushRadio_arming (n : Node) {probe : String} {txPower txPowerRespondd channel channelRespondd : UInt32}
    (asks : n.Pushes probe)
    (pushesTxPower : (getChannel channel).isSome → txPower ≠ txPowerRespondd →
      ∀ radio, n.Pushes (txPowerCommand radio txPower))
    (pushesChannel : (getChannel channel).isSome → channel ≠ channelRespondd →
      n.Pushes wifiCommand ∧ ∀ radio, n.Pushes (channelCommand radio channel)) :
    Arming n.Pushing (n.Pushes wifiCommand) (n.pushRadio probe txPower txPowerRespondd channel channelRespondd) := by
  have executes {cmd : String} (pushes : n.Pushes cmd) :
      Arming n.Pushing (n.Pushes wifiCommand) (Deferring.lift (Ssh.execute cmd)) :=
    .lift (execute_only trivial pushes)
  apply (Arming.lift (run_only trivial asks)).bind
  intro result
  cases result with
  | none => exact arming_pure false
  | some result =>
    refine Arming.bind (.whenever fun _ => .bind (.whenever fun permitted => ?_) fun _ => ?_) fun _ => arming_pure true
    · refine Arming.bind (.whenever fun differs => ?_) fun _ => .whenever fun differs => ?_
      · exact executes (pushesTxPower permitted (bne_iff_ne.mp differs) _)
      · have pushes := pushesChannel permitted (bne_iff_ne.mp differs)
        exact (executes (pushes.2 _)).bind fun _ => arming_arm pushes.1
    · exact .whenever fun differs => executes (.ssid _ (bne_iff_ne.mp differs))

theorem pushRadios_arming (n : Node) : Arming n.Pushing (n.Pushes wifiCommand) n.pushRadios := by
  apply Arming.bind
  · apply pushRadio_arming n .asks24
    · exact fun permitted differs radio => .txPower24 radio permitted differs
    · exact fun permitted differs => ⟨.wifi24 permitted differs, fun radio => .channel24 radio permitted differs⟩
  · intro asked
    cases asked with
    | false => exact arming_pure ()
    | true =>
      apply Arming.bind _ fun _ => arming_pure ()
      apply pushRadio_arming n .asks5
      · exact fun permitted differs radio => .txPower5 radio permitted differs
      · exact fun permitted differs => ⟨.wifi5 permitted differs, fun radio => .channel5 radio permitted differs⟩

/-- What an update does on its connection. -/
def Node.pushAll (n : Node) : Go Bool := do
  n.pushHostname
  n.pushOwner
  n.pushLocation
  n.pushRadios.finally_ (Ssh.execute wifiCommand)
  return true

/-- An update opens a connection, to the address of the node, and ends there if this fails. -/
theorem sshUpdate_eq (n : Node) : n.sshUpdate.run =
    .ask (.connectTo n.getAddress) fun err => if err.isSome then .done (.ok false) else n.pushAll.run := by
  change Program.ask (S := operations) (.connectTo n.getAddress) _ = _
  refine congrArg _ (funext fun err => ?_)
  cases err <;> rfl

/-- An update runs no other commands than those that push a difference. -/
theorem pushAll_pushing (n : Node) : Only n.Pushing n.pushAll.run := by
  have executes {condition : Bool} {cmd : String} (pushes : condition = true → n.Pushes cmd) :
      Only n.Pushing (whenever condition (Ssh.execute cmd)).run :=
    Only.whenever fun differs => execute_only trivial (pushes differs)
  apply Only.goBind (executes fun differs => .hostname (bne_iff_ne.mp differs))
  intro _
  apply Only.goBind (executes fun differs => .owner (bne_iff_ne.mp differs))
  intro _
  apply Only.goBind (executes fun differs => .location (by simpa using differs))
  intro _
  apply Only.goBind ((pushRadios_arming n).finally_ fun restarts => execute_only trivial restarts)
  exact fun _ => trivial

theorem pushAll_only (n : Node) : Only Commands n.pushAll.run := by
  apply (pushAll_pushing n).weaken
  intro op pushing
  cases op <;> trivial

/-- The operations of an update. -/
def Node.Updates (n : Node) : Op → Prop
  | .connectTo target => target = n.getAddress
  | op => n.Pushing op

theorem sshUpdate_only (n : Node) : Only n.Updates n.sshUpdate.run := by
  rw [sshUpdate_eq]
  refine ⟨rfl, fun err _ => ?_⟩
  cases err with
  | some err => trivial
  | none =>
    apply (pushAll_pushing n).weaken
    intro op pushing
    cases op <;> first | exact pushing | contradiction

end Ssh

/-! ## Reports -/

section Reports

variable (config : Config) (n : Yanic.Node) (nodeinfo : Yanic.Nodeinfo)

/-- The address of a node after a report, by the one that was stored. -/
def reportedAddress (stored : String) : String :=
  nodeinfo.addresses.foldl (Node.considerAddress config.ipPrefix) stored

/-- The operations for a node whose row was found at `now`. -/
def Refreshes (now : Time) (row : Row) : Op → Prop
  | .now _ | .newSession | .runCommand _ => True
  | .connectTo addr => addr = { ip := IP.parse (reportedAddress config nodeinfo row.address), port := 22 }
  | .updateNode nodeID (.observed address lastseen) =>
    nodeID = row.nodeID ∧ address = reportedAddress config nodeinfo row.address ∧ lastseen = now
  | .updateNode nodeID (.blacklist time) => nodeID = row.nodeID ∧ time = now
  | .sendNode node => node.nodeID = row.nodeID ∧ node.settings = row.settings
  | _ => False

/-- The node is as it is built from its first report. -/
structure Learned (node : Node) : Prop where
  nodeID : node.nodeID = nodeinfo.nodeID
  address : node.address = reportedAddress config nodeinfo ""
  settings : some node.settings = (newNode n config.ipPrefix 0).map Node.settings

/-- The operations for a node without a row that is met at `now`. -/
def Learns (now : Time) : Op → Prop
  | .now _ | .newSession | .runCommand _ => True
  | .connectTo addr => addr = { ip := IP.parse (reportedAddress config nodeinfo ""), port := 22 }
  | .createNode row => Learned config n nodeinfo row.node ∧ (row.blacklist = none ∨ row.blacklist = some now)
  | .sendNode node => Learned config n nodeinfo node
  | _ => False

variable {config n nodeinfo}

theorem newNode_learned (known : n.nodeinfo = some nodeinfo) {now : Time} {node : Node}
    (built : newNode n config.ipPrefix now = some node) : Learned config n nodeinfo node ∧ node.blacklist = none := by
  rw [newNode, known, Option.map_some, Option.some.injEq] at built
  subst built
  refine ⟨⟨?_, ?_, ?_⟩, ?_⟩
  · rw [Node.update_nodeID]
  · rw [Node.update_address _ known, reportedAddress]
  · rw [newNode, known, Option.map_some, Option.map_some, Node.update_settings, Node.update_settings]
  · rw [Node.update_blacklist]

/-- What a report does to a known node that is not filtered. -/
def Node.pushOrBlacklist (lNode : Node) (now : Time) : Go Unit := do
  if ← lNode.pushDifferences then perform (.sendNode lNode)
  else let _ ← perform (.updateNode lNode.nodeID (.blacklist now))

theorem refreshKnown_eq (config : Config) (now : Time) (lNode : Node) : refreshKnown config now lNode = (do
    let _ ← perform (.updateNode lNode.nodeID (.observed lNode.address now))
    let checked ← perform (.now .timeFilter)
    if (lNode.seenAt now).timeFilter config.blacklistFor checked then return
    (lNode.seenAt now).pushOrBlacklist now) := rfl

/-- A node that differs is dialled, and blacklisted if this fails. -/
theorem pushOrBlacklist_eq {lNode : Node} (differs : lNode.checkRespondd = false) (now : Time) :
    (lNode.pushOrBlacklist now).run = .ask (.connectTo lNode.getAddress) fun err =>
      if err.isSome then .ask (.updateNode lNode.nodeID (.blacklist now)) fun _ => .done (.ok ())
      else ExceptT.run (m := Prog) (do
        if ← lNode.pushAll then perform (.sendNode lNode)
        else let _ ← perform (.updateNode lNode.nodeID (.blacklist now))) := by
  unfold Node.pushOrBlacklist Node.pushDifferences
  rw [differs, ExceptT.run_bind, if_neg Bool.false_ne_true, sshUpdate_eq, ask_bind]
  refine congrArg _ (funext fun err => ?_)
  cases err <;> rfl

theorem pushDifferences_only (node : Node) : Only node.Updates node.pushDifferences.run := by
  unfold Node.pushDifferences
  split
  · trivial
  · exact sshUpdate_only node

/-- A command is one that pushes a difference of the node. -/
def Node.Issues (node : Node) : Op → Prop
  | .runCommand cmd => node.Pushes cmd
  | _ => True

theorem refreshKnown_only (known : n.nodeinfo = some nodeinfo) (now updated : Time) (row : Row) :
    let lNode := row.node.update (some n) config.ipPrefix updated
    Only (fun op => Refreshes config nodeinfo now row op ∧ (lNode.seenAt now).Issues op)
      (refreshKnown config now lNode).run := by
  intro lNode
  have nodeID : lNode.nodeID = row.nodeID := Node.update_nodeID ..
  have address : lNode.address = reportedAddress config nodeinfo row.address := Node.update_address _ known ..
  have settings : lNode.settings = row.settings := Node.update_settings ..
  have updates (op : Op) (update : (lNode.seenAt now).Updates op) :
      Refreshes config nodeinfo now row op ∧ (lNode.seenAt now).Issues op := by
    cases op with
    | connectTo target =>
      refine ⟨?_, trivial⟩
      rw [show target = (lNode.seenAt now).getAddress from update, Node.seenAt_getAddress, Node.getAddress, address]
      rfl
    | newSession => exact ⟨trivial, trivial⟩
    | runCommand cmd => exact ⟨trivial, update⟩
    | _ => contradiction
  refine Only.asking ?_ fun _ => Only.asking ?_ fun checked => ?_
  · exact ⟨⟨nodeID, address, rfl⟩, trivial⟩
  · exact ⟨trivial, trivial⟩
  · split
    · trivial
    · refine Only.goBind ((pushDifferences_only _).weaken updates) fun reached => ?_
      cases reached with
      | true => exact ⟨⟨⟨nodeID, settings⟩, trivial⟩, fun _ _ => trivial⟩
      | false => exact ⟨⟨⟨nodeID, rfl⟩, trivial⟩, fun _ _ => trivial⟩

/-- What is sent or created was seen at this time. -/
def Op.SeenAt (time : Time) : Op → Prop
  | .sendNode node => node.lastseen = some time
  | .createNode row => row.lastseen = some time
  | _ => True

theorem refreshKnown_seen (config : Config) (now : Time) (lNode : Node) :
    Only (Op.SeenAt now) (refreshKnown config now lNode).run := by
  rw [refreshKnown_eq]
  refine Only.asking trivial fun _ => Only.asking trivial fun checked => ?_
  split
  · trivial
  · apply Only.goBind ((pushDifferences_only _).weaken ?_)
    · intro reached
      cases reached with
      | true => exact only_perform rfl
      | false => exact Only.asking trivial fun _ => only_done _
    · intro op update
      cases op <;> trivial

theorem register_seen {node : Node} {time : Time} (seen : node.lastseen = some time) (now : Time) :
    Only (Op.SeenAt time) (node.register now).run := by
  apply Only.goBind ((runOn_only _ _).weaken ?_)
  · intro result
    cases result with
    | none => exact Only.asking seen fun _ => only_done _
    | some output =>
      apply Only.asking seen
      intro created
      change Only _ (ExceptT.run (m := Prog) (ε := Panic)
        (if node.blacklist.isNone then perform (.sendNode node) else pure ()))
      split
      · exact only_perform seen
      · trivial
  · intro op ssh
    cases op <;> trivial

theorem register_only {node : Node} (learned : Learned config n nodeinfo node) (fresh : node.blacklist = none)
    (now : Time) : Only (fun op => Learns config n nodeinfo now op ∧ RunsOnly "uptime" op) (node.register now).run := by
  have reaches (op : Op) (ssh : SshOnly node.getAddress op ∧ RunsOnly "uptime" op) :
      Learns config n nodeinfo now op ∧ RunsOnly "uptime" op := by
    cases op with
    | connectTo target =>
      refine ⟨?_, trivial⟩
      rw [show target = node.getAddress from ssh.1, Node.getAddress, learned.address]
      rfl
    | newSession => exact ⟨trivial, trivial⟩
    | runCommand cmd => exact ⟨trivial, ssh.2⟩
    | _ => exact ssh.1.elim
  refine Only.goBind ((runOn_runs _ _).weaken reaches) fun result => ?_
  cases result with
  | none => exact ⟨⟨⟨⟨learned.1, learned.2, learned.3⟩, .inr rfl⟩, trivial⟩, fun _ _ => trivial⟩
  | some output =>
    refine Only.asking ?_ fun _ => ?_
    · exact ⟨⟨⟨learned.1, learned.2, learned.3⟩, .inl fresh⟩, trivial⟩
    · simp only [Option.isNone_some, Bool.false_eq_true, if_false, fresh, Option.isNone_none, if_true]
      exact ⟨⟨learned, trivial⟩, fun _ _ => trivial⟩

/-- The rest of the report of a new node, once the node is built. -/
def registerBuilt (now : Time) (built : Option Node) : Go Unit := built.elim (pure ()) (·.register now)

/-- The rest of a report, once the row is read. -/
def handleFound (config : Config) (n : Yanic.Node) (now : Time) : Option Row → Prog (Except Panic Unit)
  | some row => ExceptT.run do
    let updated ← perform (.now .update)
    refreshKnown config now (row.node.update (some n) config.ipPrefix updated)
  | none => (learnNew n config now).run

theorem learnNew_eq (n : Yanic.Node) (config : Config) (now : Time) : (learnNew n config now).run =
    perform (.now .update) >>= fun updated => (registerBuilt now (newNode n config.ipPrefix updated)).run := by
  refine congrArg (Program.ask _) (funext fun updated => ?_)
  -- both sides are a match on the node once they are run
  conv =>
    congr
    · whnf
    · whnf
  cases newNode n config.ipPrefix updated <;> rfl

theorem insertNode_eq (config : Config) (known : n.nodeinfo = some nodeinfo) : (insertNode config n).run =
    perform (.now .insertNode) >>= fun now =>
      perform (.firstNode nodeinfo.nodeID) >>= fun found => handleFound config n now found := by
  unfold insertNode
  rw [known]
  refine congrArg (Program.ask _) (funext fun now => congrArg (Program.ask _) (funext fun found => ?_))
  cases found <;> rfl

theorem learnNew_only (known : n.nodeinfo = some nodeinfo) (now : Time) :
    Only (fun op => Learns config n nodeinfo now op ∧ RunsOnly "uptime" op) (learnNew n config now).run := by
  refine Only.asking ?_ fun updated => ?_
  · exact ⟨trivial, trivial⟩
  · cases built : newNode n config.ipPrefix updated with
    | some node => exact register_only (newNode_learned known built).1 (newNode_learned known built).2 now
    | none => trivial

/-- The operations of a report: it reads the clock and the row of its node, and refreshes the node or learns it. -/
theorem insertNode_reads {allowed : Op → Prop} {promised : (op : Op) → op.Reply → Prop}
    (clocks : ∀ clock, allowed (.now clock))
    (reads : ∀ nodeinfo, n.nodeinfo = some nodeinfo → allowed (.firstNode nodeinfo.nodeID))
    (refreshes : ∀ nodeinfo now row updated op, n.nodeinfo = some nodeinfo → promised (.now .insertNode) now →
      promised (.firstNode nodeinfo.nodeID) (some row) → Refreshes config nodeinfo now row op →
      ((row.node.update (some n) config.ipPrefix updated).seenAt now).Issues op → allowed op)
    (learns : ∀ nodeinfo now op, n.nodeinfo = some nodeinfo → promised (.now .insertNode) now →
      promised (.firstNode nodeinfo.nodeID) none → Learns config n nodeinfo now op →
      RunsOnly "uptime" op → allowed op) :
    (insertNode config n).run.Satisfies (S := operations) allowed promised fun _ => True := by
  have assumed {program : Prog (Except Panic Unit)} (only : Only allowed program) :
      program.Satisfies (S := operations) allowed promised fun _ => True := only.assuming fun _ _ _ => trivial
  unfold insertNode
  split
  · next nodeinfo known =>
    refine ⟨clocks _, fun now read => ⟨reads nodeinfo known, fun found answered => ?_⟩⟩
    cases found with
    | some row =>
      refine ⟨clocks _, fun updated _ => assumed ((refreshKnown_only known now updated row).weaken ?_)⟩
      exact fun op asked => refreshes nodeinfo now row updated op known read answered asked.1 asked.2
    | none =>
      refine assumed ((learnNew_only known now).weaken ?_)
      exact fun op asked => learns nodeinfo now op known read answered asked.1 asked.2
  · trivial

theorem insertNode_satisfies {allowed : Op → Prop} {promised : (op : Op) → op.Reply → Prop}
    (clocks : ∀ clock, allowed (.now clock)) (reads : ∀ nodeID, allowed (.firstNode nodeID))
    (refreshes : ∀ nodeinfo now row op, promised (.now .insertNode) now →
      Refreshes config nodeinfo now row op → allowed op)
    (learns : ∀ nodeinfo now op, promised (.now .insertNode) now → Learns config n nodeinfo now op → allowed op) :
    (insertNode config n).run.Satisfies (S := operations) allowed promised fun _ => True :=
  insertNode_reads clocks (fun _ _ => reads _)
  (fun nodeinfo now row _ op _ read _ asked _ => refreshes nodeinfo now row op read asked)
    fun nodeinfo now op _ read _ asked _ => learns nodeinfo now op read asked

end Reports

/-! ## Messages -/

/-- The rest of an edit, once the row is read. -/
def saveFound (node : Node) : Option Row → Prog Bool
  | some originNode => perform (.saveNode (originNode.edit node))
  | none => perform (.createNode (Row.edit { nodeID := node.nodeID } node))

/-- The rest of a login whose session has no row. -/
def loginUnknown (config : Config) (msg : Message) : Prog Unit :=
  match msg.body with
  | .string secret =>
    if config.secret = secret then do
      let session : Session := { sessionID := msg.session, lastseen := some (← perform (.now .login)) }
      if ← perform (.createSession session) then perform (.answer msg.subject (.session session))
      else perform (.answer msg.subject (.bool false))
    else perform (.answer msg.subject (.bool false))
  | _ => perform (.answer msg.subject (.bool false))

/-- The rest of a login, once the session is read. -/
def loginFound (config : Config) (msg : Message) : Option Session → Prog Unit
  | some session => do
    perform (.answer msg.subject (.session session))
    let session := { session with lastseen := some (← perform (.now .login)) }
    let _ ← perform (.saveSession session)
  | none => loginUnknown config msg

theorem saveEdit_eq (node : Node) : saveEdit node = perform (.firstNode node.nodeID) >>= saveFound node := by
  refine congrArg (Program.ask _) (funext fun found => ?_)
  cases found <;> rfl

theorem loginHandler_eq (config : Config) {msg : Message} (named : msg.session ≠ UUID.nil) :
    loginHandler config msg = perform (.firstSession msg.session) >>= loginFound config msg := by
  rw [loginHandler, if_neg named]
  refine congrArg (Program.ask _) (funext fun found => ?_)
  cases found with
  | some session => rfl
  | none =>
    change _ = loginUnknown config msg
    unfold loginUnknown
    cases msg.body <;> rfl

theorem loginUnknown_accepts {config : Config} {msg : Message} (right : msg.body = .string config.secret) :
    loginUnknown config msg = (do
      let session : Session := { sessionID := msg.session, lastseen := some (← perform (.now .login)) }
      if ← perform (.createSession session) then perform (.answer msg.subject (.session session))
      else perform (.answer msg.subject (.bool false))) := by
  unfold loginUnknown
  rw [right]
  exact if_pos rfl

theorem loginUnknown_refuses {config : Config} {msg : Message} (wrong : msg.body ≠ .string config.secret) :
    loginUnknown config msg = perform (.answer msg.subject (.bool false)) := by
  unfold loginUnknown
  cases sent : msg.body with
  | string secret => exact if_neg fun (right : config.secret = secret) => wrong (right ▸ sent)
  | _ => rfl

/-- The operation is a statement about sessions. -/
def Op.onSessions : Op → Bool
  | .firstSession _ | .saveSession _ | .createSession _ | .deleteSession _ | .findSessions => true
  | _ => false

/-- The operations that read a list or have to do with one client. -/
def Plain : Op → Prop
  | .now _ | .findNodes | .listNode _ | .answer .. | .write .. => True
  | _ => False

/-- These and the statements about one session. -/
def Aside : Op → Prop
  | .now _ | .findNodes | .listNode _ | .answer .. | .write .. => True
  | .firstSession _ | .saveSession _ | .createSession _ | .deleteSession _ => True
  | _ => False

/-- The statements about one session, the clock, and the answer to the client. -/
def Personal : Op → Prop
  | .now _ | .answer .. => True
  | .firstSession _ | .saveSession _ | .createSession _ | .deleteSession _ => True
  | _ => False

/-- The operations that take over a report from the list. -/
def Lists : Op → Prop
  | .now _ | .listNode _ => True
  | _ => False

/-- The operations that check the session of a client, and the answer to it. -/
def Checks : Op → Prop
  | .now _ | .firstSession _ | .saveSession _ | .answer .. => True
  | _ => False

/-- The operations of a ping round. -/
def Pings : Op → Prop
  | .findSessions | .sendSession _ => True
  | _ => False

section Messages

variable (config : Config) (msg : Message)

theorem Only.forM {ι : Type} {allowed : Op → Prop} {body : ι → Prog Unit} (list : List ι)
    (each : ∀ item, Only allowed (body item)) : Only allowed (list.forM body) := by
  induction list with
  | nil => trivial
  | cons item rest ih => exact (each item).bind fun _ => ih

theorem aside_of_plain {op : Op} (plain : Plain op) : Aside op := by
  cases op <;> first | exact plain | trivial

theorem aside_of_personal {op : Op} (personal : Personal op) : Aside op := by
  cases op <;> first | exact personal | trivial

theorem isLoggedIn_checks : Only Checks (isLoggedIn msg) := by
  unfold isLoggedIn
  split
  · trivial
  · refine (only_perform trivial).bind fun found => ?_
    cases found with
    | none => trivial
    | some session =>
      exact (only_perform trivial).bind fun _ => (only_perform trivial).bind fun _ => trivial

theorem isLoggedIn_personal : Only Personal (isLoggedIn msg) := by
  apply (isLoggedIn_checks msg).weaken
  intro op checks
  cases op <;> trivial

theorem loginHandler_personal : Only Personal (loginHandler config msg) := by
  have refuse : Only Personal (perform (.answer msg.subject (.bool false))) := only_perform trivial
  unfold loginHandler
  split
  · trivial
  · refine (only_perform trivial).bind fun found => ?_
    cases found with
    | some session =>
      exact (only_perform trivial).bind fun _ => (only_perform trivial).bind fun _ =>
        (only_perform trivial).bind fun _ => trivial
    | none =>
      dsimp only
      split
      · split
        · refine (only_perform trivial).bind fun _ => (only_perform trivial).bind fun created => ?_
          cases created with
          | true => exact only_perform trivial
          | false => exact refuse
        · exact refuse
      · exact refuse

theorem authStatusHandler_personal : Only Personal (authStatusHandler msg) := by
  refine (isLoggedIn_personal msg).bind fun found => ?_
  cases found <;> exact only_perform trivial

theorem settingsHandler_personal : Only Personal (settingsHandler config msg) := by
  refine (isLoggedIn_personal msg).bind fun found => ?_
  cases found with
  | none => exact only_perform trivial
  | some session =>
    dsimp only
    split
    · exact (only_perform trivial).bind fun _ => only_perform trivial
    · exact only_perform trivial

theorem logoutHandler_personal : Only Personal (logoutHandler msg) := by
  unfold logoutHandler
  split
  · trivial
  · refine (only_perform trivial).bind fun found => ?_
    cases found with
    | none => exact only_perform trivial
    | some session => exact (only_perform trivial).bind fun _ => only_perform trivial

/-- The list of reports changes neither the settings of a node nor its id. -/
theorem updateFromList_keeps (node : Node) : (updateFromList config node).Satisfies (S := operations) Lists
    (fun _ _ => True) fun listed => listed.settings = node.settings ∧ listed.nodeID = node.nodeID := by
  refine satisfies_bind.mpr ⟨trivial, fun found _ => ?_⟩
  cases found with
  | none => exact ⟨rfl, rfl⟩
  | some report => exact ⟨trivial, fun now _ => ⟨node.update_settings .., node.update_nodeID ..⟩⟩

/-- The operations after an edit was saved or not. -/
def Announces (node : Node) : Op → Prop
  | .sendNode listed => listed.settings = node.settings ∧ listed.nodeID = node.nodeID
  | .now _ | .listNode _ | .answer .. => True
  | _ => False

theorem plain_of_lists {op : Op} (lists : Lists op) : Plain op := by
  cases op <;> first | exact lists | contradiction

theorem announces_of_lists {node : Node} {op : Op} (lists : Lists op) : Announces node op := by
  cases op <;> first | exact lists | contradiction

theorem announceEdit_only (node : Node) (saved : Bool) :
    Only (Announces node) (announceEdit config msg node saved) := by
  refine (only_perform trivial).bind fun _ => ?_
  cases saved with
  | false => trivial
  | true =>
    refine satisfies_bind.mpr (((updateFromList_keeps config node).weaken fun op => announces_of_lists).mono ?_)
    exact fun listed kept => only_perform kept

theorem connectHandler_plain : Only Plain (connectHandler config) := by
  refine (only_perform trivial).bind fun nodes => (Only.forM nodes fun row => ?_).bind fun _ =>
    (only_perform trivial).bind fun _ => only_perform trivial
  refine (only_perform trivial).bind fun now => ?_
  split
  · trivial
  · refine Only.bind (((updateFromList_keeps config _).weaken fun op => plain_of_lists).mono fun _ _ => trivial)
      fun _ => ?_
    exact only_perform trivial

theorem sendPing_only : Only Pings sendPing := by
  refine (only_perform trivial).bind fun sessions => Only.forM sessions fun session => ?_
  split
  · exact only_perform trivial
  · trivial

/-- Only a new client and a message about a node have to do with nodes. -/
theorem handleMessage_kinds : handleMessage config msg = connectHandler config ∨
    Only Personal (handleMessage config msg) ∨
      msg.subject = MessageType.node ∧ handleMessage config msg = nodeHandler config msg := by
  unfold handleMessage
  split
  · exact .inl rfl
  · right
    split
    · exact .inl (loginHandler_personal config msg)
    · split
      · exact .inl (authStatusHandler_personal msg)
      · split
        · exact .inl (settingsHandler_personal config msg)
        · split
          · exact .inl (logoutHandler_personal msg)
          · split
            · next subject => exact .inr ⟨subject, rfl⟩
            · exact .inl trivial

theorem handleMessage_cases :
    Only Aside (handleMessage config msg) ∨ handleMessage config msg = nodeHandler config msg := by
  rcases handleMessage_kinds config msg with connect | personal | ⟨-, node⟩
  · left
    rw [connect]
    exact (connectHandler_plain config).weaken fun _ => aside_of_plain
  · exact .inl (personal.weaken fun _ => aside_of_personal)
  · exact .inr node

/-- The operations of a message about a node: a check of the session, and the edit of the row with the id of the
node, which is not blank. -/
theorem nodeHandler_satisfies {allowed : Op → Prop} {promised : (op : Op) → op.Reply → Prop}
    (checks : ∀ op, Checks op → allowed op)
    (reads : ∀ node, config.decodeNode msg.body = some node → node.nodeID ≠ "" → allowed (.firstNode node.nodeID))
    (saves : ∀ node row, config.decodeNode msg.body = some node → node.nodeID ≠ "" →
      promised (.firstNode node.nodeID) (some row) → allowed (.saveNode (row.edit node)))
    (creates : ∀ node, config.decodeNode msg.body = some node → node.nodeID ≠ "" →
      allowed (.createNode (Row.edit { nodeID := node.nodeID } node)))
    (announces : ∀ node op, config.decodeNode msg.body = some node → node.nodeID ≠ "" →
      Announces node op → allowed op) :
    (nodeHandler config msg).Satisfies (S := operations) allowed promised fun _ => True := by
  have assumed {α : Type} {program : Prog α} (only : Only Checks program) :
      program.Satisfies (S := operations) allowed promised fun _ => True :=
    (only.weaken checks).assuming fun _ _ _ => trivial
  have refuse : Only Checks (perform (.answer msg.subject (.bool false))) := only_perform trivial
  refine satisfies_bind.mpr ((assumed (isLoggedIn_checks msg)).mono fun session _ => ?_)
  split
  · exact assumed (refuse.bind fun _ => only_done ())
  · split
    · exact assumed refuse
    · next node decoded =>
      split
      · exact assumed (refuse.bind fun _ => only_done ())
      · next named =>
        refine satisfies_bind.mpr ⟨reads node decoded named, fun found answered => ?_⟩
        have announce (saved : Bool) : (announceEdit config msg node saved).Satisfies (S := operations) allowed promised
            fun _ => True :=
          ((announceEdit_only config msg node saved).weaken fun op => announces node op decoded named).assuming
            fun _ _ _ => trivial
        cases found with
        | some row => exact ⟨saves node row decoded named answered, fun saved _ => announce saved⟩
        | none => exact ⟨creates node decoded named, fun saved _ => announce saved⟩

/-- The operations of a message: those of an edit that a client sends, and others that keep away from the nodes. -/
theorem handleMessage_satisfies {allowed : Op → Prop} {promised : (op : Op) → op.Reply → Prop}
    (asides : ∀ op, Aside op → allowed op) (reads : ∀ nodeID, allowed (.firstNode nodeID))
    (saves : ∀ node row, config.decodeNode msg.body = some node → promised (.firstNode node.nodeID) (some row) →
      allowed (.saveNode (row.edit node)))
    (creates : ∀ node, config.decodeNode msg.body = some node →
      allowed (.createNode (Row.edit { nodeID := node.nodeID } node)))
    (announces : ∀ node op, config.decodeNode msg.body = some node → Announces node op → allowed op) :
    (handleMessage config msg).Satisfies (S := operations) allowed promised fun _ => True := by
  rcases handleMessage_cases config msg with other | node
  · exact (other.weaken asides).assuming fun _ _ _ => trivial
  · rw [node]
    apply nodeHandler_satisfies config msg
    · intro op checks
      apply asides
      cases op <;> trivial
    · exact fun node _ _ => reads node.nodeID
    · exact fun node row decoded _ answered => saves node row decoded answered
    · exact fun node decoded _ => creates node decoded
    · exact fun node op decoded _ asked => announces node op decoded asked

end Messages

end FreifunkManager
