import FreifunkManager.Effects.WholeWrites
import FreifunkManager.Proofs.Edits

/-! # Clients that edit a node

Every client has a copy of the node in its store. An edit of one setting sends the whole node; the server handles
the message and sends the node to all clients, which put it in their stores. The messages to the server and the
broadcasts arrive some time later, in order for each client. Every client makes one edit here, and runs in which
an edit is refused are left out.
-/

namespace FreifunkManager.Clients

open Effects WholeWrites

inductive Setting where
  | hostname | owner | location | channel24 | channel5 | txPower24 | txPower5
deriving DecidableEq

/-- A new value for one setting. -/
inductive Change where
  | hostname (value : String)
  | owner (value : String)
  | location (value : Location)
  | channel24 (value : UInt32)
  | channel5 (value : UInt32)
  | txPower24 (value : UInt32)
  | txPower5 (value : UInt32)

namespace Change

def setting : Change → Setting
  | .hostname _ => .hostname
  | .owner _ => .owner
  | .location _ => .location
  | .channel24 _ => .channel24
  | .channel5 _ => .channel5
  | .txPower24 _ => .txPower24
  | .txPower5 _ => .txPower5

/-- What the views do to the object of the node. -/
def apply (node : Node) : Change → Node
  | .hostname value => { node with hostname := value }
  | .owner value => { node with owner := value }
  | .location value => { node with location := value }
  | .channel24 value => { node with wireless := { node.wireless with channel24 := value } }
  | .channel5 value => { node with wireless := { node.wireless with channel5 := value } }
  | .txPower24 value => { node with wireless := { node.wireless with txPower24 := value } }
  | .txPower5 value => { node with wireless := { node.wireless with txPower5 := value } }

def set (settings : Settings) : Change → Settings
  | .hostname value => { settings with hostname := value }
  | .owner value => { settings with owner := value }
  | .location value => { settings with location := value }
  | .channel24 value => { settings with wireless := { settings.wireless with channel24 := value } }
  | .channel5 value => { settings with wireless := { settings.wireless with channel5 := value } }
  | .txPower24 value => { settings with wireless := { settings.wireless with txPower24 := value } }
  | .txPower5 value => { settings with wireless := { settings.wireless with txPower5 := value } }

/-- The settings have the new value. -/
def Holds (settings : Settings) : Change → Prop
  | .hostname value => settings.hostname = value
  | .owner value => settings.owner = value
  | .location value => settings.location = value
  | .channel24 value => settings.wireless.channel24 = value
  | .channel5 value => settings.wireless.channel5 = value
  | .txPower24 value => settings.wireless.txPower24 = value
  | .txPower5 value => settings.wireless.txPower5 = value

@[simp] theorem apply_settings (node : Node) (change : Change) :
    (change.apply node).settings = change.set node.settings := by
  cases change <;> rfl

@[simp] theorem apply_nodeID (node : Node) (change : Change) : (change.apply node).nodeID = node.nodeID := by
  cases change <;> rfl

end Change

variable {ι : Type} [DecidableEq ι]

/-- The server and its clients; `handled` are the edits in the order in which the server has handled them. -/
structure State (ι : Type) where
  world : World
  clients : ι → Editor Node
  handled : List (ι × Edit Node) := []

inductive Event (ι : Type) where
  /-- The views that list nodes change the object in the store, the others a copy of it. -/
  | edit (client : ι) (inPlace : Bool)
  | handle (client : ι) (choices : ℕ → Choice)
  | deliver (client : ι)

section Run

variable (config : Config) (encode : Node → Json) (session : ι → UUID) (change : ι → Change)

/-- The message of an edit, as the server handles it. -/
def editStep (client : ι) (node : Node) (choices : ℕ → Choice) : Step where
  call := .message { session := session client, subject := MessageType.node, body := encode node }
  choices

def State.step (s : State ι) : Event ι → Option (State ι)
  | .edit client inPlace =>
    let editor := s.clients client
    if editor.outbox.isEmpty && editor.taken = 0 then
      some { s with clients := Function.update s.clients client (editor.edit (change client).apply inPlace) }
    else none
  | .handle client choices =>
    match (s.clients client).outbox with
    | [] => none
    | edit :: rest =>
      let after := (serve config (editStep encode session client edit.doc choices) s.world).1
      let events := after.since s.world
      let broadcasts := (events.filterMap Event.broadcast).reverse
      if events.filterMap Event.answered = [true] then
        some {
          world := after
          clients := fun other =>
            let editor := broadcasts.foldl Editor.hear (s.clients other)
            if other = client then { editor with outbox := rest, taken := editor.taken + 1 } else editor
          handled := s.handled ++ [(client, edit)] }
      else none
  | .deliver client =>
    match (s.clients client).inbox with
    | [] => none
    | node :: rest =>
      some { s with clients := Function.update s.clients client ((s.clients client).deliver node rest) }

def State.run (s : State ι) : List (Event ι) → Option (State ι)
  | [] => some s
  | event :: rest => (s.step config encode session change event).bind (State.run · rest)

end Run

end FreifunkManager.Clients
