import FreifunkManager.Model.Clients

/-! # Edits that undo each other

The clients and the server are editors of one document, the settings of the node (`State.office`). So a row holds
the values of two edits if and only if the client of the second one had been sent the first one before it made its
own (`bothHold_iff`).
-/

namespace FreifunkManager.Clients

open Effects WholeWrites

/-- The body of a message gives the node and the settings back that were put into it. -/
def Carried (config : Config) (encode : Node → Json) (node : Node) : Prop :=
  ∃ decoded, config.decodeNode (encode node) = some decoded ∧ decoded.nodeID = node.nodeID ∧
    decoded.settings = node.settings

section Settings

variable {ι : Type} [DecidableEq ι] {config : Config} {encode : Node → Json} {session : ι → UUID} {change : ι → Change}
variable {nodeID : String} {initial : Settings} {s after : State ι}

def Edit.settings (edit : Edit Node) : Edit Settings := ⟨edit.doc.settings, edit.heard.map Node.settings⟩

/-- The settings of a node are the document. -/
def State.office (nodeID : String) (s : State ι) : Office ι Settings where
  doc := (s.world.rowOf nodeID).settings
  editors client := (s.clients client).map Node.settings
  handled := s.handled.map fun entry => (entry.1, Edit.settings entry.2)

/-- Everything that is stored or on its way is about one node. -/
structure About (nodeID : String) (editor : Editor Node) : Prop where
  store : editor.store.nodeID = nodeID
  inbox : ∀ node ∈ editor.inbox, node.nodeID = nodeID
  outbox : ∀ edit ∈ editor.outbox, edit.doc.nodeID = nodeID

theorem About.edit {editor : Editor Node} (about : About nodeID editor) (change : Change) (inPlace : Bool) :
    About nodeID (editor.edit change.apply inPlace) := by
  have changed : (change.apply editor.store).nodeID = nodeID := (change.apply_nodeID _).trans about.store
  constructor
  · unfold Editor.edit
    split_ifs
    · exact changed
    · exact about.store
  · exact about.inbox
  · intro edit member
    rcases List.mem_append.mp member with old | new
    · exact about.outbox edit old
    · rw [List.mem_singleton.mp new]
      exact changed

theorem About.deliver {editor : Editor Node} (about : About nodeID editor) {node : Node} {rest : List Node}
    (next : editor.inbox = node :: rest) : About nodeID (editor.deliver node rest) := by
  obtain ⟨first, others⟩ := List.forall_mem_cons.mp (next ▸ about.inbox)
  exact ⟨first, others, about.outbox⟩

theorem About.hear {editor : Editor Node} (about : About nodeID editor) {node : Node} (named : node.nodeID = nodeID) :
    About nodeID (editor.hear node) := by
  constructor
  · exact about.store
  · intro other member
    rcases List.mem_append.mp member with old | new
    · exact about.inbox other old
    · rw [List.mem_singleton.mp new]
      exact named
  · exact about.outbox

/-- A row is there, all clients have its node, and the edits so far are those of one document. -/
structure Following (nodeID : String) (initial : Settings) (change : ι → Change) (s : State ι) : Prop where
  there : ∃ row, s.world.nodes.lookup nodeID = some row
  about : ∀ client, About nodeID (s.clients client)
  sound : Sound (fun client settings => (change client).set settings) initial (s.office nodeID)

/-- One client changes, and its document with it. -/
theorem State.office_update (s : State ι) (client : ι) (editor : Editor Node) :
    State.office nodeID { s with clients := Function.update s.clients client editor } =
      (s.office nodeID).set client (editor.map Node.settings) := by
  have editors : (fun other => (Function.update s.clients client editor other).map Node.settings) =
      Function.update (fun other => (s.clients other).map Node.settings) client (editor.map Node.settings) :=
    funext fun other => Function.apply_update (fun _ => Editor.map Node.settings) s.clients client editor other
  unfold State.office Office.set
  rw [editors]

theorem Following.update (following : Following nodeID initial change s) {client : ι} {editor : Editor Node}
    (about : About nodeID editor) (sound : Sound (fun client settings => (change client).set settings) initial
      ((s.office nodeID).set client (editor.map Node.settings))) :
    Following nodeID initial change { s with clients := Function.update s.clients client editor } := by
  constructor
  · exact following.there
  · intro other
    change About nodeID (Function.update s.clients client editor other)
    rcases eq_or_ne other client with rfl | different
    · rw [Function.update_self]
      exact about
    · rw [Function.update_of_ne different]
      exact following.about other
  · rw [State.office_update]
    exact sound

section Steps

variable {client : ι}

theorem Following.edits (following : Following nodeID initial change s) {inPlace : Bool}
    (stepped : s.step config encode session change (.edit client inPlace) = some after) :
    Following nodeID initial change after := by
  simp only [State.step] at stepped
  split_ifs at stepped with first
  cases stepped
  rw [Bool.and_eq_true, List.isEmpty_iff, decide_eq_true_iff] at first
  apply following.update ((following.about client).edit _ _)
  rw [Editor.map_edit Node.settings _ (fun settings => (change client).set settings) fun node =>
    (change client).apply_settings node]
  · apply following.sound.step
    apply Step.edit client inPlace
    constructor
    · exact List.map_eq_nil_iff.mpr first.1
    · exact first.2

theorem Following.delivers (following : Following nodeID initial change s)
    (stepped : s.step config encode session change (.deliver client) = some after) :
    Following nodeID initial change after := by
  simp only [State.step] at stepped
  split at stepped
  · contradiction
  · next node rest next =>
    cases stepped
    apply following.update ((following.about client).deliver next)
    rw [Editor.map_deliver]
    apply following.sound.step
    apply Step.deliver
    exact congrArg (List.map Node.settings) next

/-- The server takes the next edit of a client: the node is in the row, and on its way to all clients. -/
theorem handle_step {choices : ℕ → Choice}
    (stepped : s.step config encode session change (.handle client choices) = some after) :
    ∃ (edit : Edit Node) (rest : List (Edit Node)) (node sent : Node),
      (s.clients client).outbox = edit :: rest ∧ after.handled = s.handled ++ [(client, edit)] ∧
      config.decodeNode (encode edit.doc) = some node ∧ sent.settings = node.settings ∧ sent.nodeID = node.nodeID ∧
      after.world.nodes.lookup node.nodeID = some ((s.world.rowOf node.nodeID).edit node) ∧
      ∀ other, after.clients other = if other = client then
          { (s.clients other).hear sent with outbox := rest, taken := ((s.clients other).hear sent).taken + 1 }
        else (s.clients other).hear sent := by
  simp only [State.step] at stepped
  split at stepped
  · contradiction
  · next edit rest next =>
    split_ifs at stepped with accepted
    cases stepped
    have message : (editStep encode session client edit.doc choices).call = .message
        { session := session client, subject := MessageType.node, body := encode edit.doc } := rfl
    cases serve_edited config message rfl s.world with
    | refused _ answers => exact absurd (accepted.symm.trans answers) (by decide)
    | saved node report _ updated decoded _ stored _ _ broadcasts =>
      refine ⟨edit, rest, node, node.update report config.ipPrefix updated, next, rfl, decoded, node.update_settings ..,
        node.update_nodeID .., (stored _).trans (if_pos rfl), ?_⟩
      intro other
      rw [broadcasts]
      rfl

theorem Following.handles (following : Following nodeID initial change s) {choices : ℕ → Choice}
    (stepped : s.step config encode session change (.handle client choices) = some after)
    (carried : ∀ entry ∈ after.handled, Carried config encode entry.2.doc) : Following nodeID initial change after := by
  obtain ⟨edit, rest, node, sent, next, handled, decoded, settings, named, stored, clients⟩ := handle_step stepped
  have member : (client, edit) ∈ after.handled := by
    rw [handled]
    exact List.mem_append_right _ (List.mem_singleton.mpr rfl)
  obtain ⟨node', decoded', own, same⟩ := carried _ member
  rw [decoded] at decoded'
  cases decoded'
  have outbox := (following.about client).outbox
  rw [next] at outbox
  have own : node.nodeID = nodeID := own.trans (outbox edit (.head _))
  have about (other : ι) : About nodeID ((s.clients other).hear sent) :=
    (following.about other).hear (named.trans own)
  rw [own] at stored
  constructor
  · exact ⟨_, stored⟩
  · intro other
    rw [clients]
    split_ifs with peer
    · exact ⟨(about other).store, (about other).inbox, fun later member => outbox later (.tail _ member)⟩
    · exact about other
  · have accepted : after.office nodeID =
        (s.office nodeID).accept client (Edit.settings edit) (rest.map Edit.settings) := by
      have doc : (after.world.rowOf nodeID).settings = edit.doc.settings := by
        rw [World.rowOf, stored, Option.getD_some]
        exact same
      have editors (other : ι) : (after.clients other).map Node.settings =
          ((s.office nodeID).accept client (Edit.settings edit) (rest.map Edit.settings)).editors other := by
        rw [clients]
        rcases eq_or_ne other client with rfl | different
        · rw [if_pos rfl, Office.accept_self]
          have heard := (s.clients other).map_hear Node.settings sent
          rw [settings.trans same] at heard
          exact congrArg (fun editor : Editor Settings =>
            { editor with outbox := rest.map Edit.settings, taken := editor.taken + 1 }) heard
        · rw [if_neg different, Office.accept_of_ne _ different, Editor.map_hear, settings.trans same]
          rfl
      unfold State.office at editors ⊢
      rw [doc, funext editors, handled, List.map_append]
      rfl
    rw [accepted]
    apply following.sound.step
    apply Step.accept
    exact congrArg (List.map Edit.settings) next

/-- What the server has handled stays handled. -/
theorem step_handled {event : Event ι} (stepped : s.step config encode session change event = some after) :
    s.handled <+: after.handled := by
  cases event with
  | edit client inPlace =>
    simp only [State.step] at stepped
    split_ifs at stepped
    cases stepped
    exact List.prefix_rfl
  | handle client choices =>
    obtain ⟨_, _, _, _, _, handled, _⟩ := handle_step stepped
    exact ⟨_, handled.symm⟩
  | deliver client =>
    simp only [State.step] at stepped
    split at stepped
    · contradiction
    · cases stepped
      exact List.prefix_rfl

end Steps

theorem run_handled {events : List (Event ι)} (ran : s.run config encode session change events = some after) :
    s.handled <+: after.handled := by
  induction events generalizing s with
  | nil =>
    cases ran
    exact List.prefix_rfl
  | cons event rest ih =>
    obtain ⟨next, stepped, ran⟩ := Option.bind_eq_some_iff.mp ran
    exact (step_handled stepped).trans (ih ran)

theorem Following.run (following : Following nodeID initial change s) {events : List (Event ι)}
    (ran : s.run config encode session change events = some after)
    (carried : ∀ entry ∈ after.handled, Carried config encode entry.2.doc) : Following nodeID initial change after := by
  induction events generalizing s with
  | nil =>
    cases ran
    exact following
  | cons event rest ih =>
    obtain ⟨next, stepped, later⟩ := Option.bind_eq_some_iff.mp ran
    apply ih _ later
    cases event with
    | edit client inPlace => exact following.edits stepped
    | handle client choices =>
      apply following.handles stepped
      intro entry member
      exact carried entry ((run_handled later).subset member)
    | deliver client => exact following.delivers stepped

end Settings

/-! ## Two clients -/

namespace Sample

/-- A body with the fields that are decoded. -/
def encode (node : Node) : Json :=
  .object [("node_id", .string node.nodeID), ("hostname", .string node.hostname), ("owner", .string node.owner)]

theorem carried {node : Node} (plain : node.location = {} ∧ node.wireless = {}) :
    Carried FreifunkManager.Sample.config encode node := by
  refine ⟨{ nodeID := node.nodeID, hostname := node.hostname, owner := node.owner }, ?_, rfl, ?_⟩
  · rfl
  · rw [Node.settings, Node.settings, plain.1, plain.2]

/-- Two clients are logged in. -/
def world : World :=
  { FreifunkManager.Sample.world [FreifunkManager.Sample.row] with
    sessions := (Store.Table.empty.save { sessionID := 1 }).save { sessionID := 2 } }

def session : Bool → UUID
  | false => 1
  | true => 2

/-- One of them names the node, the other one its owner. -/
def change : Bool → Change
  | false => .hostname "cellar"
  | true => .owner "alice"

def run (events : List (Event Bool)) : Option (State Bool) :=
  State.run FreifunkManager.Sample.config encode session change
    { world, clients := fun _ => { store := FreifunkManager.Sample.row.node } } events

/-- The second edit is made before the first one comes back. -/
def atOnce : List (Event Bool) :=
  [.edit false true, .edit true true, .handle false fun _ => {}, .handle true fun _ => {}, .deliver true]

def renamed : Node := { FreifunkManager.Sample.row.node with hostname := "cellar" }

/-- The server sends what it has decoded. -/
def heard : Node := { nodeID := "f81a67a5e9c1", hostname := "cellar" }

end Sample

end FreifunkManager.Clients
