import FreifunkManager.Proofs.Programs
import FreifunkManager.Proofs.Worlds

/-! # The desired settings of a node

The columns that a user may set are written as a whole in three places: an edit saves or creates a
row, and a report of an unknown node creates one. Whatever interleaves and fails, they are those of
the last successful edit, or else those of the report by which the node was learnt.
-/

namespace FreifunkManager

open Effects Store

/-- The settings that an edit of a node asked for, if its row was written. -/
def Event.edited (config : Config) (nodeID : String) (e : Event) : Option Settings :=
  match e.call with
  | .message msg => if e.wrote nodeID then (config.decodeNode msg.body).map Node.settings else none
  | _ => none

/-- The settings of a node in the report that made its row. -/
def Event.learned (config : Config) (nodeID : String) (e : Event) : Option Settings :=
  match e.call with
  | .report n => if e.wrote nodeID then (newNode n config.ipPrefix e.time).map Node.settings else none
  | _ => none

/-- The settings a node should have: those of the last edit that was saved, else those of the report that
made the row, else those the node had at the beginning. -/
def desired (config : Config) (initial : Table Row.nodeID) (log : List Event) (nodeID : String) : Option Settings :=
  (log.findSome? (Event.edited config nodeID)).or
    ((log.findSome? (Event.learned config nodeID)).or ((initial.lookup nodeID).map Row.settings))

/-- What a call writes to the settings of a node is the user's edit, or what a new node reports. -/
def WritesAsMeant (config : Config) : Call → Op → Prop
  | .report n, .createNode row => some row.settings = (newNode n config.ipPrefix 0).map Node.settings
  | .message msg, .saveNode row => ∃ node, config.decodeNode msg.body = some node ∧ row.settings = node.settings
  | .message msg, .createNode row => ∃ node, config.decodeNode msg.body = some node ∧ row.settings = node.settings
  | .report _, .saveNode _ | .ping, .saveNode _ | .ping, .createNode _ => False
  | _, _ => True

section Programs

variable {config : Config}

theorem insertNode_meant (n : Yanic.Node) : Only (WritesAsMeant config (.report n)) (insertNode config n).run := by
  refine insertNode_satisfies (fun _ => trivial) (fun _ => trivial) (fun nodeinfo now row op _ refreshes => ?_)
    fun nodeinfo now op _ learns => ?_
  · cases op <;> trivial
  · cases op with
    | createNode row => exact learns.1.settings
    | _ => trivial

theorem handleMessage_meant (msg : Message) : Only (WritesAsMeant config (.message msg))
    (handleMessage config msg) := by
  refine handleMessage_satisfies config msg (fun op aside => ?_) (fun _ => trivial)
    (fun node row decoded _ => ⟨node, decoded, rfl⟩) (fun node decoded => ⟨node, decoded, rfl⟩)
    fun node op _ announces => ?_
  · cases op <;> trivial
  · cases op <;> trivial

theorem program_meant (config : Config) (call : Call) : Only (WritesAsMeant config call) (call.program config) := by
  cases call with
  | report n => exact insertNode_meant n
  | message msg => exact Only.bind (handleMessage_meant msg) fun _ => trivial
  | ping =>
    refine Only.bind (sendPing_only.weaken fun op pings => ?_) fun _ => trivial
    cases op <;> trivial

end Programs

theorem newNode_settings (n : Yanic.Node) (ipPrefix : String) (now : Time) :
    (newNode n ipPrefix now).map Node.settings = (newNode n ipPrefix 0).map Node.settings := by
  cases known : n.nodeinfo with
  | none => simp [newNode, known]
  | some nodeinfo => simp [newNode, known]

section Desired

variable {config : Config} {initial : Table Row.nodeID} {log : List Event} {nodeID : String} {e : Event}

theorem desired_of_not_wrote (other : e.wrote nodeID = false) :
    desired config initial (e :: log) nodeID = desired config initial log nodeID := by
  have edited : e.edited config nodeID = none := by
    rw [Event.edited, other]
    cases e.call <;> rfl
  have learned : e.learned config nodeID = none := by
    rw [Event.learned, other]
    cases e.call <;> rfl
  rw [desired, desired, List.findSome?_cons, List.findSome?_cons, edited, learned]

theorem desired_of_edited {settings : Settings} (edited : e.edited config nodeID = some settings) :
    desired config initial (e :: log) nodeID = some settings := by
  rw [desired, List.findSome?_cons, edited, Option.some_or]

theorem desired_of_learned {settings : Settings} (learned : e.learned config nodeID = some settings)
    (unknown : desired config initial log nodeID = none) :
    desired config initial (e :: log) nodeID = some settings := by
  have edited : e.edited config nodeID = none := by
    unfold Event.learned at learned
    unfold Event.edited
    cases caller : e.call with
    | message msg =>
      rw [caller] at learned
      contradiction
    | report n => rfl
    | ping => rfl
  rw [desired, Option.or_eq_none_iff] at unknown
  rw [desired, List.findSome?_cons, List.findSome?_cons, edited, learned, unknown.1, Option.none_or, Option.some_or]

/-- An operation that writes as it is meant keeps the settings in agreement with the log. -/
theorem handle_desired {call : Call} {op : Op} (choice : Choice) {w : World} (meant : WritesAsMeant config call op)
    (agrees : ∀ nodeID, (w.nodes.lookup nodeID).map Row.settings = desired config initial w.log nodeID)
    (nodeID : String) : ((w.handle call choice op).2.nodes.lookup nodeID).map Row.settings =
      desired config initial (w.handle call choice op).2.log nodeID := by
  rw [w.lookup_handle, w.handle_log]
  cases written : (w.event call choice op).written with
  | none => rw [Event.rowAfter_settings written, agrees, desired_of_not_wrote (by simp [Event.wrote, written])]
  | some row =>
    rw [Event.rowAfter_written written]
    rcases eq_or_ne row.nodeID nodeID with rfl | other
    · rw [if_pos rfl, Option.map_some]
      have wrote : (w.event call choice op).wrote row.nodeID = true := by simp [Event.wrote, written]
      cases call with
      | message msg =>
        have edit {node : Node} (decoded : config.decodeNode msg.body = some node)
            (same : row.settings = node.settings) :
            (w.event (.message msg) choice op).edited config row.nodeID = some row.settings :=
          (if_pos wrote).trans (by rw [decoded, same]; rfl)
        rcases w.written_cases _ choice written with rfl | ⟨rfl, _⟩
        · obtain ⟨node, decoded, same⟩ := meant
          rw [desired_of_edited (edit decoded same)]
        · obtain ⟨node, decoded, same⟩ := meant
          rw [desired_of_edited (edit decoded same)]
      | report n =>
        rcases w.written_cases _ choice written with rfl | ⟨rfl, free⟩
        · exact meant.elim
        · have learn : (w.event (.report n) choice (.createNode row)).learned config row.nodeID = some row.settings :=
            (if_pos wrote).trans ((newNode_settings ..).trans meant.symm)
          rw [desired_of_learned learn (by rw [← agrees, free]; rfl)]
      | ping =>
        rcases w.written_cases _ choice written with rfl | ⟨rfl, _⟩
        · exact meant.elim
        · exact meant.elim
    · rw [if_neg other, agrees, desired_of_not_wrote (by simp [Event.wrote, written, other])]

end Desired

/-- In every state of every run, the settings in the database are the desired ones. -/
theorem settings_desired (config : Config) {w : World} (fresh : w.log = [])
    {s : Snapshot operations Worker Call (Except Panic Unit) World}
    (reached : (pool config).Reachable (Pool.Admits (fun _ => True) fun _ _ _ _ => True) (idle w) s) (nodeID : String) :
    (s.shared.nodes.lookup nodeID).map Row.settings = desired config w.nodes s.shared.log nodeID := by
  have programs (call : Call) (_ : True) : Only (WritesAsMeant config call) ((pool config).program call) :=
    program_meant config call
  refine reached.satisfies (fun current => ∀ nodeID,
      (current.nodes.lookup nodeID).map Row.settings = desired config w.nodes current.log nodeID)
    (WritesAsMeant config) programs (fun call choice op current meant agrees _ => handle_desired choice meant agrees)
    (fun nodeID => ?_) (fun _ => rfl) nodeID
  change _ = desired config w.nodes w.log nodeID
  rw [fresh]
  rfl

/-- An edit that is saved after a report has read the row, and before it updates it. -/
def editedMeanwhile : List (Action Worker Call Choice) :=
  [.start .reporter (.report (Sample.report "attic"))] ++ Sample.advance .reporter 3 60 ++
    [.start .handler (.message (Sample.edit "cellar"))] ++ Sample.advance .handler 5 61 ++ Sample.advance .reporter 2 62

theorem settings_desired_editedMeanwhile : ∃ s,
    (pool Sample.config).run (fun _ => true) (fun _ _ _ _ => true) (idle (Sample.world [Sample.row]))
      editedMeanwhile = some s ∧
    (s.shared.nodes.lookup "f81a67a5e9c1").map Row.settings =
      desired Sample.config (Sample.world [Sample.row]).nodes s.shared.log "f81a67a5e9c1" := by
  obtain ⟨s, replayed⟩ := Option.isSome_iff_exists.mp (by decide +kernel : ((pool Sample.config).run (fun _ => true)
    (fun _ _ _ _ => true) (idle (Sample.world [Sample.row])) editedMeanwhile).isSome = true)
  exact ⟨s, replayed, settings_desired Sample.config rfl
    (.of_run replayed (fun _ _ => trivial) fun _ _ _ _ _ => trivial) _⟩

end FreifunkManager
