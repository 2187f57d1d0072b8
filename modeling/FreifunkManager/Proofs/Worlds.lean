import FreifunkManager.Model.System

/-! # What operations do to the world

Every operation is written to the log, and only three kinds of operation write to the nodes.
-/

namespace FreifunkManager

open Effects Store

/-- The row that an operation wrote as a whole, if it succeeded. -/
def Event.written : Event → Option Row
  | ⟨_, .saveNode row, true, _⟩ => some row
  | ⟨_, .createNode row, true, _⟩ => some row
  | _ => none

/-- The operation wrote the row of this node. -/
def Event.wrote (nodeID : String) (e : Event) : Bool := e.written.any (·.nodeID = nodeID)

/-- The columns that an operation changed, if it succeeded. -/
def Event.changed : Event → Option (String × Columns)
  | ⟨_, .updateNode nodeID columns, true, _⟩ => some (nodeID, columns)
  | _ => none

/-- What an operation does to the row of a node. -/
def Event.rowAfter (e : Event) (nodeID : String) (before : Option Row) : Option Row :=
  match e.written, e.changed with
  | some row, _ => if row.nodeID = nodeID then some row else before
  | none, some (key, columns) => if key = "" ∨ key = nodeID then before.map columns.apply else before
  | none, none => before

theorem Event.rowAfter_written {e : Event} {row : Row} (written : e.written = some row) (nodeID : String)
    (before : Option Row) : e.rowAfter nodeID before = if row.nodeID = nodeID then some row else before := by
  rw [rowAfter, written]

theorem Event.rowAfter_settings {e : Event} (written : e.written = none) (nodeID : String) (before : Option Row) :
    (e.rowAfter nodeID before).map Row.settings = before.map Row.settings := by
  rw [rowAfter, written]
  cases e.changed with
  | none => rfl
  | some change => cases before <;> simp [apply_ite]

/-- The clock of a log does not go back. -/
def ClockForward (log : List Event) : Prop := log.Pairwise fun later earlier => earlier.time ≤ later.time

instance (log : List Event) : Decidable (ClockForward log) := inferInstanceAs (Decidable (List.Pairwise _ log))

/-- The operation writes to the nodes. -/
def Op.writesNodes : Op → Bool
  | .updateNode .. | .saveNode _ | .createNode _ => true
  | _ => false

/-- The operation writes to the sessions. -/
def Op.writesSessions : Op → Bool
  | .saveSession _ | .createSession _ | .deleteSession _ => true
  | _ => false

namespace World

variable (call : Call) (choice : Choice) (w : World)

/-- What an operation adds to the log. -/
def event (op : Op) : Event where
  call := call
  op := op
  reply := (w.act choice op).1
  time := choice.time

theorem handle_eq (op : Op) : w.handle call choice op =
    ((w.act choice op).1, { (w.act choice op).2 with log := w.event call choice op :: w.log }) := rfl

@[simp] theorem handle_log (op : Op) : (w.handle call choice op).2.log = w.event call choice op :: w.log := rfl

@[simp] theorem handle_nodes (op : Op) : (w.handle call choice op).2.nodes = (w.act choice op).2.nodes := rfl

theorem act_createNode (row : Row) : w.act choice (.createNode row) =
    match if choice.dbFails then none else w.nodes.create row with
    | some nodes => (true, { w with nodes })
    | none => (false, w) := rfl

theorem act_createSession (session : Session) : w.act choice (.createSession session) =
    match if choice.dbFails then none else w.sessions.create session with
    | some sessions => (true, { w with sessions })
    | none => (false, w) := rfl

theorem act_nodes {op : Op} (reads : op.writesNodes = false) : (w.act choice op).2.nodes = w.nodes := by
  cases op with
  | updateNode | saveNode | createNode => contradiction
  | createSession session =>
    simp only [act]
    split <;> rfl
  | _ =>
    simp only [act]
    try split_ifs <;> rfl

theorem act_sessions {op : Op} (reads : op.writesSessions = false) :
    (w.act choice op).2.sessions = w.sessions := by
  cases op with
  | saveSession | createSession | deleteSession => contradiction
  | createNode row =>
    simp only [act]
    split <;> rfl
  | _ =>
    simp only [act]
    try split_ifs <;> rfl

theorem event_reads {op : Op} (reads : op.writesNodes = false) :
    (w.event call choice op).written = none ∧ (w.event call choice op).changed = none := by
  cases op with
  | updateNode | saveNode | createNode => contradiction
  | _ => exact ⟨rfl, rfl⟩

theorem lookup_handle (op : Op) (nodeID : String) : (w.handle call choice op).2.nodes.lookup nodeID =
    (w.event call choice op).rowAfter nodeID (w.nodes.lookup nodeID) := by
  rw [handle_nodes]
  cases writes : op.writesNodes with
  | false =>
    rw [w.act_nodes choice writes, Event.rowAfter, (w.event_reads call choice writes).1,
      (w.event_reads call choice writes).2]
  | true =>
    cases fails : choice.dbFails with
    | true => cases op <;> simp [act, event, fails, Event.rowAfter, Event.written, Event.changed] at writes ⊢
    | false =>
      cases op with
      | updateNode key columns =>
        simp only [act, event, fails, Event.rowAfter, Event.written, Event.changed, Bool.false_eq_true, if_false,
          Table.lookup_modify]
        rfl
      | saveNode row => simp [act, event, fails, Event.rowAfter, Event.written, Table.lookup_save]
      | createNode row =>
        cases created : w.nodes.create row with
        | none => simp [act, event, fails, created, Event.rowAfter, Event.written, Event.changed]
        | some nodes =>
          simp [act, event, fails, created, Event.rowAfter, Event.written, (Table.create_eq_some created).2]
      | _ => contradiction

/-- A whole row is written by a save, or by a creation if there was none. -/
theorem written_cases {op : Op} {row : Row} (written : (w.event call choice op).written = some row) :
    op = .saveNode row ∨ op = .createNode row ∧ w.nodes.lookup row.nodeID = none := by
  cases op with
  | saveNode saved =>
    cases fails : choice.dbFails <;> simp [event, act, fails, Event.written] at written
    exact .inl (by rw [written])
  | createNode new =>
    cases fails : choice.dbFails with
    | true => simp [event, act, fails, Event.written] at written
    | false =>
      cases created : w.nodes.create new with
      | none => simp [event, act, fails, created, Event.written] at written
      | some nodes =>
        simp only [event, act, fails, created, Event.written, Bool.false_eq_true, if_false,
          Option.some.injEq] at written
        exact .inr ⟨by rw [written], written ▸ (Table.create_eq_some created).1⟩
  | _ => contradiction

theorem written_saveNode (row : Row) : (w.event call choice (.saveNode row)).written =
    if (w.act choice (.saveNode row)).1 then some row else none := by
  unfold event
  cases (w.act choice (.saveNode row)).1 <;> rfl

theorem written_createNode (row : Row) : (w.event call choice (.createNode row)).written =
    if (w.act choice (.createNode row)).1 then some row else none := by
  unfold event
  cases (w.act choice (.createNode row)).1 <;> rfl

theorem changed_cases {op : Op} {key : String} {columns : Columns}
    (changed : (w.event call choice op).changed = some (key, columns)) : op = .updateNode key columns := by
  cases op with
  | updateNode nodeID written =>
    cases fails : choice.dbFails <;> simp [event, act, fails, Event.changed] at changed
    rw [changed.1, changed.2]
  | _ => contradiction

/-- A row that is read is there. -/
theorem firstNode_found {nodeID : String} {row : Row} (found : (w.act choice (.firstNode nodeID)).1 = some row) :
    w.nodes.lookup row.nodeID = some row ∧ (nodeID ≠ "" → row.nodeID = nodeID) := by
  have first : w.nodes.first nodeID = some row := (Option.ite_none_left_eq_some.mp found).2
  by_cases blank : nodeID = ""
  · rw [Table.first, if_pos (show nodeID = default from blank)] at first
    exact ⟨Table.lookup_eq_some.mpr ⟨List.argmin_mem first, rfl⟩, fun present => absurd blank present⟩
  · rw [Table.first_eq_lookup blank] at first
    have same := Table.lookup_key first
    exact ⟨same.symm ▸ first, fun _ => same⟩

/-- A row that is not found is not there, if the database works. -/
theorem firstNode_missing {nodeID : String} (works : choice.dbFails = false)
    (missing : (w.act choice (.firstNode nodeID)).1 = none) : w.nodes.lookup nodeID = none := by
  have first : w.nodes.first nodeID = none := by simpa [act, works] using missing
  by_cases blank : nodeID = ""
  · rw [Table.first, if_pos (show nodeID = default from blank), List.argmin_eq_none] at first
    exact Table.lookup_eq_none.mpr (by simp [first])
  · rwa [Table.first_eq_lookup blank] at first

/-- A row is there after it was created, and before if it could not be. -/
theorem createNode_lookup (row : Row) (works : choice.dbFails = false) :
    if (w.act choice (.createNode row)).1 then
      (w.handle call choice (.createNode row)).2.nodes.lookup row.nodeID = some row
    else w.nodes.lookup row.nodeID ≠ none := by
  cases created : w.nodes.create row with
  | none => simpa [act, works, created] using Table.create_eq_none.mp created
  | some nodes =>
    have there := (Table.create_eq_some created).2 row.nodeID
    simpa [act, works, created, handle_nodes] using there

end World

end FreifunkManager
