import FreifunkManager.Proofs.Interleaving
import FreifunkManager.Proofs.Desired

/-! # What was observed of a node

Time of the last report, address and blacklisting are columns that reports write one by one, and that
an edit writes along with the whole row. An edit that reads the row before a report updates it
and saves it afterwards takes the update back. As long as no report changes columns of a row between
the two statements of an edit, the row has what reports last wrote.
-/

namespace FreifunkManager

open Effects Store

/-- The columns that reports write. -/
structure Observed where
  address : String := ""
  lastseen : Option Time := none
  blacklist : Option Time := none
deriving DecidableEq

def Row.observed (row : Row) : Observed := ⟨row.address, row.lastseen, row.blacklist⟩

def Columns.observe (columns : Columns) (observed : Observed) : Observed :=
  match columns with
  | .observed address lastseen => { observed with address, lastseen := some lastseen }
  | .blacklist time => { observed with blacklist := some time }

theorem Columns.apply_observed (columns : Columns) (row : Row) :
    (columns.apply row).observed = columns.observe row.observed := by
  cases columns <;> rfl

@[simp] theorem Row.edit_observed (row : Row) (node : Node) : (row.edit node).observed = row.observed := rfl

/-- What an event adds to the observations of a node: a report counts, an edit only makes a new row. -/
def Event.observe (e : Event) (nodeID : String) (before : Option Observed) : Option Observed :=
  match e.call with
  | .report _ =>
    match e.written, e.changed with
    | some row, _ => if row.nodeID = nodeID then some row.observed else before
    | none, some (key, columns) => if key = "" ∨ key = nodeID then before.map columns.observe else before
    | none, none => before
  | _ => if e.wrote nodeID then before.or (some {}) else before

/-- The observations of a node, by the history of a run. -/
def observations (initial : Table Row.nodeID) (log : List Event) (nodeID : String) : Option Observed :=
  log.foldr (fun e before => e.observe nodeID before) ((initial.lookup nodeID).map Row.observed)

/-- The node whose row was read by an edit that has not been saved yet. -/
def pendingSave : List Event → Option String
  | [] => none
  | ⟨.message _, .firstNode nodeID, some _, _⟩ :: _ => some nodeID
  | ⟨.message _, _, _, _⟩ :: _ => none
  | _ :: rest => pendingSave rest

/-- The key of an operation that changes columns. -/
def Op.updatedKey : Op → Option String
  | .updateNode key _ => some key
  | _ => none

/-- The operation does not change columns of a row between the two statements of an edit of it. -/
def SparesEdits (op : Op) (w : World) : Prop :=
  ∀ key ∈ op.updatedKey, ∀ nodeID ∈ pendingSave w.log, key ≠ "" ∧ key ≠ nodeID

instance (op : Op) (w : World) : Decidable (SparesEdits op w) := inferInstanceAs (Decidable (∀ _ ∈ _, _))

/-- The row of an edit keeps its observations until it is saved. -/
def KeepsPending : Worker → World → World → Prop
  | .reporter, _, _ => True
  | .handler, before, after => ∀ nodeID observed, pendingSave before.log = some nodeID →
    (before.nodes.lookup nodeID).map Row.observed = some observed →
    pendingSave after.log = some nodeID ∧ (after.nodes.lookup nodeID).map Row.observed = some observed

/-- The observations in the database are those of the history. -/
def AgreesObserved (initial : Table Row.nodeID) (w : World) : Prop :=
  ∀ nodeID, (w.nodes.lookup nodeID).map Row.observed = observations initial w.log nodeID

theorem Event.rowAfter_observed {e : Event} {n : Yanic.Node} (report : e.call = .report n) (nodeID : String)
    (before : Option Row) : (e.rowAfter nodeID before).map Row.observed =
    e.observe nodeID (before.map Row.observed) := by
  rw [rowAfter, observe, report]
  cases e.written with
  | some row => exact apply_ite (Option.map Row.observed) ..
  | none =>
    cases e.changed with
    | none => rfl
    | some change =>
      have applied : (before.map change.2.apply).map Row.observed = (before.map Row.observed).map change.2.observe := by
        cases before with
        | none => rfl
        | some row => exact congrArg some (change.2.apply_observed row)
      exact (apply_ite (Option.map Row.observed) ..).trans (by rw [applied])

@[simp] theorem pendingSave_report (n : Yanic.Node) (choice : Choice) (op : Op) (w : World) :
    pendingSave (w.event (.report n) choice op :: w.log) = pendingSave w.log := rfl

section Observed

variable {config : Config} {initial : Table Row.nodeID} {w : World} {choice : Choice} {op : Op}

theorem agrees_of_reads (call : Call) (reads : op.writesNodes = false) (agrees : AgreesObserved initial w) :
    AgreesObserved initial (w.handle call choice op).2 := by
  intro nodeID
  obtain ⟨written, changed⟩ := w.event_reads call choice reads
  have kept (before : Option Observed) : (w.event call choice op).observe nodeID before = before := by
    rw [Event.observe, Event.wrote, written, changed]
    cases call <;> rfl
  rw [w.lookup_handle, Event.rowAfter, written, changed, w.handle_log]
  exact (agrees nodeID).trans (kept _).symm

/-- A report keeps the agreement, and it keeps what an edit in progress relies on. -/
theorem report_keeps (n : Yanic.Node) (meant : WritesAsMeant config (.report n) op) (agrees : AgreesObserved initial w)
    (spares : SparesEdits op w) : Pool.Kept (AgreesObserved initial) KeepsPending .reporter w
      (w.handle (.report n) choice op).2 := by
  refine ⟨fun nodeID => ?_, fun other different => ?_⟩
  · rw [w.lookup_handle, Event.rowAfter_observed rfl, agrees]
    rfl
  · cases other with
    | reporter => trivial
    | handler =>
      intro nodeID observed pending present
      refine ⟨pending, ?_⟩
      rw [w.lookup_handle, Event.rowAfter]
      cases written : (w.event (.report n) choice op).written with
      | some row =>
        rcases w.written_cases _ choice written with rfl | ⟨rfl, free⟩
        · exact meant.elim
        · have other : row.nodeID ≠ nodeID := by
            rintro rfl
            rw [free] at present
            contradiction
          simpa only [if_neg other] using present
      | none =>
        cases changed : (w.event (.report n) choice op).changed with
        | none => exact present
        | some change =>
          obtain ⟨key, columns⟩ := change
          obtain rfl := w.changed_cases _ choice changed
          obtain ⟨notBlank, notSame⟩ := spares key rfl nodeID pending
          simpa only [notBlank, notSame, or_self, if_false] using present

/-- The row that an edit has read still has the observations of the copy. -/
def Unobserved (nodeID : String) (copy : Row) (w : World) : Prop :=
  pendingSave w.log = some nodeID ∧ (w.nodes.lookup nodeID).map Row.observed = some copy.observed

/-- A message keeps the agreement if a row that it writes has the observations that were there. -/
theorem message_agrees (msg : Message) (agrees : AgreesObserved initial w)
    (unchanged : (w.event (.message msg) choice op).changed = none)
    (keeps : ∀ row, (w.event (.message msg) choice op).written = some row →
      some row.observed = ((w.nodes.lookup row.nodeID).map Row.observed).or (some {})) :
    AgreesObserved initial (w.handle (.message msg) choice op).2 := by
  intro nodeID
  rw [w.lookup_handle, w.handle_log]
  change _ = (w.event (.message msg) choice op).observe nodeID (observations initial w.log nodeID)
  rw [← agrees, Event.rowAfter, Event.observe, Event.wrote, unchanged]
  change _ = if _ then _ else _
  cases written : (w.event (.message msg) choice op).written with
  | none => rfl
  | some row =>
    rcases eq_or_ne row.nodeID nodeID with rfl | other
    · simpa using keeps row written
    · simp [other]

/-- Saving an edit leaves the observations as they are, if they are those of the copy. -/
theorem saveNode_agrees (msg : Message) {copy : Row} (node : Node) (agrees : AgreesObserved initial w)
    (unobserved : Unobserved copy.nodeID copy w) :
    AgreesObserved initial (w.handle (.message msg) choice (.saveNode (copy.edit node))).2 := by
  refine message_agrees msg agrees rfl fun row written => ?_
  rcases w.written_cases _ choice written with same | ⟨other, _⟩
  · cases same
    exact (congrArg (Option.or · (some {})) unobserved.2).symm
  · contradiction

/-- A row that an edit makes has no observations. -/
theorem createNode_agrees (msg : Message) (node : Node) (agrees : AgreesObserved initial w) :
    AgreesObserved initial (w.handle (.message msg) choice
      (.createNode (Row.edit { nodeID := node.nodeID } node))).2 := by
  refine message_agrees msg agrees rfl fun row written => ?_
  rcases w.written_cases _ choice written with other | ⟨same, free⟩
  · contradiction
  · cases same
    rw [free]
    rfl

private theorem handler_kept {before after : World} (agrees : AgreesObserved initial after) :
    Pool.Kept (AgreesObserved initial) KeepsPending .handler before after := by
  refine ⟨agrees, fun other different => ?_⟩
  cases other with
  | reporter => trivial
  | handler => contradiction

theorem edit_guarded (msg : Message) {node : Node} (present : node.nodeID ≠ "") :
    (pool config).Guarded (fun _ _ op => SparesEdits op) (AgreesObserved initial) KeepsPending .handler (.message msg)
      (fun _ _ => True) (saveEdit node >>= announceEdit config msg node) w := by
  have announce (saved : Bool) (w : World) : (pool config).Guarded (fun _ _ op => SparesEdits op)
      (AgreesObserved initial) KeepsPending .handler (.message msg) (fun _ _ => True)
      (announceEdit config msg node saved) w := by
    refine guarded_only (announceEdit_only config msg node saved) (fun _ => True) (fun _ _ _ _ => trivial) ?_ trivial
    exact fun op choice before announces agrees _ _ =>
      ⟨handler_kept (agrees_of_reads _ announces.reads agrees), trivial⟩
  apply guarded_edit (fun _ => True) fun copy => Unobserved copy.nodeID copy
  · exact fun _ _ _ _ => trivial
  · exact fun copy before after unobserved kept => kept _ _ unobserved.1 unobserved.2
  · refine fun choice before agrees _ _ => ⟨handler_kept (agrees_of_reads _ rfl agrees), trivial, fun copy found => ?_⟩
    obtain ⟨there, same⟩ := before.firstNode_found choice found
    constructor
    · change pendingSave (⟨.message msg, .firstNode node.nodeID, (before.act choice (.firstNode node.nodeID)).1,
        choice.time⟩ :: before.log) = _
      rw [found, same present]
      rfl
    · rw [before.handle_nodes, before.act_nodes _ rfl, there]
      rfl
  · exact fun copy choice before agrees unobserved _ =>
      ⟨handler_kept (saveNode_agrees msg node agrees unobserved), announce _ _⟩
  · exact fun choice before agrees _ _ => ⟨handler_kept (createNode_agrees msg node agrees), announce _ _⟩
  · trivial

end Observed

/-- If no report changes columns of a row between the two statements of an edit of it, every row has
the address, the time and the blacklisting that reports wrote last. -/
theorem observed_kept (config : Config) {w : World} (fresh : w.log = [])
    {s : Snapshot operations Worker Call (Except Panic Unit) World}
    (reached : (pool config).Reachable (Pool.Admits (fun _ => True) fun _ _ => SparesEdits) (idle w) s)
    (nodeID : String) :
    (s.shared.nodes.lookup nodeID).map Row.observed = observations w.nodes s.shared.log nodeID := by
  refine (reached.guarded (AgreesObserved w.nodes) KeepsPending (fun _ _ => True) ?_ (fun _ _ _ _ _ => trivial) ?_
    fun _ => ⟨rfl, trivial⟩).1 nodeID
  · intro worker call current accepted _ _ _
    cases call with
    | report n =>
      cases worker with
      | reporter =>
        refine guarded_only (program_meant config (.report n)) (fun _ => True) (fun _ _ _ _ => trivial) ?_ trivial
        exact fun op choice before meant agrees _ spares => ⟨report_keeps n meant agrees spares, trivial⟩
      | handler => contradiction
    | message msg =>
      cases worker with
      | reporter => contradiction
      | handler =>
        refine guarded_message msg (fun _ _ _ _ => trivial) ?_
          (fun node _ present w _ => edit_guarded msg present) trivial
        exact fun op choice before aside agrees _ _ => ⟨handler_kept (agrees_of_reads _ aside.reads agrees), trivial⟩
    | ping => cases worker <;> contradiction
  · intro nodeID
    change _ = observations w.nodes w.log nodeID
    rw [fresh]
    rfl

theorem observed_kept_editThenReport : ∃ s, (pool Sample.config).run (fun _ => true)
      (fun _ _ op w => SparesEdits op w) (idle (Sample.world [Sample.row])) Sample.editThenReport = some s ∧
    (s.shared.nodes.lookup "f81a67a5e9c1").map Row.observed =
      observations (Sample.world [Sample.row]).nodes s.shared.log "f81a67a5e9c1" := by
  obtain ⟨s, replayed⟩ := Option.isSome_iff_exists.mp (by decide +kernel : ((pool Sample.config).run (fun _ => true)
    (fun _ _ op w => SparesEdits op w) (idle (Sample.world [Sample.row])) Sample.editThenReport).isSome = true)
  exact ⟨s, replayed, observed_kept Sample.config rfl
    (.of_run replayed (fun _ _ => trivial) fun _ _ _ _ => of_decide_eq_true) _⟩

/-- A report whose update comes between the two statements of an edit. -/
def updatedMeanwhile : List (Action Worker Call Choice) :=
  [.start .handler (.message (Sample.edit "cellar"))] ++ Sample.advance .handler 4 60 ++
    [.start .reporter (.report (Sample.report "attic"))] ++ Sample.advance .reporter 6 61 ++ [.finish .reporter] ++
    Sample.advance .handler 4 62 ++ [.finish .handler]

/-- The edit takes back what was observed, although no statement fails. -/
theorem observed_lost : ¬ ∀ (config : Config) (w : World)
    (s : Snapshot operations Worker Call (Except Panic Unit) World),
    w.log = [] →
    (pool config).Reachable (Pool.Admits (fun _ => True) fun _ choice _ _ => choice.dbFails = false) (idle w) s →
    (∀ worker, s.active worker = none) →
    ∀ nodeID, (s.shared.nodes.lookup nodeID).map Row.observed = observations w.nodes s.shared.log nodeID := by
  intro kept
  have lost : ((pool Sample.config).run (fun _ => true) (fun _ choice _ _ => !choice.dbFails)
      (idle (Sample.world [Sample.row])) updatedMeanwhile).any (fun s =>
        (s.active .reporter).isNone && (s.active .handler).isNone &&
        decide ((s.shared.nodes.lookup "f81a67a5e9c1").map Row.observed ≠
          observations (Sample.world [Sample.row]).nodes s.shared.log "f81a67a5e9c1")) = true := by decide +kernel
  obtain ⟨s, reached, rests, different⟩ := reached_at_rest lost
  exact of_decide_eq_true different (kept Sample.config _ s rfl reached rests _)

end FreifunkManager
