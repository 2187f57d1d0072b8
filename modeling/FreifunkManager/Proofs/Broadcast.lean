import FreifunkManager.Proofs.Interleaving

/-! # What the clients show

Clients show the settings of a node that were sent last. A report sends a copy that it read before its
SSH session, so that an edit which was saved and sent meanwhile is shown no longer. Apart from this,
and from reports whose own statements fail, clients show what is saved as soon as no edit is in
progress.
-/

namespace FreifunkManager

open Effects Program Store

/-! ## The history of a node -/

namespace Event

def isMessage (e : Event) : Bool :=
  match e.call with
  | .message _ => true
  | _ => false

/-- The settings of a node that the event sends to all clients. -/
def sent (nodeID : String) (e : Event) : Option Settings :=
  match e.op with
  | .sendNode node => if node.nodeID = nodeID then some node.settings else none
  | _ => none

/-- An edit of the node is saved. -/
def edits (nodeID : String) (e : Event) : Bool := e.isMessage && e.wrote nodeID

/-- An edit of the node is sent to all clients. -/
def announces (nodeID : String) (e : Event) : Bool := e.isMessage && (e.sent nodeID).isSome

/-- A report reads the row of its node. -/
def readsRow (e : Event) : Bool :=
  match e.call, e.op with
  | .report _, .firstNode _ => true
  | _, _ => false

end Event

/-- What the clients show of a node. -/
def shown (log : List Event) (nodeID : String) : Option Settings := log.findSome? (Event.sent nodeID)

/-- What happened since the report in progress has read its row. -/
def sinceRead (log : List Event) : List Event := log.takeWhile fun e => !e.readsRow

/-- An edit was first saved and then sent to the clients. -/
def overtaken (nodeID : String) : List Event → Bool
  | [] => false
  | e :: older => e.announces nodeID && older.any (Event.edits nodeID) || overtaken nodeID older

/-- An edit was saved and not yet sent to the clients. -/
def unsent (nodeID : String) : List Event → Bool
  | [] => false
  | e :: older => e.edits nodeID || !e.announces nodeID && unsent nodeID older

/-- Something was saved since the report has read its row. -/
def editedSince (nodeID : String) (w : World) : Bool := (sinceRead w.log).any (Event.edits nodeID)

theorem sinceRead_cons (e : Event) (older : List Event) :
    sinceRead (e :: older) = if e.readsRow then [] else e :: sinceRead older := by
  rw [sinceRead, List.takeWhile_cons]
  cases e.readsRow <;> rfl

/-- An edit that has not overtaken the report is about to be sent. -/
theorem unsent_of_edited {nodeID : String} {log : List Event}
    (edited : (sinceRead log).any (Event.edits nodeID) = true)
    (first : overtaken nodeID (sinceRead log) = false) : unsent nodeID log = true := by
  induction log with
  | nil => contradiction
  | cons e older ih =>
    rw [sinceRead_cons] at edited first
    split at edited
    · contradiction
    · next other =>
      rw [if_neg other, overtaken, Bool.or_eq_false_iff] at first
      obtain ⟨notSent, first⟩ := first
      rw [List.any_cons, Bool.or_eq_true] at edited
      rw [unsent, Bool.or_eq_true, Bool.and_eq_true]
      refine edited.imp id fun edited => ⟨?_, ih edited first⟩
      rwa [edited, Bool.and_true, ← Bool.not_eq_true'] at notSent

/-- The statements of a report succeed, and it sends its copy only if no edit has overtaken it. -/
def timely (call : Call) (choice : Choice) (op : Op) (w : World) : Bool :=
  match call, op with
  | .report _, .firstNode _ | .report _, .createNode _ => !choice.dbFails
  | .report _, .sendNode node => !overtaken node.nodeID (sinceRead w.log)
  | _, _ => true

/-! ## Invariants -/

/-- What is shown of a node is saved, or a newer edit is about to be sent; a node that was edited or sent
has a row. -/
structure ShowsSaved (w : World) : Prop where
  known : ∀ nodeID, w.log.any (Event.edits nodeID) = true ∨ shown w.log nodeID ≠ none → w.nodes.lookup nodeID ≠ none
  agrees : ∀ nodeID, shown w.log nodeID = none ∨
    shown w.log nodeID = (w.nodes.lookup nodeID).map Row.settings ∨ unsent nodeID w.log = true

/-- Reports do not change the settings of a row that is there; messages leave a trace if they do. -/
def KeepsSettings : Worker → World → World → Prop
  | .handler, before, after => ∀ nodeID, unsent nodeID after.log = unsent nodeID before.log ∧
    (before.nodes.lookup nodeID ≠ none →
      (after.nodes.lookup nodeID).map Row.settings = (before.nodes.lookup nodeID).map Row.settings)
  | .reporter, before, after => ∀ nodeID, editedSince nodeID after = true ∨
    (editedSince nodeID before = false ∧
      (after.nodes.lookup nodeID).map Row.settings = (before.nodes.lookup nodeID).map Row.settings)

section Shown

variable {config : Config} {w : World} {choice : Choice} {op : Op}

theorem edited_of_since {nodeID : String} (edited : editedSince nodeID w = true) :
    w.log.any (Event.edits nodeID) = true := by
  obtain ⟨e, member, edits⟩ := List.any_eq_true.mp edited
  exact List.any_eq_true.mpr ⟨e, (List.takeWhile_sublist _).subset member, edits⟩

theorem shown_cons (e : Event) (log : List Event) (nodeID : String) :
    shown (e :: log) nodeID = (e.sent nodeID).or (shown log nodeID) := by
  rw [shown, List.findSome?_cons]
  cases e.sent nodeID <;> rfl

/-- Something that is sent is sent by the operation. -/
theorem sent_cases {call : Call} {nodeID : String} {settings : Settings}
    (sent : (w.event call choice op).sent nodeID = some settings) :
    ∃ node, op = .sendNode node ∧ node.nodeID = nodeID ∧ node.settings = settings := by
  cases op with
  | sendNode node =>
    obtain ⟨same, settings⟩ := Option.ite_none_right_eq_some.mp sent
    exact ⟨node, rfl, same, Option.some.inj settings⟩
  | _ => contradiction

/-- A report that sends what is saved, or what an edit is about to replace, keeps the invariant. -/
theorem report_shows (n : Yanic.Node) (holds : ShowsSaved w) (inTime : timely (.report n) choice op w = true)
    (notSave : ∀ row, op ≠ .saveNode row)
    (sends : ∀ node, op = .sendNode node →
      (w.nodes.lookup node.nodeID).map Row.settings = some node.settings ∨ editedSince node.nodeID w = true) :
    Pool.Kept ShowsSaved KeepsSettings .reporter w (w.handle (.report n) choice op).2 := by
  have kept (nodeID : String) (present : w.nodes.lookup nodeID ≠ none) :
      ((w.handle (.report n) choice op).2.nodes.lookup nodeID).map Row.settings =
        (w.nodes.lookup nodeID).map Row.settings := by
    rw [w.lookup_handle]
    cases written : (w.event (.report n) choice op).written with
    | none => exact Event.rowAfter_settings written ..
    | some row =>
      rcases w.written_cases _ choice written with saved | ⟨_, free⟩
      · exact absurd saved (notSave row)
      · have other : row.nodeID ≠ nodeID := by
          rintro rfl
          exact present free
        rw [Event.rowAfter_written written, if_neg other]
  have stays (nodeID : String) (present : w.nodes.lookup nodeID ≠ none) :
      (w.handle (.report n) choice op).2.nodes.lookup nodeID ≠ none := by
    intro gone
    have same := kept nodeID present
    rw [gone] at same
    exact present (Option.map_eq_none_iff.mp same.symm)
  refine ⟨⟨fun nodeID happened => stays nodeID ?_, fun nodeID => ?_⟩, fun other different => ?_⟩
  · rw [w.handle_log, shown_cons] at happened
    cases sent : (w.event (.report n) choice op).sent nodeID with
    | none =>
      rw [sent, Option.none_or] at happened
      exact holds.known nodeID happened
    | some settings =>
      obtain ⟨node, rfl, rfl, rfl⟩ := sent_cases sent
      rcases sends node rfl with saved | edited
      · intro missing
        rw [missing] at saved
        contradiction
      · exact holds.known _ (.inl (edited_of_since edited))
  · rw [w.handle_log, shown_cons]
    change _ ∨ _ ∨ unsent nodeID w.log = true
    cases sent : (w.event (.report n) choice op).sent nodeID with
    | none =>
      rw [Option.none_or]
      by_cases missing : w.nodes.lookup nodeID = none
      · exact .inl (by_contra fun seen => holds.known nodeID (.inr seen) missing)
      · rw [kept nodeID missing]
        exact holds.agrees nodeID
    | some settings =>
      obtain ⟨node, rfl, rfl, rfl⟩ := sent_cases sent
      rcases sends node rfl with saved | edited
      · have missing : w.nodes.lookup node.nodeID ≠ none := fun missing => by
          rw [missing] at saved
          contradiction
        exact .inr (.inl ((Option.some_or ..).trans (saved.symm.trans (kept _ missing).symm)))
      · exact .inr (.inr (unsent_of_edited edited (by simpa [timely] using inTime)))
  · cases other with
    | reporter => contradiction
    | handler => exact fun nodeID => ⟨rfl, kept nodeID⟩

/-- A message that sends what is saved keeps the invariant. -/
theorem message_shows (msg : Message) (holds : ShowsSaved w)
    (unchanged : (w.event (.message msg) choice op).changed = none)
    (sends : ∀ node, op = .sendNode node → (w.nodes.lookup node.nodeID).map Row.settings = some node.settings) :
    Pool.Kept ShowsSaved KeepsSettings .handler w (w.handle (.message msg) choice op).2 := by
  have wrote (nodeID : String) (wrote : (w.event (.message msg) choice op).wrote nodeID = true) :
      (w.handle (.message msg) choice op).2.nodes.lookup nodeID ≠ none := by
    obtain ⟨row, written, same⟩ := (Option.any_eq_true _ _).mp wrote
    rw [w.lookup_handle, Event.rowAfter_written written, if_pos (of_decide_eq_true same)]
    exact Option.some_ne_none row
  have kept (nodeID : String) (other : (w.event (.message msg) choice op).wrote nodeID = false) :
      (w.handle (.message msg) choice op).2.nodes.lookup nodeID = w.nodes.lookup nodeID := by
    rw [w.lookup_handle, Event.rowAfter, unchanged]
    rw [Event.wrote] at other
    cases written : (w.event (.message msg) choice op).written with
    | none => rfl
    | some row =>
      rw [written] at other
      exact if_neg (of_decide_eq_false other)
  have edits (nodeID : String) : (w.event (.message msg) choice op).edits nodeID =
      (w.event (.message msg) choice op).wrote nodeID := Bool.true_and _
  refine ⟨⟨fun nodeID happened => ?_, fun nodeID => ?_⟩, fun other different => ?_⟩
  · cases own : (w.event (.message msg) choice op).wrote nodeID with
    | true => exact wrote nodeID own
    | false =>
      rw [kept nodeID own]
      rw [w.handle_log, List.any_cons, edits, own, Bool.false_or, shown_cons] at happened
      cases sent : (w.event (.message msg) choice op).sent nodeID with
      | none =>
        rw [sent, Option.none_or] at happened
        exact holds.known nodeID happened
      | some settings =>
        obtain ⟨node, rfl, rfl, rfl⟩ := sent_cases sent
        intro missing
        have saved := sends node rfl
        rw [missing] at saved
        contradiction
  · rw [w.handle_log, shown_cons, unsent, edits]
    cases own : (w.event (.message msg) choice op).wrote nodeID with
    | true => exact .inr (.inr rfl)
    | false =>
      rw [kept nodeID own]
      cases sent : (w.event (.message msg) choice op).sent nodeID with
      | none =>
        have quiet : (w.event (.message msg) choice op).announces nodeID = false := by
          rw [Event.announces, sent]
          rfl
        rw [quiet]
        exact holds.agrees nodeID
      | some settings =>
        obtain ⟨node, rfl, rfl, rfl⟩ := sent_cases sent
        exact .inr (.inl (sends node rfl).symm)
  · cases other with
    | handler => contradiction
    | reporter =>
      intro nodeID
      have since : editedSince nodeID (w.handle (.message msg) choice op).2 =
          ((w.event (.message msg) choice op).wrote nodeID || editedSince nodeID w) := by
        rw [← edits, editedSince, w.handle_log, sinceRead_cons]
        rfl
      rw [since]
      cases own : (w.event (.message msg) choice op).wrote nodeID with
      | true => exact .inl rfl
      | false =>
        rw [kept nodeID own, Bool.false_or]
        cases editedSince nodeID w with
        | true => exact .inl rfl
        | false => exact .inr ⟨rfl, rfl⟩

end Shown

/-! ## Edits -/

/-- Every saved edit was sent to the clients. -/
def AllSent (w : World) : Prop := ∀ nodeID, unsent nodeID w.log = false

/-- The edit of a node is saved, and every other one was sent. -/
def SavedNotSent (node : Node) (w : World) : Prop :=
  (w.nodes.lookup node.nodeID).map Row.settings = some node.settings ∧
    ∀ nodeID ≠ node.nodeID, unsent nodeID w.log = false

theorem AllSent.stable {before after : World} (sent : AllSent before)
    (kept : KeepsSettings .handler before after) : AllSent after :=
  fun nodeID => (kept nodeID).1.trans (sent nodeID)

theorem SavedNotSent.stable {node : Node} {before after : World} (pending : SavedNotSent node before)
    (kept : KeepsSettings .handler before after) : SavedNotSent node after := by
  have present : before.nodes.lookup node.nodeID ≠ none := fun missing => by
    have saved := pending.1
    rw [missing] at saved
    contradiction
  exact ⟨((kept _).2 present).trans pending.1, fun nodeID other => (kept nodeID).1.trans (pending.2 nodeID other)⟩

section Edits

variable {config : Config} {w : World} {choice : Choice} {op : Op} (msg : Message)

/-- An operation that writes and sends no node changes nothing that matters here. -/
theorem message_plain (holds : ShowsSaved w) (reads : op.writesNodes = false) (notSend : ∀ node, op ≠ .sendNode node) :
    Pool.Kept ShowsSaved KeepsSettings .handler w (w.handle (.message msg) choice op).2 ∧
      (∀ nodeID, unsent nodeID (w.handle (.message msg) choice op).2.log = unsent nodeID w.log) ∧
      (w.handle (.message msg) choice op).2.nodes = w.nodes := by
  obtain ⟨written, changed⟩ := w.event_reads (.message msg) choice reads
  refine ⟨message_shows msg holds changed fun node same => absurd same (notSend node), fun nodeID => ?_,
    w.act_nodes choice reads⟩
  have quiet : (w.event (.message msg) choice op).sent nodeID = none := by
    by_contra sent
    obtain ⟨settings, sent⟩ := Option.ne_none_iff_exists'.mp sent
    obtain ⟨node, same, _⟩ := sent_cases sent
    exact notSend node same
  rw [w.handle_log, unsent, Event.edits, Event.wrote, written, Event.announces, quiet]
  simp

private theorem aside_plain (aside : Aside op) : op.writesNodes = false ∧ ∀ node, op ≠ .sendNode node := by
  cases op <;> first | exact ⟨rfl, fun node same => by contradiction⟩ | contradiction

private theorem aside_keeps (node : Node) (holds : ShowsSaved w) (aside : Aside op) :
    Pool.Kept ShowsSaved KeepsSettings .handler w (w.handle (.message msg) choice op).2 ∧
      (AllSent w → AllSent (w.handle (.message msg) choice op).2) ∧
      (SavedNotSent node w → SavedNotSent node (w.handle (.message msg) choice op).2) := by
  obtain ⟨reads, notSend⟩ := aside_plain aside
  obtain ⟨kept, quiet, nodes⟩ := message_plain msg holds reads notSend
  refine ⟨kept, fun sent nodeID => (quiet nodeID).trans (sent nodeID), fun pending => ⟨?_, fun nodeID other => ?_⟩⟩
  · rw [nodes]
    exact pending.1
  · exact (quiet nodeID).trans (pending.2 nodeID other)

/-- What is left of an edit after its row was written, or not. -/
theorem announceEdit_guarded (node : Node) (saved : Bool)
    (now : if saved then SavedNotSent node w else AllSent w) :
    (pool config).Guarded (fun call choice op w => timely call choice op w = true) ShowsSaved KeepsSettings .handler
      (.message msg) (fun _ => AllSent) (announceEdit config msg node saved) w := by
  cases saved with
  | false =>
    have only : Only Aside (announceEdit config msg node false) :=
      Only.bind (only_perform trivial) fun _ => only_done ()
    refine guarded_only only AllSent (fun _ _ => AllSent.stable) (fun op choice before aside holds sent _ => ?_) now
    obtain ⟨kept, keeps, _⟩ := aside_keeps msg node holds aside
    exact ⟨kept, keeps sent⟩
  | true =>
    refine Pool.guarded_bind.mpr ((guarded_only (only_perform trivial : Only Aside (perform (.answer _ _)))
      (SavedNotSent node) (fun _ _ => SavedNotSent.stable) (fun op choice before aside holds pending _ => ?_) now).mono
      fun _ w pending => ?_)
    · obtain ⟨kept, _, keeps⟩ := aside_keeps msg node holds aside
      exact ⟨kept, keeps pending⟩
    · change Pool.Guarded _ _ _ _ _ _ _ (updateFromList config node >>= fun listed => perform (.sendNode listed)) w
      refine Pool.guarded_bind.mpr ((Pool.Guarded.of_satisfies (updateFromList_keeps config node) (SavedNotSent node)
        (fun _ _ => SavedNotSent.stable) (fun op choice before plain holds pending _ => ?_) pending).mono
        fun listed w ended => ?_)
      · obtain ⟨kept, _, keeps⟩ := aside_keeps msg node holds (aside_of_plain (plain_of_lists plain))
        exact ⟨trivial, kept, keeps pending⟩
      · obtain ⟨⟨settings, nodeID⟩, pending⟩ := ended
        refine ⟨SavedNotSent node, fun _ _ => SavedNotSent.stable, pending, fun choice before holds pending _ =>
          ⟨message_shows msg holds rfl fun sent same => ?_, fun other => ?_⟩⟩
        · cases same
          rw [nodeID, settings]
          exact pending.1
        · change unsent other (before.event (.message msg) choice (.sendNode listed) :: before.log) = false
          have announced : (before.event (.message msg) choice (.sendNode listed)).announces other =
              decide (node.nodeID = other) := by
            rw [← nodeID]
            change (if listed.nodeID = other then some listed.settings else none).isSome = _
            split <;> simp_all
          rw [unsent, announced]
          rcases eq_or_ne other node.nodeID with rfl | different
          · simp [Event.edits, Event.wrote, World.event, Event.written]
          · rw [pending.2 other different]
            simp [Event.edits, Event.wrote, World.event, Event.written]

/-- After the row of a node was written as the edit wants it, or not. -/
theorem after_write {row : Row} {node : Node} (saved : Bool)
    (written : (w.event (.message msg) choice op).written = if saved then some row else none)
    (key : row.nodeID = node.nodeID) (settings : row.settings = node.settings)
    (sent : AllSent w) : if saved then SavedNotSent node (w.handle (.message msg) choice op).2
      else AllSent (w.handle (.message msg) choice op).2 := by
  have unsent_eq (nodeID : String) : unsent nodeID (w.handle (.message msg) choice op).2.log =
      (w.event (.message msg) choice op).wrote nodeID := by
    rw [w.handle_log, unsent, sent nodeID, Bool.and_false, Bool.or_false]
    exact Bool.true_and _
  cases saved with
  | false => exact fun nodeID => (unsent_eq nodeID).trans (by rw [Event.wrote, written]; rfl)
  | true =>
    refine ⟨?_, fun nodeID other => (unsent_eq nodeID).trans ?_⟩
    · rw [w.lookup_handle, Event.rowAfter_written written, if_pos key, Option.map_some, settings]
    · rw [Event.wrote, written]
      exact decide_eq_false fun same => other (same.symm.trans key)

theorem edit_announced {node : Node} (present : node.nodeID ≠ "") (sent : AllSent w) :
    (pool config).Guarded (fun call choice op w => timely call choice op w = true) ShowsSaved KeepsSettings .handler
      (.message msg) (fun _ => AllSent) (saveEdit node >>= announceEdit config msg node) w := by
  have stable (before after : World) : AllSent before → KeepsSettings .handler before after → AllSent after :=
    AllSent.stable
  apply guarded_edit AllSent fun copy w => copy.nodeID = node.nodeID ∧ AllSent w
  · exact stable
  · exact fun copy before after knows kept => ⟨knows.1, stable before after knows.2 kept⟩
  · intro choice before holds sent _
    have reads : Op.writesNodes (.firstNode node.nodeID) = false := rfl
    obtain ⟨kept, quiet, _⟩ := @message_plain before choice _ msg holds reads fun _ same => by contradiction
    have sent (nodeID : String) := (quiet nodeID).trans (sent nodeID)
    exact ⟨kept, sent, fun copy found => ⟨(before.firstNode_found choice found).2 present, sent⟩⟩
  · refine fun copy choice before holds ⟨same, sent⟩ _ =>
      ⟨message_shows msg holds rfl fun _ same => by contradiction, announceEdit_guarded msg node _ ?_⟩
    exact after_write msg _ (before.written_saveNode _ choice _) same rfl sent
  · refine fun choice before holds sent _ =>
      ⟨message_shows msg holds rfl fun _ same => by contradiction, announceEdit_guarded msg node _ ?_⟩
    exact after_write msg _ (before.written_createNode _ choice _) rfl rfl sent
  · exact sent

end Edits

/-! ## Reports -/

/-- The settings of a report's copy are saved, or an edit has replaced them since. -/
def Current (nodeID : String) (settings : Option Settings) (w : World) : Prop :=
  (w.nodes.lookup nodeID).map Row.settings = settings ∨ editedSince nodeID w = true

theorem Current.stable {nodeID : String} {settings : Option Settings} {before after : World}
    (current : Current nodeID settings before) (kept : KeepsSettings .reporter before after) :
    Current nodeID settings after := by
  rcases kept nodeID with edited | ⟨unedited, same⟩
  · exact .inr edited
  · refine current.imp same.trans fun edited => ?_
    rw [unedited] at edited
    contradiction

section Reports

variable {config : Config} {w : World} {choice : Choice} {op : Op} (n : Yanic.Node) {nodeID : String}

/-- An operation of a report that does not create the row of its node keeps the copy current. -/
theorem report_current {settings : Option Settings} (current : Current nodeID settings w)
    (notRead : ∀ key, op ≠ .firstNode key) (notCreate : ∀ row, op ≠ .createNode row)
    (notSave : ∀ row, op ≠ .saveNode row) :
    Current nodeID settings (w.handle (.report n) choice op).2 := by
  refine current.imp (fun same => ?_) fun edited => ?_
  · rw [w.lookup_handle]
    have written : (w.event (.report n) choice op).written = none := by
      by_contra written
      obtain ⟨row, written⟩ := Option.ne_none_iff_exists'.mp written
      rcases w.written_cases _ choice written with saved | ⟨created, _⟩
      · exact notSave row saved
      · exact notCreate row created
    rw [Event.rowAfter_settings written, same]
  · have other : ¬ (w.event (.report n) choice op).readsRow = true := by
      cases op <;> first | exact Bool.false_ne_true | exact absurd rfl (notRead _)
    rw [editedSince, w.handle_log, sinceRead_cons, if_neg other]
    exact edited

/-- The rest of a report whose row was found. -/
theorem refresh_guarded {nodeinfo : Yanic.Nodeinfo} {now : Time} {row : Row} {program : Prog (Except Panic Unit)}
    (only : Only (Refreshes config nodeinfo now row) program) (current : Current row.nodeID (some row.settings) w) :
    (pool config).Guarded (fun call choice op w => timely call choice op w = true) ShowsSaved KeepsSettings .reporter
      (.report n) (fun _ _ => True) program w := by
  refine (guarded_only only (Current row.nodeID (some row.settings)) (fun _ _ => Current.stable)
    (fun op choice before refreshes holds current inTime => ?_) current).mono fun _ _ _ => trivial
  have kept : Pool.Kept ShowsSaved KeepsSettings .reporter before (before.handle (.report n) choice op).2 := by
    refine report_shows n holds inTime (fun saved same => ?_) fun node same => ?_
    · cases same
      contradiction
    · cases same
      obtain ⟨key, settings⟩ := refreshes
      rw [key, settings]
      exact current
  refine ⟨kept, report_current n current ?_ ?_ ?_⟩ <;> rintro _ rfl <;> contradiction

/-- The creation of the row of a new node: afterwards the row is there, or an edit has made it. -/
theorem createNode_current {row : Row} (works : choice.dbFails = false) (missing : Current row.nodeID none w) :
    Current row.nodeID (some row.settings) (w.handle (.report n) choice (.createNode row)).2 := by
  have created := w.createNode_lookup (.report n) choice row works
  split at created
  · exact .inl (by rw [created]; rfl)
  · exact .inr (missing.resolve_left fun same => created (Option.map_eq_none_iff.mp same))

private theorem report_plain {settings : Option Settings} (reads : op.writesNodes = false)
    (notRead : ∀ key, op ≠ .firstNode key) (notSend : ∀ node, op ≠ .sendNode node) (holds : ShowsSaved w)
    (current : Current nodeID settings w) (inTime : timely (.report n) choice op w = true) :
    Pool.Kept ShowsSaved KeepsSettings .reporter w (w.handle (.report n) choice op).2 ∧
      Current nodeID settings (w.handle (.report n) choice op).2 := by
  refine ⟨report_shows n holds inTime ?_ fun node same => absurd same (notSend node),
    report_current n current notRead ?_ ?_⟩ <;> rintro _ rfl <;> contradiction

/-- The row of a new node is made before the node is sent. -/
theorem create_guarded (node : Node) (missing : Current node.nodeID none w) :
    (pool config).Guarded (fun call choice op w => timely call choice op w = true) ShowsSaved KeepsSettings .reporter
      (.report n) (fun _ _ => True) (ExceptT.run (m := Prog) (ε := Panic) do
        let _ ← perform (.createNode node.row)
        if node.blacklist.isNone then perform (.sendNode node)) w := by
  refine ⟨Current node.nodeID none, fun _ _ => Current.stable, missing, fun choice before holds missing inTime => ?_⟩
  refine ⟨report_shows n holds inTime (fun _ same => by contradiction) fun _ same => by contradiction, ?_⟩
  have works : choice.dbFails = false := by simpa [timely] using inTime
  have current : Current node.nodeID (some node.settings) (before.handle (.report n) choice (.createNode node.row)).2 :=
    createNode_current n works missing
  have sends : Only (· = .sendNode node) (ExceptT.run (m := Prog) (ε := Panic)
      (if node.blacklist.isNone then perform (.sendNode node) else pure ())) := by
    split
    · exact only_perform rfl
    · trivial
  refine (guarded_only sends (Current node.nodeID (some node.settings)) (fun _ _ => Current.stable) ?_ current).mono
    fun _ _ _ => trivial
  rintro op choice before rfl holds current inTime
  refine ⟨report_shows n holds inTime (fun _ same => by contradiction) ?_, report_current n current ?_ ?_ ?_⟩
  · rintro _ ⟨⟩
    exact current
  all_goals exact fun _ same => by contradiction

theorem register_guarded (node : Node) (now : Time) (missing : Current node.nodeID none w) :
    (pool config).Guarded (fun call choice op w => timely call choice op w = true) ShowsSaved KeepsSettings .reporter
      (.report n) (fun _ _ => True) (node.register now).run w := by
  refine Pool.guarded_bind.mpr ((guarded_only (runOn_only node.getAddress "uptime") (Current node.nodeID none)
    (fun _ _ => Current.stable) (fun op choice before ssh holds missing inTime => ?_) missing).mono
    fun result w missing => ?_)
  · refine report_plain n ?_ ?_ ?_ holds missing inTime
    · cases op <;> first | rfl | contradiction
    all_goals rintro _ rfl; contradiction
  · rcases result with panic | _ | output
    · trivial
    · exact create_guarded n (node.blacklisted now) missing
    · exact create_guarded n node missing

/-- The rest of a report that has found no row. -/
theorem learn_guarded {nodeinfo : Yanic.Nodeinfo} (known : n.nodeinfo = some nodeinfo) (now : Time)
    (missing : Current nodeinfo.nodeID none w) :
    (pool config).Guarded (fun call choice op w => timely call choice op w = true) ShowsSaved KeepsSettings .reporter
      (.report n) (fun _ _ => True) (learnNew n config now).run w := by
  rw [learnNew_eq]
  refine ⟨Current nodeinfo.nodeID none, fun _ _ => Current.stable, missing,
    fun choice before holds missing inTime => ?_⟩
  have reads : Op.writesNodes (.now .update) = false := rfl
  obtain ⟨kept, missing⟩ := report_plain n reads (fun _ same => by contradiction) (fun _ same => by contradiction)
    holds missing inTime
  refine ⟨kept, ?_⟩
  change Pool.Guarded _ _ _ _ _ _ _ (registerBuilt now (newNode n config.ipPrefix choice.time)).run _
  cases built : newNode n config.ipPrefix choice.time with
  | some node =>
    obtain ⟨learned, _⟩ := newNode_learned known built
    exact register_guarded n node now (learned.nodeID ▸ missing)
  | none => trivial

end Reports

theorem report_guarded (config : Config) (n : Yanic.Node) (w : World) :
    (pool config).Guarded (fun call choice op w => timely call choice op w = true) ShowsSaved KeepsSettings .reporter
      (.report n) (fun _ _ => True) ((pool config).program (.report n)) w := by
  refine guarded_report n (fun clock choice before holds => ?_)
    (fun nodeinfo now choice before known holds inTime => ?_) w
  · exact report_shows n holds rfl (fun _ same => by contradiction) fun _ same => by contradiction
  · refine ⟨?_, fun row program found only => refresh_guarded n only (.inl ?_),
      fun missing => learn_guarded n known now (.inl ?_)⟩
    · exact report_shows n holds inTime (fun _ same => by contradiction) fun _ same => by contradiction
    · rw [before.handle_nodes, before.act_nodes choice rfl, (before.firstNode_found choice found).1, Option.map_some]
    · have works : choice.dbFails = false := by simpa [timely] using inTime
      rw [before.handle_nodes, before.act_nodes choice rfl, before.firstNode_missing choice works missing,
        Option.map_none]

theorem message_guarded (config : Config) (msg : Message) {w : World} (sent : AllSent w) :
    (pool config).Guarded (fun call choice op w => timely call choice op w = true) ShowsSaved KeepsSettings .handler
      (.message msg) (fun _ => AllSent) ((pool config).program (.message msg)) w := by
  refine guarded_message msg (fun _ _ => AllSent.stable) (fun op choice before aside holds sent _ => ?_)
    (fun node _ present w sent => edit_announced msg present sent) sent
  obtain ⟨kept, keeps, _⟩ := aside_keeps msg {} holds aside
  exact ⟨kept, keeps sent⟩

/-- What an idle worker may assume. -/
def Rested : Worker → World → Prop
  | .handler => AllSent
  | .reporter => fun _ => True

/-- Whenever no edit is in progress, the clients show what is saved, if no report sends a copy that an edit
has overtaken. -/
theorem shown_saved (config : Config) {w : World} (fresh : w.log = [])
    {s : Snapshot operations Worker Call (Except Panic Unit) World}
    (reached : (pool config).Reachable
      (Pool.Admits (fun _ => True) fun call choice op w => timely call choice op w = true) (idle w) s)
    (ended : s.active .handler = none) (nodeID : String) :
    shown s.shared.log nodeID = none ∨
      shown s.shared.log nodeID = (s.shared.nodes.lookup nodeID).map Row.settings := by
  have initially : ShowsSaved w := by
    constructor <;> intro nodeID
    · rw [fresh]
      rintro (edited | sent) <;> contradiction
    · rw [fresh]
      exact .inl rfl
  have rests (worker : Worker) : Rested worker w := by
    cases worker with
    | reporter => trivial
    | handler =>
      intro nodeID
      rw [fresh]
      rfl
  have starts (worker : Worker) (call : Call) (current : World) (accepted : (pool config).accepts worker call = true)
      (_ : True) (_ : ShowsSaved current) (rested : Rested worker current) :
      (pool config).Guarded (fun call choice op w => timely call choice op w = true) ShowsSaved
      KeepsSettings worker call
        (fun _ => Rested worker) ((pool config).program call) current := by
    cases worker <;> cases call <;> try contradiction
    · exact report_guarded config _ current
    · exact message_guarded config _ rested
  have stable (worker : Worker) (before after : World) (rested : Rested worker before)
      (kept : KeepsSettings worker before after) : Rested worker after := by
    cases worker with
    | reporter => trivial
    | handler => exact AllSent.stable rested kept
  obtain ⟨holds, rested, _⟩ := reached.guarded ShowsSaved KeepsSettings Rested starts stable initially
    fun worker => ⟨rfl, rests worker⟩
  refine (holds.agrees nodeID).imp id fun agrees => agrees.resolve_right fun pending => ?_
  rw [rested .handler ended nodeID] at pending
  contradiction

theorem shown_saved_editThenReport : ∃ s, (pool Sample.config).run (fun _ => true) timely
      (idle (Sample.world [Sample.row])) Sample.editThenReport = some s ∧
    (shown s.shared.log "f81a67a5e9c1" = none ∨ shown s.shared.log "f81a67a5e9c1" =
      (s.shared.nodes.lookup "f81a67a5e9c1").map Row.settings) := by
  have ends : ((pool Sample.config).run (fun _ => true) timely (idle (Sample.world [Sample.row]))
      Sample.editThenReport).any (fun s => (s.active .handler).isNone) = true := by decide +kernel
  obtain ⟨s, replayed, ended⟩ := (Option.any_eq_true _ _).mp ends
  exact ⟨s, replayed, shown_saved Sample.config rfl
    (.of_run replayed (fun _ _ => trivial) fun _ _ _ _ checked => checked) (Option.isNone_iff_eq_none.mp ended) _⟩

/-- A report that sends its copy after an edit was saved and sent. -/
def overtakenReport : List (Action Worker Call Choice) :=
  [.start .reporter (.report (Sample.report "attic"))] ++ Sample.advance .reporter 5 60 ++
    [.start .handler (.message (Sample.edit "cellar"))] ++ Sample.advance .handler 8 61 ++ [.finish .handler] ++
    Sample.advance .reporter 1 62 ++ [.finish .reporter]

/-- In the end, the clients show what was replaced, although no statement fails. -/
theorem shown_outdated : ¬ ∀ (config : Config) (w : World)
    (s : Snapshot operations Worker Call (Except Panic Unit) World),
    w.log = [] →
    (pool config).Reachable (Pool.Admits (fun _ => True) fun _ choice _ _ => choice.dbFails = false) (idle w) s →
    (∀ worker, s.active worker = none) →
    ∀ nodeID, shown s.shared.log nodeID = none ∨
      shown s.shared.log nodeID = (s.shared.nodes.lookup nodeID).map Row.settings := by
  intro saved
  have outdated : ((pool Sample.config).run (fun _ => true) (fun _ choice _ _ => !choice.dbFails)
      (idle (Sample.world [Sample.row])) overtakenReport).any (fun s =>
        (s.active .reporter).isNone && (s.active .handler).isNone &&
        decide (¬ (shown s.shared.log "f81a67a5e9c1" = none ∨ shown s.shared.log "f81a67a5e9c1" =
          (s.shared.nodes.lookup "f81a67a5e9c1").map Row.settings))) = true := by decide +kernel
  obtain ⟨s, reached, rests, different⟩ := reached_at_rest outdated
  exact of_decide_eq_true different (saved Sample.config _ s rfl reached rests _)

end FreifunkManager
