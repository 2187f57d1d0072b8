import FreifunkManager.Proofs.Programs
import FreifunkManager.Proofs.Worlds

/-! # The two kinds of calls in a run

What there is to show about a report and about a message, when the other worker may move between any
two of their operations.
-/

namespace FreifunkManager

open Effects Program

section Guarded

variable {config : Config} {permitted : Call → Choice → Op → World → Prop} {invariant : World → Prop}
  {rely : Worker → World → World → Prop} {worker : Worker} {call : Call} {resting : World → Prop} {α : Type}

/-- A part that asks for harmless operations only carries an assertion along. -/
theorem guarded_only {allowed : Op → Prop} {program : Prog α} (only : Only allowed program) (assertion : World → Prop)
    (stable : ∀ before after, assertion before → rely worker before after → assertion after)
    (harmless : ∀ op choice before, allowed op → invariant before → assertion before → permitted call choice op before →
      Pool.Kept invariant rely worker before (before.handle call choice op).2 ∧
        assertion (before.handle call choice op).2)
    {w : World} (holds : assertion w) :
    (pool config).Guarded permitted invariant rely worker call (fun _ => assertion) program w := by
  refine (Pool.Guarded.of_satisfies only assertion stable ?_ holds).mono fun _ _ ended => ended.2
  exact fun op choice before asked kept holds admitted =>
    ⟨trivial, harmless op choice before asked kept holds admitted⟩

theorem Announces.reads {node : Node} {op : Op} (announces : Announces node op) : op.writesNodes = false := by
  cases op <;> first | rfl | contradiction

theorem Aside.reads {op : Op} (aside : Aside op) : op.writesNodes = false := by
  cases op <;> first | rfl | contradiction

/-- An edit is guarded if it is after each of its statements: before the row is read and if there is none, `asking`
is known, and of the copy of a row it is what `knows` says. -/
theorem guarded_edit {msg : Message} {node : Node} {ended : Unit → World → Prop} (asking : World → Prop)
    (knows : Row → World → Prop) (stable : ∀ before after, asking before → rely worker before after → asking after)
    (stays : ∀ copy before after, knows copy before → rely worker before after → knows copy after)
    (looks : ∀ choice before, invariant before → asking before →
      permitted (.message msg) choice (.firstNode node.nodeID) before →
      Pool.Kept invariant rely worker before (before.handle (.message msg) choice (.firstNode node.nodeID)).2 ∧
        asking (before.handle (.message msg) choice (.firstNode node.nodeID)).2 ∧
        ∀ copy, (before.act choice (.firstNode node.nodeID)).1 = some copy →
          knows copy (before.handle (.message msg) choice (.firstNode node.nodeID)).2)
    (saves : ∀ copy choice before, invariant before → knows copy before →
      permitted (.message msg) choice (.saveNode (copy.edit node)) before →
      Pool.Kept invariant rely worker before (before.handle (.message msg) choice (.saveNode (copy.edit node))).2 ∧
        (pool config).Guarded permitted invariant rely worker (.message msg) ended
          (announceEdit config msg node (before.act choice (.saveNode (copy.edit node))).1)
          (before.handle (.message msg) choice (.saveNode (copy.edit node))).2)
    (creates : ∀ choice before, invariant before → asking before →
      permitted (.message msg) choice (.createNode (Row.edit { nodeID := node.nodeID } node)) before →
      Pool.Kept invariant rely worker before
          (before.handle (.message msg) choice (.createNode (Row.edit { nodeID := node.nodeID } node))).2 ∧
        (pool config).Guarded permitted invariant rely worker (.message msg) ended
          (announceEdit config msg node (before.act choice (.createNode (Row.edit { nodeID := node.nodeID } node))).1)
          (before.handle (.message msg) choice (.createNode (Row.edit { nodeID := node.nodeID } node))).2)
    {w : World} (begun : asking w) : (pool config).Guarded permitted invariant rely worker (.message msg) ended
      (saveEdit node >>= announceEdit config msg node) w := by
  rw [saveEdit_eq]
  refine ⟨asking, stable, begun, fun choice before holds asked admitted => ?_⟩
  obtain ⟨kept, nothing, found⟩ := looks choice before holds asked admitted
  refine ⟨kept, ?_⟩
  change Pool.Guarded _ _ _ _ _ _ _ (saveFound node (before.act choice (.firstNode node.nodeID)).1 >>=
    announceEdit config msg node) _
  cases answer : (before.act choice (.firstNode node.nodeID)).1 with
  | some copy => exact ⟨knows copy, stays copy, found copy answer, saves copy⟩
  | none => exact ⟨asking, stable, nothing, creates⟩

/-- A message is guarded if the answer to a new client and an edit are, and if all other operations are harmless. -/
theorem guarded_handlers (msg : Message)
    (stable : ∀ before after, resting before → rely worker before after → resting after)
    (personal : ∀ op choice before, Personal op → invariant before → resting before →
      permitted (.message msg) choice op before →
      Pool.Kept invariant rely worker before (before.handle (.message msg) choice op).2 ∧
        resting (before.handle (.message msg) choice op).2)
    (connects : ∀ w, resting w → (pool config).Guarded permitted invariant rely worker (.message msg) (fun _ => resting)
      (connectHandler config) w)
    (edits : msg.subject = MessageType.node → ∀ node, config.decodeNode msg.body = some node → node.nodeID ≠ "" →
      ∀ w, resting w → (pool config).Guarded permitted invariant rely worker (.message msg) (fun _ => resting)
        (saveEdit node >>= announceEdit config msg node) w)
    {w : World} (rested : resting w) :
    (pool config).Guarded permitted invariant rely worker (.message msg) (fun _ => resting)
      ((pool config).program (.message msg)) w := by
  have personals {α : Type} {program : Prog α} (only : Only Personal program) (w : World) (rested : resting w) :
      (pool config).Guarded permitted invariant rely worker (.message msg) (fun _ => resting) program w :=
    guarded_only only resting stable personal rested
  suffices guarded : (pool config).Guarded permitted invariant rely worker (.message msg) (fun _ => resting)
      (handleMessage config msg) w from Pool.guarded_bind.mpr guarded
  rcases handleMessage_kinds config msg with connect | other | ⟨subject, node⟩
  · rw [connect]
    exact connects w rested
  · exact personals other w rested
  · rw [node]
    refine Pool.guarded_bind.mpr ((personals (isLoggedIn_personal msg) w rested).mono fun session w rested => ?_)
    have refuse : Only Personal (perform (.answer msg.subject (.bool false))) := only_perform trivial
    split
    · exact personals (refuse.bind fun _ => only_done ()) w rested
    · split
      · exact personals refuse w rested
      · next node decoded =>
        split
        · exact personals (refuse.bind fun _ => only_done ()) w rested
        · next present => exact edits subject node decoded present w rested

/-- A message is guarded if an edit is, and if all other operations are harmless. -/
theorem guarded_message (msg : Message)
    (stable : ∀ before after, resting before → rely worker before after → resting after)
    (aside : ∀ op choice before, Aside op → invariant before → resting before →
      permitted (.message msg) choice op before →
      Pool.Kept invariant rely worker before (before.handle (.message msg) choice op).2 ∧
        resting (before.handle (.message msg) choice op).2)
    (edits : ∀ node, config.decodeNode msg.body = some node → node.nodeID ≠ "" → ∀ w, resting w →
      (pool config).Guarded permitted invariant rely worker (.message msg) (fun _ => resting)
        (saveEdit node >>= announceEdit config msg node) w)
    {w : World} (rested : resting w) :
    (pool config).Guarded permitted invariant rely worker (.message msg) (fun _ => resting)
      ((pool config).program (.message msg)) w := by
  apply guarded_handlers msg stable _ _ (fun _ => edits) rested
  · exact fun op choice before personal => aside op choice before (aside_of_personal personal)
  · intro w rested
    have only : Only Aside (connectHandler config) := (connectHandler_plain config).weaken fun _ => aside_of_plain
    exact guarded_only only resting stable aside rested

/-- A report is guarded if it is after it has read the row of its node, or has found none, with what is known since
it has read the clock. -/
theorem guarded_report_since (n : Yanic.Node) (begun : Time → World → Prop)
    (stable : ∀ now before after, begun now before → rely worker before after → begun now after)
    (clock : ∀ choice before, invariant before →
      Pool.Kept invariant rely worker before (before.handle (.report n) choice (.now .insertNode)).2 ∧
        begun choice.time (before.handle (.report n) choice (.now .insertNode)).2)
    (reads : ∀ nodeinfo now choice before, n.nodeinfo = some nodeinfo → invariant before → begun now before →
      permitted (.report n) choice (.firstNode nodeinfo.nodeID) before →
      Pool.Kept invariant rely worker before (before.handle (.report n) choice (.firstNode nodeinfo.nodeID)).2 ∧
      (∀ row (program : Prog (Except Panic Unit)), (before.act choice (.firstNode nodeinfo.nodeID)).1 = some row →
        Only (fun op => Refreshes config nodeinfo now row op ∧ op.SeenAt now) program →
        (pool config).Guarded permitted invariant rely worker (.report n) (fun _ _ => True) program
          (before.handle (.report n) choice (.firstNode nodeinfo.nodeID)).2) ∧
      ((before.act choice (.firstNode nodeinfo.nodeID)).1 = none →
        (pool config).Guarded permitted invariant rely worker (.report n) (fun _ _ => True)
          (learnNew n config now).run (before.handle (.report n) choice (.firstNode nodeinfo.nodeID)).2))
    (w : World) : (pool config).Guarded permitted invariant rely worker (.report n) (fun _ _ => True)
      ((pool config).program (.report n)) w := by
  change Pool.Guarded _ _ _ _ _ _ _ (insertNode config n).run w
  cases known : n.nodeinfo with
  | none =>
    unfold insertNode
    rw [known]
    trivial
  | some nodeinfo =>
    rw [insertNode_eq config known]
    refine ⟨fun _ => True, fun _ _ _ _ => trivial, trivial, fun choice before holds _ _ => ?_⟩
    obtain ⟨kept, began⟩ := clock choice before holds
    refine ⟨kept, begun choice.time, stable choice.time, began, fun choice' before holds began admitted => ?_⟩
    obtain ⟨kept, found, missing⟩ := reads nodeinfo choice.time choice' before known holds began admitted
    refine ⟨kept, ?_⟩
    change Pool.Guarded _ _ _ _ _ _ _
      (handleFound config n choice.time (before.act choice' (.firstNode nodeinfo.nodeID)).1) _
    cases answer : (before.act choice' (.firstNode nodeinfo.nodeID)).1 with
    | some row =>
      refine found row _ answer (Only.asking ⟨trivial, trivial⟩ fun updated => ?_)
      have refreshes := (refreshKnown_only known choice.time updated row).and (refreshKnown_seen config choice.time _)
      exact refreshes.weaken fun _ asked => ⟨asked.1.1, asked.2⟩
    | none => exact missing answer

/-- A report is guarded if it is after it has read the row of its node, or has found none. -/
theorem guarded_report (n : Yanic.Node)
    (clock : ∀ clock choice before, invariant before →
      Pool.Kept invariant rely worker before (before.handle (.report n) choice (.now clock)).2)
    (reads : ∀ nodeinfo now choice before, n.nodeinfo = some nodeinfo → invariant before →
      permitted (.report n) choice (.firstNode nodeinfo.nodeID) before →
      Pool.Kept invariant rely worker before (before.handle (.report n) choice (.firstNode nodeinfo.nodeID)).2 ∧
      (∀ row (program : Prog (Except Panic Unit)), (before.act choice (.firstNode nodeinfo.nodeID)).1 = some row →
        Only (Refreshes config nodeinfo now row) program →
        (pool config).Guarded permitted invariant rely worker (.report n) (fun _ _ => True) program
          (before.handle (.report n) choice (.firstNode nodeinfo.nodeID)).2) ∧
      ((before.act choice (.firstNode nodeinfo.nodeID)).1 = none →
        (pool config).Guarded permitted invariant rely worker (.report n) (fun _ _ => True)
          (learnNew n config now).run (before.handle (.report n) choice (.firstNode nodeinfo.nodeID)).2))
    (w : World) : (pool config).Guarded permitted invariant rely worker (.report n) (fun _ _ => True)
      ((pool config).program (.report n)) w := by
  apply guarded_report_since n (fun _ _ => True) (fun _ _ _ _ _ => trivial)
  · exact fun choice before holds => ⟨clock .insertNode choice before holds, trivial⟩
  · intro nodeinfo now choice before known holds _ admitted
    obtain ⟨kept, found, missing⟩ := reads nodeinfo now choice before known holds admitted
    exact ⟨kept, fun row program answer only => found row program answer (only.weaken fun _ => And.left), missing⟩

end Guarded

/-- A replayed run without a failing statement, after which both workers rest. -/
theorem reached_at_rest {config : Config} {w : World} {actions : List (Action Worker Call Choice)}
    {check : Snapshot operations Worker Call (Except Panic Unit) World → Bool}
    (found : ((pool config).run (fun _ => true) (fun _ choice _ _ => !choice.dbFails) (idle w) actions).any (fun s =>
      (s.active .reporter).isNone && (s.active .handler).isNone && check s) = true) :
    ∃ s, (pool config).Reachable (Pool.Admits (fun _ => True) fun _ choice _ _ => choice.dbFails = false) (idle w) s ∧
      (∀ worker, s.active worker = none) ∧ check s = true := by
  obtain ⟨s, replayed, ended⟩ := (Option.any_eq_true _ _).mp found
  simp only [Bool.and_eq_true, Option.isNone_iff_eq_none] at ended
  obtain ⟨⟨reporter, handler⟩, checked⟩ := ended
  have succeeds (choice : Choice) (checked : (!choice.dbFails) = true) :
      choice.dbFails = false := by simpa using checked
  refine ⟨s, .of_run replayed (fun _ _ => trivial) fun _ choice _ _ => succeeds choice, fun worker => ?_, checked⟩
  cases worker with
  | reporter => exact reporter
  | handler => exact handler

end FreifunkManager
