import FreifunkManager.Proofs.Programs
import FreifunkManager.Proofs.Worlds

/-! # One call at a time

A call that is served alone runs to its end; what it does to a part of the world follows from what its
operations do to this part (`serve_along`). The log only grows, by events of the call.
-/

namespace FreifunkManager

open Effects Program

/-- The events since an earlier state. -/
def World.since (after before : World) : List Event := after.log.take (after.log.length - before.log.length)

theorem World.since_eq {before after : World} {events : List Event} (grown : after.log = events ++ before.log) :
    after.since before = events := by
  rw [since, grown, List.length_append, Nat.add_sub_cancel, List.take_left]

/-- The database works throughout. -/
def Step.Works (step : Step) : Prop := ∀ i, (step.choices i).dbFails = false

/-! ## The log -/

/-- The same world with another log. -/
def World.withLog (w : World) (log : List Event) : World := { w with log }

/-- No operation reads the log. -/
theorem World.act_withLog (choice : Choice) (op : Op) (w : World) (log : List Event) :
    (w.withLog log).act choice op = ((w.act choice op).1, (w.act choice op).2.withLog log) := by
  cases op with
  | createNode row =>
    simp only [act, withLog]
    split <;> rfl
  | createSession session =>
    simp only [act, withLog]
    split <;> rfl
  | _ =>
    simp only [act, withLog]
    try split_ifs <;> rfl

/-- A program does the same whatever the log is. -/
theorem run_withLog {α : Type} (step : Step) (program : Prog α) (w : World) (i : ℕ) :
    ∃ (result : α) (after : World) (j : ℕ) (events : List Event), ∀ log,
      program.run step.handle (w.withLog log, i) = (result, after.withLog (events ++ log), j) := by
  induction program generalizing w i with
  | done value => exact ⟨value, w, i, [], fun log => rfl⟩
  | ask op next ih =>
    obtain ⟨result, after, j, events, same⟩ :=
      ih (w.act (step.choices i) op).1 (w.act (step.choices i) op).2 (i + 1)
    refine ⟨result, after, j, events ++ [w.event step.call (step.choices i) op], fun log => ?_⟩
    have handled : step.handle op (w.withLog log, i) = ((w.act (step.choices i) op).1,
        (w.act (step.choices i) op).2.withLog (w.event step.call (step.choices i) op :: log), i + 1) := by
      unfold Step.handle World.handle
      simp only [World.act_withLog]
      rfl
    rw [run_ask, handled, List.append_assoc]
    exact same _

theorem serve_withLog (config : Config) (step : Step) (w : World) :
    ∃ (after : World) (events : List Event) (alive : Bool), ∀ log,
      serve config step (w.withLog log) = (after.withLog (events ++ log), alive) := by
  obtain ⟨result, after, _, events, same⟩ := run_withLog step (step.call.program config) w 0
  refine ⟨after, events, result.isOk, fun log => ?_⟩
  unfold serve
  rw [same]

theorem serve_log (config : Config) (step : Step) (w : World) :
    (serve config step w).1 =
      (serve config step (w.withLog [])).1.withLog ((serve config step (w.withLog [])).1.log ++ w.log) := by
  obtain ⟨after, events, alive, same⟩ := serve_withLog config step w
  have here : serve config step w = (after.withLog (events ++ w.log), alive) := same w.log
  rw [here, same, List.append_nil]
  rfl

/-- The events of a call do not depend on the log before it. -/
theorem serve_since (config : Config) (step : Step) (w : World) :
    (serve config step w).1.since w = (serve config step (w.withLog [])).1.log :=
  World.since_eq (by rw [serve_log]; rfl)

theorem serve_grown (config : Config) (step : Step) (w : World) :
    (serve config step w).1.log = (serve config step w).1.since w ++ w.log := by
  rw [serve_since, serve_log]
  rfl

/-! ## Rules -/

section Serve

variable (config : Config) (step : Step)

theorem serve_along {σ : Type} (view : World → σ) (moves : (op : Op) → σ → op.Reply → σ → Prop)
    (conforms : ∀ op i w, moves op (view w) (w.handle step.call (step.choices i) op).1
      (view (w.handle step.call (step.choices i) op).2))
    {wanted : Except Panic Unit → σ → Prop} {w : World}
    (along : (step.call.program config).Along (S := operations) moves wanted (view w)) :
    ∃ result, wanted result (view (serve config step w).1) ∧ (serve config step w).2 = result.isOk :=
  ⟨_, along.run step.handle (fun whole => view whole.1) (fun op whole => conforms op whole.2 whole.1) (w, 0), rfl⟩

/-- How the operations of a step move the world. -/
def Step.Moves (op : Op) (w : World) (reply : op.Reply) (after : World) : Prop :=
  ∃ i, reply = (w.act (step.choices i) op).1 ∧ after = (w.handle step.call (step.choices i) op).2

/-- What a call does to the whole world. -/
theorem serve_moves (wanted : World → Prop) {w : World}
    (along : (step.call.program config).Along (S := operations) step.Moves (fun _ => wanted) w) :
    wanted (serve config step w).1 := by
  obtain ⟨_, ended, _⟩ := serve_along config step id step.Moves (fun _ i _ => ⟨i, rfl, rfl⟩) along
  exact ended

/-- How the operations of a step move the world and its place among the choices. -/
def Step.Next (op : Op) (start : World × ℕ) (reply : op.Reply) (after : World × ℕ) : Prop :=
  reply = (start.1.act (step.choices start.2) op).1 ∧
    after = ((start.1.handle step.call (step.choices start.2) op).2, start.2 + 1)

/-- With the choices in their order a program has one end. -/
theorem along_next_iff {α : Type} {program : Prog α} {wanted : α → World × ℕ → Prop} {start : World × ℕ} :
    program.Along (S := operations) step.Next wanted start ↔
      wanted (program.run step.handle start).1 (program.run step.handle start).2 := by
  induction program generalizing start with
  | done value => exact Iff.rfl
  | ask op next ih =>
    constructor
    · exact fun along => ih _ |>.mp (along _ _ ⟨rfl, rfl⟩)
    · rintro ended _ _ ⟨rfl, rfl⟩
      exact ih _ |>.mpr ended

/-- What a call does with the choices in their order. -/
theorem serve_next (wanted : World → Bool → Prop) {w : World}
    (along : (step.call.program config).Along (S := operations) step.Next
      (fun result after => wanted after.1 result.isOk) (w, 0)) :
    wanted (serve config step w).1 (serve config step w).2 :=
  along.run step.handle id (fun _ _ => ⟨rfl, rfl⟩) (w, 0)

/-- An invariant that all operations keep which a call may ask for. -/
theorem serve_keeps {allowed : Op → Prop} {promised : (op : Op) → op.Reply → Prop}
    (satisfied : (step.call.program config).Satisfies (S := operations) allowed promised fun _ => True)
    (invariant : World → Prop)
    (keeps : ∀ op i w, allowed op → invariant w → promised op (w.act (step.choices i) op).1 ∧
      invariant (w.handle step.call (step.choices i) op).2)
    {w : World} (holds : invariant w) : invariant (serve config step w).1 := by
  refine serve_moves config step invariant
    ((Along.of_satisfies satisfied invariant ?_ holds).mono fun _ _ ended => ended.2)
  rintro op w _ _ asks holds ⟨i, rfl, rfl⟩
  exact keeps op i w asks holds

/-- A call only adds events to the log, for operations that it asks for. -/
theorem serve_grows {allowed : Op → Prop} {promised : (op : Op) → op.Reply → Prop}
    (satisfied : (step.call.program config).Satisfies (S := operations) allowed promised fun _ => True)
    (kept : ∀ op i (w : World), promised op (w.act (step.choices i) op).1) (w : World) :
    ∃ events, (serve config step w).1.log = events ++ w.log ∧ ∀ e ∈ events, e.call = step.call ∧ allowed e.op := by
  refine serve_keeps config step satisfied (fun after => ∃ events, after.log = events ++ w.log ∧
    ∀ e ∈ events, e.call = step.call ∧ allowed e.op) ?_ ⟨[], rfl, List.forall_mem_nil _⟩
  rintro op i after asks ⟨events, grown, own⟩
  refine ⟨kept op i after, after.event step.call (step.choices i) op :: events, ?_, ?_⟩
  · rw [World.handle_log, grown, List.cons_append]
  · exact List.forall_mem_cons.mpr ⟨⟨rfl, asks⟩, own⟩

/-- A message never ends the process. -/
theorem serve_message {msg : Message} (message : step.call = .message msg) (w : World) :
    (serve config step w).2 = true := by
  have survives (program : Prog Unit) (start : World × ℕ) :
      ((Except.ok <$> program : Prog (Except Panic Unit)).run step.handle start).1.isOk = true := by
    rw [map_eq_bind_pure_comp, run_bind]
    rfl
  unfold serve
  rw [message]
  exact survives _ _

/-- A message goes as its handler does. -/
theorem message_along {msg : Message} (message : step.call = .message msg) {σ : Type} (view : World → σ)
    (moves : (op : Op) → σ → op.Reply → σ → Prop)
    (conforms : ∀ op i w, moves op (view w) (w.handle step.call (step.choices i) op).1
      (view (w.handle step.call (step.choices i) op).2))
    {wanted : σ → Prop} {w : World}
    (along : (handleMessage config msg).Along (S := operations) moves (fun _ => wanted) (view w)) :
    wanted (view (serve config step w).1) := by
  have maps : (step.call.program config).Along (S := operations) moves (fun _ => wanted) (view w) := by
    rw [message]
    exact along_bind.mpr (along.mono fun _ _ ended => ended)
  obtain ⟨_, ended, _⟩ := serve_along config step view moves conforms maps
  exact ended

/-- What a message does to the whole world. -/
theorem message_moves {msg : Message} (message : step.call = .message msg) (wanted : World → Prop) {w : World}
    (along : (handleMessage config msg).Along (S := operations) step.Moves (fun _ => wanted) w) :
    wanted (serve config step w).1 :=
  message_along config step message id step.Moves (fun _ i _ => ⟨i, rfl, rfl⟩) along

/-- A part of a call whose events are all as wanted. -/
theorem along_events {α : Type} {allowed : Op → Prop} {program : Prog α} (only : Only allowed program)
    (P : Event → Prop) (fine : ∀ e : Event, allowed e.op → P e) {w : World} (holds : ∀ e ∈ w.log, P e) :
    program.Along (S := operations) step.Moves (fun _ after => ∀ e ∈ after.log, P e) w := by
  refine (Along.of_satisfies only (fun after => ∀ e ∈ after.log, P e) ?_ holds).mono fun _ _ ended => ended.2
  rintro op w _ _ asks holds ⟨i, rfl, rfl⟩
  exact ⟨trivial, List.forall_mem_cons.mpr ⟨fine _ asks, holds⟩⟩

theorem serveAll_cons (rest : List Step) {w : World} (survives : (serve config step w).2 = true) :
    serveAll config (step :: rest) w = serveAll config rest (serve config step w).1 := by
  rw [serveAll, show serve config step w = ((serve config step w).1, true) from Prod.ext rfl survives]

theorem serveAll_cons_panics (rest : List Step) {w : World} (panics : (serve config step w).2 = false) :
    serveAll config (step :: rest) w = (serve config step w).1 := by
  rw [serveAll, show serve config step w = ((serve config step w).1, false) from Prod.ext rfl panics]

end Serve

/-! ## Reports -/

section Reports

variable (config : Config) (step : Step) {n : Yanic.Node} {nodeinfo : Yanic.Nodeinfo} {w : World}

/-- The log after a report has read the clock and the row of its node. -/
def Step.begun (nodeID : String) (found : Option Row) (now read : Time) (log : List Event) : List Event :=
  ⟨step.call, .firstNode nodeID, found, read⟩ :: ⟨step.call, .now .insertNode, now, now⟩ :: log

/-- A report reads the clock and the row of its node before it does anything else. -/
theorem insertNode_along (known : n.nodeinfo = some nodeinfo) {wanted : Except Panic Unit → World → Prop}
    (found : ∀ i j k row, (w.act (step.choices j) (.firstNode nodeinfo.nodeID)).1 = some row →
      (refreshKnown config (step.choices i).time
        (row.node.update (some n) config.ipPrefix (step.choices k).time)).run.Along (S := operations) step.Moves
        wanted (w.withLog (⟨step.call, .now .update, (step.choices k).time, (step.choices k).time⟩ ::
          step.begun nodeinfo.nodeID (some row) (step.choices i).time (step.choices j).time w.log)))
    (missing : ∀ i j, (w.act (step.choices j) (.firstNode nodeinfo.nodeID)).1 = none →
      (learnNew n config (step.choices i).time).run.Along (S := operations) step.Moves wanted
        (w.withLog (step.begun nodeinfo.nodeID none (step.choices i).time (step.choices j).time w.log))) :
    (insertNode config n).run.Along (S := operations) step.Moves wanted w := by
  unfold insertNode
  rw [known]
  rintro now _ ⟨i, rfl, rfl⟩ answer _ ⟨j, same, rfl⟩
  have read : World.event step.call (step.choices j) (w.handle step.call (step.choices i) (.now .insertNode)).2
      (.firstNode nodeinfo.nodeID) = ⟨step.call, .firstNode nodeinfo.nodeID, answer, (step.choices j).time⟩ := by
    rw [same]
    rfl
  rw [World.handle_eq, read]
  cases answer with
  | some row =>
    rintro updated _ ⟨k, rfl, rfl⟩
    exact found i j k row same.symm
  | none => exact missing i j same.symm

end Reports

/-! ## What the events of a run are known to be -/

section Events

variable {P : Event → Prop} {invariant : World → Prop}

private theorem run_keeps_if {α : Type} {step : Step} {allowed : Op → Prop} {promised : (op : Op) → op.Reply → Prop}
    (keeps : ∀ op i w, allowed op → P (w.event step.call (step.choices i) op) → invariant w →
      promised op (w.act (step.choices i) op).1 ∧ invariant (w.handle step.call (step.choices i) op).2)
    {program : Prog α} (satisfied : program.Satisfies (S := operations) allowed promised fun _ => True)
    {w : World} {i : ℕ} (holds : invariant w) :
    ∃ events, (program.run step.handle (w, i)).2.1.log = events ++ w.log ∧
      ((∀ e ∈ events, P e) → invariant (program.run step.handle (w, i)).2.1) := by
  induction program generalizing w i with
  | done value => exact ⟨[], rfl, fun _ => holds⟩
  | ask op next ih =>
    by_cases known : P (w.event step.call (step.choices i) op)
    · obtain ⟨kept, holds⟩ := keeps op i w satisfied.1 known holds
      obtain ⟨events, grown, after⟩ := ih _ (satisfied.2 _ kept) (i := i + 1) holds
      refine ⟨events ++ [w.event step.call (step.choices i) op], grown.trans (List.append_cons ..), fun all => ?_⟩
      exact after fun e member => all e (List.mem_append_left _ member)
    · obtain ⟨_, after, _, events, same⟩ := run_withLog step (next (w.act (step.choices i) op).1)
        (w.handle step.call (step.choices i) op).2 (i + 1)
      refine ⟨events ++ [w.event step.call (step.choices i) op], ?_, fun all => ?_⟩
      · have here := same (w.handle step.call (step.choices i) op).2.log
        rw [run_ask]
        exact (congrArg (fun result => result.2.1.log) here).trans (List.append_cons ..)
      · exact absurd (all _ (List.mem_append_right _ (List.mem_singleton.mpr rfl))) known

/-- An invariant that operations keep, as long as their events are known to have a property. -/
theorem serve_keeps_if (config : Config) {step : Step} {allowed : Op → Prop} {promised : (op : Op) → op.Reply → Prop}
    (keeps : ∀ op i w, allowed op → P (w.event step.call (step.choices i) op) → invariant w →
      promised op (w.act (step.choices i) op).1 ∧ invariant (w.handle step.call (step.choices i) op).2)
    (satisfied : (step.call.program config).Satisfies (S := operations) allowed promised fun _ => True)
    {w : World} (known : ∀ e ∈ (serve config step w).1.since w, P e) (holds : invariant w) :
    invariant (serve config step w).1 := by
  obtain ⟨events, grown, after⟩ := run_keeps_if keeps satisfied (i := 0) holds
  rw [show (serve config step w).1.since w = events from World.since_eq grown] at known
  exact after known

theorem serveAll_grown (config : Config) (steps : List Step) (w : World) :
    (serveAll config steps w).log = (serveAll config steps w).since w ++ w.log := by
  suffices grown : ∃ events, (serveAll config steps w).log = events ++ w.log by
    obtain ⟨events, grown⟩ := grown
    rw [World.since_eq grown, grown]
  induction steps generalizing w with
  | nil => exact ⟨[], rfl⟩
  | cons step rest ih =>
    have first := serve_grown config step w
    cases survives : (serve config step w).2 with
    | true =>
      obtain ⟨events, grown⟩ := ih (serve config step w).1
      rw [serveAll_cons config step rest survives, grown, first, ← List.append_assoc]
      exact ⟨_, rfl⟩
    | false =>
      rw [serveAll_cons_panics config step rest survives]
      exact ⟨_, first⟩

/-- An invariant of single calls is one of runs. -/
theorem serveAll_keeps_if (config : Config) {steps : List Step}
    (keeps : ∀ step ∈ steps, ∀ w, invariant w → (∀ e ∈ (serve config step w).1.since w, P e) →
      invariant (serve config step w).1)
    {w : World} (known : ∀ e ∈ (serveAll config steps w).since w, P e) (holds : invariant w) :
    invariant (serveAll config steps w) := by
  induction steps generalizing w with
  | nil => exact holds
  | cons step rest ih =>
    obtain ⟨keep, keeps⟩ := List.forall_mem_cons.mp keeps
    have first := serve_grown config step w
    cases survives : (serve config step w).2 with
    | true =>
      rw [serveAll_cons config step rest survives] at known ⊢
      have after := serveAll_grown config rest (serve config step w).1
      rw [World.since_eq (after.trans ((congrArg (_ ++ ·) first).trans (List.append_assoc ..).symm))] at known
      refine ih keeps (fun e member => known e (List.mem_append_left _ member)) (keep w holds fun e member => ?_)
      exact known e (List.mem_append_right _ member)
    | false =>
      rw [serveAll_cons_panics config step rest survives] at known ⊢
      exact keep w holds known

end Events

end FreifunkManager
