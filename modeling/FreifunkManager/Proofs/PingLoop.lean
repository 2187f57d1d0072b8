import FreifunkManager.Model.PingLoop
import Mathlib.Algebra.Order.BigOperators.Group.Finset
import Mathlib.Tactic.Linarith

/-! # Stopping the pinger

After a call of `Stop` has returned, no round is going on, and none begins any more, also if `Start` is called again.
From the moment on at which the flag is set, a goroutine begins one more round at most, namely if it was waiting for
its timer, and ends after a few steps; so the wait can end unless a round is blocked. As long as nobody calls `Stop`,
the rounds of one goroutine do not overlap, and lie apart.
-/

namespace FreifunkManager.PingLoop

variable {every : Duration} {s t : State} {i j : ℕ}

/-! ## What a step does -/

/-- The next step of a goroutine: from where to where, and what is noted. -/
inductive Turn (every : Duration) (s : State) (i : ℕ) : Phase → Phase → List Mark → Prop
  | add : Turn every s i .add .started []
  | start : Turn every s i .started (.check (s.now + every)) [⟨s.now, .started i⟩]
  | goOn {due : Time} (unset : s.stop = false) : Turn every s i (.check due) (.select due) []
  | quit {due : Time} (set : s.stop = true) : Turn every s i (.check due) .leave []
  | fire {due : Time} (late : due ≤ s.now) : Turn every s i (.select due) .run [⟨s.now, .began i⟩]
  | finish : Turn every s i .run .reset [⟨s.now, .ended i⟩]
  | reset : Turn every s i .reset (.check (s.now + every)) []
  | leave : Turn every s i .leave .ended []

/-- The wait group counts who is added and who leaves. -/
def Phase.recount (wg : ℕ) : Phase → ℕ
  | .add => wg + 1
  | .leave => wg - 1
  | _ => wg

theorem step_loop (stepped : s.step every (.loop i) = some t) : ∃ phase after marks,
    s.loops[i]? = some phase ∧ Turn every s i phase after marks ∧
      t = { s with loops := s.loops.set i after, log := marks ++ s.log, wg := phase.recount s.wg } := by
  obtain ⟨phase, here, stepped⟩ := Option.bind_eq_some_iff.mp stepped
  cases phase with
  | add => exact ⟨_, _, _, here, .add, (Option.some.inj stepped).symm⟩
  | started => exact ⟨_, _, _, here, .start, (Option.some.inj stepped).symm⟩
  | check due =>
    rcases Bool.eq_false_or_eq_true s.stop with flag | flag
    · rw [State.stepLoop, flag] at stepped
      exact ⟨_, _, _, here, .quit flag, (Option.some.inj stepped).symm⟩
    · rw [State.stepLoop, flag] at stepped
      exact ⟨_, _, _, here, .goOn flag, (Option.some.inj stepped).symm⟩
  | select due =>
    obtain ⟨late, same⟩ := Option.ite_none_right_eq_some.mp stepped
    exact ⟨_, _, _, here, .fire late, (Option.some.inj same).symm⟩
  | run => exact ⟨_, _, _, here, .finish, (Option.some.inj stepped).symm⟩
  | reset => exact ⟨_, _, _, here, .reset, (Option.some.inj stepped).symm⟩
  | leave => exact ⟨_, _, _, here, .leave, (Option.some.inj stepped).symm⟩
  | blocked | ended => contradiction

theorem step_block (stepped : s.step every (.block i) = some t) :
    s.loops[i]? = some .run ∧ t = { s with loops := s.loops.set i .blocked } := by
  obtain ⟨here, same⟩ := Option.ite_none_right_eq_some.mp stepped
  exact ⟨here, (Option.some.inj same).symm⟩

/-- What every step of a run keeps, the run keeps. -/
theorem run_keeps {kept : State → Prop} (keeps : ∀ s t action, kept s → s.step every action = some t → kept t)
    {actions : List Action} (holds : kept s) (ran : s.run every actions = some t) : kept t := by
  induction actions generalizing s with
  | nil =>
    cases ran
    exact holds
  | cons action rest ih =>
    obtain ⟨next, stepped, ran⟩ := Option.bind_eq_some_iff.mp ran
    exact ih (keeps s next action holds stepped) ran

theorem run_append {first second : List Action} {between : State} (before : s.run every first = some between) :
    s.run every (first ++ second) = between.run every second := by
  induction first generalizing s with
  | nil =>
    cases before
    rfl
  | cons action rest ih =>
    obtain ⟨next, stepped, before⟩ := Option.bind_eq_some_iff.mp before
    rw [List.cons_append, State.run, stepped, Option.bind_some, ih before]

/-! ## The wait group -/

/-- The counter is right, and a call of `Stop` has set the flag. -/
structure Counted (s : State) : Prop where
  wg : s.wg = s.loops.countP Phase.counted
  flag : s.stops ≠ [] → s.stop = true

theorem Counted.loop (counted : Counted s) (stepped : s.step every (.loop i) = some t) : Counted t := by
  obtain ⟨phase, after, marks, here, turn, rfl⟩ := step_loop stepped
  obtain ⟨bound, found⟩ := List.getElem?_eq_some_iff.mp here
  refine ⟨?_, counted.flag⟩
  have member : phase ∈ s.loops := List.mem_of_getElem? here
  change phase.recount s.wg = (s.loops.set i after).countP Phase.counted
  rw [List.countP_set bound, found, counted.wg]
  cases turn <;> simp [Phase.recount, Phase.counted]
  all_goals exact (Nat.sub_add_cancel (List.countP_pos_iff.mpr ⟨_, member, rfl⟩)).symm

theorem Counted.step (counted : Counted s) {action : Action} (stepped : s.step every action = some t) : Counted t := by
  cases action with
  | start =>
    cases stepped
    exact ⟨by simp [counted.wg, Phase.counted], counted.flag⟩
  | loop i => exact counted.loop stepped
  | block i =>
    obtain ⟨here, rfl⟩ := step_block stepped
    obtain ⟨bound, found⟩ := List.getElem?_eq_some_iff.mp here
    have member : Phase.run ∈ s.loops := List.mem_of_getElem? here
    refine ⟨?_, counted.flag⟩
    rw [List.countP_set bound, found, counted.wg]
    exact (Nat.sub_add_cancel (List.countP_pos_iff.mpr ⟨_, member, rfl⟩)).symm
  | stop =>
    cases stepped
    exact ⟨counted.wg, fun _ => rfl⟩
  | wait j =>
    obtain ⟨⟨called, _⟩, same⟩ := Option.ite_none_right_eq_some.mp stepped
    cases same
    refine ⟨counted.wg, fun _ => counted.flag ?_⟩
    rintro none
    rw [none] at called
    contradiction
  | clock now =>
    obtain ⟨_, same⟩ := Option.ite_none_right_eq_some.mp stepped
    cases same
    exact ⟨counted.wg, counted.flag⟩

theorem counted_newPinger (now : Time) : Counted (newPinger now) := ⟨rfl, fun some => absurd rfl some⟩

/-! ## After the flag was set -/

/-- Where the goroutine is, if it was started. -/
def State.phase (s : State) (i : ℕ) : Phase := s.loops[i]?.getD .add

/-- How many rounds the goroutine begins after the flag was set. -/
def Phase.rounds : Phase → ℕ
  | .select _ => 1
  | _ => 0

/-- How many steps the goroutine takes after the flag was set. -/
def Phase.left : Phase → ℕ
  | .select _ => 5
  | .add | .run => 4
  | .started | .reset => 3
  | .check _ => 2
  | .leave => 1
  | .blocked | .ended => 0

def Mark.begins (i : ℕ) (mark : Mark) : Bool := mark.happening = .began i

def Action.of (i : ℕ) : Action → Bool
  | .loop i' => i' = i
  | _ => false

/-- Only the goroutine that takes the step moves. -/
theorem phase_loop {phase after : Phase} {log : List Mark} {wg : ℕ} (here : s.loops[i]? = some phase) (k : ℕ) :
    State.phase { s with loops := s.loops.set i after, log, wg } k = if k = i then after else s.phase k := by
  obtain ⟨bound, _⟩ := List.getElem?_eq_some_iff.mp here
  rw [State.phase, List.getElem?_set]
  split
  · next same => simp [same.symm]
  · next other =>
    rw [if_neg fun same => other same.symm]
    rfl

theorem phase_block {phase : Phase} (here : s.loops[i]? = some phase) (k : ℕ) :
    State.phase { s with loops := s.loops.set i .blocked } k = if k = i then .blocked else s.phase k :=
  phase_loop here k

theorem phase_start (k : ℕ) : State.phase { s with loops := s.loops ++ [.add] } k = s.phase k := by
  simp only [State.phase, List.getElem?_append]
  split
  · rfl
  · next beyond =>
    rw [List.getElem?_eq_none (not_lt.mp beyond)]
    cases k - s.loops.length <;> rfl

/-- What was begun, and what steps were taken, since the flag was set in the first state. -/
structure Winds (s t : State) (actions : List Action) : Prop where
  flag : t.stop = true
  rounds : ∃ added, t.log = added ++ s.log ∧ ∀ k, added.countP (Mark.begins k) + (t.phase k).rounds ≤ (s.phase k).rounds
  steps : ∀ k, actions.countP (Action.of k) + (t.phase k).left ≤ (s.phase k).left

theorem winds_refl (flag : s.stop = true) : Winds s s [] where
  flag := flag
  rounds := ⟨[], rfl, fun k => by simp⟩
  steps k := by simp

theorem Winds.trans {between : State} {first second : List Action} (early : Winds s between first)
    (late : Winds between t second) : Winds s t (first ++ second) where
  flag := late.flag
  rounds := by
    obtain ⟨before, grown, some⟩ := early.rounds
    obtain ⟨after, grownMore, more⟩ := late.rounds
    refine ⟨after ++ before, by rw [grownMore, grown, List.append_assoc], fun k => ?_⟩
    have := some k
    have := more k
    rw [List.countP_append]
    omega
  steps k := by
    have := early.steps k
    have := late.steps k
    rw [List.countP_append]
    omega

/-- A step that no goroutine with `Start` takes. -/
theorem winds_aside {action : Action} (flag : t.stop = true) (log : t.log = s.log) (same : ∀ k, t.phase k = s.phase k)
    (aside : ∀ k, ¬ Action.of k action = true) : Winds s t [action] where
  flag := flag
  rounds := ⟨[], log, fun k => by simp [same]⟩
  steps k := by
    rw [same, List.countP_cons_of_neg (aside k)]
    simp

theorem step_winds (flag : s.stop = true) {action : Action} (stepped : s.step every action = some t) :
    Winds s t [action] := by
  cases action with
  | start =>
    cases stepped
    exact winds_aside flag rfl phase_start fun _ => Bool.false_ne_true
  | loop i =>
    obtain ⟨phase, after, marks, here, turn, rfl⟩ := step_loop stepped
    have own : s.phase i = phase := by rw [State.phase, here, Option.getD_some]
    refine ⟨flag, ⟨marks, rfl, fun k => ?_⟩, fun k => ?_⟩
    · rw [phase_loop here]
      split
      · next same =>
        subst same
        rw [own]
        cases turn <;> simp_all [Phase.rounds, Mark.begins]
      · next other =>
        have different : i ≠ k := fun same => other same.symm
        have nothing : marks.countP (Mark.begins k) = 0 := by
          cases turn <;> simp [Mark.begins, different]
        omega
    · rw [phase_loop here]
      split
      · next same =>
        subst same
        rw [own]
        cases turn <;> simp_all [Phase.left, Action.of]
      · next other =>
        have different : i ≠ k := fun same => other same.symm
        simp [Action.of, different]
  | block i =>
    obtain ⟨here, rfl⟩ := step_block stepped
    refine ⟨flag, ⟨[], rfl, fun k => ?_⟩, fun k => ?_⟩
    · rw [phase_block here]
      split
      · exact Nat.zero_le _
      · exact (Nat.zero_add _).le
    · rw [phase_block here]
      split
      · exact Nat.zero_le _
      · exact (Nat.zero_add _).le
  | stop =>
    cases stepped
    exact winds_aside rfl rfl (fun _ => rfl) fun _ => Bool.false_ne_true
  | wait j =>
    obtain ⟨_, same⟩ := Option.ite_none_right_eq_some.mp stepped
    cases same
    exact winds_aside flag rfl (fun _ => rfl) fun _ => Bool.false_ne_true
  | clock now =>
    obtain ⟨_, same⟩ := Option.ite_none_right_eq_some.mp stepped
    cases same
    exact winds_aside flag rfl (fun _ => rfl) fun _ => Bool.false_ne_true

theorem run_winds (flag : s.stop = true) {actions : List Action} (ran : s.run every actions = some t) :
    Winds s t actions := by
  induction actions generalizing s with
  | nil =>
    cases ran
    exact winds_refl flag
  | cons action rest ih =>
    obtain ⟨next, stepped, ran⟩ := Option.bind_eq_some_iff.mp ran
    have first := step_winds flag stepped
    exact first.trans (ih first.flag ran)

/-! ## After a call has returned -/

/-- If a call of `Stop` has returned, no goroutine is in a round, and none waits to begin one. -/
structure Settled (s : State) : Prop where
  counted : Counted s
  quiet : true ∈ s.stops → ∀ phase ∈ s.loops, phase.rounds = 0 ∧ phase ≠ .run ∧ phase ≠ .blocked

theorem Settled.step (settled : Settled s) {action : Action} (stepped : s.step every action = some t) : Settled t := by
  refine ⟨settled.counted.step stepped, ?_⟩
  cases action with
  | start =>
    cases stepped
    intro returned phase member
    rcases List.mem_append.mp member with old | new
    · exact settled.quiet returned phase old
    · rw [List.mem_singleton.mp new]
      exact ⟨rfl, by decide⟩
  | loop i =>
    obtain ⟨before, after, marks, here, turn, rfl⟩ := step_loop stepped
    intro returned phase member
    have flag := settled.counted.flag (List.ne_nil_of_mem returned)
    have still := settled.quiet returned before (List.mem_of_getElem? here)
    rcases List.mem_or_eq_of_mem_set member with old | rfl
    · exact settled.quiet returned phase old
    · cases turn with
      | goOn unset => exact absurd (flag.symm.trans unset) (by decide)
      | fire => exact absurd still.1 Nat.one_ne_zero
      | _ => exact ⟨rfl, by simp⟩
  | block i =>
    obtain ⟨here, rfl⟩ := step_block stepped
    intro returned
    exact absurd rfl (settled.quiet returned .run (List.mem_of_getElem? here)).2.1
  | stop =>
    cases stepped
    intro returned
    rcases List.mem_append.mp returned with old | new
    · exact settled.quiet old
    · exact absurd (List.mem_singleton.mp new) (by decide)
  | wait j =>
    obtain ⟨⟨_, zero⟩, same⟩ := Option.ite_none_right_eq_some.mp stepped
    cases same
    intro _ phase member
    have left : ¬ phase.counted = true := List.countP_eq_zero.mp (settled.counted.wg.symm.trans zero) phase member
    cases phase <;> simp_all [Phase.counted, Phase.rounds]
  | clock now =>
    obtain ⟨_, same⟩ := Option.ite_none_right_eq_some.mp stepped
    cases same
    exact settled.quiet

theorem settled_newPinger (now : Time) : Settled (newPinger now) :=
  ⟨counted_newPinger now, fun returned => absurd returned List.not_mem_nil⟩

theorem returned_kept {action : Action} (returned : true ∈ s.stops) (stepped : s.step every action = some t) :
    true ∈ t.stops := by
  cases action with
  | start =>
    cases stepped
    exact returned
  | loop i =>
    obtain ⟨_, _, _, _, _, rfl⟩ := step_loop stepped
    exact returned
  | block i =>
    obtain ⟨_, rfl⟩ := step_block stepped
    exact returned
  | stop =>
    cases stepped
    exact List.mem_append_left _ returned
  | wait j =>
    obtain ⟨⟨called, _⟩, same⟩ := Option.ite_none_right_eq_some.mp stepped
    cases same
    obtain ⟨bound, _⟩ := List.getElem?_eq_some_iff.mp called
    exact List.mem_iff_getElem.mpr ⟨j, by simpa using bound, by simp⟩
  | clock now =>
    obtain ⟨_, same⟩ := Option.ite_none_right_eq_some.mp stepped
    cases same
    exact returned

/-- In every run, once a call of `Stop` has returned: no round is going on, and none ever begins again, also if
`Start` is called again. -/
theorem stopped_for_good {now : Time} {earlier later : List Action}
    (before : (newPinger now).run every earlier = some s)
    (returned : true ∈ s.stops) (after : s.run every later = some t) :
    (∀ phase ∈ t.loops, phase ≠ .run ∧ phase ≠ .blocked) ∧
      ∃ added, t.log = added ++ s.log ∧ ∀ k, added.countP (Mark.begins k) = 0 := by
  have settled : Settled s := run_keeps (fun _ _ _ settled => settled.step) (settled_newPinger now) before
  have flag := settled.counted.flag (List.ne_nil_of_mem returned)
  refine ⟨fun phase member => ?_, ?_⟩
  · have still : Settled t := run_keeps (fun _ _ _ settled => settled.step) settled after
    have kept : true ∈ t.stops := run_keeps (fun _ _ _ => returned_kept) returned after
    exact (still.quiet kept phase member).2
  · obtain ⟨added, grown, some⟩ := (run_winds flag after).rounds
    refine ⟨added, grown, fun k => ?_⟩
    have none : (s.phase k).rounds = 0 := by
      cases here : s.loops[k]? with
      | none =>
        rw [State.phase, here, Option.getD_none]
        rfl
      | some phase =>
        rw [State.phase, here, Option.getD_some]
        exact (settled.quiet returned phase (List.mem_of_getElem? here)).1
    have := some k
    omega

/-- `Stop` is called in the middle of a round. -/
def stopInRound : List Action :=
  [.start, .loop 0, .loop 0, .loop 0, .clock 60, .loop 0, .stop]

/-- The round ends, and so does the goroutine. -/
def leaves : List Action := [.loop 0, .loop 0, .loop 0, .loop 0, .wait 0]

/-- `Start` is called again. -/
def startsAgain : List Action := [.start, .loop 1, .loop 1, .clock 120, .loop 1, .loop 1]

theorem stopped_for_good_again : ∃ s t, (newPinger 0).run 60
    (stopInRound ++ leaves) = some s ∧ s.run 60 startsAgain = some t ∧
    (∀ phase ∈ t.loops, phase ≠ .run ∧ phase ≠ .blocked) ∧
      ∃ added, t.log = added ++ s.log ∧ ∀ k, added.countP (Mark.begins k) = 0 := by
  have replayed : ((newPinger 0).run 60 (stopInRound ++ leaves)).any (fun s => decide (true ∈ s.stops) &&
      (s.run 60 startsAgain).isSome) = true := by decide +kernel
  obtain ⟨s, before, checked⟩ := (Option.any_eq_true ..).mp replayed
  obtain ⟨returned, again⟩ := Bool.and_eq_true_iff.mp checked
  obtain ⟨t, after⟩ := Option.isSome_iff_exists.mp again
  exact ⟨s, t, before, after, stopped_for_good before (of_decide_eq_true returned) after⟩

/-! ## The wait ends -/

/-- A blocked round stays blocked. -/
theorem blocked_kept {action : Action} (blocked : .blocked ∈ s.loops) (stepped : s.step every action = some t) :
    .blocked ∈ t.loops := by
  have elsewhere {i : ℕ} {phase after : Phase} (here : s.loops[i]? = some phase) (other : phase ≠ .blocked) :
      .blocked ∈ s.loops.set i after := by
    obtain ⟨k, found⟩ := List.getElem?_of_mem blocked
    have apart : i ≠ k := by
      rintro rfl
      exact other (Option.some.inj (here.symm.trans found))
    exact List.mem_of_getElem? ((List.getElem?_set_ne apart).trans found)
  cases action with
  | start =>
    cases stepped
    exact List.mem_append_left _ blocked
  | loop i =>
    obtain ⟨phase, after, marks, here, turn, rfl⟩ := step_loop stepped
    exact elsewhere here (by cases turn <;> simp)
  | block i =>
    obtain ⟨here, rfl⟩ := step_block stepped
    exact elsewhere here (by simp)
  | stop =>
    cases stepped
    exact blocked
  | wait j =>
    obtain ⟨_, same⟩ := Option.ite_none_right_eq_some.mp stepped
    cases same
    exact blocked
  | clock now =>
    obtain ⟨_, same⟩ := Option.ite_none_right_eq_some.mp stepped
    cases same
    exact blocked

/-- A goroutine that has not ended and is not blocked can go on, once its timer is due. -/
theorem goes_on (every : Duration) {phase : Phase} (here : s.loops[i]? = some phase) (unfinished : phase ≠ .ended)
    (free : .blocked ∉ s.loops) : ∃ now t, s.run every [.clock now, .loop i] = some t ∧ t.stops = s.stops ∧
      t.loops.length = s.loops.length ∧ .blocked ∉ t.loops := by
  obtain ⟨now, forward, due⟩ : ∃ now, s.now ≤ now ∧ ∀ due, phase = .select due → due ≤ now := by
    cases phase with
    | select due => exact ⟨max s.now due, le_max_left .., fun _ same => by cases same; exact le_max_right ..⟩
    | _ => exact ⟨s.now, le_rfl, fun _ same => by contradiction⟩
  have ticked : s.step every (.clock now) = some { s with now } := if_pos forward
  obtain ⟨t, stepped⟩ : ∃ t, State.stepLoop every { s with now } i phase = some t := by
    cases phase with
    | select time => exact ⟨_, if_pos (due time rfl)⟩
    | blocked => exact absurd (List.mem_of_getElem? here) free
    | ended => contradiction
    | _ => exact ⟨_, rfl⟩
  have next : State.step every { s with now } (.loop i) = some t := by
    rw [State.step, here, Option.bind_some, stepped]
  refine ⟨now, t, ?_, ?_⟩
  · rw [State.run, ticked, Option.bind_some, State.run, next, Option.bind_some, State.run]
  · obtain ⟨before, after, marks, _, turn, rfl⟩ := step_loop next
    refine ⟨rfl, List.length_set, fun member => ?_⟩
    rcases List.mem_or_eq_of_mem_set member with old | new
    · exact free old
    · subst new
      cases turn

/-- All that is left to do. -/
def State.work (s : State) : ℕ := ∑ k ∈ Finset.range s.loops.length, (s.phase k).left

theorem wg_of_ended (counted : Counted s) (ended : ∀ phase ∈ s.loops, phase = .ended) : s.wg = 0 := by
  rw [counted.wg]
  refine List.countP_eq_zero.mpr fun phase member => ?_
  rw [ended phase member]
  exact Bool.false_ne_true

theorem wait_ends (counted : Counted s) (called : s.stops[j]? = some false) (free : .blocked ∉ s.loops) :
    ∃ actions t, s.run every actions = some t ∧ t.stops[j]? = some true := by
  have flag : s.stop = true := counted.flag fun none => by simp [none] at called
  induction work : s.work using Nat.strong_induction_on generalizing s with
  | _ bound ih =>
    by_cases ended : ∀ phase ∈ s.loops, phase = .ended
    · obtain ⟨within, _⟩ := List.getElem?_eq_some_iff.mp called
      refine ⟨[.wait j], { s with stops := s.stops.set j true }, ?_, ?_⟩
      · rw [State.run, State.step, if_pos ⟨called, wg_of_ended counted ended⟩, Option.bind_some, State.run]
      · simp [within]
    · obtain ⟨phase, member, unfinished⟩ : ∃ phase ∈ s.loops, phase ≠ .ended := by simpa using ended
      obtain ⟨i, here⟩ := List.getElem?_of_mem member
      obtain ⟨now, next, ran, stops, length, free⟩ := goes_on every here unfinished free
      have winds := run_winds flag ran
      have less : next.work < s.work := by
        rw [State.work, State.work, length]
        refine Finset.sum_lt_sum (fun k _ => (Nat.le_add_left ..).trans (winds.steps k)) ⟨i, ?_, ?_⟩
        · exact Finset.mem_range.mpr (List.getElem?_eq_some_iff.mp here).1
        · have steps := winds.steps i
          simp only [Action.of, List.countP_cons, List.countP_nil, decide_true] at steps
          simp at steps
          omega
      have still : Counted next := run_keeps (fun _ _ _ counted => counted.step) counted ran
      obtain ⟨actions, t, ranOn, returned⟩ := ih next.work (work ▸ less) still (stops ▸ called) free winds.flag rfl
      exact ⟨_, t, (run_append ran).trans ranOn, returned⟩

/-- In every run, while a call of `Stop` waits: whatever happens next, a goroutine begins no more than the round that
it waits for, and takes at most five more steps, and there is a way for the call to return if and only if no round is
blocked. -/
theorem stop_returns {now : Time} {earlier : List Action} (before : (newPinger now).run every earlier = some s)
    (called : s.stops[j]? = some false) :
    (∀ later t, s.run every later = some t → ∃ added, t.log = added ++ s.log ∧
      ∀ k, added.countP (Mark.begins k) ≤ (s.phase k).rounds ∧ later.countP (Action.of k) ≤ (s.phase k).left) ∧
    ((∃ later t, s.run every later = some t ∧ t.stops[j]? = some true) ↔ ∀ phase ∈ s.loops, phase ≠ .blocked) := by
  have settled : Settled s := run_keeps (fun _ _ _ settled => settled.step) (settled_newPinger now) before
  refine ⟨fun later t after => ?_, ?_, fun free => wait_ends settled.counted called fun blocked => free _ blocked rfl⟩
  · have flag : s.stop = true := settled.counted.flag fun none => by simp [none] at called
    have winds := run_winds flag after
    obtain ⟨added, grown, rounds⟩ := winds.rounds
    refine ⟨added, grown, fun k => ⟨?_, ?_⟩⟩
    · exact (Nat.le_add_right ..).trans (rounds k)
    · exact (Nat.le_add_right ..).trans (winds.steps k)
  · rintro ⟨later, t, after, returned⟩ _ member rfl
    have quiet : Settled t := run_keeps (fun _ _ _ settled => settled.step) settled after
    have blocked : .blocked ∈ t.loops := run_keeps (fun _ _ _ => blocked_kept) member after
    exact (quiet.quiet (List.mem_of_getElem? returned) _ blocked).2.2 rfl

theorem stop_returns_inRound : ∃ s, (newPinger 0).run 60 stopInRound = some s ∧ s.phase 0 = .run ∧
    (∀ later t, s.run 60 later = some t → ∃ added, t.log = added ++ s.log ∧
      ∀ k, added.countP (Mark.begins k) ≤ (s.phase k).rounds ∧ later.countP (Action.of k) ≤ (s.phase k).left) ∧
    ∃ later t, s.run 60 later = some t ∧ t.stops[0]? = some true := by
  have replayed : ((newPinger 0).run 60 stopInRound).any (fun s =>
      s.phase 0 = .run ∧ s.stops[0]? = some false ∧ ∀ phase ∈ s.loops, phase ≠ .blocked) = true := by
    decide +kernel
  obtain ⟨s, before, checked⟩ := (Option.any_eq_true ..).mp replayed
  obtain ⟨inRound, called, free⟩ := of_decide_eq_true checked
  obtain ⟨bounded, returns⟩ := stop_returns before called
  exact ⟨s, before, inRound, bounded, returns.mpr free⟩

/-! ## How the rounds lie -/

/-- What happened last to this goroutine. -/
def latest (i : ℕ) (log : List Mark) : Option Mark := log.find? fun mark => mark.happening.loop = i

/-- The last that happened to the goroutine was its start or the end of a round, so long before. -/
def Rested (every : Duration) (i : ℕ) (log : List Mark) (due : Time) : Prop :=
  ∃ last, latest i log = some last ∧ last.happening ≠ .began i ∧ last.time + every ≤ due

/-- A round begins after a rest, and only a round that has begun ends. -/
def Mark.Fits (every : Duration) (past : List Mark) (mark : Mark) : Prop :=
  match mark.happening with
  | .started i => latest i past = none
  | .began i => Rested every i past mark.time
  | .ended i => ∃ last, latest i past = some last ∧ last.happening = .began i

/-- Where the goroutine is agrees with what happened to it last. -/
def Phase.Stands (every : Duration) (now : Time) (i : ℕ) (log : List Mark) : Phase → Prop
  | .add | .started => latest i log = none
  | .check due | .select due => Rested every i log due
  | .run => ∃ last, latest i log = some last ∧ last.happening = .began i
  | .reset => Rested every i log (now + every)
  | .blocked | .leave | .ended => True

structure Paced (every : Duration) (s : State) : Prop where
  stands : ∀ i, (s.phase i).Stands every s.now i s.log
  fits : ∀ later mark past, s.log = later ++ mark :: past → mark.Fits every past

theorem latest_own {mark : Mark} (own : mark.happening.loop = i) (log : List Mark) :
    latest i (mark :: log) = some mark := by
  rw [latest, List.find?_cons_of_pos (by simpa using own)]

theorem latest_other {mark : Mark} (other : mark.happening.loop ≠ i) (log : List Mark) :
    latest i (mark :: log) = latest i log := by
  rw [latest, List.find?_cons_of_neg (by simpa using other), latest]

theorem Phase.Stands.later {phase : Phase} {log : List Mark} {now next : Time} (stands : phase.Stands every now i log)
    (forward : now ≤ next) : phase.Stands every next i log := by
  cases phase with
  | reset =>
    obtain ⟨last, found, other, rested⟩ := stands
    exact ⟨last, found, other, by linarith⟩
  | _ => exact stands

/-- What happens to one goroutine says nothing about another. -/
theorem Phase.Stands.other {phase : Phase} {log : List Mark} {now : Time} {mark : Mark}
    (stands : phase.Stands every now i log)
    (other : mark.happening.loop ≠ i) : phase.Stands every now i (mark :: log) := by
  have same := latest_other other log
  cases phase <;> simp_all [Phase.Stands, Rested]

/-- The new phase of the goroutine, and what is noted. -/
theorem Turn.paced {before after : Phase} {marks : List Mark} (turn : Turn every s i before after marks)
    (stands : before.Stands every s.now i s.log) :
    after.Stands every s.now i (marks ++ s.log) ∧ ∀ mark ∈ marks, mark.Fits every s.log ∧ mark.happening.loop = i := by
  cases turn with
  | add | goOn | reset => exact ⟨stands, List.forall_mem_nil _⟩
  | quit | leave => exact ⟨trivial, List.forall_mem_nil _⟩
  | start =>
    refine ⟨⟨_, latest_own rfl _, by simp, le_rfl⟩, List.forall_mem_singleton.mpr ⟨?_, rfl⟩⟩
    exact stands
  | fire late =>
    refine ⟨⟨_, latest_own rfl _, rfl⟩, List.forall_mem_singleton.mpr ⟨?_, rfl⟩⟩
    obtain ⟨last, found, other, rested⟩ := stands
    exact ⟨last, found, other, rested.trans late⟩
  | finish =>
    refine ⟨⟨_, latest_own rfl _, by simp, le_rfl⟩, List.forall_mem_singleton.mpr ⟨?_, rfl⟩⟩
    exact stands

/-- One mark at most is noted. -/
theorem Turn.marks {before after : Phase} {marks : List Mark} (turn : Turn every s i before after marks) :
    marks.length ≤ 1 := by
  cases turn <;> simp

theorem fits_append {log marks : List Mark}
    (fits : ∀ later mark past, log = later ++ mark :: past → mark.Fits every past)
    (one : marks.length ≤ 1) (new : ∀ mark ∈ marks, mark.Fits every log) :
    ∀ later mark past, marks ++ log = later ++ mark :: past → mark.Fits every past := by
  intro later mark past split
  match marks, one with
  | [], _ => exact fits later mark past split
  | [latest], _ =>
    cases later with
    | nil =>
      obtain ⟨rfl, rfl⟩ := List.cons.inj split
      exact new _ (List.mem_singleton_self _)
    | cons _ later => exact fits later mark past (List.cons.inj split).2

theorem Paced.step (paced : Paced every s) {action : Action} (stepped : s.step every action = some t) :
    Paced every t := by
  cases action with
  | start =>
    cases stepped
    refine ⟨fun k => ?_, paced.fits⟩
    rw [phase_start]
    exact paced.stands k
  | loop i =>
    obtain ⟨before, after, marks, here, turn, rfl⟩ := step_loop stepped
    have own : s.phase i = before := by rw [State.phase, here, Option.getD_some]
    obtain ⟨stands, fit⟩ := turn.paced (own ▸ paced.stands i)
    refine ⟨fun k => ?_, fits_append paced.fits turn.marks fun mark member => (fit mark member).1⟩
    rw [phase_loop here]
    split
    · next same => exact same ▸ stands
    · next other =>
      cases turn with
      | add | goOn | quit | reset | leave => exact paced.stands k
      | start | fire | finish => exact (paced.stands k).other fun same => other same.symm
  | block i =>
    obtain ⟨here, rfl⟩ := step_block stepped
    refine ⟨fun k => ?_, paced.fits⟩
    rw [phase_block here]
    split
    · trivial
    · exact paced.stands k
  | stop =>
    cases stepped
    exact ⟨paced.stands, paced.fits⟩
  | wait j =>
    obtain ⟨_, same⟩ := Option.ite_none_right_eq_some.mp stepped
    cases same
    exact ⟨paced.stands, paced.fits⟩
  | clock now =>
    obtain ⟨forward, same⟩ := Option.ite_none_right_eq_some.mp stepped
    cases same
    exact ⟨fun k => (paced.stands k).later forward, paced.fits⟩

/-- In every run, for every goroutine with `Start`: what happened last before a round begins was its start or the end of
the round before, at least `every` ago, and only the round that began last ends. -/
theorem rounds_paced {now : Time} {actions : List Action} (ran : (newPinger now).run every actions = some s)
    {later past : List Mark} {mark : Mark} (split : s.log = later ++ mark :: past) : mark.Fits every past := by
  have paced : Paced every s := by
    refine run_keeps (fun _ _ _ paced => paced.step) ⟨fun i => ?_, fun later mark past split => ?_⟩ ran
    · exact rfl
    · exact absurd split (by simp [newPinger])
  exact paced.fits later mark past split

/-- The second round begins as soon as it may. -/
def twoRounds : List Action :=
  [.start, .loop 0, .loop 0, .loop 0, .clock 60, .loop 0, .clock 70, .loop 0, .loop 0, .loop 0, .clock 130, .loop 0]

theorem rounds_paced_twice : ∃ s past, (newPinger 0).run 60 twoRounds = some s ∧ s.log = ⟨130, .began 0⟩ :: past ∧
    Rested 60 0 past 130 := by
  have replayed : ((newPinger 0).run 60 twoRounds).map State.log =
      some [⟨130, .began 0⟩, ⟨70, .ended 0⟩, ⟨60, .began 0⟩, ⟨0, .started 0⟩] := by decide +kernel
  obtain ⟨s, ran, log⟩ := Option.map_eq_some_iff.mp replayed
  have fits : Mark.Fits 60 [⟨70, .ended 0⟩, ⟨60, .began 0⟩, ⟨0, .started 0⟩] ⟨130, .began 0⟩ :=
    rounds_paced ran (log.trans (List.nil_append _).symm)
  exact ⟨s, _, ran, log, fits⟩

end FreifunkManager.PingLoop
