import FreifunkManager.Model.Debouncer
import Mathlib.Data.List.Basic
import Mathlib.Data.List.Pairwise
import Mathlib.Tactic.Cases

/-! # No call is dropped by the debouncer

Calls that are skipped wait for the one timer that is pending, and its expiry executes the function for all of them.
An exception leaves no timer behind, but then no call is waiting either.
-/

namespace FreifunkManager.Debouncer

/-- The executions, the latest first. -/
def executions (log : List Entry) : List Execution :=
  log.filterMap fun
    | .call _ => none
    | .execution execution => some execution

/-- The calls since the last execution. -/
def skipped : List Entry → List Instant
  | .call time :: log => time :: skipped log
  | _ => []

/-- The earlier execution threw, or the later one starts when the delay is past. -/
def Apart (timeoutMsec : ℕ) (later earlier : Execution) : Prop :=
  earlier.threw = false → earlier.finish + timeoutMsec ≤ later.start

/-- Every call was followed by an execution, or is among the skipped ones. -/
def Followed (log : List Entry) : Prop :=
  ∀ after time before, log = after ++ .call time :: before →
    (∃ execution ∈ executions after, time ≤ execution.start) ∨ time ∈ skipped log

/-- The timer of the debouncer is the one of the browser, and it was set after all that ran. -/
def Timed (timeoutMsec : ℕ) (s : State) : Prop :=
  match s.timer with
  | none => s.pending = [] ∧ s.numCallsSkipped = 0 ∧
      ∀ execution ∈ executions s.log, execution.threw = false → execution.finish + timeoutMsec ≤ s.now
  | some handle => ∃ set, s.pending = [(handle, set)] ∧
      ∀ execution ∈ executions s.log, execution.finish ≤ set

structure Consistent (timeoutMsec : ℕ) (s : State) : Prop where
  timed : Timed timeoutMsec s
  counted : s.numCallsSkipped = (skipped s.log).length
  past : ∀ time ∈ skipped s.log, time ≤ s.now
  ended : ∀ execution ∈ executions s.log, execution.finish ≤ s.now
  apart : (executions s.log).Pairwise (Apart timeoutMsec)
  followed : Followed s.log

/-- What holds of a debouncer at any time. -/
structure DropsNothing (timeoutMsec : ℕ) (s : State) : Prop where
  apart : (executions s.log).Pairwise (Apart timeoutMsec)
  /-- A timer is pending as long as calls are waiting. -/
  waits : skipped s.log ≠ [] → s.pending ≠ []
  /-- Any timer that is pending may expire when it is due. -/
  due : ∀ timer ∈ s.pending, ∀ start finish throws, s.now ≤ start → start ≤ finish →
    timer.2 + timeoutMsec ≤ start → (s.step timeoutMsec (.expire timer.1 start finish throws)).isSome
  /-- The expiry executes the function once for all the calls that are waiting. -/
  expires : ∀ handle start finish throws next, s.step timeoutMsec (.expire handle start finish throws) = some next →
    next.log = if skipped s.log = [] then s.log else .execution ⟨start, finish, throws⟩ :: s.log
  followed : Followed s.log
  /-- Without a timer every call was followed by an execution. -/
  settled : s.pending = [] → ∀ after time before, s.log = after ++ .call time :: before →
    ∃ execution ∈ executions after, time ≤ execution.start

section Step

variable {timeoutMsec : ℕ} {s : State}

theorem consistent_initial (now : Instant) : Consistent timeoutMsec { now } where
  timed := ⟨rfl, rfl, nofun⟩
  counted := rfl
  past := nofun
  ended := nofun
  apart := .nil
  followed after time before split := by simp at split

theorem followed_call {log : List Entry} (followed : Followed log) (time : Instant) : Followed (.call time :: log) := by
  intro after other before split
  cases after with
  | nil =>
    cases split
    exact .inr (.head _)
  | cons entry after =>
    obtain ⟨rfl, rest⟩ := List.cons.inj split
    rcases followed after other before rest with executed | waits
    · exact .inl executed
    · exact .inr (.tail _ waits)

/-- An execution follows all the calls that were waiting. -/
theorem followed_execution {log : List Entry} (followed : Followed log) {execution : Execution}
    (waited : ∀ time ∈ skipped log, time ≤ execution.start) : Followed (.execution execution :: log) := by
  intro after time before split
  cases after with
  | nil => cases split
  | cons entry after =>
    obtain ⟨rfl, rest⟩ := List.cons.inj split
    left
    rcases followed after time before rest with ⟨other, member, started⟩ | waits
    · exact ⟨other, .tail _ member, started⟩
    · exact ⟨execution, .head _, waited time waits⟩

variable {start finish : Instant} {throws : Bool}

/-- The function is executed when no timer is pending and the delay after the last execution is past. -/
theorem consistent_execution (idle : s.timer = none) (nothing : s.pending = []) (cleared : s.numCallsSkipped = 0)
    (began : start ≤ finish) (past : ∀ execution ∈ executions s.log,
      Apart timeoutMsec ⟨start, finish, throws⟩ execution)
    (waited : ∀ time ∈ skipped s.log, time ≤ start) (ended : ∀ execution ∈ executions s.log, execution.finish ≤ start)
    (apart : (executions s.log).Pairwise (Apart timeoutMsec)) (followed : Followed s.log) :
    Consistent timeoutMsec (s.run start finish throws) := by
  have finished : ∀ execution ∈ executions (.execution ⟨start, finish, throws⟩ :: s.log),
      execution.finish ≤ finish := by
    refine List.forall_mem_cons.mpr ⟨Int.le_refl _, fun execution member => ?_⟩
    exact Int.le_trans (ended execution member) began
  have apart : (executions (.execution ⟨start, finish, throws⟩ :: s.log)).Pairwise (Apart timeoutMsec) :=
    List.pairwise_cons.mpr ⟨past, apart⟩
  rw [State.run, if_pos idle]
  cases throws with
  | true =>
    refine ⟨?_, cleared, nofun, finished, apart, followed_execution followed waited⟩
    simp only [Timed, if_true, idle]
    refine ⟨nothing, cleared, List.forall_mem_cons.mpr ⟨nofun, fun execution member kept => ?_⟩⟩
    exact Int.le_trans (past execution member kept) began
  | false =>
    refine ⟨?_, cleared, nofun, finished, apart, followed_execution followed waited⟩
    refine ⟨finish, ?_, finished⟩
    change s.pending ++ _ = _
    rw [nothing, List.nil_append]

theorem Consistent.call (consistent : Consistent timeoutMsec s) (later : s.now ≤ start) (began : start ≤ finish) :
    Consistent timeoutMsec ({ s with log := .call start :: s.log }.run start finish throws) := by
  have waited : ∀ time ∈ skipped (.call start :: s.log), time ≤ start :=
    List.forall_mem_cons.mpr ⟨Int.le_refl _, fun time member => Int.le_trans (consistent.past time member) later⟩
  have ended (execution : Execution) (member : execution ∈ executions s.log) : execution.finish ≤ start :=
    Int.le_trans (consistent.ended execution member) later
  have timed := consistent.timed
  rcases s.timer.eq_none_or_eq_some with held | ⟨handle, held⟩
  · rw [Timed, held] at timed
    obtain ⟨nothing, cleared, past⟩ := timed
    apply consistent_execution (s := { s with log := .call start :: s.log }) held nothing cleared began _ waited ended
      consistent.apart (followed_call consistent.followed start)
    intro execution member kept
    exact Int.le_trans (past execution member kept) later
  · rw [Timed, held] at timed
    rw [State.run, if_neg (by rw [held]; exact Option.some_ne_none handle)]
    refine ⟨?_, ?_, waited, ended, consistent.apart, followed_call consistent.followed start⟩
    · rw [Timed, held]
      exact timed
    · exact congrArg (· + 1) consistent.counted

/-- What is known when the timer expires. -/
theorem Consistent.expiring (consistent : Consistent timeoutMsec s) {handle : ℕ} {set : Instant}
    (found : s.pending.lookup handle = some set) :
    s.timer = some handle ∧ s.pending = [(handle, set)] ∧ ∀ execution ∈ executions s.log, execution.finish ≤ set := by
  have timed := consistent.timed
  cases held : s.timer with
  | none =>
    rw [Timed, held] at timed
    rw [timed.1] at found
    contradiction
  | some other =>
    rw [Timed, held] at timed
    obtain ⟨time, only, before⟩ := timed
    have same : handle = other ∧ time = set := by
      rw [only, List.lookup_cons] at found
      split at found
      · next same => exact ⟨by simpa using same, Option.some.inj found⟩
      · contradiction
    obtain ⟨rfl, rfl⟩ := same
    exact ⟨rfl, only, before⟩

theorem Consistent.expire (consistent : Consistent timeoutMsec s) {handle : ℕ} {set : Instant}
    (found : s.pending.lookup handle = some set) (later : s.now ≤ start) (began : start ≤ finish)
    (due : set + timeoutMsec ≤ start) :
    Consistent timeoutMsec ({ s with pending := s.pending.filter (·.1 ≠ handle) }.expired start finish throws) := by
  obtain ⟨_, only, before⟩ := consistent.expiring found
  have nothing : s.pending.filter (·.1 ≠ handle) = [] := by simp [only]
  have past (execution : Execution) (member : execution ∈ executions s.log) : execution.finish + timeoutMsec ≤ start :=
    Int.le_trans (Int.add_le_add_right (before execution member) _) due
  have waited (time : Instant) (member : time ∈ skipped s.log) : time ≤ start :=
    Int.le_trans (consistent.past time member) later
  have ended (execution : Execution) (member : execution ∈ executions s.log) : execution.finish ≤ start :=
    Int.le_trans (consistent.ended execution member) later
  rw [State.expired]
  split_ifs with some
  · exact consistent_execution rfl nothing rfl began (fun execution member _ => past execution member) waited ended
      consistent.apart consistent.followed
  · have cleared : s.numCallsSkipped = 0 := Nat.eq_zero_of_not_pos some
    refine ⟨⟨nothing, cleared, fun execution member _ => past execution member⟩, consistent.counted,
      waited, ended, ?_, ?_⟩
    · exact consistent.apart
    · exact consistent.followed

/-- Every event keeps the debouncer consistent. -/
theorem Consistent.step (consistent : Consistent timeoutMsec s) {event : Event} {next : State}
    (stepped : s.step timeoutMsec event = some next) : Consistent timeoutMsec next := by
  cases event with
  | run start finish throws =>
    obtain ⟨⟨later, began⟩, ⟨⟩⟩ := Option.ite_none_right_eq_some.mp stepped
    exact consistent.call later began
  | expire handle start finish throws =>
    rw [State.step] at stepped
    cases found : s.pending.lookup handle with
    | none =>
      rw [found] at stepped
      contradiction
    | some set =>
      rw [found] at stepped
      obtain ⟨⟨later, began, due⟩, ⟨⟩⟩ := Option.ite_none_right_eq_some.mp stepped
      exact consistent.expire found later began due

theorem consistent_after {now : Instant} {events : List Event} (ran : State.after timeoutMsec now events = some s) :
    Consistent timeoutMsec s := by
  induction events generalizing s with
  | nil =>
    cases ran
    exact consistent_initial now
  | cons event past ih =>
    obtain ⟨before, ran, stepped⟩ := Option.bind_eq_some_iff.mp ran
    exact (ih ran).step stepped

theorem Consistent.waits (consistent : Consistent timeoutMsec s) (waiting : skipped s.log ≠ []) : s.pending ≠ [] := by
  have timed := consistent.timed
  rcases s.timer.eq_none_or_eq_some with held | ⟨handle, held⟩
  · rw [Timed, held] at timed
    have counted := consistent.counted
    rw [timed.2.1] at counted
    exact absurd (List.length_eq_zero_iff.mp counted.symm) waiting
  · rw [Timed, held] at timed
    obtain ⟨set, only, _⟩ := timed
    rw [only]
    exact List.cons_ne_nil _ _

theorem Consistent.dropsNothing (consistent : Consistent timeoutMsec s) : DropsNothing timeoutMsec s where
  apart := consistent.apart
  waits := consistent.waits
  due := by
    rintro ⟨handle, set⟩ member start finish throws later began due
    have timed := consistent.timed
    rcases s.timer.eq_none_or_eq_some with held | ⟨other, held⟩
    · rw [Timed, held] at timed
      rw [timed.1] at member
      contradiction
    · rw [Timed, held] at timed
      obtain ⟨time, only, _⟩ := timed
      rw [only] at member
      cases List.mem_singleton.mp member
      have found : s.pending.lookup handle = some set := by rw [only, List.lookup_cons_self]
      rw [State.step, found]
      simp only [later, began, due, and_self, if_true, Option.isSome_some]
  expires := by
    intro handle start finish throws next stepped
    rw [State.step] at stepped
    cases found : s.pending.lookup handle with
    | none =>
      rw [found] at stepped
      contradiction
    | some set =>
      rw [found] at stepped
      obtain ⟨_, ⟨⟩⟩ := Option.ite_none_right_eq_some.mp stepped
      have waiting : s.numCallsSkipped > 0 ↔ skipped s.log ≠ [] := by
        rw [consistent.counted]
        exact List.length_pos_iff
      rw [State.expired]
      by_cases none : skipped s.log = []
      · rw [if_pos none, if_neg (fun some => waiting.mp some none)]
      · rw [if_neg none, if_pos (waiting.mpr none), State.run, if_pos rfl]
        cases throws <;> rfl
  followed := consistent.followed
  settled := by
    intro nothing after time before split
    rcases consistent.followed after time before split with executed | waits
    · exact executed
    · exact absurd nothing (consistent.waits (List.ne_nil_of_mem waits))

end Step

/-- After any calls, exceptions and expiries nothing is dropped. -/
theorem after_dropsNothing {timeoutMsec : ℕ} {now : Instant} {events : List Event} {s : State}
    (ran : State.after timeoutMsec now events = some s) : DropsNothing timeoutMsec s :=
  (consistent_after ran).dropsNothing

/-- A call, two more that are skipped, and the expiry, in which the function throws. -/
theorem after_dropsNothing_skipped :
    ∃ s, State.after 1000 0 [.expire 1 1100 1200 true, .run 50 60 false, .run 20 30 false, .run 0 10 false] = some s ∧
      executions s.log = [⟨1100, 1200, true⟩, ⟨0, 10, false⟩] ∧ DropsNothing 1000 s := by
  obtain ⟨s, ran⟩ : ∃ s, State.after 1000 0 [.expire 1 1100 1200 true, .run 50 60 false, .run 20 30 false,
      .run 0 10 false] = some s := ⟨_, rfl⟩
  refine ⟨s, ran, ?_, after_dropsNothing ran⟩
  cases ran
  rfl

end FreifunkManager.Debouncer
