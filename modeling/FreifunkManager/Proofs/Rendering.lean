import FreifunkManager.Model.Rendering
import FreifunkManager.Proofs.Debounced
import Mathlib.Tactic.Linarith

/-! # The list is rendered in time

If the browser calls back no later than some time after a timer is due, then the list that is the current view is at
most the two delays and twice this time behind the store and the search field, as long as rendering the table does not
throw. A change either is shown at once, or waits for the timer of the list, or for that of the page and then perhaps
for that of the list. What was thrown before the change does no harm.
-/

namespace FreifunkManager.Rendering

open Debouncer

/-! ## One debouncer -/

/-- Calls are waiting for a timer that was set by then. -/
structure Waits (d : Debouncer.State) (time : Instant) : Prop where
  skipped : 0 < d.numCallsSkipped
  set : ∀ timer ∈ d.pending, timer.2 ≤ time

section Debouncers

variable {timeoutMsec : ℕ} {d next : Debouncer.State} {start finish time : Instant} {throws : Bool}

/-- A call executes the function, or waits. -/
theorem run_cases (stepped : d.step timeoutMsec (.run start finish throws) = some next) :
    d.timer = none ∧ next.pending = d.pending ++ (if throws then [] else [(d.nextHandle, finish)]) ∨
      d.timer ≠ none ∧ next.pending = d.pending ∧ 0 < next.numCallsSkipped := by
  obtain ⟨_, ⟨⟩⟩ := Option.ite_none_right_eq_some.mp stepped
  rw [Debouncer.State.run]
  split
  · next idle =>
    refine .inl ⟨idle, ?_⟩
    cases throws with
    | true => exact (List.append_nil _).symm
    | false => rfl
  · next busy => exact .inr ⟨busy, rfl, Nat.succ_pos _⟩

/-- An expiry executes the function if calls were waiting. -/
theorem expire_cases (consistent : Consistent timeoutMsec d) {handle : ℕ}
    (stepped : d.step timeoutMsec (.expire handle start finish throws) = some next) :
    ∃ set, d.pending = [(handle, set)] ∧ ∀ timer ∈ next.pending, timer.2 = finish := by
  rw [Debouncer.State.step] at stepped
  cases found : d.pending.lookup handle with
  | none =>
    rw [found] at stepped
    contradiction
  | some set =>
    rw [found] at stepped
    obtain ⟨_, ⟨⟩⟩ := Option.ite_none_right_eq_some.mp stepped
    obtain ⟨_, only, _⟩ := consistent.expiring found
    have nothing : d.pending.filter (·.1 ≠ handle) = [] := by simp [only]
    refine ⟨set, only, ?_⟩
    rw [Debouncer.State.expired]
    split
    · cases throws with
      | true =>
        simp only [Debouncer.State.run, if_true, nothing]
        exact List.forall_mem_nil _
      | false =>
        simp only [Debouncer.State.run, if_true, Debouncer.State.setTimeout, Bool.false_eq_true, if_false, nothing,
          List.nil_append]
        exact List.forall_mem_singleton.mpr rfl
    · dsimp only
      rw [nothing]
      exact List.forall_mem_nil _

theorem Waits.busy (consistent : Consistent timeoutMsec d) (waits : Waits d time) :
    d.timer ≠ none ∧ d.pending ≠ [] := by
  have timed := consistent.timed
  have skipped := waits.skipped
  rcases d.timer.eq_none_or_eq_some with held | ⟨handle, held⟩
  · rw [Timed, held] at timed
    omega
  · rw [Timed, held] at timed
    obtain ⟨set, only, _⟩ := timed
    rw [held, only]
    exact ⟨Option.some_ne_none _, List.cons_ne_nil _ _⟩

theorem run_set (set : ∀ timer ∈ d.pending, timer.2 ≤ start) (began : start ≤ finish)
    (stepped : d.step timeoutMsec (.run start finish throws) = some next) :
    ∀ timer ∈ next.pending, timer.2 ≤ finish := by
  intro timer member
  rcases run_cases stepped with ⟨_, pending⟩ | ⟨_, pending, _⟩
  · rw [pending] at member
    rcases List.mem_append.mp member with old | new
    · exact (set timer old).trans began
    · cases throws with
      | true => contradiction
      | false => rw [List.mem_singleton.mp new]
  · exact (set timer (pending ▸ member)).trans began

theorem expire_set (consistent : Consistent timeoutMsec d) {handle : ℕ}
    (stepped : d.step timeoutMsec (.expire handle start finish throws) = some next) :
    ∀ timer ∈ next.pending, timer.2 ≤ finish := by
  obtain ⟨_, _, pending⟩ := expire_cases consistent stepped
  exact fun timer member => (pending timer member).le

end Debouncers

/-! ## The page -/

/-- The browser is at most `late` behind with every timer. -/
structure Prompt (late : Instant) (s : State α) (time : Instant) : Prop where
  gui : ∀ timer ∈ s.gui.pending, time ≤ timer.2 + guiRenderDebouncerTime + late
  list : ∀ timer ∈ s.list.pending, time ≤ timer.2 + listTime + late

/-- When the content is changed or the list is shown. -/
def Event.touches {α : Type} (event : Event α) : Option Instant :=
  match event.action with
  | .onmessage _ | .keyup _ | .setView _ => some event.start
  | .expireGui _ | .expireList _ => none

variable {α : Type}

/-- The content is shown, or will be when the timer of the list or of the page expires. -/
def Coming (late : Instant) (touched : Instant) (s : State α) : Prop :=
  s.shown = s.content ∨ Waits s.list (touched + guiRenderDebouncerTime + late) ∨ Waits s.gui touched

/-- What holds of the two debouncers also if something was thrown. -/
structure Timely (s : State α) : Prop where
  gui : Consistent guiRenderDebouncerTime s.gui
  list : Consistent listTime s.list
  guiSet : ∀ timer ∈ s.gui.pending, timer.2 ≤ s.now
  listSet : ∀ timer ∈ s.list.pending, timer.2 ≤ s.now

section Steps

variable {late touched start drawn finish : Instant} {throws : Bool} {s next : State α}

/-- The parts that a rendering of the list leaves alone, and what it does to the debouncer. -/
structure ListOnly (s next : State α) (start drawn : Instant) (throws : Bool) : Prop where
  content : next.content = s.content
  current : next.current = s.current
  gui : next.gui = s.gui
  stepped : s.list.step listTime (.run start drawn throws) = some next.list
  shown : next.shown = if s.list.timer = none ∧ throws = false then s.content else s.shown

theorem renderList_only (rendered : s.renderList start drawn throws = some next) :
    ListOnly s next start drawn throws := by
  obtain ⟨list, stepped, rfl⟩ := Option.map_eq_some_iff.mp rendered
  exact ⟨rfl, rfl, rfl, stepped, rfl⟩

theorem renderView_only (rendered : s.renderView start drawn throws = some next) :
    s.current = true ∧ ListOnly s next start drawn throws ∨ s.current = false ∧ next = s := by
  rw [State.renderView] at rendered
  split at rendered
  · next current => exact .inl ⟨current, renderList_only rendered⟩
  · next other =>
    cases rendered
    exact .inr ⟨Bool.eq_false_of_not_eq_true other, rfl⟩

/-- After the list was asked to render without an exception it shows the content, or its timer is pending. -/
theorem ListOnly.coming (only : ListOnly s next start drawn false) (set : ∀ timer ∈ s.list.pending, timer.2 ≤ start)
    (soon : start ≤ touched + guiRenderDebouncerTime + late) : Coming late touched next := by
  rcases run_cases only.stepped with ⟨idle, _⟩ | ⟨busy, pending, skipped⟩
  · left
    rw [only.shown, only.content, if_pos ⟨idle, rfl⟩]
  · refine .inr (.inl ⟨skipped, fun timer member => ?_⟩)
    exact (set timer (pending ▸ member)).trans soon

/-- What is shown stays, and what waits goes on waiting. -/
theorem ListOnly.keeps (only : ListOnly s next start drawn throws) (consistent : Consistent listTime s.list)
    (soon : s.shown = s.content ∨ Waits s.list (touched + guiRenderDebouncerTime + late)) :
    Coming late touched next := by
  rcases soon with shown | waits
  · left
    rw [only.shown, only.content, shown, ite_self]
  · rcases run_cases only.stepped with ⟨idle, _⟩ | ⟨_, pending, skipped⟩
    · exact absurd idle (waits.busy consistent).1
    · exact .inr (.inl ⟨skipped, pending ▸ waits.set⟩)

/-- The page renders the view that is shown, and both debouncers are as before or were asked. -/
theorem renderView_timely (rendered : s.renderView start drawn throws = some next)
    (gui : Consistent guiRenderDebouncerTime s.gui) (list : Consistent listTime s.list)
    (guiSet : ∀ timer ∈ s.gui.pending, timer.2 ≤ finish) (listSet : ∀ timer ∈ s.list.pending, timer.2 ≤ start)
    (began : start ≤ drawn) (ended : drawn ≤ finish) : Timely { next with now := finish } := by
  rcases renderView_only rendered with ⟨_, only⟩ | ⟨_, rfl⟩
  · refine ⟨only.gui ▸ gui, list.step only.stepped, only.gui ▸ guiSet, fun timer member => ?_⟩
    exact (run_set listSet began only.stepped timer member).trans ended
  · exact ⟨gui, list, guiSet, fun timer member => (listSet timer member).trans (began.trans ended)⟩

theorem Timely.step (timely : Timely s) {event : Event α} (stepped : s.step event = some next) : Timely next := by
  obtain ⟨action, start, drawn, finish, throws, restThrows⟩ := event
  obtain ⟨⟨later, began, ended⟩, stepped⟩ := Option.ite_none_right_eq_some.mp stepped
  obtain ⟨acted, happened, rfl⟩ := Option.map_eq_some_iff.mp stepped
  dsimp only at later began ended happened
  have guiSet (timer) (member : timer ∈ s.gui.pending) := (timely.guiSet timer member).trans later
  have listSet (timer) (member : timer ∈ s.list.pending) := (timely.listSet timer member).trans later
  have whole := began.trans ended
  have listSet' (timer) (member : timer ∈ s.list.pending) := (listSet timer member).trans whole
  cases action with
  | onmessage content =>
    obtain ⟨gui, called, rest⟩ := Option.bind_eq_some_iff.mp happened
    have guiSet' := run_set guiSet whole called
    split at rest
    · exact renderView_timely rest (timely.gui.step called) timely.list guiSet' listSet began ended
    · cases rest
      exact ⟨timely.gui.step called, timely.list, guiSet', listSet'⟩
  | keyup content =>
    have only := renderList_only happened
    refine ⟨only.gui ▸ timely.gui, timely.list.step only.stepped, fun timer member => ?_, fun timer member => ?_⟩
    · exact (guiSet timer (only.gui ▸ member)).trans whole
    · exact (run_set listSet began only.stepped timer member).trans ended
  | setView list =>
    exact renderView_timely happened timely.gui timely.list
      (fun timer member => (guiSet timer member).trans whole) listSet
      began ended
  | expireGui handle =>
    obtain ⟨gui, expired, rest⟩ := Option.bind_eq_some_iff.mp happened
    have guiSet' := expire_set timely.gui expired
    split at rest
    · exact renderView_timely rest (timely.gui.step expired) timely.list guiSet' listSet began ended
    · cases rest
      exact ⟨timely.gui.step expired, timely.list, guiSet', listSet'⟩
  | expireList handle =>
    obtain ⟨list, expired, rfl⟩ := Option.map_eq_some_iff.mp happened
    refine ⟨timely.gui, timely.list.step expired, fun timer member => (guiSet timer member).trans whole,
      fun timer member => ?_⟩
    exact (expire_set timely.list expired timer member).trans ended

/-- After a change the content is shown or coming, if rendering the table does not throw. -/
theorem touched_coming (timely : Timely s) (tolerant : 0 ≤ late) {event : Event α} (calm : event.throws = false)
    {time : Instant} (touches : event.touches = some time) (stepped : s.step event = some next)
    (current : next.current = true) : Coming late time next := by
  obtain ⟨action, start, drawn, finish, throws, restThrows⟩ := event
  obtain rfl : throws = false := calm
  obtain ⟨⟨later, _, _⟩, stepped⟩ := Option.ite_none_right_eq_some.mp stepped
  obtain ⟨acted, happened, rfl⟩ := Option.map_eq_some_iff.mp stepped
  dsimp only at later happened current
  have guiSet (timer) (member : timer ∈ s.gui.pending) := (timely.guiSet timer member).trans later
  have listSet (timer) (member : timer ∈ s.list.pending) := (timely.listSet timer member).trans later
  have delay : (0 : ℤ) ≤ guiRenderDebouncerTime := Int.natCast_nonneg _
  have atOnce : start ≤ start + guiRenderDebouncerTime + late := by linarith
  cases action with
  | onmessage content =>
    cases touches
    obtain ⟨gui, called, rest⟩ := Option.bind_eq_some_iff.mp happened
    split at rest
    · rcases renderView_only rest with ⟨_, only⟩ | ⟨other, rfl⟩
      · exact only.coming listSet atOnce
      · exact absurd (other.symm.trans current) Bool.false_ne_true
    · next busy =>
      cases rest
      rcases run_cases called with ⟨idle, _⟩ | ⟨_, pending, skipped⟩
      · exact absurd idle busy
      · exact .inr (.inr ⟨skipped, pending ▸ guiSet⟩)
  | keyup content =>
    cases touches
    exact (renderList_only happened).coming listSet atOnce
  | setView list =>
    cases touches
    rcases renderView_only happened with ⟨_, only⟩ | ⟨other, rfl⟩
    · exact only.coming listSet atOnce
    · exact absurd (other.symm.trans current) Bool.false_ne_true
  | expireGui | expireList => contradiction

/-- What is shown or coming stays so when a timer expires, if rendering the table does not throw. -/
theorem expired_coming (timely : Timely s) {event : Event α} (calm : event.throws = false)
    (untouched : event.touches = none)
    (prompt : Prompt late s event.start) (stepped : s.step event = some next) (current : next.current = true)
    (coming : s.current = true → Coming late touched s) : Coming late touched next := by
  obtain ⟨action, start, drawn, finish, throws, restThrows⟩ := event
  obtain rfl : throws = false := calm
  obtain ⟨⟨later, _, _⟩, stepped⟩ := Option.ite_none_right_eq_some.mp stepped
  obtain ⟨acted, happened, rfl⟩ := Option.map_eq_some_iff.mp stepped
  dsimp only at later happened current prompt
  have listSet (timer) (member : timer ∈ s.list.pending) := (timely.listSet timer member).trans later
  cases action with
  | onmessage | keyup | setView => contradiction
  | expireGui handle =>
    obtain ⟨gui, expired, rest⟩ := Option.bind_eq_some_iff.mp happened
    obtain ⟨set, waited, _⟩ := expire_cases timely.gui expired
    have due : start ≤ set + guiRenderDebouncerTime + late := prompt.gui (handle, set) (by rw [waited]; exact .head _)
    split at rest
    · rcases renderView_only rest with ⟨shown, only⟩ | ⟨other, rfl⟩
      · rcases coming shown with same | list | gui
        · exact only.keeps timely.list (.inl same)
        · exact only.keeps timely.list (.inr list)
        · have early : set ≤ touched := gui.set (handle, set) (by rw [waited]; exact .head _)
          exact only.coming listSet (show start ≤ touched + guiRenderDebouncerTime + late by linarith)
      · exact absurd (other.symm.trans current) Bool.false_ne_true
    · next none =>
      cases rest
      rcases coming current with same | list | gui
      · exact .inl same
      · exact .inr (.inl list)
      · exact absurd gui.skipped none
  | expireList handle =>
    obtain ⟨list, expired, rfl⟩ := Option.map_eq_some_iff.mp happened
    by_cases waiting : s.list.numCallsSkipped > 0
    · exact .inl (if_pos ⟨waiting, rfl⟩)
    · have unchanged : ¬ (s.list.numCallsSkipped > 0 ∧ false = false) := fun executed => waiting executed.1
      rcases coming current with same | list | gui
      · exact .inl ((if_neg unchanged).trans same)
      · exact absurd list.skipped waiting
      · exact .inr (.inr gui)

theorem timely_initial (content shown : α) (now : Instant) : Timely (initial content shown now) where
  gui := consistent_initial now
  list := consistent_initial now
  guiSet := List.forall_mem_nil _
  listSet := List.forall_mem_nil _

end Steps

/-- When the content was changed last, or the list was shown. -/
def touchedLast (now : Instant) (events : List (Event α)) : Instant := (events.findSome? Event.touches).getD now

/-- The events since then. -/
def sinceTouched : List (Event α) → List (Event α)
  | [] => []
  | event :: past => event :: if event.touches.isSome then [] else sinceTouched past

/-- Throughout the run the browser is at most `late` behind. -/
def PromptAlong (late : Instant) (content shown : α) (now : Instant) : List (Event α) → Prop
  | [] => True
  | event :: past => PromptAlong late content shown now past ∧
      ∀ s, after content shown now past = some s → Prompt late s event.start

section Runs

variable {late now : Instant} {content shown : α} {events : List (Event α)} {s : State α}

theorem timely_after (ran : after content shown now events = some s) : Timely s := by
  induction events generalizing s with
  | nil =>
    cases ran
    exact timely_initial content shown now
  | cons event past ih =>
    obtain ⟨before, ran, stepped⟩ := Option.bind_eq_some_iff.mp ran
    exact (ih ran).step stepped

theorem coming_after (tolerant : 0 ≤ late) (prompt : PromptAlong late content shown now events)
    (calm : ∀ event ∈ sinceTouched events, event.throws = false) (ran : after content shown now events = some s)
    (current : s.current = true) : Coming late (touchedLast now events) s := by
  induction events generalizing s with
  | nil =>
    cases ran
    contradiction
  | cons event past ih =>
    obtain ⟨before, ran, stepped⟩ := Option.bind_eq_some_iff.mp ran
    have timely := timely_after ran
    rw [sinceTouched] at calm
    obtain ⟨calm, earlier⟩ := List.forall_mem_cons.mp calm
    rw [touchedLast, List.findSome?_cons]
    cases touches : event.touches with
    | some time => exact touched_coming timely tolerant calm touches stepped current
    | none =>
      rw [touches] at earlier
      exact expired_coming timely calm touches (prompt.2 before ran) stepped current fun shown =>
        ih prompt.1 earlier ran shown

/-- The list that is the current view shows the store and what is searched for, as they were at some time that is at
most the two delays and twice the lateness of the browser ago, as long as rendering the table has not thrown since. -/
theorem shown_in_time (tolerant : 0 ≤ late) (prompt : PromptAlong late content shown now events)
    (calm : ∀ event ∈ sinceTouched events, event.throws = false) (ran : after content shown now events = some s)
    (current : s.current = true) {time : Instant} (onTime : Prompt late s time)
    (long : touchedLast now events + guiRenderDebouncerTime + listTime + 2 * late < time) : s.shown = s.content := by
  have timely := timely_after ran
  rcases coming_after tolerant prompt calm ran current with same | list | gui
  · exact same
  · obtain ⟨timer, member⟩ := List.exists_mem_of_ne_nil _ (list.busy timely.list).2
    have set := list.set timer member
    have due := onTime.list timer member
    linarith
  · obtain ⟨timer, member⟩ := List.exists_mem_of_ne_nil _ (gui.busy timely.gui).2
    have set := gui.set timer member
    have due := onTime.gui timer member
    have delay : (0 : ℤ) ≤ listTime := Int.natCast_nonneg _
    linarith

end Runs

/-- The list is shown before the channels are known, and throws. Then messages come in while its timer and that of the
page are pending. -/
def busyPage : List (Event String) :=
  [⟨.expireList 1, 1025, 1026, 1026, false, false⟩, ⟨.expireGui 2, 230, 230, 231, false, false⟩,
    ⟨.expireGui 1, 125, 126, 127, false, false⟩, ⟨.onmessage "roof", 60, 61, 62, false, false⟩,
    ⟨.onmessage "attic", 20, 21, 22, false, false⟩, ⟨.setView true, 10, 11, 11, true, false⟩]

theorem shown_in_time_busyPage : ∃ s, after "" "" 0 busyPage = some s ∧ s.content = "roof" ∧ s.shown = s.content := by
  obtain ⟨s, ran⟩ : ∃ s, after "" "" 0 busyPage = some s := ⟨_, rfl⟩
  have prompt : PromptAlong 10 "" "" 0 busyPage := by
    simp only [busyPage, PromptAlong]
    refine ⟨⟨⟨⟨⟨⟨trivial, ?_⟩, ?_⟩, ?_⟩, ?_⟩, ?_⟩, ?_⟩ <;> rintro _ ⟨⟩ <;> constructor <;> decide
  have onTime : Prompt 10 s 1200 := by
    cases ran
    constructor <;> decide
  have long : touchedLast 0 busyPage + guiRenderDebouncerTime + listTime + 2 * 10 < 1200 := by decide
  refine ⟨s, ran, ?_, shown_in_time (by decide) prompt (by decide) ran ?_ onTime long⟩
  · cases ran
    rfl
  · cases ran
    rfl

end FreifunkManager.Rendering
