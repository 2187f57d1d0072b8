import FreifunkManager.Effects.Program
import Mathlib.Logic.Function.Basic

/-! # Workers that interleave on a shared state

Each worker runs one call at a time, and a call is a program that advances by single operations;
between any two of them the other workers may move. What the environment decides (which call
comes next, how an operation ends) is in the actions, so a list of actions replays a run. A result
that the process does not survive stops every worker.

Properties of all runs are proved by rely and guarantee (`Reachable.guarded`): `rely worker` says
what the other workers may do to the shared state, and a program is `Guarded` when between any two
of its operations it can name an assertion that survives this, and every operation keeps the
shared invariant and what the others rely on.
-/

namespace Effects

/-- The calls of a pool of workers and the way operations act on the shared state. -/
structure Pool (S : Signature) (ι κ ρ ε σ : Type) where
  program : κ → Program S ρ
  /-- Which worker runs which calls. -/
  accepts : ι → κ → Bool
  handle : κ → ε → Handler S σ
  /-- Whether the process goes on after a call with this result. -/
  survives : ρ → Bool

/-- The shared state and the calls in progress. -/
structure Snapshot (S : Signature) (ι κ ρ σ : Type) where
  shared : σ
  active : ι → Option (κ × Program S ρ)
  halted : Bool := false

inductive Action (ι κ ε : Type) where
  | start (worker : ι) (call : κ)
  | advance (worker : ι) (choice : ε)
  | finish (worker : ι)
deriving DecidableEq

/-- The worker that moves. -/
def Action.worker {ι κ ε : Type} : Action ι κ ε → ι
  | .start worker _ | .advance worker _ | .finish worker => worker

namespace Pool

variable {S : Signature} {ι κ ρ ε σ : Type} [DecidableEq ι] (pool : Pool S ι κ ρ ε σ)

/-- A program whose result the process does not survive. -/
def fatal : Program S ρ → Bool
  | .done result => !pool.survives result
  | .ask _ _ => false

/-- One action, if it is possible in this state. -/
def step (state : Snapshot S ι κ ρ σ) (action : Action ι κ ε) : Option (Snapshot S ι κ ρ σ) :=
  if state.halted then none
  else match action with
  | .start worker call =>
    match state.active worker with
    | none =>
      if pool.accepts worker call then
        some { state with active := Function.update state.active worker (some (call, pool.program call)) }
      else none
    | some _ => none
  | .advance worker choice =>
    match state.active worker with
    | some (call, .ask op next) =>
      let (reply, shared) := pool.handle call choice op state.shared
      some { shared
             active := Function.update state.active worker (some (call, next reply))
             halted := pool.fatal (next reply) }
    | _ => none
  | .finish worker =>
    match state.active worker with
    | some (_, .done _) => some { state with active := Function.update state.active worker none }
    | _ => none

/-- Whether a call or an operation passes a check. -/
def passes (calls : κ → Bool) (check : κ → ε → S.Op → σ → Bool) (state : Snapshot S ι κ ρ σ) :
    Action ι κ ε → Bool
  | .start _ call => calls call
  | .advance worker choice =>
    match state.active worker with
    | some (call, .ask op _) => check call choice op state.shared
    | _ => true
  | .finish _ => true

/-- Replay a list of actions, as long as they pass. -/
def run (calls : κ → Bool) (check : κ → ε → S.Op → σ → Bool) (state : Snapshot S ι κ ρ σ)
    (actions : List (Action ι κ ε)) : Option (Snapshot S ι κ ρ σ) :=
  actions.foldlM (fun state action => if passes calls check state action then pool.step state action else none) state

/-- The states that runs from `start` reach by admitted steps. -/
inductive Reachable (allowed : Snapshot S ι κ ρ σ → Action ι κ ε → Prop) (start : Snapshot S ι κ ρ σ) :
    Snapshot S ι κ ρ σ → Prop
  | refl : Reachable allowed start start
  | next {state target : Snapshot S ι κ ρ σ} {action : Action ι κ ε} :
      Reachable allowed start state → allowed state action → pool.step state action = some target →
      Reachable allowed start target

variable {pool} {allowed : Snapshot S ι κ ρ σ → Action ι κ ε → Prop} {start state target : Snapshot S ι κ ρ σ}

/-- The possible steps: a call starts at an idle worker, asks one operation, or ends. -/
theorem step_cases {action : Action ι κ ε} (stepped : pool.step state action = some target) :
    (∃ worker call, action = .start worker call ∧ state.active worker = none ∧
      pool.accepts worker call = true ∧
      target = { state with active := Function.update state.active worker (some (call, pool.program call)) }) ∨
    (∃ worker choice call op next, action = .advance worker choice ∧
      state.active worker = some (call, .ask op next) ∧
      target = {
        shared := (pool.handle call choice op state.shared).2
        active := Function.update state.active worker
          (some (call, next (pool.handle call choice op state.shared).1))
        halted := pool.fatal (next (pool.handle call choice op state.shared).1) }) ∨
    (∃ worker call result, action = .finish worker ∧ state.active worker = some (call, .done result) ∧
      target = { state with active := Function.update state.active worker none }) := by
  unfold step at stepped
  split at stepped
  · contradiction
  · cases action with
    | start worker call =>
      dsimp only at stepped
      split at stepped
      · next idle =>
        split at stepped
        · next accepted => exact .inl ⟨worker, call, rfl, idle, accepted, (Option.some.inj stepped).symm⟩
        · contradiction
      · contradiction
    | advance worker choice =>
      dsimp only at stepped
      split at stepped
      · next call op next busy =>
        exact .inr (.inl ⟨worker, choice, call, op, next, rfl, busy, (Option.some.inj stepped).symm⟩)
      · contradiction
    | finish worker =>
      dsimp only at stepped
      split at stepped
      · next call result ended =>
        exact .inr (.inr ⟨worker, call, result, rfl, ended, (Option.some.inj stepped).symm⟩)
      · contradiction

/-- A worker that no action names goes on as it was. -/
theorem run_unnamed {calls : κ → Bool} {check : κ → ε → S.Op → σ → Bool} {actions : List (Action ι κ ε)}
    (replayed : pool.run calls check start actions = some target) {other : ι}
    (unnamed : ∀ action ∈ actions, action.worker ≠ other) : target.active other = start.active other := by
  induction actions generalizing start with
  | nil => cases replayed; rfl
  | cons action rest ih =>
    obtain ⟨middle, stepped, replayed⟩ := Option.bind_eq_some_iff.mp replayed
    obtain ⟨_, stepped⟩ := Option.ite_none_right_eq_some.mp stepped
    obtain ⟨first, later⟩ := List.forall_mem_cons.mp unnamed
    refine (ih replayed later).trans ?_
    rcases step_cases stepped with
      ⟨worker, call, rfl, _, _, rfl⟩ | ⟨worker, choice, call, op, next, rfl, _, rfl⟩ |
      ⟨worker, call, result, rfl, _, rfl⟩ <;>
    · exact Function.update_of_ne first.symm ..

/-- Who is busy after one worker has moved. -/
theorem update_eq_some {τ : Type} {active : ι → Option τ} {worker other : ι} {value : Option τ} {begun : τ}
    (found : Function.update active worker value other = some begun) :
    other = worker ∧ value = some begun ∨ other ≠ worker ∧ active other = some begun := by
  rcases eq_or_ne other worker with rfl | different
  · exact .inl ⟨rfl, by rwa [Function.update_self] at found⟩
  · exact .inr ⟨different, by rwa [Function.update_of_ne different] at found⟩

theorem Reachable.trans {middle : Snapshot S ι κ ρ σ} (first : pool.Reachable allowed start middle)
    (second : pool.Reachable allowed middle target) : pool.Reachable allowed start target := by
  induction second with
  | refl => exact first
  | next _ admitted stepped ih => exact ih.next admitted stepped

/-- A run with stricter conditions. -/
theorem Reachable.mono {weaker : Snapshot S ι κ ρ σ → Action ι κ ε → Prop}
    (weaken : ∀ state action, allowed state action → weaker state action)
    (reached : pool.Reachable allowed start target) :
    pool.Reachable weaker start target := by
  induction reached with
  | refl => exact .refl
  | next _ admitted stepped ih => exact ih.next (weaken _ _ admitted) stepped

/-- The induction principle for properties of all admitted runs. -/
theorem Reachable.invariant (holds : Snapshot S ι κ ρ σ → Prop) (initially : holds start)
    (keeps : ∀ state action target, holds state → allowed state action →
      pool.step state action = some target → holds target)
    (reached : pool.Reachable allowed start target) : holds target := by
  induction reached with
  | refl => exact initially
  | next _ admitted stepped ih => exact keeps _ _ _ ih admitted stepped

/-- A busy worker runs a call that it accepts. -/
theorem Reachable.accepted (idle : ∀ worker, start.active worker = none) (reached : pool.Reachable allowed start target)
    {worker : ι} {call : κ} {program : Program S ρ} (busy : target.active worker = some (call, program)) :
    pool.accepts worker call = true := by
  apply reached.invariant fun state => ∀ worker call program, state.active worker = some (call, program) →
    pool.accepts worker call = true
  · intro worker call program busy
    rw [idle worker] at busy
    contradiction
  · intro state action target holds _ stepped other call program running
    rcases step_cases stepped with
      ⟨worker, begun, rfl, _, accepted, rfl⟩ | ⟨worker, choice, going, op, next, rfl, active, rfl⟩ |
        ⟨worker, ended, result, rfl, _, rfl⟩
    · rcases update_eq_some running with ⟨rfl, same⟩ | ⟨_, before⟩
      · cases same
        exact accepted
      · exact holds other call program before
    · rcases update_eq_some running with ⟨rfl, same⟩ | ⟨_, before⟩
      · cases same
        exact holds other _ _ active
      · exact holds other call program before
    · rcases update_eq_some running with ⟨_, same⟩ | ⟨_, before⟩
      · contradiction
      · exact holds other call program before
  · exact busy

/-- The steps of a run whose calls and operations are limited. -/
def Admits (calls : κ → Prop) (permitted : κ → ε → S.Op → σ → Prop) (state : Snapshot S ι κ ρ σ) :
    Action ι κ ε → Prop
  | .start _ call => calls call
  | .advance worker choice => ∀ call op next, state.active worker = some (call, .ask op next) →
      permitted call choice op state.shared
  | .finish _ => True

omit [DecidableEq ι] in
theorem Admits.mono {calls : κ → Prop} {permitted weaker : κ → ε → S.Op → σ → Prop} {action : Action ι κ ε}
    (admitted : Admits calls permitted state action)
    (weaken : ∀ call choice op s, permitted call choice op s → weaker call choice op s) :
    Admits calls weaker state action := by
  cases action with
  | start worker call => exact admitted
  | advance worker choice => exact fun call op next busy => weaken _ _ _ _ (admitted call op next busy)
  | finish worker => trivial

/-- A replayed run reaches its end if the checks are strict enough. -/
theorem Reachable.of_run {calls : κ → Prop} {permitted : κ → ε → S.Op → σ → Prop} {callCheck : κ → Bool}
    {check : κ → ε → S.Op → σ → Bool} {actions : List (Action ι κ ε)}
    (replayed : pool.run callCheck check start actions = some target)
    (strictCalls : ∀ call, callCheck call = true → calls call)
    (strict : ∀ call choice op s, check call choice op s = true → permitted call choice op s) :
    pool.Reachable (Admits calls permitted) start target := by
  induction actions generalizing start with
  | nil => cases replayed; exact .refl
  | cons action rest ih =>
    obtain ⟨middle, stepped, replayed⟩ := Option.bind_eq_some_iff.mp replayed
    obtain ⟨passed, stepped⟩ := Option.ite_none_right_eq_some.mp stepped
    refine (Reachable.refl.next ?_ stepped).trans (ih replayed)
    cases action with
    | start worker call => exact strictCalls call passed
    | advance worker choice =>
      intro call op next busy
      rw [passes, busy] at passed
      exact strict _ _ _ _ passed
    | finish worker => trivial

section Guarded

variable {α β : Type} (pool) (permitted : κ → ε → S.Op → σ → Prop) (invariant : σ → Prop)
  (rely : ι → σ → σ → Prop) (worker : ι) (call : κ)

/-- An operation of the worker keeps the invariant and what the other workers rely on. -/
def Kept (before after : σ) : Prop := invariant after ∧ ∀ other, other ≠ worker → rely other before after

/-- From `s` on, with the other workers in between, every operation is `Kept`, and `wanted` holds when
the program ends. -/
def Guarded (wanted : α → σ → Prop) : Program S α → σ → Prop
  | .done value, s => wanted value s
  | .ask op next, s => ∃ assertion : σ → Prop,
      (∀ before after, assertion before → rely worker before after → assertion after) ∧ assertion s ∧
      ∀ choice before, invariant before → assertion before → permitted call choice op before →
        Kept invariant rely worker before (pool.handle call choice op before).2 ∧
        Guarded wanted (next (pool.handle call choice op before).1) (pool.handle call choice op before).2

variable {pool permitted invariant rely worker call} {wanted : α → σ → Prop} {s : σ}

omit [DecidableEq ι] in
theorem Guarded.mono {weaker : α → σ → Prop} {program : Program S α}
    (guarded : pool.Guarded permitted invariant rely worker call wanted program s)
    (weaken : ∀ value s, wanted value s → weaker value s) :
    pool.Guarded permitted invariant rely worker call weaker program s := by
  induction program generalizing s with
  | done value => exact weaken _ _ guarded
  | ask op next ih =>
    obtain ⟨assertion, stable, now, after⟩ := guarded
    refine ⟨assertion, stable, now, fun choice before invariant holds admitted => ?_⟩
    obtain ⟨kept, rest⟩ := after choice before invariant holds admitted
    exact ⟨kept, ih _ rest⟩

omit [DecidableEq ι] in
/-- Sequencing: the first part ends where the rest is guarded. -/
theorem guarded_bind {program : Program S α} {rest : α → Program S β} {wanted : β → σ → Prop} :
    pool.Guarded permitted invariant rely worker call wanted (program >>= rest) s ↔
      pool.Guarded permitted invariant rely worker call
        (fun value s => pool.Guarded permitted invariant rely worker call wanted (rest value) s) program s := by
  induction program generalizing s with
  | done value => rfl
  | ask op next ih => simp only [Program.ask_bind, Guarded, ih]

omit [DecidableEq ι] in
/-- A part whose operations are all harmless to an assertion carries it along. -/
theorem Guarded.of_satisfies {allowed : S.Op → Prop} {promised : (op : S.Op) → S.Reply op → Prop}
    {wanted : α → Prop} {program : Program S α} (satisfied : program.Satisfies allowed promised wanted)
    (assertion : σ → Prop) (stable : ∀ before after, assertion before → rely worker before after → assertion after)
    (harmless : ∀ op choice before, allowed op → invariant before → assertion before →
      permitted call choice op before → promised op (pool.handle call choice op before).1 ∧
      Kept invariant rely worker before (pool.handle call choice op before).2 ∧
      assertion (pool.handle call choice op before).2)
    (holds : assertion s) : pool.Guarded permitted invariant rely worker call
      (fun value s => wanted value ∧ assertion s) program s := by
  induction program generalizing s with
  | done value => exact ⟨satisfied, holds⟩
  | ask op next ih =>
    refine ⟨assertion, stable, holds, fun choice before invariant holds admitted => ?_⟩
    obtain ⟨answered, kept, holds⟩ := harmless op choice before satisfied.1 invariant holds admitted
    exact ⟨kept, ih _ (satisfied.2 _ answered) holds⟩

omit [DecidableEq ι] in
private theorem guarded_stable {program : Program S α} {after : σ}
    (guarded : pool.Guarded permitted invariant rely worker call wanted program s)
    (stable : ∀ value, wanted value s → wanted value after) (moved : rely worker s after) :
    pool.Guarded permitted invariant rely worker call wanted program after := by
  cases program with
  | done value => exact stable value guarded
  | ask op next =>
    obtain ⟨assertion, stable, now, rest⟩ := guarded
    exact ⟨assertion, stable, stable _ _ now moved, rest⟩

variable (invariant rely) in
/-- In every run from an idle start, the shared invariant holds, what idle workers may assume about the
state holds, and all calls in progress are guarded, if every call is when it starts. -/
theorem Reachable.guarded (resting : ι → σ → Prop) {calls : κ → Prop}
    (starts : ∀ worker call s, pool.accepts worker call = true → calls call → invariant s → resting worker s →
      pool.Guarded permitted invariant rely worker call (fun _ => resting worker) (pool.program call) s)
    (stable : ∀ worker before after, resting worker before → rely worker before after → resting worker after)
    (initially : invariant start.shared) (idle : ∀ worker, start.active worker = none ∧ resting worker start.shared)
    (reached : pool.Reachable (Admits calls permitted) start target) :
    invariant target.shared ∧ (∀ worker, target.active worker = none → resting worker target.shared) ∧
      ∀ worker call program, target.active worker = some (call, program) →
        pool.Guarded permitted invariant rely worker call (fun _ => resting worker) program target.shared := by
  induction reached with
  | refl =>
    refine ⟨initially, fun worker _ => (idle worker).2, fun worker call program busy => ?_⟩
    rw [(idle worker).1] at busy
    contradiction
  | next _ admitted stepped ih =>
    obtain ⟨holds, rests, guarded⟩ := ih
    rcases step_cases stepped with
      ⟨worker, call, rfl, free, accepted, rfl⟩ | ⟨worker, choice, call, op, next, rfl, busy, rfl⟩ |
        ⟨worker, call, result, rfl, ended, rfl⟩
    · refine ⟨holds, fun other active => ?_, fun other otherCall program active => ?_⟩ <;> dsimp only at active
      · rcases eq_or_ne other worker with rfl | different
        · rw [Function.update_self] at active
          contradiction
        · rw [Function.update_of_ne different] at active
          exact rests _ active
      · rcases eq_or_ne other worker with rfl | different
        · rw [Function.update_self] at active
          cases active
          exact starts _ _ _ accepted admitted holds (rests _ free)
        · rw [Function.update_of_ne different] at active
          exact guarded _ _ _ active
    · obtain ⟨assertion, _, now, rest⟩ := guarded _ _ _ busy
      obtain ⟨⟨kept, others⟩, own⟩ := rest choice _ holds now (admitted _ _ _ busy)
      refine ⟨kept, fun other active => ?_, fun other otherCall program active => ?_⟩ <;> dsimp only at active
      · rcases eq_or_ne other worker with rfl | different
        · rw [Function.update_self] at active
          contradiction
        · rw [Function.update_of_ne different] at active
          exact stable _ _ _ (rests _ active) (others other different)
      · rcases eq_or_ne other worker with rfl | different
        · rw [Function.update_self] at active
          cases active
          exact own
        · rw [Function.update_of_ne different] at active
          exact guarded_stable (guarded _ _ _ active) (fun _ rested => stable _ _ _ rested (others other different))
            (others other different)
    · refine ⟨holds, fun other active => ?_, fun other otherCall program active => ?_⟩ <;> dsimp only at active
      · rcases eq_or_ne other worker with rfl | different
        · exact guarded _ _ _ ended
        · rw [Function.update_of_ne different] at active
          exact rests _ active
      · rcases eq_or_ne other worker with rfl | different
        · rw [Function.update_self] at active
          contradiction
        · rw [Function.update_of_ne different] at active
          exact guarded _ _ _ active

variable (invariant) in
/-- An invariant that every operation keeps which a call may ask for. -/
theorem Reachable.satisfies (requests : κ → S.Op → Prop) {calls : κ → Prop}
    (programs : ∀ call, calls call →
      (pool.program call).Satisfies (requests call) (fun _ _ => True) fun _ => True)
    (keeps : ∀ call choice op s, requests call op → invariant s → permitted call choice op s →
      invariant (pool.handle call choice op s).2)
    (initially : invariant start.shared) (idle : ∀ worker, start.active worker = none)
    (reached : pool.Reachable (Admits calls permitted) start target) : invariant target.shared := by
  refine (Reachable.guarded invariant (fun _ _ _ => True) (fun _ _ => True) ?_ (fun _ _ _ _ _ => trivial) initially
    (fun worker => ⟨idle worker, trivial⟩) reached).1
  intro worker call s _ called _ _
  refine (Guarded.of_satisfies (programs call called) (fun _ => True) (fun _ _ _ _ => trivial) ?_ trivial).mono
    fun _ _ _ => trivial
  exact fun op choice before asked holds _ admitted =>
    ⟨trivial, ⟨keeps call choice op before asked holds admitted, fun _ _ => trivial⟩, trivial⟩

end Guarded

/-- What calls ask for, midway too, and an invariant that these operations keep. The run may start with calls in
progress. -/
theorem Reachable.asking {requests : κ → S.Op → Prop} {promised : (op : S.Op) → S.Reply op → Prop}
    (invariant : σ → Prop) {calls : κ → Prop} {permitted : κ → ε → S.Op → σ → Prop}
    (programs : ∀ call, calls call → (pool.program call).Satisfies (requests call) promised fun _ => True)
    (keeps : ∀ call choice op s, requests call op → invariant s → permitted call choice op s →
      promised op (pool.handle call choice op s).1 ∧ invariant (pool.handle call choice op s).2)
    (initially : invariant start.shared)
    (busy : ∀ worker call program, start.active worker = some (call, program) →
      program.Satisfies (requests call) promised fun _ => True)
    (reached : pool.Reachable (Admits calls permitted) start target) :
    invariant target.shared ∧ ∀ worker call program, target.active worker = some (call, program) →
      program.Satisfies (requests call) promised fun _ => True := by
  induction reached with
  | refl => exact ⟨initially, busy⟩
  | next _ admitted stepped ih =>
    obtain ⟨holds, asking⟩ := ih
    rcases step_cases stepped with
      ⟨worker, call, rfl, _, _, rfl⟩ | ⟨worker, choice, call, op, next, rfl, active, rfl⟩ |
      ⟨worker, call, result, rfl, _, rfl⟩
    · refine ⟨holds, fun other _ _ running => ?_⟩
      rcases update_eq_some running with ⟨_, same⟩ | ⟨_, before⟩
      · cases same
        exact programs call admitted
      · exact asking other _ _ before
    · have asks := asking worker call _ active
      obtain ⟨told, kept⟩ := keeps call choice op _ asks.1 holds (admitted call op next active)
      refine ⟨kept, fun other _ _ running => ?_⟩
      rcases update_eq_some running with ⟨_, same⟩ | ⟨_, before⟩
      · cases same
        exact asks.2 _ told
      · exact asking other _ _ before
    · refine ⟨holds, fun other _ _ running => ?_⟩
      rcases update_eq_some running with ⟨_, same⟩ | ⟨_, before⟩
      · contradiction
      · exact asking other _ _ before

end Pool

end Effects
