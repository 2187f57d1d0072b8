import FreifunkManager.Effects.Workers
import Mathlib.Data.Finset.Basic

/-! # Calls that do not meet

A state consists of parts, and a call has a footprint among them: it changes no other part, and what it does depends on
no other. A call with an empty footprint changes nothing and may depend on everything. Of a run it is recorded which
calls have ended, in the order of their ends, each with its choices. If the footprints of the calls in progress are
disjoint throughout, every part that is not being worked on is as it is after these calls, one after the other
(`Ran.isolated`).
-/

namespace Effects

namespace Program

variable {S : Signature} {α ε σ : Type}

/-- Advance by as many operations as there are choices, or to the end. -/
def replay (handle : ε → Handler S σ) : List ε → Program S α → σ → Program S α × σ
  | choice :: rest, .ask op next, s => replay handle rest (next (handle choice op s).1) (handle choice op s).2
  | _, program, s => (program, s)

variable {handle : ε → Handler S σ}

@[simp] theorem replay_nil (program : Program S α) (s : σ) : replay handle [] program s = (program, s) := rfl

@[simp] theorem replay_done (choices : List ε) (value : α) (s : σ) :
    replay handle choices (.done value) s = (.done value, s) := by
  cases choices <;> rfl

theorem replay_append (first second : List ε) (program : Program S α) (s : σ) :
    replay handle (first ++ second) program s =
      replay handle second (replay handle first program s).1 (replay handle first program s).2 := by
  induction first generalizing program s with
  | nil => rfl
  | cons choice rest ih =>
    cases program with
    | done value => simp
    | ask op next => exact ih ..

end Program

variable {S : Signature} {ι κ ρ ε σ γ : Type} {ν : γ → Type}

namespace Pool

variable [DecidableEq ι] (pool : Pool S ι κ ρ ε σ)

/-! ## Records -/

/-- The choices of the calls in progress, and the calls that have ended, with theirs. -/
structure Record (ι κ ε : Type) where
  active : ι → Option (κ × List ε) := fun _ => none
  ended : List (κ × List ε) := []

def Record.add (record : Record ι κ ε) : Action ι κ ε → Record ι κ ε
  | .start worker call => { record with active := Function.update record.active worker (some (call, [])) }
  | .advance worker choice =>
    { record with
      active := Function.update record.active worker
        ((record.active worker).map fun begun => (begun.1, begun.2 ++ [choice])) }
  | .finish worker =>
    { active := Function.update record.active worker none
      ended := record.ended ++ (record.active worker).toList }

section Record

variable (record : Record ι κ ε) (worker : ι)

@[simp] theorem Record.add_start (call : κ) : (record.add (.start worker call)).active =
    Function.update record.active worker (some (call, [])) := rfl

@[simp] theorem Record.add_advance (choice : ε) : (record.add (.advance worker choice)).active =
    Function.update record.active worker
      ((record.active worker).map fun begun => (begun.1, begun.2 ++ [choice])) := rfl

@[simp] theorem Record.add_finish : (record.add (.finish worker)).active =
    Function.update record.active worker none := rfl

end Record

def recorded (actions : List (Action ι κ ε)) : Record ι κ ε := actions.foldl Record.add {}

theorem recorded_concat (actions : List (Action ι κ ε)) (action : Action ι κ ε) :
    recorded (actions ++ [action]) = (recorded actions).add action := by
  rw [recorded, List.foldl_concat]
  rfl

/-- The runs by admitted steps, with their actions. -/
inductive Ran (allowed : Snapshot S ι κ ρ σ → Action ι κ ε → Prop) (start : Snapshot S ι κ ρ σ) :
    List (Action ι κ ε) → Snapshot S ι κ ρ σ → Prop
  | nil : Ran allowed start [] start
  | snoc {actions : List (Action ι κ ε)} {action : Action ι κ ε} {state target : Snapshot S ι κ ρ σ} :
      Ran allowed start actions state → allowed state action → pool.step state action = some target →
      Ran allowed start (actions ++ [action]) target

variable {pool} in
/-- A replayed list of actions extends a run, if no call starts in it and other actions are admitted. -/
theorem Ran.append_run {allowed : Snapshot S ι κ ρ σ → Action ι κ ε → Prop} {start state target : Snapshot S ι κ ρ σ}
    {actions rest : List (Action ι κ ε)} (ran : pool.Ran allowed start actions state)
    (admits : ∀ state action, (∀ worker call, action ≠ .start worker call) → allowed state action)
    (replayed : pool.run (fun _ => false) (fun _ _ _ _ => true) state rest = some target) :
    pool.Ran allowed start (actions ++ rest) target := by
  induction rest generalizing actions state with
  | nil =>
    cases replayed
    rwa [List.append_nil]
  | cons action rest ih =>
    obtain ⟨middle, stepped, replayed⟩ := Option.bind_eq_some_iff.mp replayed
    obtain ⟨passed, stepped⟩ := Option.ite_none_right_eq_some.mp stepped
    rw [List.append_cons]
    refine ih (ran.snoc (admits state action fun worker call same => ?_) stepped) replayed
    subst same
    contradiction

/-- The state after a call alone, if these choices take it to its end. -/
def alone (s : σ) (ended : κ × List ε) : Option σ :=
  match (pool.program ended.1).replay (pool.handle ended.1) ended.2 s with
  | (.done _, after) => some after
  | (.ask _ _, _) => none

/-! ## Footprints -/

/-- These parts are the same in both states. -/
def Alike (part : (c : γ) → σ → ν c) (parts : Finset γ) (s s' : σ) : Prop := ∀ c ∈ parts, part c s = part c s'

/-- Calls keep to their footprints. -/
structure Confined (part : (c : γ) → σ → ν c) (footprint : κ → Finset γ) (invariant : σ → Prop) (calls : κ → Prop)
    (requests : κ → S.Op → Prop) (promised : (op : S.Op) → S.Reply op → Prop) : Prop where
  programs : ∀ call, calls call → (pool.program call).Satisfies (requests call) promised fun _ => True
  keeps : ∀ call choice op s, requests call op → invariant s →
    promised op (pool.handle call choice op s).1 ∧ invariant (pool.handle call choice op s).2
  outside : ∀ call choice op s, requests call op → invariant s →
    ∀ c ∉ footprint call, part c (pool.handle call choice op s).2 = part c s
  inside : ∀ call choice op s s', (footprint call).Nonempty → requests call op → invariant s → invariant s' →
    Alike part (footprint call) s s' → (pool.handle call choice op s).1 = (pool.handle call choice op s').1 ∧
      Alike part (footprint call) (pool.handle call choice op s).2 (pool.handle call choice op s').2

/-- A call starts only while no other one has a part of its footprint. -/
def Separate (footprint : κ → Finset γ) (calls : κ → Prop) (state : Snapshot S ι κ ρ σ) : Action ι κ ε → Prop
  | .start _ call => calls call ∧ ∀ other busy program, state.active other = some (busy, program) →
      Disjoint (footprint busy) (footprint call)
  | _ => True

omit [DecidableEq ι] in
theorem separate_other {footprint : κ → Finset γ} {calls : κ → Prop} {state : Snapshot S ι κ ρ σ}
    {action : Action ι κ ε}
    (others : ∀ worker call, action ≠ .start worker call) : Separate footprint calls state action := by
  cases action with
  | start worker call => exact absurd rfl (others worker call)
  | _ => trivial

variable {pool} {part : (c : γ) → σ → ν c} {footprint : κ → Finset γ} {invariant : σ → Prop} {calls : κ → Prop}
  {requests : κ → S.Op → Prop} {promised : (op : S.Op) → S.Reply op → Prop}

section Calls

variable (confined : pool.Confined part footprint invariant calls requests promised) {call : κ} (choices : List ε)
  {program : Program S ρ} {s s' : σ}

include confined

omit [DecidableEq ι] in
theorem Confined.replay_keeps (asks : program.Satisfies (requests call) promised fun _ => True) (valid : invariant s) :
    (program.replay (pool.handle call) choices s).1.Satisfies (requests call) promised (fun _ => True) ∧
      invariant (program.replay (pool.handle call) choices s).2 := by
  induction choices generalizing program s with
  | nil => exact ⟨asks, valid⟩
  | cons choice rest ih =>
    cases program with
    | done value => exact ⟨asks, valid⟩
    | ask op next =>
      obtain ⟨told, kept⟩ := confined.keeps call choice op s asks.1 valid
      exact ih (asks.2 _ told) kept

omit [DecidableEq ι] in
theorem Confined.replay_outside (asks : program.Satisfies (requests call) promised fun _ => True) (valid : invariant s)
    {c : γ} (other : c ∉ footprint call) : part c (program.replay (pool.handle call) choices s).2 = part c s := by
  induction choices generalizing program s with
  | nil => rfl
  | cons choice rest ih =>
    cases program with
    | done value => rfl
    | ask op next =>
      obtain ⟨told, kept⟩ := confined.keeps call choice op s asks.1 valid
      exact (ih (asks.2 _ told) kept).trans (confined.outside call choice op s asks.1 valid c other)

omit [DecidableEq ι] in
theorem Confined.replay_inside (some : (footprint call).Nonempty)
    (asks : program.Satisfies (requests call) promised fun _ => True) (valid : invariant s) (valid' : invariant s')
    (alike : Alike part (footprint call) s s') :
    (program.replay (pool.handle call) choices s).1 = (program.replay (pool.handle call) choices s').1 ∧
      Alike part (footprint call) (program.replay (pool.handle call) choices s).2
        (program.replay (pool.handle call) choices s').2 := by
  induction choices generalizing program s s' with
  | nil => exact ⟨rfl, alike⟩
  | cons choice rest ih =>
    cases program with
    | done value => exact ⟨rfl, alike⟩
    | ask op next =>
      obtain ⟨told, kept⟩ := confined.keeps call choice op s asks.1 valid
      obtain ⟨_, kept'⟩ := confined.keeps call choice op s' asks.1 valid'
      obtain ⟨same, after⟩ := confined.inside call choice op s s' some asks.1 valid valid' alike
      rw [Program.replay, Program.replay, ← same]
      exact ih (asks.2 _ told) kept kept' after

end Calls

/-! ## Runs -/

/-- A call in progress has got as far as it would have alone from `s`. -/
structure Underway (pool : Pool S ι κ ρ ε σ) (part : (c : γ) → σ → ν c) (footprint : κ → Finset γ)
    (invariant : σ → Prop)
    (requests : κ → S.Op → Prop) (promised : (op : S.Op) → S.Reply op → Prop) (s shared : σ) (call : κ)
    (program : Program S ρ) (choices : List ε) : Prop where
  asks : program.Satisfies (requests call) promised fun _ => True
  begun : (footprint call).Nonempty → ∃ own, (pool.program call).replay (pool.handle call) choices s = (program, own) ∧
    invariant own ∧ Alike part (footprint call) own shared

/-- Every part is as it is after the calls that have ended, but for what the calls in progress have done to it. -/
structure Isolated (pool : Pool S ι κ ρ ε σ) (part : (c : γ) → σ → ν c) (footprint : κ → Finset γ)
    (invariant : σ → Prop)
    (calls : κ → Prop) (requests : κ → S.Op → Prop) (promised : (op : S.Op) → S.Reply op → Prop) (initial : σ)
    (record : Record ι κ ε) (state : Snapshot S ι κ ρ σ) (s : σ) : Prop where
  serial : (record.ended.filter fun ended => (footprint ended.1).Nonempty).foldlM pool.alone initial = some s
  valid : invariant s
  shared : invariant state.shared
  rest : ∀ c, (∀ worker call program, state.active worker = some (call, program) → c ∉ footprint call) →
    part c state.shared = part c s
  underway : ∀ worker call program, state.active worker = some (call, program) → calls call ∧
    ∃ choices, record.active worker = some (call, choices) ∧
      pool.Underway part footprint invariant requests promised s state.shared call program choices
  apart : ∀ worker other call busy program program', worker ≠ other → state.active worker = some (call, program) →
    state.active other = some (busy, program') → Disjoint (footprint call) (footprint busy)

section Isolated

variable (confined : pool.Confined part footprint invariant calls requests promised) {initial s : σ}
  {record : Record ι κ ε} {state : Snapshot S ι κ ρ σ}
  (isolated : pool.Isolated part footprint invariant calls requests promised initial record state s)

include confined isolated

theorem Isolated.start {worker : ι} {call : κ} (free : state.active worker = none) (called : calls call)
    (separate : ∀ other busy program, state.active other = some (busy, program) →
      Disjoint (footprint busy) (footprint call)) :
    pool.Isolated part footprint invariant calls requests promised initial (record.add (.start worker call))
      { state with active := Function.update state.active worker (some (call, pool.program call)) } s := by
  have others {other : ι} {busy : κ} {program : Program S ρ} (active : state.active other = some (busy, program)) :
      other ≠ worker := by
    rintro rfl
    rw [free] at active
    contradiction
  refine ⟨isolated.serial, isolated.valid, isolated.shared, fun c outside => ?_,
    fun other busy program active => ?_, ?_⟩
  · refine isolated.rest c fun other busy program active => outside other busy program ?_
    exact (Function.update_of_ne (others active) ..).trans active
  · rcases update_eq_some active with ⟨rfl, same⟩ | ⟨different, before⟩
    · cases same
      refine ⟨called, [], by simp, confined.programs _ called, fun _ => ⟨s, rfl, isolated.valid, ?_⟩⟩
      intro c member
      refine (isolated.rest c fun other busy program active held => ?_).symm
      exact Finset.disjoint_left.mp (separate other busy program active) held member
    · obtain ⟨called, choices, known, underway⟩ := isolated.underway other busy program before
      exact ⟨called, choices, by simp [different, known], underway.asks, underway.begun⟩
  · intro first second call' busy program program' different active active'
    rcases update_eq_some active with ⟨rfl, same⟩ | ⟨_, before⟩
    · rcases update_eq_some active' with ⟨rfl, _⟩ | ⟨_, before'⟩
      · contradiction
      · cases same
        exact (separate _ _ _ before').symm
    · rcases update_eq_some active' with ⟨rfl, same⟩ | ⟨_, before'⟩
      · cases same
        exact separate _ _ _ before
      · exact isolated.apart _ _ _ _ _ _ different before before'

theorem Isolated.advance {worker : ι} {choice : ε} {call : κ} {op : S.Op} {next : S.Reply op → Program S ρ}
    (busy : state.active worker = some (call, .ask op next)) {halted : Bool} :
    pool.Isolated part footprint invariant calls requests promised initial (record.add (.advance worker choice))
      { shared := (pool.handle call choice op state.shared).2
        active := Function.update state.active worker (some (call, next (pool.handle call choice op state.shared).1))
        halted } s := by
  obtain ⟨called, choices, known, underway⟩ := isolated.underway worker call _ busy
  obtain ⟨told, kept⟩ := confined.keeps call choice op state.shared underway.asks.1 isolated.shared
  have outside {c : γ} (other : c ∉ footprint call) :=
    confined.outside call choice op state.shared underway.asks.1 isolated.shared c other
  -- the same calls are in progress
  have before {other : ι} {call' : κ} {program : Program S ρ} (active : Function.update state.active worker
      (some (call, next (pool.handle call choice op state.shared).1)) other = some (call', program)) :
      ∃ program, state.active other = some (call', program) := by
    rcases update_eq_some active with ⟨rfl, same⟩ | ⟨_, before⟩
    · cases same
      exact ⟨_, busy⟩
    · exact ⟨program, before⟩
  refine ⟨isolated.serial, isolated.valid, kept, fun c free => ?_, fun other call' program active => ?_, ?_⟩
  · have own : c ∉ footprint call := free worker call _ (Function.update_self ..)
    refine (outside own).trans (isolated.rest c fun other call' program active => ?_)
    rcases eq_or_ne other worker with rfl | different
    · rw [busy] at active
      cases active
      exact own
    · exact free other call' program ((Function.update_of_ne different ..).trans active)
  · rcases update_eq_some active with ⟨rfl, same⟩ | ⟨different, before⟩
    · cases same
      refine ⟨called, choices ++ [choice], by simp [known], underway.asks.2 _ told, fun some => ?_⟩
      obtain ⟨own, replayed, valid, alike⟩ := underway.begun some
      obtain ⟨same, after⟩ := confined.inside call choice op own state.shared some underway.asks.1 valid
        isolated.shared alike
      refine ⟨(pool.handle call choice op own).2, ?_, ?_, after⟩
      · rw [Program.replay_append, replayed, ← same]
        rfl
      · exact (confined.keeps call choice op own underway.asks.1 valid).2
    · obtain ⟨called', choices', known', underway'⟩ := isolated.underway other call' program before
      refine ⟨called', choices', by simp [different, known'], underway'.asks, fun some => ?_⟩
      obtain ⟨own, replayed, valid, alike⟩ := underway'.begun some
      refine ⟨own, replayed, valid, fun c member => (alike c member).trans (outside ?_).symm⟩
      have apart := isolated.apart other worker _ _ _ _ different before busy
      exact Finset.disjoint_left.mp apart member
  · intro first second call' busy' program program' different active active'
    obtain ⟨_, active⟩ := before active
    obtain ⟨_, active'⟩ := before active'
    exact isolated.apart _ _ _ _ _ _ different active active'

/-- When a call ends, it takes its place after the calls that have ended before. -/
theorem Isolated.finish {worker : ι} {call : κ} {result : ρ} (ended : state.active worker = some (call, .done result)) :
    ∃ s', pool.Isolated part footprint invariant calls requests promised initial (record.add (.finish worker))
      { state with active := Function.update state.active worker none } s' := by
  obtain ⟨called, choices, known, underway⟩ := isolated.underway worker call _ ended
  have listed : (record.add (.finish worker)).ended = record.ended ++ [(call, choices)] := by
    rw [Record.add, known]
    rfl
  have remains {other : ι} {call' : κ} {program : Program S ρ}
      (active : Function.update state.active worker none other = some (call', program)) :
      other ≠ worker ∧ state.active other = some (call', program) := by
    rcases update_eq_some active with ⟨_, same⟩ | remains
    · contradiction
    · exact remains
  -- what is free now was free before, if it was not of the ended call
  have freed {c : γ} (own : c ∉ footprint call) (free : ∀ other call' program,
      Function.update state.active worker none other = some (call', program) → c ∉ footprint call') :
      part c state.shared = part c s := by
    refine isolated.rest c fun other call' program active => ?_
    rcases eq_or_ne other worker with rfl | different
    · rw [ended] at active
      cases active
      exact own
    · exact free other call' program ((Function.update_of_ne different ..).trans active)
  have apart {first second : ι} {call' busy : κ} {program program' : Program S ρ} (different : first ≠ second)
      (active : Function.update state.active worker none first = some (call', program))
      (active' : Function.update state.active worker none second = some (busy, program')) :
      Disjoint (footprint call') (footprint busy) :=
    isolated.apart _ _ _ _ _ _ different (remains active).2 (remains active').2
  by_cases some : (footprint call).Nonempty
  · obtain ⟨own, replayed, valid, alike⟩ := underway.begun some
    have moved {c : γ} (other : c ∉ footprint call) : part c own = part c s := by
      have outside := confined.replay_outside choices (confined.programs call called) isolated.valid other
      rwa [replayed] at outside
    refine ⟨own, ?_, valid, isolated.shared, fun c free => ?_, fun other call' program active => ?_,
      fun _ _ _ _ _ _ => apart⟩
    · rw [listed, List.filter_append, List.foldlM_append, isolated.serial,
        List.filter_cons_of_pos (by simpa using some)]
      simp [alone, replayed]
    · by_cases member : c ∈ footprint call
      · exact (alike c member).symm
      · exact (freed member free).trans (moved member).symm
    · obtain ⟨different, before⟩ := remains active
      obtain ⟨called', choices', known', underway'⟩ := isolated.underway other call' program before
      refine ⟨called', choices', by simp [different, known'], underway'.asks, fun some' => ?_⟩
      obtain ⟨own', replayed', valid', alike'⟩ := underway'.begun some'
      have between : Alike part (footprint call') s own := by
        intro c member
        exact (moved (Finset.disjoint_left.mp (isolated.apart _ _ _ _ _ _ different before ended) member)).symm
      obtain ⟨same, after⟩ := confined.replay_inside choices' some' (confined.programs call' called')
        isolated.valid valid between
      rw [replayed'] at same after
      refine ⟨((pool.program call').replay (pool.handle call') choices' own).2, Prod.ext same.symm rfl, ?_,
        fun c member => (after c member).symm.trans (alike' c member)⟩
      exact (confined.replay_keeps choices' (confined.programs call' called') valid).2
  · refine ⟨s, ?_, isolated.valid, isolated.shared, fun c free => ?_, fun other call' program active => ?_,
      fun _ _ _ _ _ _ => apart⟩
    · rw [listed, List.filter_append, List.filter_cons_of_neg (by simpa using some), List.filter_nil, List.append_nil,
        isolated.serial]
    · exact freed (fun member => some ⟨c, member⟩) free
    · obtain ⟨different, before⟩ := remains active
      obtain ⟨called', choices', known', underway'⟩ := isolated.underway other call' program before
      exact ⟨called', choices', by simp [different, known'], underway'⟩

end Isolated

theorem Ran.isolated (confined : pool.Confined part footprint invariant calls requests promised)
    {start state : Snapshot S ι κ ρ σ} {actions : List (Action ι κ ε)} (idle : ∀ worker, start.active worker = none)
    (valid : invariant start.shared) (ran : pool.Ran (Separate footprint calls) start actions state) :
    ∃ s, pool.Isolated part footprint invariant calls requests promised start.shared (recorded actions) state s := by
  induction ran with
  | nil =>
    have none {worker : ι} {call : κ} {program : Program S ρ} (active : start.active worker = some (call, program)) :
        False := by
      rw [idle] at active
      contradiction
    exact ⟨start.shared, rfl, valid, valid, fun _ _ => rfl, fun _ _ _ active => (none active).elim,
      fun _ _ _ _ _ _ _ active => (none active).elim⟩
  | snoc ran separate stepped ih =>
    obtain ⟨s, isolated⟩ := ih
    rw [recorded_concat]
    rcases step_cases stepped with
      ⟨worker, call, rfl, free, accepted, rfl⟩ | ⟨worker, choice, call, op, next, rfl, busy, rfl⟩ |
        ⟨worker, call, result, rfl, ended, rfl⟩
    · exact ⟨s, isolated.start confined free separate.1 separate.2⟩
    · exact ⟨s, isolated.advance confined busy⟩
    · exact isolated.finish confined ended

end Pool

end Effects
