import FreifunkManager.Effects.Workers

/-! # Failing for one reason

A program is `Brittle` if after a bad reply it fails, whatever happens next, and without one it does not. In every run
of a pool of such programs the process stops for no other reason than a bad reply, and after one it goes on only as
long as the call that got it is in progress (`Reachable.crashes`).
-/

namespace Effects

namespace Program

variable {S : Signature} {α β : Type}

/-- The program fails, whatever the replies are. -/
abbrev Doomed (fails : α → Prop) (program : Program S α) : Prop :=
  program.Satisfies (fun _ => True) (fun _ _ => True) fails

theorem doomed_of_forall {fails : α → Prop} (program : Program S α) (always : ∀ value, fails value) :
    program.Doomed fails := by
  induction program with
  | done value => exact always value
  | ask op next ih => exact ⟨trivial, fun reply _ => ih reply⟩

/-- The program fails if and only if it gets a bad reply. -/
def Brittle (bad : (op : S.Op) → S.Reply op → Prop) (fails : α → Prop) : Program S α → Prop
  | .done value => ¬ fails value
  | .ask op next =>
    ∀ reply, (bad op reply → (next reply).Doomed fails) ∧ (¬ bad op reply → (next reply).Brittle bad fails)

variable {bad : (op : S.Op) → S.Reply op → Prop} {fails : α → Prop} {ends : β → Prop}

theorem brittle_bind {program : Program S α} {rest : α → Program S β} (first : program.Brittle bad fails)
    (failed : ∀ value, fails value → (rest value).Doomed ends)
    (second : ∀ value, ¬ fails value → (rest value).Brittle bad ends) : (program >>= rest).Brittle bad ends := by
  induction program with
  | done value => exact second value first
  | ask op next ih =>
    intro reply
    obtain ⟨doomed, brittle⟩ := first reply
    exact ⟨fun wrong => satisfies_bind.mpr ((doomed wrong).mono failed), fun fine => ih reply (brittle fine)⟩

/-- A program that never gets a bad reply must not fail. -/
theorem brittle_of_satisfies {program : Program S α}
    (satisfied : program.Satisfies (fun op => ∀ reply, ¬ bad op reply) (fun _ _ => True) fun value => ¬ fails value) :
    program.Brittle bad fails := by
  induction program with
  | done value => exact satisfied
  | ask op next ih =>
    exact fun reply => ⟨fun wrong => absurd wrong (satisfied.1 reply), fun _ => ih reply (satisfied.2 reply trivial)⟩

end Program

namespace Pool

variable {S : Signature} {ι κ ρ ε σ : Type} [DecidableEq ι] {pool : Pool S ι κ ρ ε σ}
  {start state target : Snapshot S ι κ ρ σ}

theorem step_alive {action : Action ι κ ε} (stepped : pool.step state action = some target) : state.halted = false := by
  unfold step at stepped
  split at stepped
  · contradiction
  · next alive => exact Bool.eq_false_iff.mpr alive

/-- The calls in progress may still fail, or they must, which is on record. -/
structure Fragile (pool : Pool S ι κ ρ ε σ) (bad : (op : S.Op) → S.Reply op → Prop) (lost : σ → κ → Prop)
    (state : Snapshot S ι κ ρ σ) : Prop where
  calls : ∀ worker call program, state.active worker = some (call, program) →
    program.Brittle bad (pool.survives · = false) ∨ lost state.shared call ∧ program.Doomed (pool.survives · = false)
  ended : state.halted = false → ∀ worker call result, state.active worker = some (call, .done result) →
    pool.survives result = true
  failing : ∀ call, lost state.shared call → state.halted = true ∨ ∃ worker program,
    state.active worker = some (call, program) ∧ program.Doomed (pool.survives · = false)
  halted : state.halted = true → ∃ call, lost state.shared call

variable {bad : (op : S.Op) → S.Reply op → Prop} {lost : σ → κ → Prop} {calls : κ → Prop}

theorem Fragile.begin (fragile : pool.Fragile bad lost state) {worker : ι} {call : κ}
    (free : state.active worker = none) (brittle : (pool.program call).Brittle bad (pool.survives · = false)) :
    pool.Fragile bad lost
      { state with active := Function.update state.active worker (some (call, pool.program call)) } := by
  refine ⟨fun other _ _ busy => ?_, fun alive other _ _ busy => ?_, fun lostCall here => ?_, fragile.halted⟩
  · rcases update_eq_some busy with ⟨_, same⟩ | ⟨_, before⟩
    · cases same
      exact .inl brittle
    · exact fragile.calls other _ _ before
  · rcases update_eq_some busy with ⟨_, same⟩ | ⟨_, before⟩
    · obtain ⟨rfl, done⟩ := Prod.mk.inj (Option.some.inj same)
      rw [done] at brittle
      exact Bool.not_eq_false _ ▸ brittle
    · exact fragile.ended alive other _ _ before
  · refine (fragile.failing lostCall here).imp_right ?_
    rintro ⟨other, program, busy, doomed⟩
    have different : other ≠ worker := by
      rintro rfl
      rw [free] at busy
      contradiction
    exact ⟨other, program, (Function.update_of_ne different ..).trans busy, doomed⟩

/-- The shared state records the bad replies of each call. -/
def Records (pool : Pool S ι κ ρ ε σ) (bad : (op : S.Op) → S.Reply op → Prop) (lost : σ → κ → Prop) : Prop :=
  ∀ call choice op s other, lost (pool.handle call choice op s).2 other ↔
    lost s other ∨ other = call ∧ bad op (pool.handle call choice op s).1

theorem Fragile.advance (records : pool.Records bad lost) (fragile : pool.Fragile bad lost state)
    (alive : state.halted = false) {worker : ι} {choice : ε} {call : κ} {op : S.Op} {next : S.Reply op → Program S ρ}
    (busy : state.active worker = some (call, .ask op next)) : pool.Fragile bad lost {
      shared := (pool.handle call choice op state.shared).2
      active := Function.update state.active worker (some (call, next (pool.handle call choice op state.shared).1))
      halted := pool.fatal (next (pool.handle call choice op state.shared).1) } := by
  have kept {other : κ} (before : lost state.shared other) : lost (pool.handle call choice op state.shared).2 other :=
    (records ..).mpr (.inl before)
  have doomed (wrong : bad op (pool.handle call choice op state.shared).1) :
      (next (pool.handle call choice op state.shared).1).Doomed (pool.survives · = false) := by
    rcases fragile.calls worker call _ busy with brittle | ⟨_, doomed⟩
    · exact (brittle _).1 wrong
    · exact doomed.2 _ trivial
  have own : (next (pool.handle call choice op state.shared).1).Brittle bad (pool.survives · = false) ∨
      lost (pool.handle call choice op state.shared).2 call ∧
        (next (pool.handle call choice op state.shared).1).Doomed (pool.survives · = false) := by
    rcases fragile.calls worker call _ busy with brittle | ⟨before, doomed⟩
    · by_cases wrong : bad op (pool.handle call choice op state.shared).1
      · exact .inr ⟨(records ..).mpr (.inr ⟨rfl, wrong⟩), doomed wrong⟩
      · exact .inl ((brittle _).2 wrong)
    · exact .inr ⟨kept before, doomed.2 _ trivial⟩
  refine ⟨fun other _ _ running => ?_, fun alive' other _ result running => ?_, fun lostCall here => ?_,
    fun stopped => ?_⟩
  · rcases update_eq_some running with ⟨_, same⟩ | ⟨_, before⟩
    · cases same
      exact own
    · exact (fragile.calls other _ _ before).imp_right fun ⟨known, doomed⟩ => ⟨kept known, doomed⟩
  · rcases update_eq_some running with ⟨_, same⟩ | ⟨_, before⟩
    · obtain ⟨-, done⟩ := Prod.mk.inj (Option.some.inj same)
      dsimp only at alive'
      rw [done] at alive'
      simpa [fatal] using alive'
    · exact fragile.ended alive other _ _ before
  · right
    rcases (records ..).mp here with before | ⟨rfl, wrong⟩
    · rcases fragile.failing lostCall before with stopped | ⟨other, program, running, failing⟩
      · exact Bool.noConfusion (alive.symm.trans stopped)
      · rcases eq_or_ne other worker with rfl | different
        · rw [busy] at running
          cases running
          exact ⟨other, _, Function.update_self .., failing.2 _ trivial⟩
        · exact ⟨other, program, (Function.update_of_ne different ..).trans running, failing⟩
    · exact ⟨worker, _, Function.update_self .., doomed wrong⟩
  · dsimp only at stopped
    rcases own with brittle | ⟨known, _⟩
    · cases ended : next (pool.handle call choice op state.shared).1 with
      | done result =>
        rw [ended] at brittle stopped
        exact absurd (by simpa [fatal] using stopped) brittle
      | ask later rest =>
        rw [ended] at stopped
        contradiction
    · exact ⟨call, known⟩

theorem Fragile.finish (fragile : pool.Fragile bad lost state) (alive : state.halted = false) {worker : ι} {call : κ}
    {result : ρ} (ended : state.active worker = some (call, .done result)) :
    pool.Fragile bad lost { state with active := Function.update state.active worker none } := by
  have survived := fragile.ended alive worker call result ended
  refine ⟨fun other _ _ busy => ?_, fun alive other _ _ busy => ?_, fun lostCall here => ?_, fragile.halted⟩
  · rcases update_eq_some busy with ⟨_, same⟩ | ⟨_, before⟩
    · contradiction
    · exact fragile.calls other _ _ before
  · rcases update_eq_some busy with ⟨_, same⟩ | ⟨_, before⟩
    · contradiction
    · exact fragile.ended alive other _ _ before
  · refine (fragile.failing lostCall here).imp_right ?_
    rintro ⟨other, program, busy, doomed⟩
    have different : other ≠ worker := by
      rintro rfl
      rw [ended] at busy
      cases busy
      exact Bool.noConfusion (survived.symm.trans doomed)
    exact ⟨other, program, (Function.update_of_ne different ..).trans busy, doomed⟩

/-- The process stops only after a bad reply, and after one the call that got it fails. -/
theorem Reachable.crashes {permitted : κ → ε → S.Op → σ → Prop} (records : pool.Records bad lost)
    (brittle : ∀ call, calls call → (pool.program call).Brittle bad (pool.survives · = false))
    (fresh : ∀ call, ¬ lost start.shared call) (alive : start.halted = false)
    (idle : ∀ worker, start.active worker = none)
    (reached : pool.Reachable (Admits calls permitted) start target) : pool.Fragile bad lost target := by
  induction reached with
  | refl =>
    refine ⟨fun _ _ _ busy => ?_, fun _ _ _ _ busy => ?_, fun call here => absurd here (fresh call), fun halted => ?_⟩
    · rw [idle] at busy
      contradiction
    · rw [idle] at busy
      contradiction
    · rw [alive] at halted
      contradiction
  | next _ admitted stepped ih =>
    have running := step_alive stepped
    rcases step_cases stepped with
      ⟨worker, call, rfl, free, _, rfl⟩ | ⟨worker, choice, call, op, next, rfl, busy, rfl⟩ |
        ⟨worker, call, result, rfl, ended, rfl⟩
    · exact ih.begin free (brittle call admitted)
    · exact ih.advance records running busy
    · exact ih.finish running ended

end Pool

end Effects
