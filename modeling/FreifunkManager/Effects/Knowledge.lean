import FreifunkManager.Effects.Workers

/-! # Operations that need to know something

The reply to an operation may tell facts that stay true whatever happens next. A program is `Backed` if every operation
that it asks for is allowed by the facts it was told before. Then an invariant of the shared state holds in all runs of
a pool, with any number of workers, if the allowed operations keep it where the facts are true (`Reachable.backed`).
-/

namespace Effects

namespace Program

variable {S : Signature} {α β φ : Type}

/-- Every operation is allowed by what is known when it is asked for. Replies tell more. -/
def Backed (allowed : (φ → Prop) → S.Op → Prop) (tells : (op : S.Op) → S.Reply op → φ → Prop)
    (wanted : α → (φ → Prop) → Prop) : Program S α → (φ → Prop) → Prop
  | .done value, known => wanted value known
  | .ask op next, known =>
    allowed known op ∧ ∀ reply, (next reply).Backed allowed tells wanted fun fact => known fact ∨ tells op reply fact

variable {allowed : (φ → Prop) → S.Op → Prop} {tells : (op : S.Op) → S.Reply op → φ → Prop}
  {wanted : α → (φ → Prop) → Prop} {known : φ → Prop}

theorem Backed.mono {weaker : α → (φ → Prop) → Prop} {program : Program S α}
    (backed : program.Backed allowed tells wanted known)
    (weaken : ∀ value more, (∀ fact, known fact → more fact) → wanted value more → weaker value more) :
    program.Backed allowed tells weaker known := by
  induction program generalizing known with
  | done value => exact weaken value known (fun _ => id) backed
  | ask op next ih =>
    refine ⟨backed.1, fun reply => ih reply (backed.2 reply) fun value more grown => ?_⟩
    exact weaken value more fun fact sure => grown fact (.inl sure)

theorem backed_bind {program : Program S α} {rest : α → Program S β} {wanted : β → (φ → Prop) → Prop} :
    (program >>= rest).Backed allowed tells wanted known ↔
      program.Backed allowed tells (fun value => (rest value).Backed allowed tells wanted) known := by
  induction program generalizing known with
  | done value => rfl
  | ask op next ih => simp only [ask_bind, Backed, ih]

/-- A program whose operations are allowed whatever more is known. -/
theorem Backed.of_satisfies {program : Program S α} {requests : S.Op → Prop} {ended : α → Prop}
    (satisfied : program.Satisfies requests (fun _ _ => True) ended)
    (fine : ∀ more op, (∀ fact, known fact → more fact) → requests op → allowed more op) :
    program.Backed allowed tells (fun value more => ended value ∧ ∀ fact, known fact → more fact) known := by
  induction program generalizing known with
  | done value => exact ⟨satisfied, fun _ => id⟩
  | ask op next ih =>
    refine ⟨fine known op (fun _ => id) satisfied.1, fun reply => ?_⟩
    refine Backed.mono (ih reply (satisfied.2 reply trivial) ?_) fun value more _ last => ?_
    · exact fun more op grown => fine more op fun fact sure => grown fact (.inl sure)
    · exact ⟨last.1, fun fact sure => last.2 fact (.inl sure)⟩

/-- A program that is satisfied whatever is known, if only what it was told is. -/
theorem Backed.of_promised {program : Program S α}
    (satisfied : ∀ more, (∀ fact, known fact → more fact) →
      program.Satisfies (allowed more) (fun op reply => ∀ fact, tells op reply fact → more fact) fun _ => True) :
    program.Backed allowed tells (fun _ _ => True) known := by
  induction program generalizing known with
  | done value => trivial
  | ask op next ih =>
    refine ⟨(satisfied known fun _ => id).1, fun reply => ih reply fun more grown => ?_⟩
    exact (satisfied more fun fact sure => grown fact (.inl sure)).2 reply fun fact told => grown fact (.inr told)

/-- A fact that no reply tells is never used. -/
theorem Backed.avoids {program : Program S α} (fact : φ) {promised : (op : S.Op) → S.Reply op → Prop}
    (backed : program.Backed allowed tells wanted known) (unknown : ¬ known fact)
    (untold : ∀ op reply, promised op reply → ¬ tells op reply fact) :
    program.Satisfies (fun op => ∃ less, ¬ less fact ∧ allowed less op) promised fun _ => True := by
  induction program generalizing known with
  | done value => trivial
  | ask op next ih =>
    exact ⟨⟨known, unknown, backed.1⟩, fun reply told =>
      ih reply (backed.2 reply) (not_or.mpr ⟨unknown, untold op reply told⟩)⟩

end Program

namespace Pool

variable {S : Signature} {ι κ ρ ε σ φ : Type} [DecidableEq ι] {pool : Pool S ι κ ρ ε σ}
  {permitted : κ → ε → S.Op → σ → Prop} {calls : κ → Prop} {start target : Snapshot S ι κ ρ σ}
  {allowed : κ → (φ → Prop) → S.Op → Prop} {tells : (op : S.Op) → S.Reply op → φ → Prop}

variable (pool) (invariant : σ → Prop) (holds : φ → σ → Prop)

/-- An operation that is allowed by facts keeps the invariant and all facts, and what it tells is true. -/
def Keeps (permitted : κ → ε → S.Op → σ → Prop) (allowed : κ → (φ → Prop) → S.Op → Prop)
    (tells : (op : S.Op) → S.Reply op → φ → Prop) : Prop :=
  ∀ known call choice op s, (∀ fact, known fact → holds fact s) → invariant s → allowed call known op →
    permitted call choice op s → invariant (pool.handle call choice op s).2 ∧
      (∀ fact, holds fact s → holds fact (pool.handle call choice op s).2) ∧
      ∀ fact, tells op (pool.handle call choice op s).1 fact → holds fact (pool.handle call choice op s).2

variable {pool invariant holds} {α : Type} {worker : ι} {call : κ} {s : σ}

omit [DecidableEq ι] in
theorem Guarded.of_backed {program : Program S α} {known : φ → Prop}
    (keeps : pool.Keeps invariant holds permitted allowed tells)
    (backed : program.Backed (allowed call) tells (fun _ _ => True) known) (sure : ∀ fact, known fact → holds fact s) :
    pool.Guarded permitted invariant (fun _ before after => ∀ fact, holds fact before → holds fact after) worker call
      (fun _ _ => True) program s := by
  induction program generalizing known s with
  | done value => trivial
  | ask op next ih =>
    refine ⟨fun s => ∀ fact, known fact → holds fact s, fun _ _ sure rely fact is => rely fact (sure fact is), sure, ?_⟩
    intro choice before kept sure admitted
    obtain ⟨after, stay, told⟩ := keeps known call choice op before sure kept backed.1 admitted
    refine ⟨⟨after, fun _ _ => stay⟩, ih _ (backed.2 _) fun fact is => ?_⟩
    rcases is with before | new
    · exact stay fact (sure fact before)
    · exact told fact new

/-- In every run, however the workers interleave, the invariant holds. -/
theorem Reachable.backed (keeps : pool.Keeps invariant holds permitted allowed tells)
    (programs : ∀ call, calls call → (pool.program call).Backed (allowed call) tells (fun _ _ => True) fun _ => False)
    (initially : invariant start.shared) (idle : ∀ worker, start.active worker = none)
    (reached : pool.Reachable (Admits calls permitted) start target) : invariant target.shared := by
  have guarded := reached.guarded invariant (fun _ before after => ∀ fact, holds fact before → holds fact after)
    (fun _ _ => True)
    (fun worker call s _ called _ _ => Guarded.of_backed keeps (programs call called) fun _ => False.elim)
    (fun _ _ _ _ _ => trivial) initially fun worker => ⟨idle worker, trivial⟩
  exact guarded.1

end Pool

end Effects
