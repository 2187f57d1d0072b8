import Mathlib.Logic.Basic
import Mathlib.Tactic.TypeStar

/-! # Programs as trees of operations

A program asks for operations of a signature and goes on with their replies. It is data: it can
be run to its end by a handler that holds the state, or advanced one operation at a time with
other programs in between. `Satisfies` states what a program does whatever the replies are, and
`Along` where it ends when it runs alone, by the moves of a part of the state. Both compose along
sequencing (`satisfies_bind`, `along_bind`).
-/

namespace Effects

/-- The operations a program may ask for, each with the type of its reply. -/
structure Signature where
  Op : Type
  Reply : Op → Type

inductive Program (S : Signature) (α : Type) : Type where
  | done (value : α)
  | ask (op : S.Op) (next : S.Reply op → Program S α)

/-- How a state answers each operation. -/
abbrev Handler (S : Signature) (σ : Type) := (op : S.Op) → σ → S.Reply op × σ

namespace Program

variable {S : Signature} {α β γ σ : Type}

protected def bind : Program S α → (α → Program S β) → Program S β
  | .done value, rest => rest value
  | .ask op next, rest => .ask op fun reply => (next reply).bind rest

instance : Monad (Program S) where
  pure := .done
  bind := Program.bind

/-- The program that asks for one operation and returns its reply. -/
def perform (op : S.Op) : Program S (S.Reply op) := .ask op .done

@[simp] theorem pure_eq (value : α) : (pure value : Program S α) = .done value := rfl

@[simp] theorem done_bind (value : α) (rest : α → Program S β) : .done value >>= rest = rest value := rfl

@[simp] theorem ask_bind (op : S.Op) (next : S.Reply op → Program S α) (rest : α → Program S β) :
    .ask op next >>= rest = .ask op fun reply => next reply >>= rest := rfl

@[simp] theorem perform_bind (op : S.Op) (rest : S.Reply op → Program S β) :
    perform op >>= rest = .ask op rest := rfl

theorem bind_assoc (program : Program S α) (first : α → Program S β) (second : β → Program S γ) :
    program >>= first >>= second = program >>= fun value => first value >>= second := by
  induction program with
  | done value => rfl
  | ask op next ih => simp only [ask_bind, ih]

theorem bind_done (program : Program S α) : program >>= .done = program := by
  induction program with
  | done value => rfl
  | ask op next ih => simp only [ask_bind, ih]

instance : LawfulMonad (Program S) :=
  LawfulMonad.mk' (Program S) bind_done (fun _ _ => rfl) bind_assoc

/-- Every operation asked for is allowed and every result is wanted, as long as the replies are
as promised. -/
def Satisfies (allowed : S.Op → Prop) (promised : (op : S.Op) → S.Reply op → Prop)
    (wanted : α → Prop) : Program S α → Prop
  | .done value => wanted value
  | .ask op next =>
    allowed op ∧ ∀ reply, promised op reply → (next reply).Satisfies allowed promised wanted

section Satisfies

variable {allowed : S.Op → Prop} {promised : (op : S.Op) → S.Reply op → Prop}

@[simp] theorem satisfies_done {wanted : α → Prop} {value : α} :
    (Program.done value : Program S α).Satisfies allowed promised wanted ↔ wanted value := Iff.rfl

@[simp] theorem satisfies_ask {wanted : α → Prop} {op : S.Op} {next : S.Reply op → Program S α} :
    (Program.ask op next).Satisfies allowed promised wanted ↔
      allowed op ∧ ∀ reply, promised op reply → (next reply).Satisfies allowed promised wanted :=
  Iff.rfl

@[simp] theorem satisfies_perform {op : S.Op} {wanted : S.Reply op → Prop} :
    (perform op).Satisfies allowed promised wanted ↔
      allowed op ∧ ∀ reply, promised op reply → wanted reply := Iff.rfl

/-- Sequencing: the first part is wanted to reach a point from which the rest is satisfied. -/
@[simp] theorem satisfies_bind {program : Program S α} {rest : α → Program S β} {wanted : β → Prop} :
    (program >>= rest).Satisfies allowed promised wanted ↔
      program.Satisfies allowed promised fun value => (rest value).Satisfies allowed promised wanted := by
  induction program with
  | done value => rfl
  | ask op next ih => simp only [ask_bind, satisfies_ask, ih]

theorem Satisfies.mono {wanted weaker : α → Prop} {program : Program S α}
    (satisfied : program.Satisfies allowed promised wanted) (weaken : ∀ value, wanted value → weaker value) :
    program.Satisfies allowed promised weaker := by
  induction program with
  | done value => exact weaken value satisfied
  | ask op next ih => exact ⟨satisfied.1, fun reply kept => ih reply (satisfied.2 reply kept)⟩

theorem Satisfies.weaken {permitted : S.Op → Prop} {wanted : α → Prop} {program : Program S α}
    (satisfied : program.Satisfies allowed promised wanted) (weaken : ∀ op, allowed op → permitted op) :
    program.Satisfies permitted promised wanted := by
  induction program with
  | done value => exact satisfied
  | ask op next ih => exact ⟨weaken op satisfied.1, fun reply kept => ih reply (satisfied.2 reply kept)⟩

/-- More may be promised of the replies. -/
theorem Satisfies.assuming {assured : (op : S.Op) → S.Reply op → Prop} {wanted : α → Prop} {program : Program S α}
    (satisfied : program.Satisfies allowed promised wanted)
    (implied : ∀ op reply, assured op reply → promised op reply) : program.Satisfies allowed assured wanted := by
  induction program with
  | done value => exact satisfied
  | ask op next ih => exact ⟨satisfied.1, fun reply kept => ih reply (satisfied.2 reply (implied op reply kept))⟩

theorem Satisfies.and {other : S.Op → Prop} {assured : (op : S.Op) → S.Reply op → Prop} {wanted also : α → Prop}
    {program : Program S α} (satisfied : program.Satisfies allowed promised wanted)
    (second : program.Satisfies other assured also) :
    program.Satisfies (fun op => allowed op ∧ other op) (fun op reply => promised op reply ∧ assured op reply)
      fun value => wanted value ∧ also value := by
  induction program with
  | done value => exact ⟨satisfied, second⟩
  | ask op next ih =>
    exact ⟨⟨satisfied.1, second.1⟩, fun reply told => ih reply (satisfied.2 reply told.1) (second.2 reply told.2)⟩

end Satisfies

/-- Run to the end, threading the state of the handler. -/
def run (handler : Handler S σ) : Program S α → σ → α × σ
  | .done value, state => (value, state)
  | .ask op next, state => (next (handler op state).1).run handler (handler op state).2

@[simp] theorem run_done (handler : Handler S σ) (value : α) (state : σ) :
    (Program.done value : Program S α).run handler state = (value, state) := rfl

@[simp] theorem run_ask (handler : Handler S σ) (op : S.Op) (next : S.Reply op → Program S α) (state : σ) :
    (Program.ask op next).run handler state = (next (handler op state).1).run handler (handler op state).2 :=
  rfl

@[simp] theorem run_perform (handler : Handler S σ) (op : S.Op) (state : σ) :
    (perform op).run handler state = handler op state := rfl

@[simp] theorem run_bind (handler : Handler S σ) (program : Program S α) (rest : α → Program S β)
    (state : σ) : (program >>= rest).run handler state =
      (rest (program.run handler state).1).run handler (program.run handler state).2 := by
  induction program generalizing state with
  | done value => rfl
  | ask op next ih => simp only [ask_bind, run_ask, ih]

/-- Whatever the moves of the state are at each operation, the program ends as wanted. -/
def Along (moves : (op : S.Op) → σ → S.Reply op → σ → Prop) (wanted : α → σ → Prop) : Program S α → σ → Prop
  | .done value, state => wanted value state
  | .ask op next, state => ∀ reply after, moves op state reply after → (next reply).Along moves wanted after

section Along

variable {moves : (op : S.Op) → σ → S.Reply op → σ → Prop} {state : σ}

theorem along_bind {program : Program S α} {rest : α → Program S β} {wanted : β → σ → Prop} :
    (program >>= rest).Along moves wanted state ↔
      program.Along moves (fun value after => (rest value).Along moves wanted after) state := by
  induction program generalizing state with
  | done value => rfl
  | ask op next ih => simp only [ask_bind, Along, ih]

theorem Along.mono {wanted weaker : α → σ → Prop} {program : Program S α} (along : program.Along moves wanted state)
    (weaken : ∀ value after, wanted value after → weaker value after) : program.Along moves weaker state := by
  induction program generalizing state with
  | done value => exact weaken _ _ along
  | ask op next ih => exact fun reply after moved => ih reply (along reply after moved)

/-- An invariant that the moves of all allowed operations keep, with replies as promised. -/
theorem Along.of_satisfies {allowed : S.Op → Prop} {promised : (op : S.Op) → S.Reply op → Prop}
    {wanted : α → Prop} {program : Program S α} (satisfied : program.Satisfies allowed promised wanted)
    (invariant : σ → Prop)
    (keeps : ∀ op state reply after, allowed op → invariant state → moves op state reply after →
      promised op reply ∧ invariant after)
    (holds : invariant state) : program.Along moves (fun value after => wanted value ∧ invariant after) state := by
  induction program generalizing state with
  | done value => exact ⟨satisfied, holds⟩
  | ask op next ih =>
    intro reply after moved
    obtain ⟨kept, holds⟩ := keeps op state reply after satisfied.1 holds moved
    exact ih reply (satisfied.2 reply kept) holds

/-- A handler that moves a view of its state as described ends as wanted. -/
theorem Along.run {τ : Type} (handler : Handler S τ) (view : τ → σ)
    (conforms : ∀ op whole, moves op (view whole) (handler op whole).1 (view (handler op whole).2))
    {wanted : α → σ → Prop} {program : Program S α} (whole : τ) (along : program.Along moves wanted (view whole)) :
    wanted (program.run handler whole).1 (view (program.run handler whole).2) := by
  induction program generalizing whole with
  | done value => exact along
  | ask op next ih => exact ih _ _ (along _ _ (conforms op whole))

end Along

end Program

end Effects
