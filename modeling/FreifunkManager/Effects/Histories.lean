import FreifunkManager.Effects.Program
import Mathlib.Control.Monad.Basic

/-! # Histories, translations, deferred calls

A program may be judged by the whole history of its exchanges: `Histories` is the weakest
precondition of a statement about the result and the history, and composes along sequencing
(`histories_bind`). A `translation` answers the operations of one signature by programs over another
one. A deferred call runs after a body however the body ends, and may be armed by it.
-/

namespace Effects

/-- An operation with the reply it got. -/
structure Exchange (S : Signature) where
  op : S.Op
  reply : S.Reply op

namespace Program

variable {S T : Signature} {α β : Type}

/-- Whatever the replies are, as long as they are as promised, the program ends as wanted; its history
counts. -/
def Histories (promised : (op : S.Op) → S.Reply op → Prop) :
    Program S α → (α → List (Exchange S) → Prop) → Prop
  | .done value, wanted => wanted value []
  | .ask op next, wanted => ∀ reply, promised op reply →
    (next reply).Histories promised fun value rest => wanted value (⟨op, reply⟩ :: rest)

section Histories

variable {promised : (op : S.Op) → S.Reply op → Prop}

@[simp] theorem histories_done {value : α} {wanted : α → List (Exchange S) → Prop} :
    (Program.done value : Program S α).Histories promised wanted ↔ wanted value [] := Iff.rfl

@[simp] theorem histories_ask {op : S.Op} {next : S.Reply op → Program S α}
    {wanted : α → List (Exchange S) → Prop} : (Program.ask op next).Histories promised wanted ↔
      ∀ reply, promised op reply →
        (next reply).Histories promised fun value rest => wanted value (⟨op, reply⟩ :: rest) := Iff.rfl

theorem Histories.mono {program : Program S α} {wanted weaker : α → List (Exchange S) → Prop}
    (ends : program.Histories promised wanted) (weaken : ∀ value history, wanted value history → weaker value history) :
    program.Histories promised weaker := by
  induction program generalizing wanted weaker with
  | done value => exact weaken value [] ends
  | ask op next ih =>
    exact fun reply kept => ih reply (ends reply kept) fun value rest => weaken value (⟨op, reply⟩ :: rest)

/-- Sequencing: the histories of the two parts follow each other. -/
theorem histories_bind {program : Program S α} {rest : α → Program S β} {wanted : β → List (Exchange S) → Prop} :
    (program >>= rest).Histories promised wanted ↔ program.Histories promised fun value first =>
      (rest value).Histories promised fun result second => wanted result (first ++ second) := by
  induction program generalizing wanted with
  | done value => rfl
  | ask op next ih => simp only [ask_bind, histories_ask, ih, List.cons_append]

end Histories

/-- Answer every operation by a program over another signature. -/
def translate (translation : (op : S.Op) → Program T (S.Reply op)) : Program S α → Program T α
  | .done value => .done value
  | .ask op next => translation op >>= fun reply => (next reply).translate translation

section Translate

variable {translation : (op : S.Op) → Program T (S.Reply op)}

@[simp] theorem translate_done (value : α) :
    (Program.done value : Program S α).translate translation = .done value := rfl

@[simp] theorem translate_perform (op : S.Op) : (perform op).translate translation = translation op :=
  bind_done _

@[simp] theorem translate_bind (program : Program S α) (rest : α → Program S β) :
    (program >>= rest).translate translation =
      program.translate translation >>= fun value => (rest value).translate translation := by
  induction program with
  | done value => rfl
  | ask op next ih => simp only [ask_bind, translate, ih, bind_assoc]

end Translate

end Program

/-! ## Deferred calls -/

section Deferred

variable {ε : Type} {m : Type → Type} [Monad m] {α : Type}

/-- Run the body, then the deferred call, then go on with what the body ended with. -/
def deferring (deferred : ExceptT ε m Unit) (body : ExceptT ε m α) : ExceptT ε m α := do
  let result ← liftM body.run
  deferred
  ExceptT.mk (pure result)

/-- The deferred call is made only if the body has set a flag. -/
def deferringIf (deferred : ExceptT ε m Unit) (body : ExceptT ε (StateT Bool m) α) : ExceptT ε m α := do
  let (result, armed) ← liftM (body.run.run false)
  if armed then deferred
  ExceptT.mk (pure result)

end Deferred

end Effects
