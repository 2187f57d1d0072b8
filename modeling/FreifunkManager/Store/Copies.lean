import Mathlib.Data.List.Basic

/-! # A copy that is kept up to date

Changes of an original are told to a copy by updates, which wait in a line and are taken one after the other. What is
to hold of the copy holds once it has taken all of them (`CaughtUp`). Updates that come with a change carry it from
what was to hold before to what is to hold afterwards; some do so whatever the copy was.
-/

namespace Store.Copies

variable {υ γ : Type} (apply : γ → υ → γ)

/-- The copy is all right once it has taken the updates in the line. -/
def CaughtUp (copy : γ) (line : List υ) (right : γ → Prop) : Prop := right (line.foldl apply copy)

/-- The updates take every copy that is as before to one that is as after. -/
def Conveys (updates : List υ) (before after : γ → Prop) : Prop :=
  ∀ copy, before copy → after (updates.foldl apply copy)

/-- The updates put every copy right. -/
def Restores (updates : List υ) (after : γ → Prop) : Prop := Conveys apply updates (fun _ => True) after

variable {apply} {copy other : γ} {line updates : List υ} {before after right : γ → Prop}

theorem CaughtUp.send (caughtUp : CaughtUp apply copy line before) (conveys : Conveys apply updates before after) :
    CaughtUp apply copy (line ++ updates) after := by
  rw [CaughtUp, List.foldl_append]
  exact conveys _ caughtUp

theorem Restores.caughtUp (restores : Restores apply updates after) (copy : γ) (line : List υ) :
    CaughtUp apply copy (line ++ updates) after :=
  CaughtUp.send (show CaughtUp apply copy line fun _ => True from trivial) restores

theorem Restores.conveys (restores : Restores apply updates after) (before : γ → Prop) :
    Conveys apply updates before after := fun copy _ => restores copy trivial

/-- What else happens to the copy does no harm if updates do not see it. -/
theorem CaughtUp.change (alike : γ → γ → Prop)
    (respects : ∀ update copy other, alike copy other → alike (apply copy update) (apply other update))
    (weaker : ∀ copy other, alike copy other → right copy → right other) (same : alike copy other)
    (caughtUp : CaughtUp apply copy line right) : CaughtUp apply other line right := by
  induction line generalizing copy other with
  | nil => exact weaker copy other same caughtUp
  | cons update rest ih => exact ih (respects update copy other same) caughtUp

end Store.Copies
