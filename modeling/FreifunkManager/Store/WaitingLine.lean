import Mathlib.Data.List.Basic
import Mathlib.Data.List.Pairwise

/-! # A waiting line with a bypass

Items are numbered as they come. One that comes is sent at once, or waits at the end of the line; of those that
wait it is always the last one that is taken next. The items are sent in order as long as the one that is taken
is also the last one that came.
-/

namespace Store

structure WaitingLine where
  waiting : List ℕ := []
  sent : List ℕ := []
  /-- How many items have come. -/
  count : ℕ := 0

namespace WaitingLine

/-- What can happen to a line. -/
inductive Step : WaitingLine → WaitingLine → Prop
  | wait {line : WaitingLine} :
      Step line { line with waiting := line.waiting ++ [line.count], count := line.count + 1 }
  | pass {line : WaitingLine} : Step line { line with sent := line.sent ++ [line.count], count := line.count + 1 }

/-- The last item of the line is taken. -/
def take (line : WaitingLine) (item : ℕ) : WaitingLine :=
  { line with waiting := line.waiting.dropLast, sent := line.sent ++ [item] }

def InOrder (line : WaitingLine) : Prop := line.sent.Pairwise (· < ·)

/-- Every item that came waits, or was sent, and not both. -/
structure Kept (line : WaitingLine) : Prop where
  sorted : line.waiting.Pairwise (· < ·)
  complete : ∀ item, item < line.count ↔ item ∈ line.waiting ∨ item ∈ line.sent
  once : ∀ item ∈ line.waiting, item ∉ line.sent

variable {line after : WaitingLine} {item : ℕ}

theorem pairwise_concat {items : List ℕ} : (items ++ [item]).Pairwise (· < ·) ↔
    items.Pairwise (· < ·) ∧ ∀ earlier ∈ items, earlier < item := by
  simp [List.pairwise_append]

theorem Kept.sent_lt (kept : line.Kept) (member : item ∈ line.sent) : item < line.count :=
  (kept.complete item).mpr (.inr member)

theorem Kept.waiting_lt (kept : line.Kept) (member : item ∈ line.waiting) : item < line.count :=
  (kept.complete item).mpr (.inl member)

theorem Kept.step (kept : line.Kept) (moves : Step line after) : after.Kept := by
  have counted (item : ℕ) : item < line.count + 1 ↔ (item ∈ line.waiting ∨ item ∈ line.sent) ∨ item = line.count := by
    rw [Nat.lt_succ_iff_lt_or_eq, kept.complete]
  cases moves with
  | wait =>
    constructor
    · exact pairwise_concat.mpr ⟨kept.sorted, fun earlier member => kept.waiting_lt member⟩
    · intro item
      rw [counted, List.mem_append, List.mem_singleton]
      tauto
    · intro item member sent
      rcases List.mem_append.mp member with before | new
      · exact kept.once item before sent
      · rw [List.mem_singleton.mp new] at sent
        exact Nat.lt_irrefl _ (kept.sent_lt sent)
  | pass =>
    constructor
    · exact kept.sorted
    · intro item
      rw [counted, List.mem_append, List.mem_singleton]
      tauto
    · intro item member sent
      rcases List.mem_append.mp sent with before | new
      · exact kept.once item member before
      · rw [List.mem_singleton.mp new] at member
        exact Nat.lt_irrefl _ (kept.waiting_lt member)

/-- What comes now is sent after everything else, or not yet. -/
theorem Kept.step_inOrder (kept : line.Kept) (moves : Step line after) : after.InOrder ↔ line.InOrder := by
  cases moves with
  | wait => exact Iff.rfl
  | pass =>
    apply pairwise_concat.trans
    exact and_iff_left fun earlier member => kept.sent_lt member

theorem Kept.last (kept : line.Kept) (last : line.waiting.getLast? = some item) :
    line.waiting = line.waiting.dropLast ++ [item] ∧ ∀ earlier ∈ line.waiting.dropLast, earlier < item := by
  have split : line.waiting = line.waiting.dropLast ++ [item] := by
    rw [List.dropLast_append_getLast? _ last]
  have sorted := kept.sorted
  rw [split] at sorted
  exact ⟨split, (pairwise_concat.mp sorted).2⟩

theorem Kept.take (kept : line.Kept) (last : line.waiting.getLast? = some item) : (line.take item).Kept := by
  obtain ⟨split, above⟩ := kept.last last
  have member (other : ℕ) : other ∈ line.waiting ↔ other ∈ line.waiting.dropLast ∨ other = item := by
    conv_lhs => rw [split]
    rw [List.mem_append, List.mem_singleton]
  constructor
  · exact kept.sorted.sublist (List.dropLast_sublist _)
  · intro other
    rw [WaitingLine.take, kept.complete, member, List.mem_append, List.mem_singleton]
    tauto
  · intro other waits sent
    rcases List.mem_append.mp sent with before | new
    · exact kept.once other ((member other).mpr (.inl waits)) before
    · exact Nat.lt_irrefl item (List.mem_singleton.mp new ▸ above other waits)

/-- An item that waited is sent in order if no other one came in the meantime, and not otherwise. -/
theorem Kept.take_inOrder (kept : line.Kept) (last : line.waiting.getLast? = some item) :
    (line.take item).InOrder ↔ line.InOrder ∧ item + 1 = line.count := by
  obtain ⟨split, above⟩ := kept.last last
  have waits : item ∈ line.waiting := List.mem_of_getLast? last
  apply pairwise_concat.trans
  apply and_congr_right
  intro _
  constructor
  · intro latest
    by_contra other
    have came : item + 1 < line.count := by
      have before := kept.waiting_lt waits
      omega
    -- the next item came later and does not wait, as it would wait behind this one
    rcases (kept.complete (item + 1)).mp came with behind | sent
    · rw [split] at behind
      rcases List.mem_append.mp behind with earlier | same
      · have below := above _ earlier
        omega
      · have same := List.mem_singleton.mp same
        omega
    · have below := latest _ sent
      omega
  · intro latest earlier member
    have below := kept.sent_lt member
    have different : earlier ≠ item := by
      rintro rfl
      exact kept.once _ waits member
    omega

theorem kept_empty : Kept {} where
  sorted := .nil
  complete := by simp
  once := List.forall_mem_nil _

/-! ## While nothing has to wait -/

/-- So many times an item was taken as long as there was one. What came in between did not wait. -/
structure Served (line : WaitingLine) (times : ℕ) (after : WaitingLine) : Prop where
  waiting : after.waiting = line.waiting.take (line.waiting.length - times)
  count : line.count ≤ after.count
  sent : ∃ added, after.sent = line.sent ++ added ∧
    added.filter (· < line.count) = (line.waiting.drop (line.waiting.length - times)).reverse ∧
    added.filter (line.count ≤ ·) = List.range' line.count (after.count - line.count)

section Served

variable {times : ℕ}

theorem Served.refl (line : WaitingLine) : line.Served 0 line where
  waiting := by simp
  count := Nat.le_refl _
  sent := ⟨[], by simp⟩

theorem Served.pass (served : line.Served times after) :
    line.Served times { after with sent := after.sent ++ [after.count], count := after.count + 1 } where
  waiting := served.waiting
  count := Nat.le_succ_of_le served.count
  sent := by
    obtain ⟨added, grown, old, new⟩ := served.sent
    have late := served.count
    have numbers : List.range' line.count (after.count + 1 - line.count) =
        List.range' line.count (after.count - line.count) ++ [after.count] := by
      rw [show after.count + 1 - line.count = after.count - line.count + 1 by omega, List.range'_concat]
      simp
      omega
    refine ⟨added ++ [after.count], ?_, ?_, ?_⟩
    · simp [grown]
    · simp [List.filter_append, old, late]
    · simp [List.filter_append, new, late, numbers]

/-- The item that is taken is the last one that still waits. -/
theorem Served.take (served : line.Served times after) (kept : line.Kept) (last : after.waiting.getLast? = some item) :
    line.Served (times + 1) (after.take item) := by
  have rest : after.waiting ≠ [] := by
    rintro none
    simp [none] at last
  have left : times < line.waiting.length := by
    by_contra all
    rw [served.waiting, show line.waiting.length - times = 0 by omega] at rest
    exact rest List.take_zero
  obtain ⟨before, counted⟩ : ∃ before, line.waiting.length - times = before + 1 :=
    Nat.exists_eq_add_one.mpr (by omega)
  have fewer : line.waiting.length - (times + 1) = before := by omega
  have bound : before < line.waiting.length := by omega
  have taken : line.waiting[before] = item := by
    have split := served.waiting
    rw [counted, List.take_succ_eq_append_getElem bound] at split
    rw [split, List.getLast?_concat] at last
    exact Option.some.inj last
  have came : item < line.count := kept.waiting_lt (taken ▸ List.getElem_mem bound)
  constructor
  · rw [fewer]
    change after.waiting.dropLast = _
    rw [served.waiting, counted, List.take_succ_eq_append_getElem bound, List.dropLast_concat]
  · exact served.count
  · obtain ⟨added, grown, old, new⟩ := served.sent
    refine ⟨added ++ [item], ?_, ?_, ?_⟩
    · simp [WaitingLine.take, grown]
    · rw [fewer, List.drop_eq_getElem_cons bound, taken, ← counted, List.reverse_cons, ← old]
      simp [List.filter_append, came]
    · change (added ++ [item]).filter _ = List.range' line.count (after.count - line.count)
      simp [List.filter_append, new, came]

theorem Served.idle (served : line.Served times after) (none : after.waiting = []) : line.Served (times + 1) after := by
  have all : line.waiting.length - times = 0 ∨ line.waiting = [] := by
    have split := served.waiting
    rw [none] at split
    exact (List.take_eq_nil_iff.mp split.symm)
  have same : line.waiting.length - (times + 1) = line.waiting.length - times := by
    rcases all with none | none
    · omega
    · simp [none]
  exact ⟨same ▸ served.waiting, served.count, same ▸ served.sent⟩

end Served

end WaitingLine

end Store
