import Mathlib.Algebra.Order.Group.Defs
import Mathlib.Algebra.Order.Group.Basic
import Mathlib.Data.List.Basic
import Mathlib.Data.List.Pairwise
import Mathlib.Order.Compare

/-! # Sorting with a comparator

A comparator tells of two items which one comes first, or throws. It is consistent on a list if it never throws
there and divides the items into classes that are totally ordered; then sorting with it gives a permutation of the
list in this order. A comparator may be given as the difference of two numbers, of which either may be missing.
-/

namespace Comparator

variable {α ε : Type}

/-- Insert before the first item that does not have to come earlier. -/
def insert (cmp : α → α → Except ε Ordering) (a : α) : List α → Except ε (List α)
  | [] => .ok [a]
  | b :: rest => do
    match ← cmp a b with
    | .gt => return b :: (← insert cmp a rest)
    | _ => return a :: b :: rest

/-- A stable sort; an exception of the comparator ends it. -/
def sort (cmp : α → α → Except ε Ordering) : List α → Except ε (List α)
  | [] => .ok []
  | a :: rest => do insert cmp a (← sort cmp rest)

/-- On these items the comparator is an order, up to ties. -/
structure Consistent (cmp : α → α → Except ε Ordering) (items : List α) : Prop where
  total : ∀ a ∈ items, ∀ b ∈ items, ∃ order, cmp a b = .ok order
  swap : ∀ a ∈ items, ∀ b ∈ items, ∀ order, cmp a b = .ok order → cmp b a = .ok order.swap
  trans : ∀ a ∈ items, ∀ b ∈ items, ∀ c ∈ items, cmp a b = .ok .lt → cmp b c = .ok .lt → cmp a c = .ok .lt
  ties : ∀ a ∈ items, ∀ b ∈ items, ∀ c ∈ items, cmp a b = .ok .eq → cmp b c = .ok .eq → cmp a c = .ok .eq

/-- The items are in the order of the comparator. -/
def Sorted (cmp : α → α → Except ε Ordering) (items : List α) : Prop := items.Pairwise fun a b => cmp a b ≠ .ok .gt

section Sorting

variable {cmp : α → α → Except ε Ordering} {items : List α}

theorem Consistent.mono (consistent : Consistent cmp items) {fewer : List α} (subset : ∀ a ∈ fewer, a ∈ items) :
    Consistent cmp fewer where
  total a first b second := consistent.total a (subset a first) b (subset b second)
  swap a first b second := consistent.swap a (subset a first) b (subset b second)
  trans a first b second c third := consistent.trans a (subset a first) b (subset b second) c (subset c third)
  ties a first b second c third := consistent.ties a (subset a first) b (subset b second) c (subset c third)

/-- Items that are compared as their places in a total order are. -/
theorem consistent_of_compare {τ : Type} [LinearOrder τ] (place : α → τ)
    (compares : ∀ a ∈ items, ∀ b ∈ items, cmp a b = .ok (compare (place a) (place b))) : Consistent cmp items where
  total a first b second := ⟨_, compares a first b second⟩
  swap a first b second order compared := by
    rw [compares a first b second] at compared
    rw [compares b second a first, ← Except.ok.inj compared, ← cmp_eq_compare, ← cmp_eq_compare, cmp_swap]
  trans a first b second c third ab bc := by
    rw [compares a first b second] at ab
    rw [compares b second c third] at bc
    have less := (compare_lt_iff_lt.mp (Except.ok.inj ab)).trans (compare_lt_iff_lt.mp (Except.ok.inj bc))
    rw [compares a first c third, compare_lt_iff_lt.mpr less]
  ties a first b second c third ab bc := by
    rw [compares a first b second] at ab
    rw [compares b second c third] at bc
    have equal := (compare_eq_iff_eq.mp (Except.ok.inj ab)).trans (compare_eq_iff_eq.mp (Except.ok.inj bc))
    rw [compares a first c third, compare_eq_iff_eq.mpr equal]

/-- An item that comes no later than another comes no later than those after it. -/
theorem Consistent.le_trans (consistent : Consistent cmp items) {a b c : α} (first : a ∈ items) (second : b ∈ items)
    (third : c ∈ items) (before : cmp a b ≠ .ok .gt) (after : cmp b c ≠ .ok .gt) : cmp a c ≠ .ok .gt := by
  obtain ⟨left, ab⟩ := consistent.total a first b second
  obtain ⟨right, bc⟩ := consistent.total b second c third
  intro ac
  have ca : cmp c a = .ok .lt := consistent.swap a first c third _ ac
  cases left with
  | gt => exact before ab
  | lt =>
    have cb := consistent.trans c third a first b second ca ab
    exact after (consistent.swap c third b second _ cb)
  | eq =>
    cases right with
    | gt => exact after bc
    | lt =>
      have ba := consistent.trans b second c third a first bc ca
      rw [consistent.swap a first b second _ ab] at ba
      cases ba
    | eq =>
      rw [consistent.ties a first b second c third ab bc] at ac
      cases ac

theorem insert_sorted (a : α) (consistent : Consistent cmp (a :: items)) (sorted : Sorted cmp items) :
    ∃ rows, insert cmp a items = .ok rows ∧ rows.Perm (a :: items) ∧ Sorted cmp rows := by
  induction items with
  | nil => exact ⟨[a], rfl, .refl _, List.pairwise_singleton ..⟩
  | cons b rest ih =>
    obtain ⟨order, compared⟩ := consistent.total a (.head _) b (.tail _ (.head _))
    have stays (before : cmp a b ≠ .ok .gt) : Sorted cmp (a :: b :: rest) := by
      refine List.pairwise_cons.mpr ⟨List.forall_mem_cons.mpr ⟨before, fun c later => ?_⟩, sorted⟩
      exact consistent.le_trans (.head _) (.tail _ (.head _)) (.tail _ (.tail _ later)) before
        (List.rel_of_pairwise_cons sorted later)
    rw [insert, compared]
    cases order with
    | lt => exact ⟨_, rfl, .refl _, stays (by rw [compared]; nofun)⟩
    | eq => exact ⟨_, rfl, .refl _, stays (by rw [compared]; nofun)⟩
    | gt =>
      have fewer : Consistent cmp (a :: rest) := consistent.mono fun c member =>
        (List.mem_cons.mp member).elim (fun same => same ▸ .head _) fun later => .tail _ (.tail _ later)
      obtain ⟨rows, inserted, perm, ordered⟩ := ih fewer (List.Pairwise.of_cons sorted)
      refine ⟨b :: rows, ?_, (perm.cons b).trans (.swap ..), List.pairwise_cons.mpr ⟨fun c member => ?_, ordered⟩⟩
      · change (do return b :: (← insert cmp a rest)) = _
        rw [inserted]
        rfl
      · rcases List.mem_cons.mp (perm.mem_iff.mp member) with rfl | later
        · rw [consistent.swap c (.head _) b (.tail _ (.head _)) _ compared]
          nofun
        · exact List.rel_of_pairwise_cons sorted later

theorem sort_sorted (consistent : Consistent cmp items) :
    ∃ rows, sort cmp items = .ok rows ∧ rows.Perm items ∧ Sorted cmp rows := by
  induction items with
  | nil => exact ⟨[], rfl, .refl _, .nil⟩
  | cons a rest ih =>
    obtain ⟨rows, sorted, perm, ordered⟩ := ih (consistent.mono fun b member => .tail _ member)
    have fits : Consistent cmp (a :: rows) := consistent.mono fun b member =>
      (List.mem_cons.mp member).elim (fun same => same ▸ .head _) fun later => .tail _ (perm.mem_iff.mp later)
    obtain ⟨whole, inserted, wholePerm, wholeOrdered⟩ := insert_sorted a fits ordered
    refine ⟨whole, ?_, wholePerm.trans (perm.cons a), wholeOrdered⟩
    rw [sort, sorted]
    exact inserted

end Sorting

/-! ## Differences -/

variable {τ : Type} [AddCommGroup τ] [LinearOrder τ]

/-- Which item comes first by the difference of two numbers; if one is missing there is none, and neither does. -/
def sign : Option τ → Ordering
  | none => .eq
  | some difference => compare difference 0

def subtract (x y : Option τ) : Option τ := do return (← x) - (← y)

/-- Items are compared by a number, which may be missing or throw. -/
def byDifference (key : α → Except ε (Option τ)) (a b : α) : Except ε Ordering := do
  return sign (subtract (← key a) (← key b))

theorem byDifference_eq {key : α → Except ε (Option τ)} {a b : α} {x y : Option τ} (left : key a = .ok x)
    (right : key b = .ok y) : byDifference key a b = .ok (sign (subtract x y)) := by
  rw [byDifference, left, right]
  rfl

section Difference

variable [IsOrderedAddMonoid τ]

theorem sign_subtract (x y : τ) : sign (subtract (some x) (some y)) = compare x y := by
  change compare (x - y) 0 = _
  rcases lt_trichotomy x y with less | rfl | greater
  · rw [compare_lt_iff_lt.mpr (sub_neg.mpr less), compare_lt_iff_lt.mpr less]
  · rw [sub_self, compare_eq_iff_eq.mpr rfl, compare_eq_iff_eq.mpr rfl]
  · rw [compare_gt_iff_gt.mpr (sub_pos.mpr greater), compare_gt_iff_gt.mpr greater]

/-- A comparison by numbers is consistent if all items have one, or if those that have one all have the same. -/
theorem consistent_byDifference_iff (key : α → Except ε (Option τ)) (items : List α) :
    Consistent (byDifference key) items ↔ (∀ a ∈ items, ∃ x, key a = .ok x) ∧
      ((∀ a ∈ items, key a ≠ .ok none) ∨
        ∀ a ∈ items, ∀ b ∈ items, ∀ x y, key a = .ok (some x) → key b = .ok (some y) → x = y) := by
  constructor
  · intro consistent
    have total (a : α) (member : a ∈ items) : ∃ x, key a = .ok x := by
      obtain ⟨order, compared⟩ := consistent.total a member a member
      cases found : key a with
      | ok x => exact ⟨x, rfl⟩
      | error e =>
        rw [byDifference, found] at compared
        cases compared
    refine ⟨total, or_iff_not_imp_left.mpr fun missing a first b second x y left right => ?_⟩
    obtain ⟨n, member, none⟩ : ∃ n ∈ items, key n = .ok none := by simpa using missing
    -- whoever has no number is tied with both
    have tied := consistent.ties a first n member b second (byDifference_eq left none) (byDifference_eq none right)
    rw [byDifference_eq left right, sign_subtract] at tied
    exact compare_eq_iff_eq.mp (Except.ok.inj tied)
  · rintro ⟨total, numbers | same⟩
    · -- all items have a number
      let number (a : α) : τ := (key a).toOption.join.getD 0
      have found (a : α) (member : a ∈ items) : key a = .ok (some (number a)) := by
        obtain ⟨x, found⟩ := total a member
        cases x with
        | none => exact absurd found (numbers a member)
        | some x =>
          simp only [number, found]
          rfl
      refine consistent_of_compare number fun a first b second => ?_
      rw [byDifference_eq (found a first) (found b second), sign_subtract]
    · -- all comparisons are ties
      refine consistent_of_compare (fun _ => (0 : τ)) fun a first b second => ?_
      rw [compare_eq_iff_eq.mpr rfl]
      obtain ⟨x, left⟩ := total a first
      obtain ⟨y, right⟩ := total b second
      rw [byDifference_eq left right]
      cases x with
      | none => rfl
      | some x =>
        cases y with
        | none => rfl
        | some y => rw [same a first b second x y left right, sign_subtract, compare_eq_iff_eq.mpr rfl]

end Difference

end Comparator
