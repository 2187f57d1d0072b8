import Mathlib.Data.List.MinMax
import Mathlib.Data.List.Nodup

/-! # Tables with a primary key

A table is a list of rows with distinct keys. The operations are the statements that an object
mapper issues: reading a row by its key, writing a whole row, inserting one, changing some columns,
deleting. A condition on a blank key (the zero value of its type) is no condition at all: such a
read finds the first row in the order of the keys, and such a change or deletion means every row.
-/

namespace Store

structure Table {ρ κ : Type} (key : ρ → κ) where
  rows : List ρ
  distinct : (rows.map key).Nodup

namespace Table

variable {ρ κ : Type} {key : ρ → κ} [DecidableEq κ]

def empty : Table key := ⟨[], List.nodup_nil⟩

/-- The row with this key. -/
def lookup (table : Table key) (k : κ) : Option ρ := table.rows.find? fun row => key row = k

theorem lookup_eq_some {table : Table key} {k : κ} {row : ρ} :
    table.lookup k = some row ↔ row ∈ table.rows ∧ key row = k := by
  constructor
  · intro found
    exact ⟨List.mem_of_find?_eq_some found, by simpa using List.find?_some found⟩
  · rintro ⟨member, rfl⟩
    have present : (table.rows.find? fun other => key other = key row).isSome :=
      List.find?_isSome.mpr ⟨row, member, decide_eq_true rfl⟩
    obtain ⟨other, found⟩ := Option.isSome_iff_exists.mp present
    have same := List.inj_on_of_nodup_map table.distinct (List.mem_of_find?_eq_some found) member
      (by simpa using List.find?_some found)
    rw [lookup, found, same]

theorem lookup_eq_none {table : Table key} {k : κ} :
    table.lookup k = none ↔ ∀ row ∈ table.rows, key row ≠ k := by
  simp [lookup]

theorem lookup_key {table : Table key} {k : κ} {row : ρ} (found : table.lookup k = some row) : key row = k :=
  (lookup_eq_some.mp found).2

/-- Read a row by its key. -/
def first [Inhabited κ] [LinearOrder κ] (table : Table key) (k : κ) : Option ρ :=
  if k = default then table.rows.argmin key else table.lookup k

theorem first_eq_lookup [Inhabited κ] [LinearOrder κ] {table : Table key} {k : κ} (present : k ≠ default) :
    table.first k = table.lookup k := if_neg present

/-- Change the rows with this key, or all of them if it is blank; they keep their keys. -/
def modify [Inhabited κ] (table : Table key) (k : κ) (change : ρ → ρ)
    (keeps : ∀ row, key (change row) = key row) : Table key where
  rows := table.rows.map fun row => if k = default ∨ k = key row then change row else row
  distinct := by
    have same : key ∘ (fun row => if k = default ∨ k = key row then change row else row) = key := by
      funext row
      simp only [Function.comp_apply, apply_ite key, keeps, ite_self]
    rw [List.map_map, same]
    exact table.distinct

theorem lookup_modify [Inhabited κ] (table : Table key) (j : κ) (change : ρ → ρ)
    (keeps : ∀ row, key (change row) = key row) (k : κ) : (table.modify j change keeps).lookup k =
      if j = default ∨ j = k then (table.lookup k).map change else table.lookup k := by
  have kept (row : ρ) : key (if j = default ∨ j = key row then change row else row) = key row := by
    rw [apply_ite key, keeps, ite_self]
  rw [lookup, lookup, modify, List.find?_map]
  simp only [Function.comp_def, kept]
  cases found : table.rows.find? fun row => key row = k with
  | none => simp
  | some row => simp only [Option.map_some, lookup_key found, apply_ite some]

/-- Insert a row, unless its key is taken. -/
def create (table : Table key) (row : ρ) : Option (Table key) :=
  if free : table.lookup (key row) = none then
    some ⟨table.rows ++ [row], by
      rw [List.map_append, List.nodup_append]
      refine ⟨table.distinct, List.nodup_singleton _, ?_⟩
      simpa using lookup_eq_none.mp free⟩
  else none

theorem create_eq_none {table : Table key} {row : ρ} :
    table.create row = none ↔ table.lookup (key row) ≠ none := by
  unfold create
  split <;> simp_all

theorem create_eq_some {table target : Table key} {row : ρ} (created : table.create row = some target) :
    table.lookup (key row) = none ∧
      ∀ k, target.lookup k = if key row = k then some row else table.lookup k := by
  unfold create at created
  split at created
  · next free =>
    cases created
    refine ⟨free, fun k => ?_⟩
    rw [lookup, List.find?_append]
    split
    · next same =>
      subst same
      rw [show table.rows.find? _ = none from free]
      simp
    · next different => simp [different, lookup]
  · contradiction

/-- Write all columns of a row, which is inserted if it is not there. -/
def save (table : Table key) (row : ρ) : Table key :=
  (table.create row).getD
    { rows := table.rows.map fun other => if key other = key row then row else other
      distinct := by
        have same : key ∘ (fun other => if key other = key row then row else other) = key := by
          funext other
          dsimp only [Function.comp_apply]
          split <;> simp_all
        rw [List.map_map, same]
        exact table.distinct }

theorem lookup_save (table : Table key) (row : ρ) (k : κ) :
    (table.save row).lookup k = if key row = k then some row else table.lookup k := by
  cases created : table.create row with
  | some target => rw [save, created]; exact (create_eq_some created).2 k
  | none =>
    have present := create_eq_none.mp created
    have kept (other : ρ) : key (if key other = key row then row else other) = key other := by
      split <;> simp_all
    rw [save, created, Option.getD_none, lookup, List.find?_map]
    simp only [Function.comp_def, kept]
    split
    · next same =>
      subst same
      obtain ⟨old, found⟩ := Option.ne_none_iff_exists'.mp present
      rw [show table.rows.find? _ = some old from found]
      simp [lookup_key found]
    · next different =>
      cases found : table.rows.find? fun row => key row = k with
      | none => exact found.symm
      | some other => simp [lookup, found, lookup_key found, Ne.symm different]

/-- Delete the rows with this key, or all of them if it is blank. -/
def delete [Inhabited κ] (table : Table key) (k : κ) : Table key where
  rows := table.rows.filter fun row => ¬ (k = default ∨ key row = k)
  distinct := List.Nodup.sublist (List.filter_sublist.map key) table.distinct

theorem lookup_delete [Inhabited κ] (table : Table key) (j k : κ) :
    (table.delete j).lookup k = if j = default ∨ j = k then none else table.lookup k := by
  split
  · next dropped =>
    refine lookup_eq_none.mpr fun row member => ?_
    rintro rfl
    simp only [delete, List.mem_filter, decide_eq_true_eq, not_or] at member
    exact dropped.elim member.2.1 fun same => member.2.2 same.symm
  · next kept =>
    rw [not_or] at kept
    refine Option.ext fun row => ?_
    simp only [lookup_eq_some, delete, List.mem_filter, decide_eq_true_eq, not_or]
    constructor
    · rintro ⟨⟨member, _⟩, same⟩
      exact ⟨member, same⟩
    · rintro ⟨member, rfl⟩
      exact ⟨⟨member, kept.1, Ne.symm kept.2⟩, rfl⟩

end Table

end Store
