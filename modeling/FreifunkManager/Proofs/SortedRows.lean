import FreifunkManager.Model.NodeTable
import Mathlib.Data.String.Basic

/-! # Sorting the nodes

A heading sorts well if its comparator is consistent. Those of the settings are not as soon as a node lacks the
setting and two others differ in it, and the channel utilization throws for a node that has radios, but none of the
2.4 GHz band. All other headings sort every list.
-/

namespace FreifunkManager.NodeTable

open Comparator

/-- What is relied on: `localeCompare` is an order of the texts. -/
structure LocaleOrder (localeCompare : String → String → ℤ) : Prop where
  swap : ∀ a b, (localeCompare b a).sign = -(localeCompare a b).sign
  trans : ∀ a b c, localeCompare a b < 0 → localeCompare b c < 0 → localeCompare a c < 0
  ties : ∀ a b c, localeCompare a b = 0 → localeCompare b c = 0 → localeCompare a c = 0

/-- All nodes have the setting, or those that have it agree. -/
def Comparable (setting : Sent → UInt32) (nodes : List Sent) : Prop :=
  (∀ s ∈ nodes, setting s ≠ 0) ∨
    ∀ s ∈ nodes, ∀ other ∈ nodes, setting s ≠ 0 → setting other ≠ 0 → setting s = setting other

/-- The nodes that can be sorted by a heading. -/
def Heading.Fits (nodes : List Sent) : Heading → Prop
  | .curCh => Comparable (·.node.wirelessRespondd.channel24) nodes
  | .channel => Comparable (·.node.wireless.channel24) nodes
  | .curPW => Comparable (·.node.wirelessRespondd.txPower24) nodes
  | .power => Comparable (·.node.wireless.txPower24) nodes
  | .chanUtil => ∀ s ∈ nodes, ∀ wireless, s.wireless = some wireless → ∃ radio ∈ wireless, radio.frequency < 5000
  | _ => True

/-- The nodes are in the order of the heading, downwards if it is reversed. -/
def Ordered (localeCompare : String → String → ℤ) (heading : Heading) (reversed : Bool) (nodes : List Sent) : Prop :=
  nodes.Pairwise fun a b => heading.sort localeCompare a b ≠ .ok (if reversed then .lt else .gt)

/-- The list can be sorted by the heading, and the rows displayed are the first ones of the sorted list. -/
structure SortsWell (localeCompare : String → String → ℤ) (heading : Heading) (nodes : List Sent) : Prop where
  consistent : Consistent (heading.sort localeCompare) nodes
  rows : ∀ table : Table, table.sortIndex = heading → ∃ ordered, ordered.Perm nodes ∧
    Ordered localeCompare heading table.reversed ordered ∧
    table.visibleRows localeCompare nodes = .ok (ordered.take (table.displayed nodes.length))
  once : ∀ table : Table, table.sortIndex = heading → ∀ rows, table.visibleRows localeCompare nodes = .ok rows →
    nodes.Nodup → rows.Nodup

section Rows

variable {localeCompare : String → String → ℤ} {heading : Heading} {nodes : List Sent}

/-- Reversing the sorted rows turns their order around. -/
theorem ordered_reverse (consistent : Consistent (heading.sort localeCompare) nodes) {rows : List Sent}
    (perm : rows.Perm nodes) (sorted : Sorted (heading.sort localeCompare) rows) (reversed : Bool) :
    Ordered localeCompare heading reversed (if reversed then rows.reverse else rows) := by
  cases reversed with
  | false => exact sorted
  | true =>
    refine List.pairwise_reverse.mpr (sorted.imp_of_mem fun first second up down => up ?_)
    exact consistent.swap _ (perm.mem_iff.mp second) _ (perm.mem_iff.mp first) _ down

theorem sortsWell_of_consistent (consistent : Consistent (heading.sort localeCompare) nodes) :
    SortsWell localeCompare heading nodes := by
  have shown (table : Table) (index : table.sortIndex = heading) : ∃ ordered, ordered.Perm nodes ∧
      Ordered localeCompare heading table.reversed ordered ∧
      table.visibleRows localeCompare nodes = .ok (ordered.take (table.displayed nodes.length)) := by
    obtain ⟨rows, sorted, perm, order⟩ := sort_sorted consistent
    refine ⟨if table.reversed then rows.reverse else rows, ?_, ordered_reverse consistent perm order _, ?_⟩
    · split_ifs
      · exact rows.reverse_perm.trans perm
      · exact perm
    · have length : (if table.reversed then rows.reverse else rows).length = nodes.length := by
        split_ifs
        · rw [List.length_reverse, perm.length_eq]
        · exact perm.length_eq
      rw [Table.visibleRows, index, sorted, ← length]
      rfl
  refine ⟨consistent, shown, fun table index rows displayed distinct => ?_⟩
  obtain ⟨ordered, perm, -, visible⟩ := shown table index
  cases displayed.symm.trans visible
  exact (perm.nodup_iff.mpr distinct).sublist (List.take_sublist ..)

/-! ## The comparators -/

/-- The sign of a number tells where it comes. -/
theorem sign_cases (n : ℤ) :
    sign (some n) = .lt ∧ n < 0 ∨ sign (some n) = .eq ∧ n = 0 ∨ sign (some n) = .gt ∧ 0 < n := by
  rcases lt_trichotomy n 0 with less | same | greater
  · exact .inl ⟨compare_lt_iff_lt.mpr less, less⟩
  · exact .inr (.inl ⟨compare_eq_iff_eq.mpr same, same⟩)
  · exact .inr (.inr ⟨compare_gt_iff_gt.mpr greater, greater⟩)

theorem consistent_locale (locale : LocaleOrder localeCompare) (text : Sent → String) (nodes : List Sent) :
    Consistent (ε := TypeError) (fun a b => .ok (sign (some (localeCompare (text a) (text b))))) nodes where
  total _ _ _ _ := ⟨_, rfl⟩
  swap a _ b _ order compared := by
    have signs := locale.swap (text a) (text b)
    rw [← Except.ok.inj compared]
    congr 1
    rcases sign_cases (localeCompare (text a) (text b)) with ⟨order, less⟩ | ⟨order, same⟩ | ⟨order, greater⟩
    · rw [Int.sign_eq_neg_one_of_neg less] at signs
      rw [order]
      exact compare_gt_iff_gt.mpr (Int.sign_eq_one_iff_pos.mp signs)
    · rw [same, Int.sign_zero, neg_zero] at signs
      rw [order]
      exact compare_eq_iff_eq.mpr (Int.sign_eq_zero_iff_zero.mp signs)
    · rw [Int.sign_eq_one_of_pos greater] at signs
      rw [order]
      exact compare_lt_iff_lt.mpr (Int.sign_eq_neg_one_iff_neg.mp signs)
  trans a _ b _ c _ ab bc := by
    have less := locale.trans _ _ _ (compare_lt_iff_lt.mp (Except.ok.inj ab)) (compare_lt_iff_lt.mp (Except.ok.inj bc))
    exact congrArg Except.ok (compare_lt_iff_lt.mpr less)
  ties a _ b _ c _ ab bc := by
    have same := locale.ties _ _ _ (compare_eq_iff_eq.mp (Except.ok.inj ab)) (compare_eq_iff_eq.mp (Except.ok.inj bc))
    exact congrArg Except.ok (compare_eq_iff_eq.mpr same)

theorem consistent_numbers (number : Sent → ℤ) (nodes : List Sent) :
    Consistent (ε := TypeError) (byDifference fun s => .ok (some (number s))) nodes := by
  rw [consistent_byDifference_iff]
  exact ⟨fun _ _ => ⟨_, rfl⟩, .inl fun _ _ => by simp⟩

theorem omitempty_eq_none {n : UInt32} : omitempty n = none ↔ n = 0 := by
  rw [omitempty]
  split_ifs with zero <;> simp [zero]

theorem omitempty_of_ne {n : UInt32} (nonzero : n ≠ 0) : omitempty n = some (n.toNat : ℤ) := if_neg nonzero

theorem consistent_setting_iff (setting : Sent → UInt32) (nodes : List Sent) :
    Consistent (ε := TypeError) (byDifference fun s => .ok (omitempty (setting s))) nodes ↔
    Comparable setting nodes := by
  rw [consistent_byDifference_iff, and_iff_right fun s _ => ⟨_, rfl⟩]
  apply or_congr
  · refine forall₂_congr fun s _ => not_congr ?_
    rw [Except.ok.injEq, omitempty_eq_none]
  · refine forall₄_congr fun s _ other _ => ?_
    constructor
    · intro same first second
      have equal := same _ _ (congrArg _ (omitempty_of_ne first)) (congrArg _ (omitempty_of_ne second))
      exact UInt32.toNat_inj.mp (Int.ofNat_inj.mp equal)
    · intro same x y first second
      have left := Except.ok.inj first
      have right := Except.ok.inj second
      have present {n : UInt32} {x : ℤ} (found : omitempty n = some x) : n ≠ 0 := fun zero =>
        Option.some_ne_none x (found.symm.trans (omitempty_eq_none.mpr zero))
      rw [same (present left) (present right)] at left
      exact Option.some.inj (left.symm.trans right)

theorem chanUtil24_cases (s : Sent) : (∃ x, s.chanUtil24 = .ok (some x)) ↔
    ∀ wireless, s.wireless = some wireless → ∃ radio ∈ wireless, radio.frequency < 5000 := by
  rw [Sent.chanUtil24]
  cases s.wireless with
  | none => exact iff_of_true ⟨0, rfl⟩ nofun
  | some wireless =>
    dsimp only
    cases found : wireless.filter (·.frequency < 5000) with
    | nil =>
      refine iff_of_false (by simp) fun all => ?_
      obtain ⟨radio, member, low⟩ := all wireless rfl
      have kept : radio ∈ wireless.filter (·.frequency < 5000) := List.mem_filter.mpr ⟨member, decide_eq_true low⟩
      rw [found] at kept
      contradiction
    | cons first rest =>
      refine iff_of_true ⟨_, rfl⟩ fun other same => ?_
      cases same
      have member : first ∈ wireless.filter (·.frequency < 5000) := found ▸ .head _
      obtain ⟨listed, low⟩ := List.mem_filter.mp member
      exact ⟨first, listed, of_decide_eq_true low⟩

/-- A node without a number throws. -/
theorem chanUtil24_ne_none (s : Sent) : s.chanUtil24 ≠ .ok none := by
  rw [Sent.chanUtil24]
  split
  · simp
  · split <;> simp

theorem consistent_chanUtil_iff (nodes : List Sent) :
    Consistent (byDifference Sent.chanUtil24) nodes ↔ Heading.chanUtil.Fits nodes := by
  rw [consistent_byDifference_iff, and_iff_left (.inl fun s _ => chanUtil24_ne_none s)]
  refine forall₂_congr fun s _ => ?_
  rw [← chanUtil24_cases]
  constructor
  · rintro ⟨_ | x, found⟩
    · exact absurd found (chanUtil24_ne_none s)
    · exact ⟨x, found⟩
  · rintro ⟨x, found⟩
    exact ⟨some x, found⟩

/-- A heading sorts a list well exactly if the list can be sorted by it. -/
theorem sortsWell_iff (locale : LocaleOrder localeCompare) (heading : Heading) (nodes : List Sent) :
    SortsWell localeCompare heading nodes ↔ heading.Fits nodes := by
  have consistent : Consistent (heading.sort localeCompare) nodes ↔ heading.Fits nodes := by
    cases heading with
    | lastseen => exact iff_of_true (consistent_numbers ..) trivial
    | nodeID => exact iff_of_true (consistent_locale locale (·.node.nodeID) nodes) trivial
    | hostname => exact iff_of_true (consistent_locale locale (·.node.hostname) nodes) trivial
    | curCh => exact consistent_setting_iff (·.node.wirelessRespondd.channel24) nodes
    | channel => exact consistent_setting_iff (·.node.wireless.channel24) nodes
    | curPW => exact consistent_setting_iff (·.node.wirelessRespondd.txPower24) nodes
    | power => exact consistent_setting_iff (·.node.wireless.txPower24) nodes
    | clients => exact iff_of_true (consistent_numbers ..) trivial
    | chanUtil => exact consistent_chanUtil_iff nodes
  exact ⟨fun well => consistent.mp well.consistent, fun fits => sortsWell_of_consistent (consistent.mpr fits)⟩

end Rows

/-! ## Lists that are sorted, and one that is not -/

namespace Sample

/-- The order of plain texts. -/
def byCharacters (a b : String) : ℤ := if a < b then -1 else if a = b then 0 else 1

theorem byCharacters_lt {a b : String} : byCharacters a b < 0 ↔ a < b := by
  unfold byCharacters
  split_ifs with less <;> simp [less]

theorem byCharacters_eq {a b : String} : byCharacters a b = 0 ↔ a = b := by
  unfold byCharacters
  split_ifs with less same
  · simp [less.ne]
  · simp [same]
  · simp [same]

theorem byCharacters_order : LocaleOrder byCharacters where
  swap a b := by
    unfold byCharacters
    rcases lt_trichotomy a b with less | rfl | greater
    · rw [if_pos less, if_neg less.asymm, if_neg less.ne']
      rfl
    · rw [if_neg (lt_irrefl a), if_pos rfl]
      rfl
    · rw [if_pos greater, if_neg greater.asymm, if_neg greater.ne']
      rfl
  trans _ _ _ ab bc := byCharacters_lt.mpr ((byCharacters_lt.mp ab).trans (byCharacters_lt.mp bc))
  ties _ _ _ ab bc := byCharacters_eq.mpr ((byCharacters_eq.mp ab).trans (byCharacters_eq.mp bc))

/-- A node that should be on this channel. -/
def tuned (hostname : String) (channel24 : UInt32) : Sent where
  node := { nodeID := hostname, hostname, wireless := { channel24 } }

/-- The second node has no channel. -/
def gap : List Sent := [tuned "attic" 6, tuned "cellar" 0, tuned "roof" 1]

end Sample

theorem sortsWell_tuned : SortsWell Sample.byCharacters .channel [Sample.tuned "attic" 6, Sample.tuned "roof" 1] :=
  (sortsWell_iff Sample.byCharacters_order .channel _).mpr (.inl (by decide))

/-- Channel 6 is displayed before channel 1, as both are tied with the node between them. -/
theorem gap_misplaced :
    Table.visibleRows { sortIndex := .channel } Sample.byCharacters Sample.gap = .ok Sample.gap ∧
      ¬ SortsWell Sample.byCharacters .channel Sample.gap := by
  refine ⟨rfl, fun well => ?_⟩
  rcases (consistent_setting_iff (·.node.wireless.channel24) Sample.gap).mp well.consistent with complete | equal
  · exact complete (Sample.tuned "cellar" 0) (by simp [Sample.gap]) rfl
  · have same := equal (Sample.tuned "attic" 6) (by simp [Sample.gap]) (Sample.tuned "roof" 1) (by simp [Sample.gap])
    exact absurd (same (by decide) (by decide)) (by decide)

end FreifunkManager.NodeTable
