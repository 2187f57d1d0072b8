import FreifunkManager.Model.ListView
import Mathlib.Data.List.Basic
import Mathlib.Tactic.NormNum

/-! # Text that was typed in a row

The text that is typed in one row is shown by the inputs of all rows once the list is rendered. So what an input
sends is its own, or the own value of its node, if it shows such a text (`ShowsOwn`), and the values of the nodes
stay their own as long as every input that is left does.
-/

namespace FreifunkManager.ListView

/-! ## Numbers and their texts -/

private theorem digits_digit {n : ℕ} {c : Char} (member : c ∈ Nat.toDigits 10 n) : c.isDigit :=
  Nat.isDigit_of_mem_toDigits (by norm_num) (by norm_num) member

private theorem parseDigits_toDigits (n : ℕ) : parseDigits (Nat.toDigits 10 n) = some n := by
  have all : (Nat.toDigits 10 n).takeWhile Char.isDigit = Nat.toDigits 10 n := by
    have whole : (Nat.toDigits 10 n ++ []).takeWhile Char.isDigit = Nat.toDigits 10 n ++ [].takeWhile Char.isDigit :=
      List.takeWhile_append_of_pos fun _ member => digits_digit member
    rwa [List.takeWhile_nil, List.append_nil] at whole
  have some : (Nat.toDigits 10 n).isEmpty = false := List.isEmpty_eq_false_iff.mpr Nat.toDigits_ne_nil
  simp only [parseDigits, all, some, Nat.ofDigitChars_ten_toDigits, Bool.false_eq_true, if_false]

private theorem digit_visible {c : Char} (digit : c.isDigit) : isWhiteSpace c = false ∧ c ≠ '-' ∧ c ≠ '+' := by
  have other (d : Char) (none : d.isDigit = false) : c ≠ d := by
    rintro rfl
    exact Bool.false_ne_true (none.symm.trans digit)
  refine ⟨?_, other _ rfl, other _ rfl⟩
  have range : 48 ≤ c.toNat ∧ c.toNat ≤ 57 := Char.isDigit_iff_toNat.mp digit
  simp only [isWhiteSpace, List.mem_cons, List.not_mem_nil, Bool.or_eq_false_iff, Bool.and_eq_false_iff,
    decide_eq_false_iff_not, or_false, not_or]
  omega

theorem parseInt_numberText (number : Option ℤ) : parseInt (numberText number) = number := by
  cases number with
  | none => decide
  | some n =>
    have value := parseDigits_toDigits n.natAbs
    rcases lt_or_ge n 0 with negative | positive
    · simp only [numberText, if_pos negative, parseInt, String.toList_ofList]
      rw [List.dropWhile_cons_of_neg (by decide)]
      simp only [value]
      exact congrArg some (Int.eq_neg_natAbs_of_nonpos negative.le).symm
    · simp only [numberText, if_neg (not_lt.mpr positive), parseInt, String.toList_ofList]
      obtain ⟨first, rest, split⟩ := List.exists_cons_of_ne_nil (Nat.toDigits_ne_nil (n := n.natAbs) (b := 10))
      obtain ⟨visible, minus, plus⟩ := digit_visible (c := first) (digits_digit (n := n.natAbs) (split ▸ .head _))
      rw [split] at value ⊢
      rw [List.dropWhile_cons_of_neg (by rw [visible]; decide)]
      have read : (some n.natAbs).map (fun n => (n : ℤ)) = some n := congrArg some (Int.natAbs_of_nonneg positive)
      rw [← read, ← value]
      split <;> simp_all

@[simp] theorem read_shown (node : RowNode) (input : Input) :
    input.read (node.value input).shown = node.value input := by
  cases input with
  | hostname => rfl
  | txPower24 => exact congrArg Value.number (parseInt_numberText _)
  | txPower5 => exact congrArg Value.number (parseInt_numberText _)

/-! ## Where a text comes from -/

variable {ι : Type}

/-- The value was typed in this input of this row. -/
def Typed (past : List (Event ι)) (row : ι) (input : Input) (value : Value) : Prop :=
  ∃ text, .input row input text ∈ past ∧ input.read text = value

/-- The text in the buffer, and the row it was typed in. -/
def lastTyped (input : Input) : List (Event ι) → Option (ι × String)
  | [] => none
  | .input row other text :: past => if other = input then some (row, text) else lastTyped input past
  | .focusout _ other :: past => if other = input then none else lastTyped input past
  | .render :: past => lastTyped input past

/-- The input was typed in since the list was rendered, or the buffer was empty or of its own row at that time. -/
def ShowsOwn (row : ι) (input : Input) : List (Event ι) → Prop
  | [] => True
  | .input row' input' _ :: past => row' = row ∧ input' = input ∨ ShowsOwn row input past
  | .focusout .. :: past => ShowsOwn row input past
  | .render :: past => ∀ row' text, lastTyped input past = some (row', text) → text = "" ∨ row' = row

/-- Every input shows a text of its own when it is left. -/
def Careful : List (Event ι) → Prop
  | [] => True
  | .focusout row input :: past => ShowsOwn row input past ∧ Careful past
  | _ :: past => Careful past

/-- The values that are sent from a row are those of its node, or were typed in the row. -/
structure OwnText [DecidableEq ι] (nodes : ι → RowNode) (past : List (Event ι)) (row : ι) (sent : RowNode) :
    Prop where
  now : ∀ input, sent.value input = ((after nodes past).nodes row).value input ∨
    Typed past row input (sent.value input)
  ever : ∀ input, sent.value input = (nodes row).value input ∨ Typed past row input (sent.value input)

theorem Typed.later {past : List (Event ι)} {row : ι} {input : Input} {value : Value}
    (typed : Typed past row input value) (event : Event ι) : Typed (event :: past) row input value := by
  obtain ⟨text, member, same⟩ := typed
  exact ⟨text, .tail _ member, same⟩

theorem lastTyped_mem {past : List (Event ι)} {input : Input} {row : ι} {text : String}
    (last : lastTyped input past = some (row, text)) : .input row input text ∈ past := by
  induction past with
  | nil => contradiction
  | cons event past ih =>
    cases event with
    | input row' other text' =>
      rw [lastTyped] at last
      split_ifs at last with same
      · cases last
        exact same ▸ .head _
      · exact .tail _ (ih last)
    | focusout row' other =>
      rw [lastTyped] at last
      split_ifs at last
      exact .tail _ (ih last)
    | render => exact .tail _ (ih last)

theorem careful_suffix {past history : List (Event ι)} (careful : Careful history) (suffix : past <:+ history) :
    Careful past := by
  induction history with
  | nil => rwa [List.suffix_nil.mp suffix]
  | cons event rest ih =>
    rcases List.suffix_cons_iff.mp suffix with rfl | inner
    · exact careful
    · cases event with
      | input => exact ih careful inner
      | focusout => exact ih careful.2 inner
      | render => exact ih careful inner

variable [DecidableEq ι] (nodes : ι → RowNode)

/-- The buffer is what was typed last. -/
theorem after_buffer (past : List (Event ι)) (input : Input) :
    (after nodes past).buffer input = (lastTyped input past).map Prod.snd := by
  induction past with
  | nil => rfl
  | cons event past ih =>
    cases event with
    | input row other text =>
      change Function.update (after nodes past).buffer other (some text) input = _
      rw [lastTyped]
      by_cases same : other = input
      · rw [same, Function.update_self, if_pos rfl]
        rfl
      · rw [Function.update_of_ne (Ne.symm same), if_neg same]
        exact ih
    | focusout row other =>
      change Function.update (after nodes past).buffer other none input = _
      rw [lastTyped]
      by_cases same : other = input
      · rw [same, Function.update_self, if_pos rfl]
        rfl
      · rw [Function.update_of_ne (Ne.symm same), if_neg same]
        exact ih
    | render => exact ih

/-- What a focusout makes of the nodes: one value of one of them becomes what its input shows. -/
theorem onfocusout_value (s : State ι) (row row' : ι) (input input' : Input) :
    ((s.onfocusout row input).nodes row').value input' =
      if row' = row ∧ input' = input then input.read (s.shown row input) else (s.nodes row').value input' := by
  change ((Function.update s.nodes row ((s.nodes row).set input (s.shown row input))) row').value input' = _
  by_cases here : row' = row
  · rw [here, Function.update_self, RowNode.set_value]
    simp only [true_and]
  · rw [Function.update_of_ne here, if_neg (fun both => here both.1)]

theorem oninput_shown (s : State ι) {row row' : ι} {input input' : Input} (elsewhere : ¬ (row' = row ∧ input' = input))
    (text : String) : (s.oninput row' input' text).shown row input = s.shown row input := by
  change Function.update s.shown row' (Function.update (s.shown row') input' text) row input = s.shown row input
  by_cases here : row = row'
  · subst here
    rw [Function.update_self, Function.update_of_ne fun there => elsewhere ⟨rfl, there.symm⟩]
  · rw [Function.update_of_ne here]

/-- An input that shows a text of its own shows the value of its node, or what was typed in it. -/
theorem shown_own {past : List (Event ι)} {row : ι} {input : Input} (own : ShowsOwn row input past) :
    input.read ((after nodes past).shown row input) = ((after nodes past).nodes row).value input ∨
      Typed past row input (input.read ((after nodes past).shown row input)) := by
  induction past with
  | nil => exact .inl (read_shown _ _)
  | cons event past ih =>
    cases event with
    | input row' input' text =>
      change input.read (((after nodes past).oninput row' input' text).shown row input) =
        ((after nodes past).nodes row).value input ∨
          Typed _ row input (input.read (((after nodes past).oninput row' input' text).shown row input))
      by_cases same : row' = row ∧ input' = input
      · obtain ⟨rfl, rfl⟩ := same
        refine .inr ⟨text, .head _, congrArg input'.read ?_⟩
        simp only [State.oninput, Function.update_self]
      · rw [oninput_shown _ same]
        exact (ih (own.resolve_left same)).imp_right fun typed => typed.later _
    | focusout row' input' =>
      change input.read ((after nodes past).shown row input) =
        (((after nodes past).onfocusout row' input').nodes row).value input ∨ _
      rw [onfocusout_value]
      split_ifs with here
      · obtain ⟨rfl, rfl⟩ := here
        exact .inl rfl
      · exact (ih own).imp_right fun typed => typed.later _
    | render =>
      change input.read ((after nodes past).rendered row input) = ((after nodes past).nodes row).value input ∨
        Typed _ row input (input.read ((after nodes past).rendered row input))
      rw [State.rendered, after_buffer]
      cases last : lastTyped input past with
      | none => exact .inl (read_shown _ _)
      | some typed =>
        obtain ⟨row', text⟩ := typed
        simp only [Option.map_some]
        split_ifs with empty
        · exact .inl (read_shown _ _)
        · obtain rfl := (own row' text last).resolve_left empty
          exact .inr ⟨text, .tail _ (lastTyped_mem last), rfl⟩

/-- The values of the nodes are those of the beginning, or were typed in their rows. -/
theorem nodes_own {past : List (Event ι)} (careful : Careful past) (row : ι) (input : Input) :
    ((after nodes past).nodes row).value input = (nodes row).value input ∨
      Typed past row input (((after nodes past).nodes row).value input) := by
  induction past with
  | nil => exact .inl rfl
  | cons event past ih =>
    cases event with
    | input row' input' text => exact (ih careful).imp_right fun typed => typed.later _
    | focusout row' input' =>
      change (((after nodes past).onfocusout row' input').nodes row).value input = _ ∨
        Typed _ row input ((((after nodes past).onfocusout row' input').nodes row).value input)
      rw [onfocusout_value]
      split_ifs with here
      · obtain ⟨rfl, rfl⟩ := here
        rcases shown_own nodes careful.1 with same | typed
        · rw [same]
          exact (ih careful.2).imp_right fun typed => typed.later _
        · exact .inr (typed.later _)
      · exact (ih careful.2).imp_right fun typed => typed.later _
    | render => exact (ih careful).imp_right fun typed => typed.later _

/-- Any other input shows what was typed in another row. -/
theorem shown_foreign {past : List (Event ι)} {row : ι} {input : Input} (foreign : ¬ ShowsOwn row input past) :
    ∃ other, other ≠ row ∧ .input other input ((after nodes past).shown row input) ∈ past := by
  induction past with
  | nil => exact absurd trivial foreign
  | cons event past ih =>
    cases event with
    | input row' input' text =>
      obtain ⟨elsewhere, before⟩ := not_or.mp foreign
      obtain ⟨other, different, member⟩ := ih before
      have kept : (after nodes (.input row' input' text :: past)).shown row input =
          (after nodes past).shown row input :=
        oninput_shown _ elsewhere _
      exact ⟨other, different, .tail _ (kept ▸ member)⟩
    | focusout row' input' =>
      obtain ⟨other, different, member⟩ := ih foreign
      exact ⟨other, different, .tail _ member⟩
    | render =>
      simp only [ShowsOwn, not_forall, not_or] at foreign
      obtain ⟨other, text, last, filled, different⟩ := foreign
      have shown : (after nodes (.render :: past)).shown row input = text := by
        change (after nodes past).rendered row input = text
        rw [State.rendered, after_buffer, last]
        exact if_neg filled
      exact ⟨other, different, shown ▸ .tail _ (lastTyped_mem last)⟩

theorem sent_own {history past : List (Event ι)} {row : ι} {input : Input} (careful : Careful history)
    (left : .focusout row input :: past <:+ history) :
    ∃ node, (after nodes (.focusout row input :: past)).sent = (after nodes past).sent ++ [(row, node)] ∧
      OwnText nodes past row node := by
  obtain ⟨own, earlier⟩ := careful_suffix careful left
  have kept (other : Input) := nodes_own nodes earlier row other
  refine ⟨((after nodes past).nodes row).set input ((after nodes past).shown row input), rfl, ?_, ?_⟩
  · intro other
    rw [RowNode.set_value]
    split_ifs with here
    · rw [here]
      exact shown_own nodes own
    · exact .inl rfl
  · intro other
    rw [RowNode.set_value]
    split_ifs with here
    · rw [here]
      rcases shown_own nodes own with same | typed
      · rw [same]
        exact kept input
      · exact .inr typed
    · exact kept other

/-- Two nodes in the list. -/
def two (row : String) : RowNode :=
  { hostname := if row = "f81a67a5e9c1" then "attic" else "cellar", txPower24 := some 20, txPower5 := none }

/-- A name is typed in the first row, and its input is left, the latest event first. -/
def typedAndLeft : List (Event String) :=
  [.focusout "f81a67a5e9c1" .hostname, .render, .input "f81a67a5e9c1" .hostname "roof"]

theorem sent_own_typedAndLeft : ∃ node, (after two typedAndLeft).sent = [("f81a67a5e9c1", node)] ∧
    OwnText two typedAndLeft.tail "f81a67a5e9c1" node := by
  have careful : Careful typedAndLeft := by
    refine ⟨?_, trivial⟩
    rintro row text ⟨⟩
    exact .inr rfl
  exact sent_own two careful List.suffix_rfl

/-- A name is typed in the first row, the list is rendered, and the input of the second row is left. -/
def leftElsewhere : List (Event String) :=
  [.focusout "f81a67a5e9c2" .hostname, .render, .input "f81a67a5e9c1" .hostname "roof"]

/-- The second node gets the name that was typed for the first one. -/
theorem leftElsewhere_sent : ∃ node, (after two leftElsewhere).sent = [("f81a67a5e9c2", node)] ∧
    node.hostname = "roof" ∧ ¬ OwnText two leftElsewhere.tail "f81a67a5e9c2" node := by
  refine ⟨_, rfl, rfl, fun own => ?_⟩
  rcases own.now .hostname with same | ⟨text, member, _⟩
  · exact absurd same (by decide)
  · simp [leftElsewhere] at member

end FreifunkManager.ListView
