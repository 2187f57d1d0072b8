import FreifunkManager.Math.Rounding

/-! # Double precision numbers and their six-digit decimals

A finite double is a sign and a multiple of the smallest subnormal `2 ^ -1074`, which makes its
representation unique. `decimal` is C's `%f` (and `%.6f`): the exact value rounded to six
digits, ties to even. `parse` reads decimal notation back as the nearest double, as a correctly
rounding reader does. Reading a written decimal may give another number, but never another
decimal (`decimal_parse`). Exponent notation is not read, since nothing here writes it.
-/

open Rounding

/-- The magnitude of a finite double, in units of `2 ^ -1074`. -/
structure Binary64.Magnitude where
  units : ℕ
  fits : Representable 53 units
  bounded : units < 2 ^ (2045 + 53)
deriving DecidableEq

/-- An IEEE 754 binary64 number; the payload of a NaN is not observable here. -/
inductive Binary64 where
  | nan
  | infinite (negative : Bool)
  | finite (negative : Bool) (magnitude : Binary64.Magnitude)
deriving DecidableEq

namespace Binary64

/-- Positive zero, the value of an unset field. -/
def zero : Binary64 := .finite false ⟨0, by decide, by positivity⟩

instance : Inhabited Binary64 := ⟨zero⟩

/-- The comparison `==`: a NaN equals nothing, the two zeros are equal. -/
def eq : Binary64 → Binary64 → Bool
  | .infinite n, .infinite m => n == m
  | .finite n x, .finite m y => x.units == y.units && (n == m || x.units == 0)
  | _, _ => false

def isNaN : Binary64 → Bool
  | .nan => true
  | _ => false

theorem eq_self {x : Binary64} (number : x.isNaN = false) : x.eq x = true := by
  cases x with
  | nan => simp [isNaN] at number
  | infinite n => simp [eq]
  | finite n magnitude => simp [eq]

theorem eq_swap (x y : Binary64) : x.eq y = y.eq x := by
  cases x with
  | nan => cases y <;> rfl
  | infinite n =>
    cases y with
    | infinite m => exact Bool.beq_comm
    | _ => rfl
  | finite n x =>
    cases y with
    | finite m y =>
      by_cases same : x.units = y.units
      · simp only [eq, same, Bool.beq_comm (a := n)]
      · simp only [eq, beq_false_of_ne same, beq_false_of_ne (Ne.symm same), Bool.false_and]
    | _ => rfl

/-- Millionths of the unit, rounded. -/
def Magnitude.micros (magnitude : Magnitude) : ℕ := halfEven (magnitude.units * 10 ^ 6) (2 ^ 1074)

/-- The digits after the point, padded to six. -/
def fraction (n : ℕ) : List Char :=
  List.replicate (6 - (Nat.toDigits 10 n).length) '0' ++ Nat.toDigits 10 n

def signed (negative : Bool) (chars : List Char) : List Char :=
  if negative then '-' :: chars else chars

/-- `fmt.Sprintf("%f", x)`. -/
def decimal : Binary64 → String
  | .nan => "NaN"
  | .infinite negative => if negative then "-Inf" else "+Inf"
  | .finite negative magnitude =>
    String.ofList (signed negative (Nat.toDigits 10 (magnitude.micros / 10 ^ 6) ++
      '.' :: fraction (magnitude.micros % 10 ^ 6)))

/-- The nearest double to `a / b`, unless it is beyond the largest one. -/
def ofRatio? (negative : Bool) (a b : ℕ) : Option Binary64 :=
  if bounded : nearest 53 (a * 2 ^ 1074) b < 2 ^ (2045 + 53) then
    some (.finite negative ⟨_, representable_nearest (by norm_num) _ _, bounded⟩)
  else none

def parseUnsigned (negative : Bool) (chars : List Char) : Option Binary64 :=
  match chars.takeWhile Char.isDigit, chars.dropWhile Char.isDigit with
  | whole, '.' :: digits =>
    if digits.all Char.isDigit then
      ofRatio? negative (Nat.ofDigitChars 10 (whole ++ digits) 0) (10 ^ digits.length)
    else none
  | whole, [] => if whole.isEmpty then none else ofRatio? negative (Nat.ofDigitChars 10 whole 0) 1
  | _, _ => none

/-- `strconv.ParseFloat(text, 64)` on plain decimals and the special values. -/
def parse (text : String) : Option Binary64 :=
  match text.toList with
  | ['N', 'a', 'N'] => some .nan
  | ['+', 'I', 'n', 'f'] => some (.infinite false)
  | ['-', 'I', 'n', 'f'] => some (.infinite true)
  | '-' :: chars => parseUnsigned true chars
  | chars => parseUnsigned false chars

/-- A magnitude read back from its own decimal is a double with the same decimal. -/
theorem ofRatio?_micros (negative : Bool) (magnitude : Magnitude) :
    ∃ back : Magnitude, ofRatio? negative magnitude.micros (10 ^ 6) = some (.finite negative back) ∧
      back.micros = magnitude.micros := by
  have fine : 2 ^ 1074 < 2 ^ 2045 := pow_lt_pow_right₀ (by norm_num) (by norm_num)
  obtain ⟨bounded, same⟩ := nearest_decimal (by norm_num) (by positivity) (by norm_num : 0 < 10 ^ 6) fine
    magnitude.fits magnitude.bounded
  exact ⟨⟨_, representable_nearest (by norm_num) _ _, bounded⟩, dif_pos bounded, same⟩

private theorem fraction_digit {n : ℕ} {c : Char} (member : c ∈ fraction n) : c.isDigit := by
  rcases List.mem_append.mp member with padding | digit
  · rw [(List.mem_replicate.mp padding).2]; rfl
  · exact Nat.isDigit_of_mem_toDigits (by norm_num) (by norm_num) digit

private theorem fraction_length {n : ℕ} (small : n < 10 ^ 6) : (fraction n).length = 6 := by
  have short := (Nat.length_toDigits_le_iff (b := 10) (k := 6) (by norm_num) (by norm_num)).mpr small
  rw [fraction, List.length_append, List.length_replicate]
  omega

private theorem fraction_value (n : ℕ) (whole : ℕ) (small : n < 10 ^ 6) :
    Nat.ofDigitChars 10 (fraction n) whole = 10 ^ 6 * whole + n := by
  rw [Nat.ofDigitChars_eq_ofDigitChars_zero, fraction_length small, fraction, Nat.ofDigitChars_append,
    Nat.ofDigitChars_replicate_zero, Nat.mul_zero, Nat.ofDigitChars_ten_toDigits]

/-- The digits of a decimal read back as the number of millionths. -/
theorem parseUnsigned_digits (negative : Bool) (micros : ℕ) :
    parseUnsigned negative (Nat.toDigits 10 (micros / 10 ^ 6) ++ '.' :: fraction (micros % 10 ^ 6)) =
      ofRatio? negative micros (10 ^ 6) := by
  have digit : ∀ c ∈ Nat.toDigits 10 (micros / 10 ^ 6), c.isDigit := fun c member =>
    Nat.isDigit_of_mem_toDigits (by norm_num) (by norm_num) member
  have small : micros % 10 ^ 6 < 10 ^ 6 := Nat.mod_lt _ (by norm_num)
  have all : (fraction (micros % 10 ^ 6)).all Char.isDigit :=
    List.all_eq_true.mpr fun c member => fraction_digit member
  have value : Nat.ofDigitChars 10 (Nat.toDigits 10 (micros / 10 ^ 6) ++ fraction (micros % 10 ^ 6)) 0 =
      micros := by
    rw [Nat.ofDigitChars_append, Nat.ofDigitChars_ten_toDigits, fraction_value _ _ small]
    exact Nat.div_add_mod micros (10 ^ 6)
  rw [parseUnsigned, List.takeWhile_append_of_pos digit, List.dropWhile_append_of_pos digit,
    List.takeWhile_cons_of_neg (by decide), List.dropWhile_cons_of_neg (by decide), List.append_nil]
  simp only [all, value, fraction_length small, if_true]

private theorem parse_signed (negative : Bool) (micros : ℕ) :
    parse (String.ofList (signed negative (Nat.toDigits 10 (micros / 10 ^ 6) ++
      '.' :: fraction (micros % 10 ^ 6)))) = ofRatio? negative micros (10 ^ 6) := by
  rw [← parseUnsigned_digits, parse, String.toList_ofList]
  obtain ⟨first, rest, digits⟩ := List.exists_cons_of_ne_nil
    (Nat.toDigits_ne_nil (n := micros / 10 ^ 6) (b := 10))
  have digit : first.isDigit := Nat.isDigit_of_mem_toDigits (b := 10) (n := micros / 10 ^ 6)
    (by norm_num) (by norm_num) (digits ▸ List.mem_cons_self ..)
  rw [digits]
  cases negative with
  | true =>
    rw [signed, if_pos rfl, List.cons_append]
    split <;> simp_all
  | false =>
    rw [signed, if_neg (by decide), List.cons_append]
    split <;> simp_all

/-- A decimal is made of letters, digits, signs and the point. -/
theorem decimal_chars {x : Binary64} {c : Char} (member : c ∈ x.decimal.toList) :
    c.isAlphanum ∨ c = '-' ∨ c = '+' ∨ c = '.' := by
  have ofDigit (c : Char) (digit : c.isDigit) : c.isAlphanum := by simp [Char.isAlphanum, digit]
  cases x with
  | nan =>
    have all : ("NaN".toList.all fun c => c.isAlphanum ∨ c = '-' ∨ c = '+' ∨ c = '.') = true := by decide
    exact of_decide_eq_true (List.all_eq_true.mp all c member)
  | infinite negative =>
    have all : ∀ negative, ((infinite negative).decimal.toList.all fun c =>
        c.isAlphanum ∨ c = '-' ∨ c = '+' ∨ c = '.') = true := by decide
    exact of_decide_eq_true (List.all_eq_true.mp (all negative) c member)
  | finite negative magnitude =>
    have unsigned (c : Char) (member : c ∈ Nat.toDigits 10 (magnitude.micros / 10 ^ 6) ++
        '.' :: fraction (magnitude.micros % 10 ^ 6)) : c.isAlphanum ∨ c = '-' ∨ c = '+' ∨ c = '.' := by
      rcases List.mem_append.mp member with whole | rest
      · exact .inl (ofDigit c (Nat.isDigit_of_mem_toDigits (by norm_num) (by norm_num) whole))
      · rcases List.mem_cons.mp rest with point | digit
        · exact .inr (.inr (.inr point))
        · exact .inl (ofDigit c (fraction_digit digit))
    rw [decimal, String.toList_ofList] at member
    cases negative with
    | true =>
      rcases List.mem_cons.mp member with sign | rest
      · exact .inr (.inl sign)
      · exact unsigned c rest
    | false => exact unsigned c member

/-- Reading a written decimal gives a number with the same decimal. -/
theorem decimal_parse (x : Binary64) : ∃ back, parse x.decimal = some back ∧ back.decimal = x.decimal := by
  cases x with
  | nan => exact ⟨.nan, rfl, rfl⟩
  | infinite negative => cases negative <;> exact ⟨.infinite _, rfl, rfl⟩
  | finite negative magnitude =>
    obtain ⟨back, read, same⟩ := ofRatio?_micros negative magnitude
    refine ⟨.finite negative back, ?_, ?_⟩
    · rw [decimal, parse_signed, read]
    · rw [decimal, decimal, same]

/-! ## Whole numbers -/

private theorem mul_pow_bounded {n p k m : ℕ} (small : n < 2 ^ p) (le : k ≤ m) : n * 2 ^ k < 2 ^ (m + p) := calc
  n * 2 ^ k < 2 ^ p * 2 ^ k := Nat.mul_lt_mul_of_pos_right small (by positivity)
  _ ≤ 2 ^ p * 2 ^ m := Nat.mul_le_mul_left _ (Nat.pow_le_pow_right (by norm_num) le)
  _ = 2 ^ (m + p) := by rw [pow_add, Nat.mul_comm]

def ofNat (n : ℕ) (small : n < 2 ^ 53) : Binary64 :=
  .finite false ⟨n * 2 ^ 1074, representable_mul_pow small 1074, mul_pow_bounded small (by norm_num)⟩

theorem ofRatio?_ofNat {n : ℕ} (small : n < 2 ^ 53) : ofRatio? false n 1 = some (ofNat n small) := by
  have same : nearest 53 (n * 2 ^ 1074) 1 = n * 2 ^ 1074 :=
    nearest_self (by norm_num) (representable_mul_pow small 1074)
  have bounded : nearest 53 (n * 2 ^ 1074) 1 < 2 ^ (2045 + 53) := by
    rw [same]
    exact mul_pow_bounded small (by norm_num)
  rw [ofRatio?, dif_pos bounded, ofNat]
  congr 3

/-- The digits before the point. -/
def toNat : Binary64 → ℕ
  | .finite _ magnitude => magnitude.units / 2 ^ 1074
  | _ => 0

theorem toNat_zero : zero.toNat = 0 := by simp only [zero, toNat, Nat.zero_div]

theorem toNat_ofNat {n : ℕ} (small : n < 2 ^ 53) : (ofNat n small).toNat = n :=
  Nat.mul_div_cancel n (by positivity)

end Binary64
