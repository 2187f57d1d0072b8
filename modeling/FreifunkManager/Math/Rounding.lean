import Mathlib.Data.Nat.Size
import Mathlib.Algebra.Order.Ring.Abs
import Mathlib.Algebra.Order.Ring.Int
import Mathlib.Tactic.Ring
import Mathlib.Tactic.Linarith

/-! # Rounding ratios to a grid

A ratio of naturals is rounded to the nearest integer, ties to the even one, and to the nearest
number of at most `p` significant bits. The two roundings undo each other in one direction:
the decimal of a number survives being read back as the nearest number (`halfEven_stable`).
Nothing here depends on the bounds of a particular format.
-/

namespace Rounding

/-- The integer nearest to `a / b`, the even one of two equally near. -/
def halfEven (a b : ℕ) : ℕ :=
  let q := a / b
  let r := a % b
  if 2 * r < b ∨ (2 * r = b ∧ q % 2 = 0) then q else q + 1

/-- At most `p` significant bits. -/
def Representable (p n : ℕ) : Prop := 2 ^ (n.size - p) ∣ n

instance (p n : ℕ) : Decidable (Representable p n) := inferInstanceAs (Decidable (_ ∣ _))

theorem representable_mul_pow {p n : ℕ} (small : n < 2 ^ p) (k : ℕ) : Representable p (n * 2 ^ k) := by
  have size : (n * 2 ^ k).size ≤ p + k := by
    rw [Nat.size_le, pow_add]
    exact Nat.mul_lt_mul_of_pos_right small (by positivity)
  exact (pow_dvd_pow 2 (by omega)).trans (Dvd.intro_left n rfl)

/-- The number of at most `p` significant bits that is nearest to `a / b`. -/
def nearest (p a b : ℕ) : ℕ :=
  let step := 2 ^ ((a / b).size - p)
  step * halfEven a (b * step)

/-- Distance of `a / b` from `n`, in units of `1 / b`. -/
abbrev error (a b n : ℕ) : ℤ := |(a : ℤ) - b * n|

private theorem error_quotient (a b : ℕ) : error a b (a / b) = (a % b : ℕ) := by
  have split := Nat.div_add_mod a b
  have exact : (a : ℤ) - b * (a / b : ℕ) = (a % b : ℕ) := by
    have cast := congrArg (fun n : ℕ => (n : ℤ)) split
    push_cast at cast ⊢
    linarith
  rw [error, exact, abs_of_nonneg (by positivity)]

private theorem error_successor {a b : ℕ} (positive : 0 < b) :
    error a b (a / b + 1) = (b : ℤ) - (a % b : ℕ) := by
  have split := Nat.div_add_mod a b
  have bound := Nat.mod_lt a positive
  have exact : (a : ℤ) - b * (a / b + 1 : ℕ) = -((b : ℤ) - (a % b : ℕ)) := by
    have cast := congrArg (fun n : ℕ => (n : ℤ)) split
    push_cast at cast ⊢
    linarith
  rw [error, exact, abs_neg, abs_of_nonneg (by omega)]

private theorem halfEven_cases (a b : ℕ) :
    (halfEven a b = a / b ∧ (2 * (a % b) < b ∨ (2 * (a % b) = b ∧ a / b % 2 = 0))) ∨
      (halfEven a b = a / b + 1 ∧ ¬(2 * (a % b) < b ∨ (2 * (a % b) = b ∧ a / b % 2 = 0))) := by
  by_cases down : 2 * (a % b) < b ∨ (2 * (a % b) = b ∧ a / b % 2 = 0)
  · exact .inl ⟨if_pos down, down⟩
  · exact .inr ⟨if_neg down, down⟩

/-- Rounding moves a ratio by at most half a unit. -/
theorem halfEven_near {a b : ℕ} (positive : 0 < b) : 2 * error a b (halfEven a b) ≤ b := by
  have bound := Nat.mod_lt a positive
  rcases halfEven_cases a b with ⟨same, down⟩ | ⟨same, up⟩
  · rw [same, error_quotient]; omega
  · rw [same, error_successor positive]; omega

/-- Of two equally near integers the even one is chosen. -/
theorem halfEven_even_of_tie {a b : ℕ} (positive : 0 < b)
    (tie : 2 * error a b (halfEven a b) = b) : halfEven a b % 2 = 0 := by
  have bound := Nat.mod_lt a positive
  rcases halfEven_cases a b with ⟨same, down⟩ | ⟨same, up⟩
  · rw [same, error_quotient] at tie
    omega
  · rw [same, error_successor positive] at tie
    omega

private theorem error_eq_cases {b m n : ℕ} (x : ℕ) (positive : 0 < b)
    (near : 2 * error x b m ≤ b) (other : 2 * error x b n ≤ b) :
    m = n ∨ (2 * error x b m = b ∧ 2 * error x b n = b ∧ (m = n + 1 ∨ n = m + 1)) := by
  have apart : (b : ℤ) * |(m : ℤ) - n| ≤ error x b m + error x b n := by
    calc (b : ℤ) * |(m : ℤ) - n| = |((x : ℤ) - b * n) - ((x : ℤ) - b * m)| := by
          rw [show ((x : ℤ) - b * n) - ((x : ℤ) - b * m) = b * ((m : ℤ) - n) by ring, abs_mul,
            abs_of_nonneg (by positivity : (0 : ℤ) ≤ b)]
      _ ≤ error x b n + error x b m := abs_sub _ _
      _ = _ := add_comm _ _
  rcases Nat.lt_trichotomy m n with less | same | more
  · rcases Nat.lt_or_ge (m + 1) n with far | next
    · have wide : (2 : ℤ) ≤ |(m : ℤ) - n| := by rw [abs_sub_comm, abs_of_nonneg] <;> omega
      have : (b : ℤ) * 2 ≤ b * |(m : ℤ) - n| := mul_le_mul_of_nonneg_left wide (by positivity)
      omega
    · have one : |(m : ℤ) - n| = 1 := by rw [abs_sub_comm, abs_of_nonneg] <;> omega
      rw [one, mul_one] at apart
      exact .inr ⟨by omega, by omega, by omega⟩
  · exact .inl same
  · rcases Nat.lt_or_ge (n + 1) m with far | next
    · have wide : (2 : ℤ) ≤ |(m : ℤ) - n| := by rw [abs_of_nonneg] <;> omega
      have : (b : ℤ) * 2 ≤ b * |(m : ℤ) - n| := mul_le_mul_of_nonneg_left wide (by positivity)
      omega
    · have one : |(m : ℤ) - n| = 1 := by rw [abs_of_nonneg] <;> omega
      rw [one, mul_one] at apart
      exact .inr ⟨by omega, by omega, by omega⟩

/-- An integer within half a unit is the rounded one, unless a tie favours its neighbour. -/
theorem halfEven_eq {a b n : ℕ} (positive : 0 < b) (near : 2 * error a b n ≤ b)
    (even : 2 * error a b n = b → n % 2 = 0) : halfEven a b = n := by
  rcases error_eq_cases a positive (halfEven_near positive) near with same | ⟨tie, otherTie, next⟩
  · exact same
  · have chosen := halfEven_even_of_tie positive tie
    have := even otherTie
    omega

/-- No integer is nearer than the rounded one. -/
theorem halfEven_nearest {a b : ℕ} (positive : 0 < b) (n : ℕ) :
    error a b (halfEven a b) ≤ error a b n := by
  by_contra farther
  have near := halfEven_near (a := a) positive
  rcases error_eq_cases a positive near (by omega : 2 * error a b n ≤ b) with same | ⟨tie, otherTie, _⟩
  · exact farther (same ▸ le_refl _)
  · omega

/-- A number read back from its own decimal, as anything no farther from the decimal than it,
has that decimal again. -/
theorem halfEven_stable {unit scale x y : ℕ} (positive : 0 < unit)
    (nearer : error (y * scale) unit (halfEven (x * scale) unit) ≤
      error (x * scale) unit (halfEven (x * scale) unit)) :
    halfEven (y * scale) unit = halfEven (x * scale) unit := by
  have near := halfEven_near (a := x * scale) positive
  refine halfEven_eq positive (by omega) fun tie => ?_
  exact halfEven_even_of_tie positive (by omega)

private theorem halfEven_le_successor (a b : ℕ) : halfEven a b ≤ a / b + 1 := by
  rcases halfEven_cases a b with ⟨same, _⟩ | ⟨same, _⟩ <;> omega

private theorem error_mul (a b step n : ℕ) : error a b (step * n) = error a (b * step) n := by
  unfold error
  push_cast
  rw [mul_assoc]

private theorem nearest_le_pow (p a b : ℕ) : nearest p a b ≤ 2 ^ ((a / b).size - p + p) := by
  have small : a / (b * 2 ^ ((a / b).size - p)) < 2 ^ p := by
    rw [← Nat.div_div_eq_div_mul, Nat.div_lt_iff_lt_mul (Nat.two_pow_pos _), ← pow_add]
    exact lt_of_lt_of_le (Nat.lt_size_self _) (Nat.pow_le_pow_right (by norm_num) (by omega))
  have rounded := halfEven_le_successor a (b * 2 ^ ((a / b).size - p))
  rw [nearest, pow_add]
  exact Nat.mul_le_mul_left _ (by omega)

/-- Rounding to `p` bits leaves at most `p` bits. -/
theorem representable_nearest {p : ℕ} (bits : 0 < p) (a b : ℕ) :
    Representable p (nearest p a b) := by
  have step : 2 ^ ((a / b).size - p) ∣ nearest p a b := Dvd.intro _ rfl
  rcases (nearest_le_pow p a b).lt_or_eq with less | top
  · have size := Nat.size_le.mpr less
    exact (pow_dvd_pow 2 (by omega)).trans step
  · rw [top, Representable, Nat.size_pow]
    exact pow_dvd_pow 2 (by omega)

/-- No number of at most `p` bits is nearer than the rounded one. -/
theorem nearest_le {p a b : ℕ} (bits : 0 < p) (positive : 0 < b) {z : ℕ} (fits : Representable p z) :
    error a b (nearest p a b) ≤ error a b z := by
  have aligned (k : ℕ) : error a b (nearest p a b) ≤ error a b (2 ^ ((a / b).size - p) * k) := by
    rw [nearest, error_mul, error_mul]
    exact halfEven_nearest (by positivity) k
  by_cases divides : 2 ^ ((a / b).size - p) ∣ z
  · obtain ⟨k, rfl⟩ := divides
    exact aligned k
  · -- a finer number lies below the binade of the quotient, whose foot is on the grid
    have finer : z.size - p < (a / b).size - p := by
      by_contra coarse
      exact divides ((pow_dvd_pow 2 (by omega)).trans fits)
    have below : z < 2 ^ ((a / b).size - 1) := Nat.size_le.mp (by omega)
    have foot : 2 ^ ((a / b).size - 1) ≤ a / b := Nat.lt_size.mp (by omega)
    have reached : b * 2 ^ ((a / b).size - 1) ≤ a :=
      (Nat.mul_le_mul_left b foot).trans (Nat.mul_div_le a b)
    have lower : b * z ≤ b * 2 ^ ((a / b).size - 1) := Nat.mul_le_mul_left b below.le
    obtain ⟨k, grid⟩ : 2 ^ ((a / b).size - p) ∣ 2 ^ ((a / b).size - 1) := pow_dvd_pow 2 (by omega)
    refine (aligned k).trans ?_
    rw [← grid]
    have footCast : (b : ℤ) * (2 ^ ((a / b).size - 1) : ℕ) ≤ a := by exact_mod_cast reached
    have lowerCast : (b : ℤ) * z ≤ b * (2 ^ ((a / b).size - 1) : ℕ) := by exact_mod_cast lower
    rw [error, error, abs_of_nonneg (by linarith), abs_of_nonneg (by linarith)]
    linarith

/-- A number that needs no rounding. -/
theorem nearest_self {p z : ℕ} (bits : 0 < p) (fits : Representable p z) : nearest p z 1 = z := by
  have near := nearest_le (a := z) (b := 1) bits one_pos fits
  have exact : error z 1 z = 0 := by rw [error, Nat.cast_one, one_mul, sub_self, abs_zero]
  rw [exact, error, abs_nonpos_iff, sub_eq_zero, Nat.cast_one, one_mul] at near
  exact_mod_cast near.symm

/-- Below a power of two, a number of at most `p` bits keeps a whole grid step of distance. -/
theorem Representable.add_le {p e x : ℕ} (bits : 0 < p) (fits : Representable p x)
    (bounded : x < 2 ^ (e + p)) : x + 2 ^ e ≤ 2 ^ (e + p) := by
  rcases Nat.lt_or_ge x (2 ^ (e + p - 1)) with small | large
  · have half : 2 ^ (e + p - 1) + 2 ^ (e + p - 1) = 2 ^ (e + p) := by
      rw [← Nat.mul_two, ← pow_succ]; congr 1; omega
    have step : 2 ^ e ≤ 2 ^ (e + p - 1) := Nat.pow_le_pow_right (by norm_num) (by omega)
    exact (Nat.add_le_add small.le step).trans half.le
  · have size : e + p - 1 < x.size := Nat.lt_size.mpr large
    obtain ⟨k, rfl⟩ : 2 ^ e ∣ x := (pow_dvd_pow 2 (by omega)).trans fits
    rw [pow_add] at bounded ⊢
    exact Nat.mul_le_mul_left _ (Nat.lt_of_mul_lt_mul_left bounded : k < 2 ^ p)

private theorem error_read (unit scale m y : ℕ) :
    error (m * unit) scale y = error (y * scale) unit m := by
  rw [error, error, abs_sub_comm]
  push_cast
  congr 1
  ring

private theorem le_add_of_error {unit scale m x y : ℕ} (positive : 0 < scale)
    (written : 2 * error (x * scale) unit m ≤ unit)
    (nearer : error (y * scale) unit m ≤ error (x * scale) unit m) : y ≤ x + unit := by
  have low := le_abs_self (((y * scale : ℕ) : ℤ) - unit * m)
  have high := neg_abs_le (((x * scale : ℕ) : ℤ) - unit * m)
  unfold error at written nearer
  have scaled : ((y * scale : ℕ) : ℤ) ≤ (x * scale : ℕ) + unit := by linarith
  have grown : y * scale ≤ (x + unit) * scale := by
    have wide : unit ≤ unit * scale := Nat.le_mul_of_pos_right _ positive
    rw [Nat.add_mul]
    exact (show y * scale ≤ x * scale + unit by exact_mod_cast scaled).trans (Nat.add_le_add_left wide _)
  exact Nat.le_of_mul_le_mul_right grown positive

/-- Writing a bounded number of `p` bits as a decimal and reading the nearest number back stays
within the bound and gives the same decimal. -/
theorem nearest_decimal {p e unit scale x : ℕ} (bits : 0 < p) (unitPos : 0 < unit)
    (scalePos : 0 < scale) (fine : unit < 2 ^ e) (fits : Representable p x)
    (bounded : x < 2 ^ (e + p)) :
    nearest p (halfEven (x * scale) unit * unit) scale < 2 ^ (e + p) ∧
      halfEven (nearest p (halfEven (x * scale) unit * unit) scale * scale) unit =
        halfEven (x * scale) unit := by
  have nearer := nearest_le bits scalePos fits (a := halfEven (x * scale) unit * unit)
  rw [error_read unit scale _ x, error_read unit scale _ (nearest p _ _)] at nearer
  have grown := le_add_of_error scalePos (halfEven_near unitPos) nearer
  have room := fits.add_le bits bounded
  exact ⟨(grown.trans_lt (Nat.add_lt_add_left fine x)).trans_le room, halfEven_stable unitPos nearer⟩

end Rounding
