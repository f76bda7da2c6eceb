import Mathlib.Algebra.Order.Field.Power
import Mathlib.Data.Int.Log
import Mathlib.Data.Rat.Floor
import Mathlib.Tactic.FieldSimp
import Mathlib.Tactic.Linarith

set_option autoImplicit false

namespace Rounding

-- The nearest integer, with ties to the even one.
def halfEven (x : ℚ) : ℤ :=
  if Int.fract x < 1 / 2 then ⌊x⌋
  else if 1 / 2 < Int.fract x then ⌊x⌋ + 1
  else if ⌊x⌋ % 2 = 0 then ⌊x⌋
  else ⌊x⌋ + 1

-- The unit of the last of the p binary digits of x.
def lastPlace (p : ℕ) (x : ℚ) : ℚ := 2 ^ (Int.log 2 |x| + 1 - p)

-- The value of a binary format of p digits that lies nearest to x, where the range of
-- the format's exponents is left out.
def nearest (p : ℕ) (x : ℚ) : ℚ := halfEven (x / lastPlace p x) * lastPlace p x

theorem half_even_error (x : ℚ) : |(halfEven x : ℚ) - x| ≤ 1 / 2 := by
  have whole := Int.floor_add_fract x
  have below := Int.fract_nonneg x
  have above := Int.fract_lt_one x
  rw [abs_le, halfEven]
  split_ifs with less more <;> constructor <;> push_cast <;> linarith

theorem last_place_positive (p : ℕ) (x : ℚ) : 0 < lastPlace p x := zpow_pos (by norm_num) _

theorem last_place_small (p : ℕ) (x : ℚ) (nonzero : x ≠ 0) : lastPlace p x / 2 ≤ |x| / 2 ^ p := by
  have leading : (2 : ℚ) ^ Int.log 2 |x| ≤ |x| := by
    exact_mod_cast Int.zpow_log_le_self (b := 2) (by norm_num) (abs_pos.mpr nonzero)
  have two : (2 : ℚ) ≠ 0 := by norm_num
  rw [lastPlace, zpow_sub₀ two, zpow_add_one₀ two, zpow_natCast]
  calc (2 : ℚ) ^ Int.log 2 |x| * 2 / 2 ^ p / 2 = 2 ^ Int.log 2 |x| / 2 ^ p := by ring
    _ ≤ |x| / 2 ^ p := div_le_div_of_nonneg_right leading (by positivity)

theorem nearest_error (p : ℕ) (x : ℚ) : |nearest p x - x| ≤ |x| / 2 ^ p := by
  by_cases zero : x = 0
  · subst zero
    simp [nearest, halfEven]
  have place := last_place_positive p x
  have scaled : nearest p x - x = (halfEven (x / lastPlace p x) - x / lastPlace p x) * lastPlace p x := by
    rw [nearest, sub_mul, div_mul_cancel₀ x place.ne']
  calc |nearest p x - x| = |(halfEven (x / lastPlace p x) : ℚ) - x / lastPlace p x| * lastPlace p x := by
        rw [scaled, abs_mul, abs_of_pos place]
    _ ≤ 1 / 2 * lastPlace p x := mul_le_mul_of_nonneg_right (half_even_error _) place.le
    _ ≤ |x| / 2 ^ p := by linarith [last_place_small p x zero]

theorem nearest_bounds (p : ℕ) (x : ℚ) (nonneg : 0 ≤ x) :
    (1 - 1 / 2 ^ p) * x ≤ nearest p x ∧ nearest p x ≤ (1 + 1 / 2 ^ p) * x := by
  have error := abs_le.mp (nearest_error p x)
  rw [abs_of_nonneg nonneg] at error
  constructor
  · linarith [show (1 - 1 / 2 ^ p) * x = x - x / 2 ^ p by ring]
  · linarith [show (1 + 1 / 2 ^ p) * x = x + x / 2 ^ p by ring]

-- A computed value within k roundings of the exact one.
structure Within (p k : ℕ) (exact computed : ℚ) : Prop where
  lower : (1 - 1 / 2 ^ p) ^ k * exact ≤ computed
  upper : computed ≤ (1 + 1 / 2 ^ p) ^ k * exact

section Within

variable (p : ℕ)

theorem unit_bounds : (0 : ℚ) ≤ 1 - 1 / 2 ^ p ∧ (1 : ℚ) - 1 / 2 ^ p ≤ 1 ∧ (1 : ℚ) ≤ 1 + 1 / 2 ^ p := by
  have unit : (1 : ℚ) / 2 ^ p ≤ 1 := by
    rw [div_le_one (by positivity)]
    exact one_le_pow₀ (by norm_num)
  have positive : (0 : ℚ) < 1 / 2 ^ p := by positivity
  refine ⟨?_, ?_, ?_⟩ <;> linarith

theorem within_exact (x : ℚ) : Within p 0 x x := ⟨by simp, by simp⟩

theorem within_more (k l : ℕ) (x y : ℚ) (nonneg : 0 ≤ x) (fewer : k ≤ l) (within : Within p k x y) : Within p l x y := by
  obtain ⟨low, below, above⟩ := unit_bounds p
  constructor
  · exact (mul_le_mul_of_nonneg_right (pow_le_pow_of_le_one low below fewer) nonneg).trans within.lower
  · exact within.upper.trans (mul_le_mul_of_nonneg_right (pow_le_pow_right₀ above fewer) nonneg)

theorem within_nonneg (k : ℕ) (x y : ℚ) (nonneg : 0 ≤ x) (within : Within p k x y) : 0 ≤ y :=
  (mul_nonneg (pow_nonneg (unit_bounds p).1 k) nonneg).trans within.lower

theorem within_add (k : ℕ) (x y x' y' : ℚ) (within : Within p k x y) (within' : Within p k x' y') :
    Within p k (x + x') (y + y') := by
  constructor
  · rw [mul_add]
    exact add_le_add within.lower within'.lower
  · rw [mul_add]
    exact add_le_add within.upper within'.upper

theorem within_nearest (k : ℕ) (x y : ℚ) (nonneg : 0 ≤ x) (within : Within p k x y) :
    Within p (k + 1) x (nearest p y) := by
  obtain ⟨low, _, above⟩ := unit_bounds p
  obtain ⟨lower, upper⟩ := nearest_bounds p y (within_nonneg p k x y nonneg within)
  constructor
  · calc (1 - 1 / 2 ^ p) ^ (k + 1) * x = (1 - 1 / 2 ^ p) * ((1 - 1 / 2 ^ p) ^ k * x) := by ring
      _ ≤ (1 - 1 / 2 ^ p) * y := mul_le_mul_of_nonneg_left within.lower low
      _ ≤ nearest p y := lower
  · calc nearest p y ≤ (1 + 1 / 2 ^ p) * y := upper
      _ ≤ (1 + 1 / 2 ^ p) * ((1 + 1 / 2 ^ p) ^ k * x) := mul_le_mul_of_nonneg_left within.upper (by linarith)
      _ = (1 + 1 / 2 ^ p) ^ (k + 1) * x := by ring

end Within

example : nearest 53 (1 / 10) = 3602879701896397 / 36028797018963968 := by decide +kernel

end Rounding
