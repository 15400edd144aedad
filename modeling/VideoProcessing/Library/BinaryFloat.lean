import Mathlib.Algebra.Order.Field.Power
import Mathlib.Algebra.Order.Floor.Ring
import Mathlib.Data.Int.Log
import Mathlib.Data.Rat.Floor
import Mathlib.Tactic.Linarith

/-!
# Rounding to a binary floating-point format

Numbers are rational, and a format rounds each to the nearest of its own, of two to the even one.
The unit in the last place is a power of two that follows the size of the number down to a least
one. Rounding therefore loses a fixed part of the number at most, or half the least unit. Where a
format overflows is left to its user.
-/

namespace BinaryFloat

/-! ## The nearest integer -/

/-- The nearest integer, of two the even one. -/
def nearest (q : ℚ) : ℤ :=
  if 2 * (q - ⌊q⌋) < 1 then ⌊q⌋
  else if 1 < 2 * (q - ⌊q⌋) then ⌊q⌋ + 1
  else if ⌊q⌋ % 2 = 0 then ⌊q⌋ else ⌊q⌋ + 1

/-- Rounding to the nearest integer moves by a half at most. -/
theorem abs_nearest_sub_le (q : ℚ) : |(nearest q : ℚ) - q| ≤ 1 / 2 := by
  have hlow := Int.floor_le q
  have hhigh := Int.lt_floor_add_one q
  rw [abs_le]
  unfold nearest
  split_ifs <;> push_cast <;> constructor <;> linarith

/-! ## Rounding -/

/-- The precision in bits, and the least exponent of a unit in the last place. -/
structure Format where
  precision : ℕ
  leastExponent : ℤ

variable (fmt : Format) {q : ℚ}

/-- The exponent of the unit in the last place at `q`. -/
def Format.exponent (q : ℚ) : ℤ := max (Int.log 2 |q| + 1 - fmt.precision) fmt.leastExponent

/-- The nearest number of the format. -/
def Format.round (q : ℚ) : ℚ := nearest (q / 2 ^ fmt.exponent q) * 2 ^ fmt.exponent q

variable {fmt}

/-- No exponent is below the least one. -/
theorem Format.leastExponent_le (q : ℚ) : fmt.leastExponent ≤ fmt.exponent q := le_max_right ..

/-- A power of two is positive. -/
theorem two_zpow_pos (e : ℤ) : (0 : ℚ) < 2 ^ e := zpow_pos zero_lt_two e

/-- Half of a power of two is the one before it. -/
theorem half_two_zpow (e : ℤ) : (2 : ℚ) ^ e / 2 = 2 ^ (e - 1) := by
  rw [zpow_sub_one₀ two_ne_zero, div_eq_mul_inv]

@[simp] theorem Format.round_zero : fmt.round 0 = 0 := by
  have hnearest : nearest 0 = 0 := by
    unfold nearest
    simp
  rw [Format.round, zero_div, hnearest, Int.cast_zero, zero_mul]

/-- Rounding loses at most half a unit in the last place. -/
theorem Format.abs_round_sub_le (q : ℚ) : |fmt.round q - q| ≤ 2 ^ (fmt.exponent q - 1) := by
  have hpos := two_zpow_pos (fmt.exponent q)
  have hcancel : q / 2 ^ fmt.exponent q * 2 ^ fmt.exponent q = q := div_mul_cancel₀ q hpos.ne'
  have hfactor : fmt.round q - q =
      ((nearest (q / 2 ^ fmt.exponent q) : ℚ) - q / 2 ^ fmt.exponent q) * 2 ^ fmt.exponent q := by
    rw [sub_mul, hcancel]
    rfl
  have hnearest := abs_nearest_sub_le (q / 2 ^ fmt.exponent q)
  rw [hfactor, abs_mul, abs_of_pos hpos]
  calc |(nearest (q / 2 ^ fmt.exponent q) : ℚ) - q / 2 ^ fmt.exponent q| * 2 ^ fmt.exponent q
      ≤ 1 / 2 * 2 ^ fmt.exponent q := mul_le_mul_of_nonneg_right hnearest hpos.le
    _ = 2 ^ (fmt.exponent q - 1) := by rw [← half_two_zpow, one_div_mul_eq_div]

/-- A number above the least unit has all the bits of the format. -/
theorem Format.le_abs (hq : q ≠ 0) (h : fmt.leastExponent < fmt.exponent q) :
    2 ^ (fmt.exponent q - 1) ≤ |q| * 2 ^ (-fmt.precision : ℤ) := by
  have hlog : (2 : ℚ) ^ Int.log 2 |q| ≤ |q| := by
    exact_mod_cast Int.zpow_log_le_self (b := 2) Nat.one_lt_two (abs_pos.mpr hq)
  have hexponent : fmt.exponent q - 1 = Int.log 2 |q| + -fmt.precision := by
    rw [Format.exponent] at h ⊢
    omega
  rw [hexponent, zpow_add₀ two_ne_zero]
  exact mul_le_mul_of_nonneg_right hlog (two_zpow_pos _).le

/-- The loss is small beside the number, or beside the least unit. -/
theorem Format.abs_round_sub_le_add (q : ℚ) :
    |fmt.round q - q| ≤ |q| * 2 ^ (-fmt.precision : ℤ) + 2 ^ (fmt.leastExponent - 1) := by
  have hrelative : 0 ≤ |q| * (2 : ℚ) ^ (-fmt.precision : ℤ) :=
    mul_nonneg (abs_nonneg q) (two_zpow_pos _).le
  have hleast : (0 : ℚ) ≤ 2 ^ (fmt.leastExponent - 1) := (two_zpow_pos _).le
  by_cases hq : q = 0
  · subst hq
    simpa using hleast
  have hround := fmt.abs_round_sub_le q
  rcases (fmt.leastExponent_le q).eq_or_lt with heq | hlt
  · rw [← heq] at hround
    linarith
  · have hbits := Format.le_abs hq hlt
    linarith

end BinaryFloat
