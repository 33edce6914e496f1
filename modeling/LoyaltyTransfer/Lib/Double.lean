/-
# `LoyaltyTransfer.Lib.Double` — rounding to double precision

The value a double holds after an exact result was rounded to it: 53 significant
bits, to the nearest, ties to even.  Exponents are unbounded here: results that
overflow or are subnormal are out of scope.

**Proved here.**  The relative error of one rounding (`abs_nearest_sub_le`).
-/
import Mathlib.Data.Int.Log
import Mathlib.Data.Rat.Floor
import Mathlib.Tactic.Linarith

namespace Double

/-- The nearest integer, ties to even. -/
def roundHalfEven (x : ℚ) : ℤ :=
  if x - ⌊x⌋ < 1 / 2 then ⌊x⌋
  else if 1 / 2 < x - ⌊x⌋ then ⌊x⌋ + 1
  else if ⌊x⌋ % 2 = 0 then ⌊x⌋ else ⌊x⌋ + 1

theorem abs_roundHalfEven_sub_le (x : ℚ) : |(roundHalfEven x : ℚ) - x| ≤ 1 / 2 := by
  have hlow := Int.floor_le x
  have hhigh := Int.lt_floor_add_one x
  rw [abs_le, roundHalfEven]
  split
  · constructor <;> linarith
  · split
    · push_cast
      constructor <;> linarith
    · split
      · constructor <;> linarith
      · push_cast
        constructor <;> linarith

/-- The weight of the last of the 53 bits. -/
def ulp (q : ℚ) : ℚ := 2 ^ (Int.log 2 |q| - 52)

theorem ulp_pos (q : ℚ) : 0 < ulp q := zpow_pos (by norm_num) _

/-- The double nearest to `q`. -/
def nearest (q : ℚ) : ℚ := roundHalfEven (q / ulp q) * ulp q

theorem ulp_half_le {q : ℚ} (hq : q ≠ 0) : ulp q / 2 ≤ |q| * 2 ^ (-53 : ℤ) := by
  have hlog : ((2 : ℕ) : ℚ) ^ Int.log 2 |q| ≤ |q| :=
    Int.zpow_log_le_self one_lt_two (abs_pos.mpr hq)
  have hhalf : ulp q / 2 = 2 ^ Int.log 2 |q| * (2 : ℚ) ^ (-53 : ℤ) := by
    rw [ulp, div_eq_mul_inv, ← zpow_neg_one, ← zpow_add₀ two_ne_zero, ← zpow_add₀ two_ne_zero]
    congr 1
    omega
  rw [hhalf]
  exact mul_le_mul_of_nonneg_right hlog (by positivity)

theorem abs_nearest_sub_le (q : ℚ) : |nearest q - q| ≤ |q| * 2 ^ (-53 : ℤ) := by
  by_cases hq : q = 0
  · subst hq
    simp [nearest, roundHalfEven]
  have hexact : q = q / ulp q * ulp q := (div_mul_cancel₀ q (ulp_pos q).ne').symm
  calc |nearest q - q|
      = |(roundHalfEven (q / ulp q) - q / ulp q) * ulp q| := by
        rw [sub_mul, ← hexact, nearest]
    _ = |(roundHalfEven (q / ulp q) : ℚ) - q / ulp q| * ulp q := by
        rw [abs_mul, abs_of_pos (ulp_pos q)]
    _ ≤ 1 / 2 * ulp q :=
        mul_le_mul_of_nonneg_right (abs_roundHalfEven_sub_le _) (ulp_pos q).le
    _ = ulp q / 2 := by ring
    _ ≤ |q| * 2 ^ (-53 : ℤ) := ulp_half_le hq

/-- The integer part, towards zero. -/
def truncate (q : ℚ) : ℤ := q.num.tdiv q.den

theorem truncate_le {q : ℚ} (hq : 0 ≤ q) : (truncate q : ℚ) ≤ q := by
  have hfloor : truncate q = ⌊q⌋ := by
    rw [truncate, Int.tdiv_eq_ediv_of_nonneg (Rat.num_nonneg.mpr hq), Rat.floor_def']
  rw [hfloor]
  exact Int.floor_le q

end Double
