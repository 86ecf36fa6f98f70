/-
# Numbers of 53 binary digits

Rational numbers rounded to a multiple of the weight of their last digit, half to
even, and the difference of two numbers so rounded. The exponent has no bound: a
difference of doubles is a multiple of the least double, so its digits are cut
off above only.

Key definitions: `Double.round`, `Double.sub`.
Key theorems: `Double.round_of_multiple`, `Double.sub_intCast`.
-/
import Mathlib.Algebra.Order.Round
import Mathlib.Data.Int.Log
import Mathlib.Data.Rat.Floor
import Mathlib.Tactic.NormNum
import Mathlib.Tactic.Ring

namespace Double

/-- The weight of the last of the 53 digits. -/
def ulp (x : ℚ) : ℚ := 2 ^ (Int.log 2 |x| - 52)

/-- The nearest integer, the even one of two. -/
def nearest (x : ℚ) : ℤ :=
  if 2 * Int.fract x < 1 ∨ (2 * Int.fract x = 1 ∧ ⌊x⌋ % 2 = 0) then ⌊x⌋ else ⌊x⌋ + 1

def round (x : ℚ) : ℚ := nearest (x / ulp x) * ulp x

/-- The difference, as a processor takes it. -/
def sub (x y : ℚ) : ℚ := round (x - y)

theorem ulp_pos (x : ℚ) : 0 < ulp x := zpow_pos (by norm_num) _

@[simp] theorem nearest_intCast (n : ℤ) : nearest n = n := by
  simp [nearest]

/-- What has no more digits is not rounded. -/
theorem round_of_multiple {x : ℚ} (k : ℤ) (h : x = k * ulp x) : round x = x := by
  have hdigits : x / ulp x = k := by
    rw [div_eq_iff (ulp_pos x).ne']
    exact h
  rw [round, hdigits, nearest_intCast, ← h]

theorem round_intCast {n : ℤ} (h : |n| < 2 ^ 53) : round n = n := by
  rcases eq_or_ne n 0 with rfl | hn
  · exact round_of_multiple 0 (by simp)
  have hpos : (0 : ℚ) < |(n : ℚ)| := by
    simpa using hn
  -- the last digit does not stand before the point
  have hlog : Int.log 2 |(n : ℚ)| < 53 := by
    rw [← Int.lt_zpow_iff_log_lt (by norm_num) hpos]
    have hcast : (|n| : ℚ) < 2 ^ 53 := by exact_mod_cast h
    simpa using hcast
  obtain ⟨d, hd⟩ := Int.eq_ofNat_of_zero_le (show 0 ≤ 52 - Int.log 2 |(n : ℚ)| by omega)
  refine round_of_multiple (n * 2 ^ d) ?_
  have hexp : Int.log 2 |(n : ℚ)| - 52 = -(d : ℤ) := by omega
  rw [ulp, hexp, zpow_neg, zpow_natCast]
  push_cast
  rw [mul_assoc, mul_inv_cancel₀ (by positivity), mul_one]

/-- Whole numbers are subtracted exactly. -/
theorem sub_intCast {m n : ℤ} (h : |m - n| < 2 ^ 53) : sub m n = m - n := by
  rw [sub, ← Int.cast_sub, round_intCast h]

example : sub (round (51 / 10)) (round (1 / 10)) = 5 := by decide +kernel

end Double
