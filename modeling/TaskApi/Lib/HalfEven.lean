/-
# Naturals rounded to a number of binary digits

A natural number is rounded to its first `p` binary digits, half to even, as an
integer is when it becomes a floating-point number of that precision. Numbers of
at most `p` digits stay as they are, so rounding twice is rounding once
(`round_round`), and the order of numbers is kept (`round_mono`).

Key definitions: `round`.
Key theorems: `round_of_le`, `round_round`, `round_mono`.
-/
import Mathlib.Algebra.Order.Ring.Nat
import Mathlib.Data.Nat.Log
import Mathlib.Tactic.Ring

namespace HalfEven

/-- The weight of the last of the first `p` binary digits. -/
def ulp (p n : ℕ) : ℕ := 2 ^ (Nat.log2 n + 1 - p)

/-- The first `p` digits, rounded by what follows them. -/
def mantissa (p n : ℕ) : ℕ :=
  if ulp p n < 2 * (n % ulp p n) ∨ (ulp p n = 2 * (n % ulp p n) ∧ n / ulp p n % 2 = 1) then n / ulp p n + 1
  else n / ulp p n

def round (p n : ℕ) : ℕ := mantissa p n * ulp p n

variable {p n m q k : ℕ}

theorem ulp_pos (p n : ℕ) : 0 < ulp p n := Nat.two_pow_pos _

theorem div_le_mantissa (p n : ℕ) : n / ulp p n ≤ mantissa p n := by
  unfold mantissa
  split_ifs <;> omega

theorem mantissa_le (p n : ℕ) : mantissa p n ≤ n / ulp p n + 1 := by
  unfold mantissa
  split_ifs <;> omega

/-- What has no more digits is not rounded. -/
theorem round_of_dvd (h : ulp p n ∣ n) : round p n = n := by
  have hrest : n % ulp p n = 0 := Nat.mod_eq_zero_of_dvd h
  have hmantissa : mantissa p n = n / ulp p n := by
    unfold mantissa
    rw [if_neg]
    have hpos := ulp_pos p n
    omega
  rw [round, hmantissa, Nat.div_mul_cancel h]

theorem round_of_lt (h : n < 2 ^ p) : round p n = n := by
  rcases Nat.eq_zero_or_pos n with rfl | hn
  · exact round_of_dvd (dvd_zero _)
  · have hlog := (Nat.log2_lt hn.ne').mpr h
    have hzero : Nat.log2 n + 1 - p = 0 := by omega
    refine round_of_dvd ?_
    rw [ulp, hzero]
    exact one_dvd n

theorem log2_mul_pow (hq : q ≠ 0) : Nat.log2 (q * 2 ^ k) = Nat.log2 q + k := by
  induction k with
  | zero => simp
  | succ k ih =>
    have hne : q * 2 ^ k ≠ 0 := Nat.mul_ne_zero hq (Nat.two_pow_pos k).ne'
    rw [pow_succ, ← mul_assoc, Nat.log2_eq_log_two, Nat.log_mul_base (by norm_num) hne, ← Nat.log2_eq_log_two, ih,
      add_assoc]

/-- A number of `p` digits and zeros after them. -/
theorem round_mul_pow (hq : q < 2 ^ p) : round p (q * 2 ^ k) = q * 2 ^ k := by
  refine round_of_dvd ?_
  rcases Nat.eq_zero_or_pos q with rfl | hpos
  · simp
  · have hlog := (Nat.log2_lt hpos.ne').mpr hq
    have hle : Nat.log2 (q * 2 ^ k) + 1 - p ≤ k := by
      rw [log2_mul_pow hpos.ne']
      omega
    exact (pow_dvd_pow 2 hle).mul_left q

theorem round_two_pow (hp : 0 < p) (k : ℕ) : round p (2 ^ k) = 2 ^ k := by
  have hone : 1 < 2 ^ p := Nat.one_lt_two_pow hp.ne'
  simpa using round_mul_pow (k := k) hone

theorem round_of_le (hp : 0 < p) (h : n ≤ 2 ^ p) : round p n = n := by
  rcases h.lt_or_eq with hlt | rfl
  · exact round_of_lt hlt
  · exact round_two_pow hp p

/-- The first digits are at most `p`. -/
theorem div_ulp_lt (p n : ℕ) : n / ulp p n < 2 ^ p := by
  rw [Nat.div_lt_iff_lt_mul (ulp_pos p n), ulp, ← pow_add]
  calc n < 2 ^ (Nat.log2 n + 1) := Nat.lt_log2_self
    _ ≤ 2 ^ (p + (Nat.log2 n + 1 - p)) := Nat.pow_le_pow_right (by norm_num) (by omega)

theorem round_round (hp : 0 < p) (n : ℕ) : round p (round p n) = round p n := by
  have hle : mantissa p n ≤ 2 ^ p := (mantissa_le p n).trans (div_ulp_lt p n)
  rcases hle.lt_or_eq with hlt | heq
  · exact round_mul_pow hlt
  · have hpow : round p n = 2 ^ (p + (Nat.log2 n + 1 - p)) := by rw [round, heq, ulp, pow_add]
    rw [hpow]
    exact round_two_pow hp _

/-- Numbers of one weight keep their order. -/
theorem mantissa_mono (h : m ≤ n) (hulp : ulp p m = ulp p n) : mantissa p m ≤ mantissa p n := by
  have hdiv : m / ulp p n ≤ n / ulp p n := Nat.div_le_div_right h
  rcases hdiv.lt_or_eq with hlt | heq
  · calc mantissa p m ≤ m / ulp p m + 1 := mantissa_le p m
      _ ≤ n / ulp p n := by rw [hulp]; exact hlt
      _ ≤ mantissa p n := div_le_mantissa p n
  · have hrest : m % ulp p n ≤ n % ulp p n := by
      have hm := Nat.div_add_mod m (ulp p n)
      have hn := Nat.div_add_mod n (ulp p n)
      rw [heq] at hm
      omega
    unfold mantissa
    rw [hulp, heq]
    split_ifs <;> omega

theorem round_mono (hp : 0 < p) : Monotone (round p) := by
  intro m n h
  rcases Nat.eq_zero_or_pos m with rfl | hm
  · rw [round_of_lt (Nat.two_pow_pos p)]
    exact Nat.zero_le _
  have hn : n ≠ 0 := by omega
  have hlog : Nat.log2 m ≤ Nat.log2 n := by
    rw [Nat.log2_eq_log_two, Nat.log2_eq_log_two]
    exact Nat.log_mono_right h
  rcases hlog.lt_or_eq with hlt | heq
  · -- a power of two lies between them
    have hbelow : round p m ≤ 2 ^ (Nat.log2 m + 1) := by
      by_cases hdigits : Nat.log2 m + 1 ≤ p
      · rw [round_of_lt (Nat.lt_log2_self.trans_le (Nat.pow_le_pow_right (by norm_num) hdigits))]
        exact Nat.lt_log2_self.le
      · calc round p m ≤ 2 ^ p * ulp p m :=
              Nat.mul_le_mul_right _ ((mantissa_le p m).trans (div_ulp_lt p m))
          _ = 2 ^ (Nat.log2 m + 1) := by
            rw [ulp, ← pow_add]
            congr 1
            omega
    have habove : 2 ^ Nat.log2 n ≤ round p n := by
      by_cases hdigits : Nat.log2 n + 1 ≤ p
      · rw [round_of_lt (Nat.lt_log2_self.trans_le (Nat.pow_le_pow_right (by norm_num) hdigits))]
        exact Nat.log2_self_le hn
      · have hsplit : 2 ^ Nat.log2 n = 2 ^ (p - 1) * ulp p n := by
          rw [ulp, ← pow_add]
          congr 1
          omega
        rw [hsplit]
        refine Nat.mul_le_mul_right _ (le_trans ?_ (div_le_mantissa p n))
        rw [Nat.le_div_iff_mul_le (ulp_pos p n), ← hsplit]
        exact Nat.log2_self_le hn
    calc round p m ≤ 2 ^ (Nat.log2 m + 1) := hbelow
      _ ≤ 2 ^ Nat.log2 n := Nat.pow_le_pow_right (by norm_num) hlt
      _ ≤ round p n := habove
  · have hulp : ulp p m = ulp p n := by rw [ulp, ulp, heq]
    rw [round, round, hulp]
    exact Nat.mul_le_mul_right _ (mantissa_mono h hulp)

end HalfEven
