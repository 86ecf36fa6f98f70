/-
# Growth under a cap

A value that grows with every wait, though never past a cap, and starts again with
every reset. It is enough to cap it at the end: after `n` waits since the last reset
it is what `n` waits make of it without a cap, or the cap if that is less
(`value_eq`). If it doubles, this is the capped exponential (`doubled_eq`).

Key definitions: `Change`, `value`, `waitsSinceReset`.
Key theorems: `iterate_min`, `value_eq`, `doubled_eq`.
-/
import Mathlib.Logic.Function.Iterate
import Mathlib.Tactic.Linarith

namespace CappedGrowth

inductive Change where
  | wait
  | reset
deriving DecidableEq

section

variable {α : Type} [LinearOrder α] {grow : α → α} {initial cap : α}

/-- The value after a log of changes, newest first. -/
def value (grow : α → α) (initial cap : α) : List Change → α
  | [] => initial
  | .reset :: _ => initial
  | .wait :: log => min (grow (value grow initial cap log)) cap

/-- The waits at the head of a log. -/
def waitsSinceReset : List Change → ℕ
  | .wait :: log => waitsSinceReset log + 1
  | _ => 0

/-- To cap at every step is to cap at the end. -/
theorem iterate_min (hmono : Monotone grow) (hcap : cap ≤ grow cap) (hinitial : initial ≤ cap) (n : ℕ) :
    (fun x => min (grow x) cap)^[n] initial = min (grow^[n] initial) cap := by
  induction n with
  | zero => exact (min_eq_left hinitial).symm
  | succ n ih =>
    calc (fun x => min (grow x) cap)^[n + 1] initial
        = min (grow (min (grow^[n] initial) cap)) cap := by rw [Function.iterate_succ_apply', ih]
      _ = min (min (grow (grow^[n] initial)) (grow cap)) cap := by rw [hmono.map_min]
      _ = min (grow^[n + 1] initial) cap := by
        rw [min_assoc, min_eq_right hcap, Function.iterate_succ_apply']

theorem value_eq_iterate (log : List Change) :
    value grow initial cap log = (fun x => min (grow x) cap)^[waitsSinceReset log] initial := by
  induction log with
  | nil => rfl
  | cons change log ih =>
    cases change with
    | reset => rfl
    | wait =>
      have hnext := Function.iterate_succ_apply' (fun x => min (grow x) cap) (waitsSinceReset log) initial
      rw [value, ih]
      exact hnext.symm

/-- The value depends on the waits since the last reset alone. -/
theorem value_eq (hmono : Monotone grow) (hcap : cap ≤ grow cap) (hinitial : initial ≤ cap) (log : List Change) :
    value grow initial cap log = min (grow^[waitsSinceReset log] initial) cap := by
  rw [value_eq_iterate, iterate_min hmono hcap hinitial]

end

/-- Doubled with every wait. -/
theorem doubled_eq {K : Type} [Field K] [LinearOrder K] [IsStrictOrderedRing K] {initial cap : K}
    (hpos : 0 ≤ cap) (hinitial : initial ≤ cap) (log : List Change) :
    value (· * 2) initial cap log = min (initial * 2 ^ waitsSinceReset log) cap := by
  have hmono : Monotone fun x : K => x * 2 := fun x y hxy => by
    have htwo : (0 : K) ≤ 2 := zero_le_two
    exact mul_le_mul_of_nonneg_right hxy htwo
  have hcap : cap ≤ cap * 2 := by linarith
  rw [value_eq hmono hcap hinitial, mul_right_iterate]

end CappedGrowth
