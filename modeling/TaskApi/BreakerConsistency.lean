/-
# The three fields of a breaker agree

A breaker keeps its state, its failure count and its opening time in fields of their
own, and no method sets all of them as it goes: a failed probe leaves the count, a
probe that is admitted leaves the opening time. Yet in any order of the three methods,
matched or not, a breaker is closed exactly while its count is below the threshold, and
exactly while it has no opening time (`breaker_consistent`). So it is never open without
one, not under concurrent callers either (`beforeCall_event_ne`).

Key definitions: `CircuitBreaker.Method`, `CircuitBreaker.after`, `CircuitBreaker.Consistent`.
Key theorems: `CircuitBreaker.Consistent.call`, `breaker_consistent`, `run_consistent`.
-/
import TaskApi.BreakerRuns

namespace TaskApi

open Conc

/-- What `before_call` raises on an open breaker without an opening time. -/
def noOpeningTime : UpstreamExn := .runtimeError "Open circuit breaker has no opening time"

namespace CircuitBreaker

inductive Method where
  | beforeCall
  | recordSuccess
  | recordFailure
deriving DecidableEq

/-- The breaker after a method that finds the clock at `now`, however it ends. -/
def call (b : CircuitBreaker) (now : ℚ) : Method → CircuitBreaker
  | .beforeCall => (b.beforeCall now).2
  | .recordSuccess => b.recordSuccess
  | .recordFailure => b.recordFailure now

/-- The breaker after a history of calls, newest first, each with its reading of the clock. -/
def after (b : CircuitBreaker) : List (Method × ℚ) → CircuitBreaker
  | [] => b
  | (method, now) :: history => (b.after history).call now method

/-- Closed is what the count and the opening time say. -/
structure Consistent (b : CircuitBreaker) : Prop where
  count : b.state = .closed ↔ b.failureCount < b.failureThreshold
  opening : b.state = .closed ↔ b.openedAt = none

namespace Consistent

variable {b : CircuitBreaker} {n : ℤ} {T : ℚ}

theorem init (h : CircuitBreaker.init n T = .ok b) : b.Consistent := by
  obtain ⟨hpos, hthreshold, -, hcount, hopened, hclosed⟩ := init_ok h
  have hlt : b.failureCount < b.failureThreshold := by omega
  exact ⟨iff_of_true hclosed hlt, iff_of_true hclosed hopened⟩

/-- A breaker that is not closed has counted enough, and has an opening time. -/
theorem of_not_closed (h : b.Consistent) (hstate : b.state ≠ .closed) :
    b.failureThreshold ≤ b.failureCount ∧ ∃ t, b.openedAt = some t :=
  ⟨not_lt.mp (h.count.not.mp hstate), Option.ne_none_iff_exists'.mp (h.opening.not.mp hstate)⟩

theorem beforeCall (h : b.Consistent) (now : ℚ) : (b.beforeCall now).2.Consistent := by
  rcases b.beforeCall_cases now with ⟨-, heq⟩ | ⟨t, hopened, hat, -, heq⟩ | ⟨error, heq, -⟩
  · rw [heq]
    exact h
  · -- the probe: the count and the opening time are those of the open breaker
    have hnot : b.state ≠ .closed := by simp [hopened]
    have hcount := (h.of_not_closed hnot).1
    rw [heq]
    exact ⟨iff_of_false (by simp) (not_lt.mpr hcount), iff_of_false (by simp) (by simp [hat])⟩
  · rw [heq]
    exact h

theorem recordSuccess : b.recordSuccess.Consistent := by
  have hpos := b.one_le_threshold
  have hlt : b.recordSuccess.failureCount < b.recordSuccess.failureThreshold := by
    show 0 < b.failureThreshold
    omega
  exact ⟨iff_of_true rfl hlt, iff_of_true rfl rfl⟩

theorem recordFailure (h : b.Consistent) (now : ℚ) : (b.recordFailure now).Consistent := by
  by_cases hopens : b.Opens
  · obtain ⟨hopened, hat⟩ := recordFailure_of_opens now hopens
    have hcount : b.failureThreshold ≤ (b.recordFailure now).failureCount := by
      rw [recordFailure_failureCount]
      split_ifs with hhalf
      · exact (h.of_not_closed (by simp [hhalf])).1
      · exact hopens.resolve_left hhalf
    refine ⟨iff_of_false (by simp [hopened]) ?_, iff_of_false (by simp [hopened]) (by simp [hat])⟩
    rw [recordFailure_failureThreshold]
    omega
  · have hcount : b.failureCount + 1 < b.failureThreshold := not_le.mp fun hle => hopens (.inr hle)
    have hclosed : b.state = .closed := h.count.mpr (by omega)
    rw [recordFailure_of_not_opens now hopens]
    exact ⟨iff_of_true hclosed hcount, h.opening⟩

theorem call (h : b.Consistent) (now : ℚ) (method : Method) : (b.call now method).Consistent := by
  cases method with
  | beforeCall => exact h.beforeCall now
  | recordSuccess => exact recordSuccess
  | recordFailure => exact h.recordFailure now

theorem after (h : b.Consistent) (history : List (Method × ℚ)) : (b.after history).Consistent := by
  induction history with
  | nil => exact h
  | cons c history ih => exact ih.call c.2 c.1

/-- An open breaker has an opening time. -/
theorem beforeCall_ne (h : b.Consistent) (now : ℚ) : (b.beforeCall now).1 ≠ .error noOpeningTime := by
  intro hraised
  unfold CircuitBreaker.beforeCall noOpeningTime at hraised
  cases hstate : b.state with
  | closed => simp [hstate] at hraised
  | halfOpen => simp [hstate] at hraised
  | opened =>
    obtain ⟨-, t, hat⟩ := h.of_not_closed (by simp [hstate])
    simp only [hstate, hat] at hraised
    split_ifs at hraised
    simp at hraised

end Consistent

/-- The threshold stays. -/
theorem after_failureThreshold (b : CircuitBreaker) (history : List (Method × ℚ)) :
    (b.after history).failureThreshold = b.failureThreshold := by
  induction history with
  | nil => rfl
  | cons c history ih =>
    obtain ⟨method, now⟩ := c
    rw [after, ← ih]
    cases method with
    | beforeCall =>
      show ((b.after history).beforeCall now).2.failureThreshold = _
      rcases (b.after history).beforeCall_cases now with ⟨-, heq⟩ | ⟨t, -, -, -, heq⟩ | ⟨error, heq, -⟩ <;> rw [heq]
    | recordSuccess => rfl
    | recordFailure => exact recordFailure_failureThreshold _ now

end CircuitBreaker

/-- **The breaker's fields agree.** After any calls of its methods, in any order and with
any readings of the clock, a breaker is closed exactly while it has counted fewer failures
than `failure_threshold`, and exactly while it has no opening time; `before_call` never
finds an open breaker without one. -/
theorem breaker_consistent {failureThreshold : ℤ} {recoveryTimeout : ℚ} {b : CircuitBreaker}
    (hinit : CircuitBreaker.init failureThreshold recoveryTimeout = .ok b)
    (history : List (CircuitBreaker.Method × ℚ)) :
    ((b.after history).state = .closed ↔ (b.after history).failureCount < failureThreshold) ∧
      ((b.after history).state = .closed ↔ (b.after history).openedAt = none) ∧
      ∀ now, ((b.after history).beforeCall now).1 ≠ .error noOpeningTime := by
  have hconsistent := (CircuitBreaker.Consistent.init hinit).after history
  have hthreshold : (b.after history).failureThreshold = failureThreshold :=
    (b.after_failureThreshold history).trans (CircuitBreaker.init_ok hinit).2.1
  refine ⟨?_, hconsistent.opening, hconsistent.beforeCall_ne⟩
  rw [hconsistent.count, hthreshold]

/-- After a failure the probe fails too: open again at 11. -/
theorem breaker_consistent_reopened :
    let b := exampleBreaker.breaker.after [(.recordFailure, 11), (.beforeCall, 10), (.recordFailure, 0)]
    (b.state = .closed ↔ b.failureCount < 1) ∧ (b.state = .closed ↔ b.openedAt = none) ∧
      ∀ now, (b.beforeCall now).1 ≠ .error noOpeningTime := by
  have hinit : CircuitBreaker.init 1 10 = .ok exampleBreaker.breaker := by decide +kernel
  exact breaker_consistent hinit [(.recordFailure, 11), (.beforeCall, 10), (.recordFailure, 0)]

/-! ### Concurrent callers -/

section

variable {clock : ℚ → ℚ → Prop} {gate : Config (externalSystem clock) → Prop} {s₀ : BreakerState}
  {c : Config (externalSystem clock)} {n : ℤ} {T : ℚ}

/-- The method of the breaker that a call is. -/
def UpstreamCall.method : UpstreamCall → Option CircuitBreaker.Method
  | .beforeCall => some .beforeCall
  | .recordSuccess => some .recordSuccess
  | .recordFailure => some .recordFailure
  | _ => none

/-- The calls of the breaker's methods in a run, with the clock they found. -/
def methodHistory : List (BreakerEvent clock) → List (CircuitBreaker.Method × ℚ)
  | [] => []
  | e :: tr =>
    match e.act.called.bind UpstreamCall.method with
    | some method => (method, e.before.now) :: methodHistory tr
    | none => methodHistory tr

/-- In every interleaving of calls the breaker is what its methods made of it. -/
theorem run_after (h : Run gate (.init s₀) c) : c.state.breaker = s₀.breaker.after (methodHistory c.trace) := by
  refine @Run.invariant _ _ gate s₀ (fetchDiscipline clock)
    (fun s tr => s.breaker = s₀.breaker.after (methodHistory tr)) rfl ?_ ?_ ?_ c h
  · exact fun b _ ih t r _ => ih
  · intro b _ ih t r x v s' _ _ _ hs
    cases x with
    | beforeCall =>
      obtain ⟨-, rfl⟩ := upstreamStep_beforeCall hs
      exact congrArg (·.call b.state.now .beforeCall) ih
    | recordSuccess =>
      obtain ⟨-, rfl⟩ := upstreamStep_recordSuccess hs
      exact congrArg (·.call b.state.now .recordSuccess) ih
    | recordFailure =>
      obtain ⟨-, rfl⟩ := upstreamStep_recordFailure hs
      exact congrArg (·.call b.state.now .recordFailure) ih
    | _ =>
      obtain rfl := upstreamStep_state rfl hs
      exact ih
  · rintro b _ ih s' ⟨-, hbreaker⟩
    exact hbreaker.trans ih

theorem run_consistent (h₀ : CircuitBreaker.init n T = .ok s₀.breaker) (h : Run gate (.init s₀) c) :
    c.state.breaker.Consistent := by
  rw [run_after h]
  exact (CircuitBreaker.Consistent.init h₀).after _

/-- No call in an interleaving finds an open breaker without an opening time. -/
theorem beforeCall_event_ne (h₀ : CircuitBreaker.init n T = .ok s₀.breaker) (h : Run gate (.init s₀) c)
    {u tr : List (BreakerEvent clock)} {s s' : BreakerState} {t : ℕ} {v : Except UpstreamExn Unit}
    (he : c.trace = u ++ ⟨s, s', .call t .beforeCall v⟩ :: tr) : v ≠ .error noOpeningTime := by
  obtain ⟨b, r, hb, rfl, -, -, -, -, -, hs⟩ := Run.made (fetchDiscipline clock) h he
  have hv := (upstreamStep_beforeCall hs).1
  rw [hv]
  exact (run_consistent h₀ hb).beforeCall_ne b.state.now

end

end TaskApi
