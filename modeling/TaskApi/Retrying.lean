/-
# Retrying an HTTP operation

`retrying.py`. The calls are those of one request to the external service:
the HTTP client, the jitter and sleep of the retry loop, the exit of the
timeout scope, and the circuit breaker's three methods (`CircuitBreaker`).
Delays are rational numbers.

`asyncio.timeout` ends the body by cancelling the task, at whatever it waits
for. What the scope knows when an exception leaves its body is a call of its own
(`UpstreamCall.exitTimeout`): whether the deadline had passed, and whether
nobody else asked for a cancellation. Only the scope's own cancellation becomes
a `TimeoutError` (`TimeoutScope.exit`).

Key definitions: `UpstreamExn`, `UpstreamCall`, `TimeoutScope.exit`,
`retryHttpOperation`.
Key theorems: `follows_retryHttpOperation`.
-/
import TaskApi.Lib.Prog
import Mathlib

namespace TaskApi

open Conc

/-! ### Exceptions -/

/-- The exceptions that can leave a call to the external service. -/
inductive UpstreamExn where
  /-- `httpx.HTTPStatusError` -/
  | httpStatusError (statusCode : ℤ)
  /-- `httpx.TimeoutException` -/
  | httpTimeoutException
  /-- `httpx.ConnectError` -/
  | httpConnectError
  /-- Any other `httpx.HTTPError`. -/
  | httpError (message : String)
  /-- The builtin `TimeoutError`. -/
  | timeoutError
  | retryBudgetExceededError (message : String)
  | cancelledError
  | circuitBreakerOpenError (message : String)
  | runtimeError (message : String)
  | valueError (message : String)
  /-- Any other exception, such as `httpx.InvalidURL`. -/
  | other (name : String)
deriving DecidableEq

namespace UpstreamExn

/-- `isinstance(error, httpx.HTTPError)` -/
def isHttpError : UpstreamExn → Bool
  | httpStatusError _ | httpTimeoutException | httpConnectError | httpError _ => true
  | _ => false

/-- `isinstance(error, TimeoutError)` -/
def isTimeoutError : UpstreamExn → Bool
  | timeoutError | retryBudgetExceededError _ => true
  | _ => false

/-- `isinstance(error, RetryBudgetExceededError)` -/
def isRetryBudgetExceededError : UpstreamExn → Bool
  | retryBudgetExceededError _ => true
  | _ => false

end UpstreamExn

/-- `RETRYABLE_STATUS_CODES` -/
def retryableStatusCodes : List ℤ := [502, 503, 504]

/-- `_is_retryable_http_error` -/
def isRetryableHttpError : UpstreamExn → Bool
  | .httpTimeoutException | .httpConnectError => true
  | .httpStatusError statusCode => retryableStatusCodes.contains statusCode
  | _ => false

/-! ### Calls -/

/-- A timeout scope as an exception leaves its body: `expired` if the deadline
had passed, `uncancelled` if nobody else has asked for a cancellation. -/
structure TimeoutScope where
  expired : Bool
  uncancelled : Bool
deriving DecidableEq

/-- `asyncio.timeout(…).__aexit__`: what leaves the scope when `error` leaves its body. -/
def TimeoutScope.exit (scope : TimeoutScope) (error : UpstreamExn) : UpstreamExn :=
  if scope.expired ∧ scope.uncancelled ∧ error = .cancelledError then .timeoutError else error

/-- What a request to the external service asks of the libraries and the circuit
breaker. -/
inductive UpstreamCall where
  | httpGet (url : String)
  | raiseForStatus (statusCode : ℤ)
  | uniform (lo hi : ℚ)
  | sleep (delay : ℚ)
  | exitTimeout (delay : Option ℚ) (error : UpstreamExn)
  | beforeCall
  | recordSuccess
  | recordFailure
deriving DecidableEq

/-- What each call returns; a response is its status code. -/
abbrev UpstreamCall.Val : UpstreamCall → Type
  | .httpGet _ => ℤ
  | .raiseForStatus _ => Unit
  | .uniform .. => ℚ
  | .sleep _ => Unit
  | .exitTimeout .. => TimeoutScope
  | .beforeCall => Unit
  | .recordSuccess => Unit
  | .recordFailure => Unit

abbrev upstreamCalls : Interface := ⟨UpstreamCall, UpstreamCall.Val, UpstreamExn⟩

/-- A function of the external service's client. -/
abbrev Upstream (α : Type) := Prog upstreamCalls α

/-- Make the call `c`. -/
abbrev invoke (c : UpstreamCall) : Upstream c.Val := @Prog.perform upstreamCalls c

/-! ### The retry loop -/

/-- `_full_jitter` -/
def fullJitter (maximumDelay : ℚ) : Upstream ℚ := invoke (.uniform 0 maximumDelay)

/-- `asyncio.sleep` -/
def asyncSleep (delay : ℚ) : Upstream Unit := invoke (.sleep delay)

section

variable {α : Type} (operation : Upstream α) (maxAttempts : ℤ) (baseDelay maxDelay : ℚ)
  (totalTimeout : Option ℚ) (jitterFunction : ℚ → Upstream ℚ) (sleepFunction : ℚ → Upstream Unit)

/-- One attempt, and the wait after it: `none` if the loop goes on. -/
def retryAttempt (attemptIndex : ℕ) : Upstream (Option α) :=
  Prog.tryCatch (operation >>= fun result => Prog.ret (some result)) fun error =>
    if !error.isHttpError then Prog.raise error
    else if !isRetryableHttpError error then Prog.raise error
    else if (attemptIndex : ℤ) = maxAttempts - 1 then Prog.raise error
    else do
      let exponentialDelay := baseDelay * 2 ^ attemptIndex
      let cappedDelay := min exponentialDelay maxDelay
      let delay ← jitterFunction cappedDelay
      sleepFunction delay
      return none

/-- `for attempt_index in range(max_attempts)`, with `n` attempts left. -/
def retryLoop (attemptIndex : ℕ) : ℕ → Upstream (Option α)
  | 0 => return none
  | n + 1 => do
    let finished ← retryAttempt operation maxAttempts baseDelay maxDelay jitterFunction sleepFunction attemptIndex
    match finished with
    | some result => return some result
    | none => retryLoop (attemptIndex + 1) n

/-- `except TimeoutError: if timeout_context.expired(): raise RetryBudgetExceededError`: what an
error of the loop leaves `retry_http_operation` as. -/
def leaves (scope : TimeoutScope) (error : UpstreamExn) : UpstreamExn :=
  if (scope.exit error).isTimeoutError && scope.expired then
    .retryBudgetExceededError "Retry time budget exceeded"
  else scope.exit error

/-- `try: async with timeout_context: body except TimeoutError: …` -/
def withTotalTimeout {β : Type} (body : Upstream β) : Upstream β :=
  body.tryCatch fun error => do
    let scope : TimeoutScope ← invoke (.exitTimeout totalTimeout error)
    Prog.raise (leaves scope error)

/-- The arguments pass the checks of `retry_http_operation`. -/
def ArgumentsAccepted : Prop :=
  1 ≤ maxAttempts ∧ 0 ≤ baseDelay ∧ 0 ≤ maxDelay ∧ ¬ totalTimeout.any (· ≤ 0)

def retryHttpOperation : Upstream α :=
  if maxAttempts < 1 then Prog.raise (.valueError "max_attempts must be at least 1")
  else if baseDelay < 0 then Prog.raise (.valueError "base_delay cannot be negative")
  else if maxDelay < 0 then Prog.raise (.valueError "max_delay cannot be negative")
  else if totalTimeout.any (· ≤ 0) then
    Prog.raise (.valueError "total_timeout must be greater than 0")
  else do
    let finished ← withTotalTimeout totalTimeout
      (retryLoop operation maxAttempts baseDelay maxDelay jitterFunction sleepFunction 0 maxAttempts.toNat)
    match finished with
    | some result => return result
    | none => Prog.raise (.runtimeError "Retry loop ended unexpectedly")

end

/-! ### What the loop ends in

An operation that keeps a phase where it is makes a loop that does: nothing but
the exit of the scope needs to be followed. -/

section

variable {α : Type} {P : Protocol upstreamCalls} {can : (c : UpstreamCall) → upstreamCalls.Out c → Prop}
  {operation : Upstream α} {maxAttempts : ℤ} {baseDelay maxDelay : ℚ} {totalTimeout : Option ℚ}
  {jitterFunction : ℚ → Upstream ℚ} {sleepFunction : ℚ → Upstream Unit} {q : P.Phase}

theorem follows_retryAttempt
    (hop : operation.Follows P can (fun q' _ => q' = q) q)
    (hjitter : ∀ x, (jitterFunction x).Follows P can (fun q' _ => q' = q) q)
    (hsleep : ∀ x, (sleepFunction x).Follows P can (fun q' _ => q' = q) q) (attemptIndex : ℕ) :
    (retryAttempt operation maxAttempts baseDelay maxDelay jitterFunction sleepFunction attemptIndex).Follows P can
      (fun q' r => q' = q ∧ ((attemptIndex : ℤ) = maxAttempts - 1 → r ≠ .ok none)) q := by
  unfold retryAttempt
  refine Prog.follows_tryCatch.mpr (Prog.follows_bind.mpr (hop.mono fun q' r hq => ?_))
  cases r with
  | ok a => exact ⟨hq, fun _ h => by cases h⟩
  | error e =>
    subst hq
    simp only [Prog.ends_error]
    split_ifs with h1 h2 h3
    · exact ⟨rfl, fun _ h => by cases h⟩
    · exact ⟨rfl, fun _ h => by cases h⟩
    · exact ⟨rfl, fun _ h => by cases h⟩
    · refine Prog.follows_bind.mpr ((hjitter _).mono fun q' r hq => ?_)
      subst hq
      cases r with
      | error e => exact ⟨rfl, fun h => absurd h h3⟩
      | ok delay =>
        refine Prog.follows_bind.mpr ((hsleep _).mono fun q' r hq => ?_)
        subst hq
        cases r with
        | error e => exact ⟨rfl, fun h => absurd h h3⟩
        | ok _ => exact ⟨rfl, fun h => absurd h h3⟩

/-- The last attempt does not let the loop go on. -/
theorem follows_retryLoop
    (hop : operation.Follows P can (fun q' _ => q' = q) q)
    (hjitter : ∀ x, (jitterFunction x).Follows P can (fun q' _ => q' = q) q)
    (hsleep : ∀ x, (sleepFunction x).Follows P can (fun q' _ => q' = q) q) :
    ∀ (n attemptIndex : ℕ), 1 ≤ n → (attemptIndex : ℤ) + n = maxAttempts →
    (retryLoop operation maxAttempts baseDelay maxDelay jitterFunction sleepFunction attemptIndex n).Follows P can
      (fun q' r => q' = q ∧ r ≠ .ok none) q
  | 0, _, h, _ => by omega
  | n + 1, attemptIndex, _, hn => by
    unfold retryLoop
    refine Prog.follows_bind.mpr ((follows_retryAttempt hop hjitter hsleep attemptIndex).mono fun q' r hq => ?_)
    obtain ⟨hq, hlast⟩ := hq
    rw [hq]
    cases r with
    | error e => exact ⟨rfl, by simp⟩
    | ok finished =>
      cases finished with
      | some result => exact ⟨rfl, by simp⟩
      | none =>
        have hpos : 1 ≤ n := by
          by_contra h
          refine hlast ?_ rfl
          have : n = 0 := by omega
          subst this
          push_cast at hn
          omega
        exact follows_retryLoop hop hjitter hsleep n (attemptIndex + 1) hpos (by push_cast at hn ⊢; omega)

/-- The loop's error leaves through the scope; nothing else ends in an error, for
arguments that pass the checks. -/
theorem follows_retryHttpOperation {Q : P.Phase → Except UpstreamExn α → Prop}
    (hop : ArgumentsAccepted maxAttempts baseDelay maxDelay totalTimeout →
      operation.Follows P can (fun q' _ => q' = q) q)
    (hjitter : ArgumentsAccepted maxAttempts baseDelay maxDelay totalTimeout →
      ∀ x, (jitterFunction x).Follows P can (fun q' _ => q' = q) q)
    (hsleep : ArgumentsAccepted maxAttempts baseDelay maxDelay totalTimeout →
      ∀ x, (sleepFunction x).Follows P can (fun q' _ => q' = q) q)
    (hok : ArgumentsAccepted maxAttempts baseDelay maxDelay totalTimeout → ∀ a, Q q (.ok a))
    (hexit : ArgumentsAccepted maxAttempts baseDelay maxDelay totalTimeout → ∀ error,
      (invoke (.exitTimeout totalTimeout error)).Follows P can
      (Prog.ends (fun q' scope => Q q' (.error (leaves scope error))) fun q' e => Q q' (.error e)) q)
    (hargs : ¬ ArgumentsAccepted maxAttempts baseDelay maxDelay totalTimeout →
      ∀ message, Q q (.error (.valueError message))) :
    (retryHttpOperation operation maxAttempts baseDelay maxDelay totalTimeout jitterFunction
      sleepFunction).Follows P can Q q := by
  unfold retryHttpOperation
  split_ifs with h1 h2 h3 h4
  · exact hargs (fun h => absurd h.1 (by omega)) _
  · exact hargs (fun h => absurd h.2.1 (not_le.mpr h2)) _
  · exact hargs (fun h => absurd h.2.2.1 (not_le.mpr h3)) _
  · exact hargs (fun h => h.2.2.2 h4) _
  · have haccepted : ArgumentsAccepted maxAttempts baseDelay maxDelay totalTimeout :=
      ⟨by omega, not_lt.mp h2, not_lt.mp h3, h4⟩
    have hn : ((0 : ℕ) : ℤ) + maxAttempts.toNat = maxAttempts := by omega
    unfold withTotalTimeout
    refine Prog.follows_bind.mpr (Prog.follows_tryCatch.mpr ?_)
    refine Prog.Follows.mono (fun q' r hq => ?_)
      (follows_retryLoop (hop haccepted) (hjitter haccepted) (hsleep haccepted) maxAttempts.toNat 0 (by omega) hn)
    obtain ⟨hq, hfinished⟩ := hq
    rw [hq]
    cases r with
    | ok finished =>
      cases finished with
      | none => exact absurd rfl hfinished
      | some result => exact hok haccepted result
    | error error =>
      refine Prog.follows_bind.mpr ((hexit haccepted error).mono fun q' r hq => ?_)
      cases r with
      | error e => exact hq
      | ok scope =>
        exact hq

end

end TaskApi
