/-
# Calls of the external service

`external_service.py` over one shared circuit breaker, as an interleaved system.
The shared state is the breaker and the clock. What the HTTP client, the
generator, `sleep` and the timeout scopes do is arbitrary (`Answers`); only the
breaker's methods touch the breaker.

A call follows a protocol whatever the other calls do: it asks the breaker first,
goes on only if it was admitted, and makes at most one record, after its retry
loop is over (`fetchDiscipline`).

Key definitions: `fetchExternalStatus`, `BreakerState.serve`, `externalSystem`,
`FetchPhase`, `fetchDiscipline`.
Key theorems: `upstreamStep_state`, `fetchExternalStatus_follows`.
-/
import TaskApi.Lib.Interleave
import TaskApi.CircuitBreaker

namespace TaskApi

open Conc

/-- The arguments of `fetch_external_status`; `circuitBreaker` if it is given the
breaker. -/
structure FetchRequest where
  url : String
  maxAttempts : ℤ := 3
  baseDelay : ℚ := 1 / 2
  maxDelay : ℚ := 5
  totalTimeout : ℚ := 15
  circuitBreaker : Bool := false
deriving DecidableEq

/-- The arguments pass the checks of `retry_http_operation`. -/
abbrev FetchRequest.Accepted (r : FetchRequest) : Prop :=
  ArgumentsAccepted r.maxAttempts r.baseDelay r.maxDelay (some r.totalTimeout)

/-- `request_status` -/
def requestStatus (url : String) : Upstream ℤ := do
  let response : ℤ ← invoke (.httpGet url)
  invoke (.raiseForStatus response)
  return response

/-- `execute_request_with_retry` -/
def executeRequestWithRetry (r : FetchRequest) : Upstream ℤ :=
  retryHttpOperation (requestStatus r.url) r.maxAttempts r.baseDelay r.maxDelay (some r.totalTimeout)
    fullJitter asyncSleep

/-- The exceptions of the `except` clause: `(httpx.HTTPError, RetryBudgetExceededError)`. -/
def UpstreamExn.isRecorded (error : UpstreamExn) : Bool :=
  error.isHttpError || error.isRetryBudgetExceededError

def fetchExternalStatus (r : FetchRequest) : Upstream ℤ :=
  if !r.circuitBreaker then executeRequestWithRetry r
  else do
    invoke .beforeCall
    let statusCode ← (executeRequestWithRetry r).tryCatch fun error =>
      if error.isRecorded then do
        invoke .recordFailure
        Prog.raise error
      else Prog.raise error
    invoke .recordSuccess
    return statusCode

/-! ### The system -/

/-- The clock and the breaker. -/
structure BreakerState where
  now : ℚ
  breaker : CircuitBreaker

/-- How the libraries answer. A scope without a deadline does not expire. -/
structure Answers where
  httpGet : String → Except UpstreamExn ℤ
  raiseForStatus : ℤ → Except UpstreamExn Unit
  uniform : ℚ → ℚ → ℚ
  sleepCancelled : Bool
  exitTimeout : Option ℚ → UpstreamExn → TimeoutScope
  uniform_mem : ∀ lo hi, lo ≤ hi → lo ≤ uniform lo hi ∧ uniform lo hi ≤ hi
  not_expired : ∀ error, (exitTimeout none error).expired = false

/-- The effect of a call. -/
def BreakerState.serve (answers : Answers) :
    (c : UpstreamCall) → BreakerState → upstreamCalls.Out c × BreakerState
  | .httpGet url, s => (answers.httpGet url, s)
  | .raiseForStatus statusCode, s => (answers.raiseForStatus statusCode, s)
  | .uniform lo hi, s => (.ok (answers.uniform lo hi), s)
  | .sleep _, s => (if answers.sleepCancelled then .error .cancelledError else .ok (), s)
  | .exitTimeout delay error, s => (.ok (answers.exitTimeout delay error), s)
  | .beforeCall, s => ((s.breaker.beforeCall s.now).1, { s with breaker := (s.breaker.beforeCall s.now).2 })
  | .recordSuccess, s => (.ok (), { s with breaker := s.breaker.recordSuccess })
  | .recordFailure, s => (.ok (), { s with breaker := s.breaker.recordFailure s.now })

/-- One atomic step. -/
def upstreamStep (c : UpstreamCall) (s : BreakerState) (v : upstreamCalls.Out c) (s' : BreakerState) : Prop :=
  ∃ answers, s.serve answers c = (v, s')

/-- Calls of `fetch_external_status` with one breaker; the environment moves the
clock. -/
abbrev externalSystem (clock : ℚ → ℚ → Prop) : System upstreamCalls where
  State := BreakerState
  step := upstreamStep
  env s s' := clock s.now s'.now ∧ s'.breaker = s.breaker
  Req := FetchRequest
  Res := ℤ
  body := fetchExternalStatus

/-! ### What a step can do -/

/-- The breaker's methods. -/
def UpstreamCall.isBreaker : UpstreamCall → Bool
  | .beforeCall | .recordSuccess | .recordFailure => true
  | _ => false

variable {s s' : BreakerState}

theorem upstreamStep_serve (answers : Answers) (c : UpstreamCall) (s : BreakerState) :
    upstreamStep c s (s.serve answers c).1 (s.serve answers c).2 := ⟨answers, rfl⟩

/-- Only the breaker's methods touch the breaker. -/
theorem upstreamStep_state {c : UpstreamCall} {v : upstreamCalls.Out c} (hc : c.isBreaker = false)
    (h : upstreamStep c s v s') : s' = s := by
  obtain ⟨answers, h⟩ := h
  cases c with
  | beforeCall | recordSuccess | recordFailure => cases hc
  | _ => exact (Prod.ext_iff.mp h).2.symm

theorem upstreamStep_now {c : UpstreamCall} {v : upstreamCalls.Out c} (h : upstreamStep c s v s') :
    s'.now = s.now := by
  obtain ⟨answers, h⟩ := h
  have hs' : (s.serve answers c).2 = s' := (Prod.ext_iff.mp h).2
  rw [← hs']
  cases c <;> rfl

theorem upstreamStep_beforeCall {v : Except UpstreamExn Unit} (h : upstreamStep .beforeCall s v s') :
    v = (s.breaker.beforeCall s.now).1 ∧ s' = { s with breaker := (s.breaker.beforeCall s.now).2 } := by
  obtain ⟨answers, h⟩ := h
  cases h
  exact ⟨rfl, rfl⟩

theorem upstreamStep_recordSuccess {v : Except UpstreamExn Unit} (h : upstreamStep .recordSuccess s v s') :
    v = .ok () ∧ s' = { s with breaker := s.breaker.recordSuccess } := by
  obtain ⟨answers, h⟩ := h
  cases h
  exact ⟨rfl, rfl⟩

theorem upstreamStep_recordFailure {v : Except UpstreamExn Unit} (h : upstreamStep .recordFailure s v s') :
    v = .ok () ∧ s' = { s with breaker := s.breaker.recordFailure s.now } := by
  obtain ⟨answers, h⟩ := h
  cases h
  exact ⟨rfl, rfl⟩

theorem upstreamStep_exitTimeout {delay : Option ℚ} {error : UpstreamExn} {v : Except UpstreamExn TimeoutScope}
    (h : upstreamStep (.exitTimeout delay error) s v s') : ∃ scope, v = .ok scope := by
  obtain ⟨answers, h⟩ := h
  cases h
  exact ⟨_, rfl⟩

/-! ### The protocol -/

/-- What a call of `fetch_external_status` has done. -/
structure FetchPhase where
  /-- It has called `before_call`. -/
  asked : Bool := false
  /-- `before_call` returned. -/
  admitted : Bool := false
  successes : ℕ := 0
  failures : ℕ := 0
  /-- The exception that left its retry loop first. -/
  failed : Option UpstreamExn := none

namespace FetchPhase

/-- The phase after a call. -/
def next (q : FetchPhase) (c : UpstreamCall) (v : upstreamCalls.Out c) : FetchPhase :=
  match c, v with
  | .beforeCall, .ok _ => { q with asked := true, admitted := true }
  | .beforeCall, .error _ => { q with asked := true }
  | .recordSuccess, _ => { q with successes := q.successes + 1 }
  | .recordFailure, _ => { q with failures := q.failures + 1 }
  | .exitTimeout _ error, .ok scope => { q with failed := some (q.failed.getD (leaves scope error)) }
  | _, _ => q

/-- The call was admitted, if it is given the breaker, and has recorded nothing. -/
def Unrecorded (r : FetchRequest) (q : FetchPhase) : Prop :=
  q.asked = r.circuitBreaker ∧ q.admitted = r.circuitBreaker ∧ q.successes = 0 ∧ q.failures = 0 ∧ q.failed = none

/-- The retry loop is running. -/
def Requesting (r : FetchRequest) (q : FetchPhase) : Prop := r.Accepted ∧ q.Unrecorded r

/-- The calls allowed to the request. -/
def allows (r : FetchRequest) (q : FetchPhase) (c : UpstreamCall) : Prop :=
  match c with
  | .beforeCall => r.circuitBreaker ∧ q = {}
  | .recordSuccess => r.circuitBreaker ∧ q.Requesting r
  | .recordFailure => r.circuitBreaker ∧ ∃ q₀ : FetchPhase, ∃ error : UpstreamExn,
      q₀.Requesting r ∧ error.isRecorded ∧ q = { q₀ with failed := some error }
  | _ => q.Requesting r

/-- How the request ends: refused, or with a status code and one success
recorded, or with the exception of its retry loop and one failure recorded if it
is one of the recorded ones, or with a `ValueError` of the loop's checks. -/
def Ends (r : FetchRequest) (q : FetchPhase) (x : Except UpstreamExn ℤ) : Prop :=
  r.circuitBreaker → q.asked ∧
    ((q.admitted = false ∧ q.successes = 0 ∧ q.failures = 0) ∨
    (q.admitted ∧ r.Accepted ∧ (∃ status, x = .ok status) ∧ q.successes = 1 ∧ q.failures = 0 ∧ q.failed = none) ∨
    (q.admitted ∧ r.Accepted ∧ ∃ error, x = .error error ∧ q.successes = 0 ∧ q.failed = some error ∧
      q.failures = if error.isRecorded then 1 else 0) ∨
    (q.admitted ∧ ¬ r.Accepted ∧ q.successes = 0 ∧ q.failures = 0 ∧ q.failed = none ∧
      ∃ message, x = .error (.valueError message)))

theorem admitted_next (q : FetchPhase) (c : UpstreamCall) (v : upstreamCalls.Out c) (h : q.admitted = true) :
    (q.next c v).admitted = true := by
  cases c <;> cases v <;> first | exact h | rfl

end FetchPhase

/-- The automaton of a call. -/
abbrev fetchAutomaton : Automaton upstreamCalls := ⟨FetchPhase, {}, FetchPhase.next⟩

/-- The protocol of a request. -/
abbrev fetchProtocol (r : FetchRequest) : Protocol upstreamCalls := ⟨fetchAutomaton, FetchPhase.allows r⟩

section

variable {r : FetchRequest} {can : (c : UpstreamCall) → upstreamCalls.Out c → Prop} {q : FetchPhase}

theorem requestStatus_follows (hq : q.Requesting r) (url : String) :
    (requestStatus url).Follows (fetchProtocol r) can (fun q' _ => q' = q) q := by
  unfold requestStatus
  refine Prog.follows_bind.mpr (Prog.follows_perform.mpr ⟨hq, fun v _ => ?_⟩)
  cases v with
  | error e => rfl
  | ok response =>
    refine Prog.follows_bind.mpr (Prog.follows_perform.mpr ⟨hq, fun v _ => ?_⟩)
    cases v <;> rfl

/-- The loop records nothing; an exception leaves it through its scope, or is a
`ValueError` for arguments that are not accepted. -/
theorem executeRequestWithRetry_follows (hq : q.Unrecorded r)
    (hcan : ∀ delay error e, ¬ can (.exitTimeout delay error) (.error e)) :
    (executeRequestWithRetry r).Follows (fetchProtocol r) can (fun q' x =>
      (∃ status, x = .ok status ∧ q' = q ∧ r.Accepted) ∨
      (∃ error, x = .error error ∧ q' = { q with failed := some error } ∧ r.Accepted) ∨
      (∃ message, x = .error (.valueError message) ∧ q' = q ∧ ¬ r.Accepted)) q := by
  unfold executeRequestWithRetry
  refine follows_retryHttpOperation (fun haccepted => requestStatus_follows ⟨haccepted, hq⟩ r.url) ?_ ?_ ?_ ?_ ?_
  · exact fun haccepted x => Prog.follows_perform.mpr ⟨⟨haccepted, hq⟩, fun v _ => rfl⟩
  · exact fun haccepted x => Prog.follows_perform.mpr ⟨⟨haccepted, hq⟩, fun v _ => rfl⟩
  · exact fun haccepted status => .inl ⟨status, rfl, rfl, haccepted⟩
  · refine fun haccepted error => Prog.follows_perform.mpr ⟨⟨haccepted, hq⟩, fun v hv => ?_⟩
    cases v with
    | error e => exact absurd hv (hcan _ _ _)
    | ok scope =>
      obtain ⟨-, -, -, -, hfailed⟩ := hq
      refine .inr (.inl ⟨_, rfl, ?_, haccepted⟩)
      show { q with failed := some (q.failed.getD (leaves scope error)) } = _
      rw [hfailed]
      rfl
  · exact fun hnot message => .inr (.inr ⟨message, rfl, rfl, hnot⟩)

theorem fetchExternalStatus_follows
    (hcan : ∀ delay error e, ¬ can (.exitTimeout delay error) (.error e))
    (hrecord : ∀ e, ¬ can .recordSuccess (.error e) ∧ ¬ can .recordFailure (.error e)) :
    (fetchExternalStatus r).Follows (fetchProtocol r) can (FetchPhase.Ends r) {} := by
  unfold fetchExternalStatus
  cases hbreaker : r.circuitBreaker with
  | false =>
    have hq : FetchPhase.Unrecorded r {} := ⟨hbreaker.symm, hbreaker.symm, rfl, rfl, rfl⟩
    refine (executeRequestWithRetry_follows hq hcan).mono fun q' x _ h => ?_
    rw [hbreaker] at h
    cases h
  | true =>
    refine Prog.follows_bind.mpr (Prog.follows_perform.mpr ⟨⟨hbreaker, rfl⟩, fun v _ => ?_⟩)
    cases v with
    | error e => exact fun _ => ⟨rfl, .inl ⟨rfl, rfl, rfl⟩⟩
    | ok _ =>
      have hq : FetchPhase.Unrecorded r { asked := true, admitted := true } :=
        ⟨hbreaker.symm, hbreaker.symm, rfl, rfl, rfl⟩
      refine Prog.follows_bind.mpr (Prog.follows_tryCatch.mpr ?_)
      refine (executeRequestWithRetry_follows hq hcan).mono fun q' x hx => ?_
      rcases hx with ⟨status, rfl, rfl, haccepted⟩ | ⟨error, rfl, rfl, haccepted⟩ | ⟨message, rfl, rfl, hnot⟩
      · refine Prog.follows_bind.mpr (Prog.follows_perform.mpr ⟨⟨hbreaker, haccepted, hq⟩, fun v hv => ?_⟩)
        cases v with
        | error e => exact absurd hv (hrecord e).1
        | ok _ => exact fun _ => ⟨rfl, .inr (.inl ⟨rfl, haccepted, ⟨status, rfl⟩, rfl, rfl, rfl⟩)⟩
      · simp only [Prog.ends_error]
        split_ifs with hrec
        · refine Prog.follows_bind.mpr (Prog.follows_perform.mpr
            ⟨⟨hbreaker, _, error, ⟨haccepted, hq⟩, hrec, rfl⟩, fun v hv => ?_⟩)
          cases v with
          | error e => exact absurd hv (hrecord e).2
          | ok _ =>
            exact fun _ => ⟨rfl, .inr (.inr (.inl ⟨rfl, haccepted, error, rfl, rfl, rfl, by rw [if_pos hrec]; rfl⟩))⟩
        · exact fun _ => ⟨rfl, .inr (.inr (.inl ⟨rfl, haccepted, error, rfl, rfl, rfl, by rw [if_neg hrec]⟩))⟩
      · simp only [Prog.ends_error]
        rw [if_neg (show ¬ (UpstreamExn.valueError message).isRecorded from Bool.false_ne_true)]
        exact fun _ => ⟨rfl, .inr (.inr (.inr ⟨rfl, hnot, rfl, rfl, rfl, message, rfl⟩))⟩

end

/-- Every call of `fetch_external_status` follows its protocol. -/
def fetchDiscipline (clock : ℚ → ℚ → Prop) : Discipline (externalSystem clock) where
  protocol := fetchProtocol
  final := FetchPhase.Ends
  follows r := fetchExternalStatus_follows
    (fun delay error e ⟨s, s', h⟩ => by
      obtain ⟨scope, h⟩ := upstreamStep_exitTimeout h
      cases h)
    (fun e => by
      constructor
      · rintro ⟨s, s', h⟩
        cases (upstreamStep_recordSuccess h).1
      · rintro ⟨s, s', h⟩
        cases (upstreamStep_recordFailure h).1)

end TaskApi
