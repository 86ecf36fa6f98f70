/-
# The route to the external service

`GET /external/status` of `routers/external.py` with the settings of `config.py`, over the one
breaker that a process builds at its start. The route turns what ends `fetch_external_status`
into an answer; what it answers says what its call has done to the breaker, whatever the calls
beside it do (`external_status`).

An `HTTPException` is an answer too. What the libraries raise is any exception but the two that
`retrying.py` and `circuit_breaker.py` define (`UpstreamExn.isOwn`).

Key definitions: `ExternalSettings`, `checkExternalService`, `externalRouteSystem`, `RoutePhase`,
`routeDiscipline`.
Key theorems: `checkExternalService_answers`, `fetchExternalStatus_sends`, `route_refused`,
`external_status`.
-/
import TaskApi.BreakerConsistency
import TaskApi.Lib.Components

namespace TaskApi

open Conc

/-! ### The route -/

/-- The fields of `Settings` for the external service, with their bounds. -/
structure ExternalSettings where
  url : String := "https://example.com"
  maxAttempts : ℤ := 3
  baseDelay : ℚ := 1 / 2
  maxDelay : ℚ := 5
  totalTimeout : ℚ := 15
  failureThreshold : ℤ := 3
  recoveryTimeout : ℚ := 30
  maxAttempts_mem : 1 ≤ maxAttempts ∧ maxAttempts ≤ 5 := by norm_num
  baseDelay_mem : 0 ≤ baseDelay ∧ baseDelay ≤ 10 := by norm_num
  maxDelay_mem : 0 ≤ maxDelay ∧ maxDelay ≤ 30 := by norm_num
  totalTimeout_mem : 0 < totalTimeout ∧ totalTimeout ≤ 60 := by norm_num
  failureThreshold_mem : 1 ≤ failureThreshold ∧ failureThreshold ≤ 20 := by norm_num
  recoveryTimeout_mem : 0 < recoveryTimeout ∧ recoveryTimeout ≤ 300 := by norm_num

/-- What the route asks of `fetch_external_status`. -/
def ExternalSettings.request (settings : ExternalSettings) : FetchRequest where
  url := settings.url
  maxAttempts := settings.maxAttempts
  baseDelay := settings.baseDelay
  maxDelay := settings.maxDelay
  totalTimeout := settings.totalTimeout
  circuitBreaker := true

/-- The settings pass the checks of `retry_http_operation`. -/
theorem ExternalSettings.accepted (settings : ExternalSettings) : settings.request.Accepted := by
  have htimeout : ¬ settings.totalTimeout ≤ 0 := not_le.mpr settings.totalTimeout_mem.1
  refine ⟨settings.maxAttempts_mem.1, settings.baseDelay_mem.1, settings.maxDelay_mem.1, ?_⟩
  simpa [ExternalSettings.request] using htimeout

/-- They pass those of the breaker, so a process can start. -/
theorem ExternalSettings.breaker_init (settings : ExternalSettings) :
    ∃ b, CircuitBreaker.init settings.failureThreshold settings.recoveryTimeout = .ok b := by
  have hthreshold : ¬ settings.failureThreshold < 1 := not_lt.mpr settings.failureThreshold_mem.1
  have htimeout : ¬ settings.recoveryTimeout ≤ 0 := not_le.mpr settings.recoveryTimeout_mem.1
  unfold CircuitBreaker.init
  rw [dif_neg hthreshold, dif_neg htimeout]
  exact ⟨_, rfl⟩

inductive ExternalAnswer where
  | available
  | httpException (statusCode : ℕ) (detail : String)
deriving DecidableEq

/-- `isinstance(error, CircuitBreakerOpenError)` -/
def UpstreamExn.isCircuitBreakerOpenError : UpstreamExn → Bool
  | circuitBreakerOpenError _ => true
  | _ => false

/-- `except (httpx.TimeoutException, RetryBudgetExceededError)` -/
def UpstreamExn.isTimedOut : UpstreamExn → Bool
  | httpTimeoutException | retryBudgetExceededError _ => true
  | _ => false

/-- The `except` clauses of the route. -/
def answerError (error : UpstreamExn) : Upstream ExternalAnswer :=
  if error.isTimedOut then Prog.ret (.httpException 504 "Upstream service timed out")
  else if error.isHttpError then Prog.ret (.httpException 502 "Upstream service unavailable")
  else if error.isCircuitBreakerOpenError then
    Prog.ret (.httpException 503 "Upstream service temporarily unavailable")
  else Prog.raise error

def checkExternalService (settings : ExternalSettings) : Upstream ExternalAnswer :=
  (fetchExternalStatus settings.request >>= fun _ => Prog.ret .available).tryCatch answerError

/-- The exceptions that this program defines. -/
def UpstreamExn.isOwn : UpstreamExn → Bool
  | retryBudgetExceededError _ | circuitBreakerOpenError _ => true
  | _ => false

/-- One atomic step; no library raises an exception of this program's. -/
def routeStep (c : UpstreamCall) (s : BreakerState) (v : upstreamCalls.Out c) (s' : BreakerState) : Prop :=
  upstreamStep c s v s' ∧ (c ≠ .beforeCall → ∀ error, v = .error error → error.isOwn = false)

/-- The requests of one process. -/
abbrev externalRouteSystem (clock : ℚ → ℚ → Prop) (settings : ExternalSettings) : System upstreamCalls where
  State := BreakerState
  step := routeStep
  env s s' := clock s.now s'.now ∧ s'.breaker = s.breaker
  Req := Unit
  Res := ExternalAnswer
  body _ := checkExternalService settings

/-! ### What a request has done -/

/-- What the end of `fetch_external_status` is answered with. -/
def answers : Except UpstreamExn ℤ → Except UpstreamExn ExternalAnswer → Prop
  | .ok _, x => x = .ok .available
  | .error error, x => (error.isTimedOut ∧ x = .ok (.httpException 504 "Upstream service timed out")) ∨
    (error.isTimedOut = false ∧ error.isHttpError ∧ x = .ok (.httpException 502 "Upstream service unavailable")) ∨
    (error.isRecorded = false ∧ error.isCircuitBreakerOpenError ∧
      x = .ok (.httpException 503 "Upstream service temporarily unavailable")) ∨
    (error.isRecorded = false ∧ error.isCircuitBreakerOpenError = false ∧ x = .error error)

/-- The requests a call has sent, and the exception with which the breaker has refused it. -/
structure RoutePhase where
  sent : ℕ := 0
  refused : Option UpstreamExn := none

def RoutePhase.next (q : RoutePhase) (c : UpstreamCall) (v : upstreamCalls.Out c) : RoutePhase :=
  match c, v with
  | .httpGet _, _ => { q with sent := q.sent + 1 }
  | .beforeCall, .error error => { q with refused := some error }
  | _, _ => q

/-- A call that is refused does nothing more. -/
abbrev routeProtocol : Protocol upstreamCalls where
  Phase := RoutePhase
  init := {}
  next := RoutePhase.next
  allows q _ := q.refused = none

/-- How a call ends: refused before it has sent anything, or not refused. -/
def RoutePhase.Ends (r : FetchRequest) (q : RoutePhase) (x : Except UpstreamExn ℤ) : Prop :=
  q.sent ≤ r.maxAttempts.toNat ∧ ((∃ error, q.refused = some error ∧ q.sent = 0 ∧ x = .error error) ∨
    (q.refused = none ∧ ∀ error, x = .error error → error.isCircuitBreakerOpenError = false))

section Follows

variable {settings : ExternalSettings} {can : (c : UpstreamCall) → upstreamCalls.Out c → Prop}

theorem isRecorded_eq (error : UpstreamExn) : error.isRecorded = (error.isTimedOut || error.isHttpError) := by
  cases error <;> rfl

/-- The `except` clauses make no call. -/
theorem answerError_follows {P : Protocol upstreamCalls} (error : UpstreamExn) (q : P.Phase) :
    (answerError error).Follows P can (fun q' x => q' = q ∧ answers (.error error) x) q := by
  unfold answerError
  split_ifs with htimedOut hhttp hopen
  · exact ⟨rfl, .inl ⟨htimedOut, rfl⟩⟩
  · exact ⟨rfl, .inr (.inl ⟨by simpa using htimedOut, hhttp, rfl⟩)⟩
  · have hrecorded : error.isRecorded = false := by simp [isRecorded_eq, htimedOut, hhttp]
    exact ⟨rfl, .inr (.inr (.inl ⟨hrecorded, hopen, rfl⟩))⟩
  · have hrecorded : error.isRecorded = false := by simp [isRecorded_eq, htimedOut, hhttp]
    exact ⟨rfl, .inr (.inr (.inr ⟨hrecorded, by simpa using hopen, rfl⟩))⟩

/-- A refusal is answered with 503. -/
theorem answers_refusal {error : UpstreamExn} {x : Except UpstreamExn ExternalAnswer}
    (hopen : error.isCircuitBreakerOpenError = true) (h : answers (.error error) x) :
    x = .ok (.httpException 503 "Upstream service temporarily unavailable") := by
  cases error with
  | circuitBreakerOpenError message =>
    rcases h with ⟨htimedOut, -⟩ | ⟨-, hhttp, -⟩ | ⟨-, -, rfl⟩ | ⟨-, hnot, -⟩
    · cases htimedOut
    · cases hhttp
    · rfl
    · cases hnot
  | _ => cases hopen

/-- The route answers for the end of `fetch_external_status`. -/
theorem checkExternalService_answers {P : Protocol upstreamCalls} {Q : P.Phase → Except UpstreamExn ℤ → Prop}
    {q : P.Phase} (h : (fetchExternalStatus settings.request).Follows P can Q q) :
    (checkExternalService settings).Follows P can (fun q' x => ∃ y, Q q' y ∧ answers y x) q := by
  unfold checkExternalService
  refine Prog.follows_tryCatch.mpr (Prog.follows_bind.mpr (h.mono fun q' y hy => ?_))
  cases y with
  | ok status => exact ⟨.ok status, hy, rfl⟩
  | error error =>
    refine (answerError_follows error q').mono fun q'' x hx => ?_
    obtain ⟨rfl, hanswers⟩ := hx
    exact ⟨.error error, hy, hanswers⟩

/-- It did not end with a refusal. -/
def Unopened {α : Type} (x : Except UpstreamExn α) : Prop :=
  ∀ error, x = .error error → error.isCircuitBreakerOpenError = false

theorem unopened_ok {α : Type} (a : α) : Unopened (.ok a : Except UpstreamExn α) := fun error h => by cases h

theorem unopened_error {α : Type} {error : UpstreamExn} (h : error.isCircuitBreakerOpenError = false) :
    Unopened (.error error : Except UpstreamExn α) := fun error' h' => by
  cases h'
  exact h

theorem unopened_of_not_own {error : UpstreamExn} (h : error.isOwn = false) :
    error.isCircuitBreakerOpenError = false := by
  cases error with
  | circuitBreakerOpenError message => cases h
  | _ => rfl

/-- The timeout scope makes no refusal of another error. -/
theorem leaves_unopened {scope : TimeoutScope} {error : UpstreamExn} (h : error.isCircuitBreakerOpenError = false) :
    (leaves scope error).isCircuitBreakerOpenError = false := by
  unfold leaves TimeoutScope.exit
  split_ifs <;> first | rfl | exact h

/-- A call that is no question to the breaker. -/
theorem invoke_sends (hcan : ∀ c error, c ≠ .beforeCall → can c (.error error) → error.isOwn = false)
    {q : RoutePhase} (hq : q.refused = none) (c : UpstreamCall) (hc : c ≠ .beforeCall) :
    (invoke c).Follows routeProtocol can (fun q' x => q' = q.next c x ∧ Unopened x) q := by
  refine Prog.follows_perform.mpr ⟨hq, fun v hv => ⟨rfl, ?_⟩⟩
  cases v with
  | ok a => exact unopened_ok a
  | error error => exact unopened_error (unopened_of_not_own (hcan c error hc hv))

section Loop

variable (hcan : ∀ c error, c ≠ .beforeCall → can c (.error error) → error.isOwn = false)

include hcan

/-- An attempt sends one request. -/
theorem requestStatus_sends {q : RoutePhase} (hq : q.refused = none) (url : String) :
    (requestStatus url).Follows routeProtocol can
      (fun q' x => q' = { q with sent := q.sent + 1 } ∧ Unopened x) q := by
  have hsent : ({ q with sent := q.sent + 1 } : RoutePhase).refused = none := hq
  unfold requestStatus
  refine Prog.follows_bind.mpr (Prog.Follows.mono (fun q' x hx => ?_)
      (invoke_sends hcan hq _ (by simp)))
  obtain ⟨rfl, hx⟩ := hx
  cases x with
  | error error => exact ⟨rfl, unopened_error (hx error rfl)⟩
  | ok response =>
    refine Prog.follows_bind.mpr (Prog.Follows.mono (fun q' x hx => ?_)
      (invoke_sends hcan hsent (.raiseForStatus response) (by simp)))
    obtain ⟨rfl, hx⟩ := hx
    cases x with
    | error error => exact ⟨rfl, unopened_error (hx error rfl)⟩
    | ok _ => exact ⟨rfl, unopened_ok _⟩

theorem retryAttempt_sends {q : RoutePhase} (hq : q.refused = none) (url : String) (maxAttempts : ℤ)
    (baseDelay maxDelay : ℚ) (attemptIndex : ℕ) :
    (retryAttempt (requestStatus url) maxAttempts baseDelay maxDelay fullJitter asyncSleep attemptIndex).Follows
      routeProtocol can (fun q' x => q' = { q with sent := q.sent + 1 } ∧ Unopened x) q := by
  have hsent : ({ q with sent := q.sent + 1 } : RoutePhase).refused = none := hq
  unfold retryAttempt
  refine Prog.follows_tryCatch.mpr (Prog.follows_bind.mpr ((requestStatus_sends hcan hq url).mono fun q' x hx => ?_))
  obtain ⟨rfl, hx⟩ := hx
  cases x with
  | ok result => exact ⟨rfl, unopened_ok _⟩
  | error error =>
    have herror : error.isCircuitBreakerOpenError = false := hx error rfl
    simp only [Prog.ends_error]
    split_ifs
    · exact ⟨rfl, unopened_error herror⟩
    · exact ⟨rfl, unopened_error herror⟩
    · exact ⟨rfl, unopened_error herror⟩
    · refine Prog.follows_bind.mpr (Prog.Follows.mono (fun q' x hx => ?_)
      (invoke_sends hcan hsent (.uniform 0 (min (baseDelay * 2 ^ attemptIndex) maxDelay)) (by simp)))
      obtain ⟨rfl, hx⟩ := hx
      cases x with
      | error error => exact ⟨rfl, unopened_error (hx error rfl)⟩
      | ok delay =>
        refine Prog.follows_bind.mpr (Prog.Follows.mono (fun q' x hx => ?_)
      (invoke_sends hcan hsent _ (by simp)))
        obtain ⟨rfl, hx⟩ := hx
        cases x with
        | error error => exact ⟨rfl, unopened_error (hx error rfl)⟩
        | ok _ => exact ⟨rfl, unopened_ok _⟩

theorem retryLoop_sends (url : String) (maxAttempts : ℤ) (baseDelay maxDelay : ℚ) :
    ∀ (n attemptIndex : ℕ) (q : RoutePhase), q.refused = none →
      (retryLoop (requestStatus url) maxAttempts baseDelay maxDelay fullJitter asyncSleep attemptIndex n).Follows
        routeProtocol can (fun q' x => q'.refused = none ∧ q'.sent ≤ q.sent + n ∧ Unopened x) q
  | 0, _, q, hq => ⟨hq, le_rfl, unopened_ok _⟩
  | n + 1, attemptIndex, q, hq => by
    unfold retryLoop
    refine Prog.follows_bind.mpr ((retryAttempt_sends hcan hq url maxAttempts baseDelay maxDelay attemptIndex).mono
      fun q' x hx => ?_)
    obtain ⟨rfl, hx⟩ := hx
    cases x with
    | error error => exact ⟨hq, by show q.sent + 1 ≤ _; omega, unopened_error (hx error rfl)⟩
    | ok finished =>
      cases finished with
      | some result => exact ⟨hq, by show q.sent + 1 ≤ _; omega, unopened_ok _⟩
      | none =>
        refine (retryLoop_sends url maxAttempts baseDelay maxDelay n (attemptIndex + 1)
          { q with sent := q.sent + 1 } hq).mono fun q' x hx => ?_
        obtain ⟨hrefused, hsent, hx⟩ := hx
        have hsent : q'.sent ≤ q.sent + 1 + n := hsent
        exact ⟨hrefused, by omega, hx⟩

theorem executeRequestWithRetry_sends (r : FetchRequest) :
    (executeRequestWithRetry r).Follows routeProtocol can
      (fun q' x => q'.refused = none ∧ q'.sent ≤ r.maxAttempts.toNat ∧ Unopened x) {} := by
  unfold executeRequestWithRetry retryHttpOperation
  split_ifs
  · exact ⟨rfl, Nat.zero_le _, unopened_error rfl⟩
  · exact ⟨rfl, Nat.zero_le _, unopened_error rfl⟩
  · exact ⟨rfl, Nat.zero_le _, unopened_error rfl⟩
  · exact ⟨rfl, Nat.zero_le _, unopened_error rfl⟩
  · unfold withTotalTimeout
    refine Prog.follows_bind.mpr (Prog.follows_tryCatch.mpr ?_)
    refine Prog.Follows.mono (fun q' x hx => ?_) (retryLoop_sends hcan r.url r.maxAttempts r.baseDelay r.maxDelay
      r.maxAttempts.toNat 0 {} rfl)
    obtain ⟨hrefused, hsent, hx⟩ := hx
    have hsent : q'.sent ≤ 0 + r.maxAttempts.toNat := hsent
    rw [Nat.zero_add] at hsent
    cases x with
    | ok finished =>
      cases finished with
      | some result => exact ⟨hrefused, hsent, unopened_ok _⟩
      | none => exact ⟨hrefused, hsent, unopened_error rfl⟩
    | error error =>
      refine Prog.follows_bind.mpr (Prog.Follows.mono (fun q'' x hx' => ?_)
      (invoke_sends hcan hrefused _ (by simp)))
      obtain ⟨rfl, hx'⟩ := hx'
      cases x with
      | error error' => exact ⟨hrefused, hsent, unopened_error (hx' error' rfl)⟩
      | ok scope => exact ⟨hrefused, hsent, unopened_error (leaves_unopened (hx error rfl))⟩

/-- A call asks the breaker first; refused, it sends nothing. -/
theorem fetchExternalStatus_sends {r : FetchRequest} (hbreaker : r.circuitBreaker = true) :
    (fetchExternalStatus r).Follows routeProtocol can (RoutePhase.Ends r) {} := by
  unfold fetchExternalStatus
  rw [hbreaker]
  refine Prog.follows_bind.mpr (Prog.follows_perform.mpr ⟨rfl, fun v _ => ?_⟩)
  cases v with
  | error error => exact ⟨Nat.zero_le _, .inl ⟨error, rfl, rfl, rfl⟩⟩
  | ok _ =>
    refine Prog.follows_bind.mpr (Prog.follows_tryCatch.mpr ?_)
    refine (executeRequestWithRetry_sends hcan r).mono fun q' x hx => ?_
    obtain ⟨hrefused, hsent, hx⟩ := hx
    cases x with
    | ok status =>
      refine Prog.follows_bind.mpr (Prog.Follows.mono (fun q'' x hx' => ?_)
      (invoke_sends hcan hrefused _ (by simp)))
      obtain ⟨rfl, hx'⟩ := hx'
      cases x with
      | error error => exact ⟨hsent, .inr ⟨hrefused, unopened_error (hx' error rfl)⟩⟩
      | ok _ => exact ⟨hsent, .inr ⟨hrefused, unopened_ok _⟩⟩
    | error error =>
      simp only [Prog.ends_error]
      split_ifs
      · refine Prog.follows_bind.mpr (Prog.Follows.mono (fun q'' x hx' => ?_)
      (invoke_sends hcan hrefused _ (by simp)))
        obtain ⟨rfl, hx'⟩ := hx'
        cases x with
        | error error' => exact ⟨hsent, .inr ⟨hrefused, unopened_error (hx' error' rfl)⟩⟩
        | ok _ => exact ⟨hsent, .inr ⟨hrefused, unopened_error (hx error rfl)⟩⟩
      · exact ⟨hsent, .inr ⟨hrefused, unopened_error (hx error rfl)⟩⟩

end Loop

end Follows

/-- Every request follows both protocols. -/
def routeDiscipline (clock : ℚ → ℚ → Prop) (settings : ExternalSettings) :
    Discipline (externalRouteSystem clock settings) where
  protocol _ := (fetchProtocol settings.request).prod routeProtocol
  final _ q x := ∃ y, (FetchPhase.Ends settings.request q.1 y ∧ RoutePhase.Ends settings.request q.2 y) ∧ answers y x
  follows _ := by
    refine checkExternalService_answers (Prog.Follows.prod (fetchExternalStatus_follows ?_ ?_)
      (fetchExternalStatus_sends ?_ rfl))
    · rintro delay error e ⟨s, s', h, -⟩
      obtain ⟨scope, h⟩ := upstreamStep_exitTimeout h
      cases h
    · intro e
      constructor
      · rintro ⟨s, s', h, -⟩
        cases (upstreamStep_recordSuccess h).1
      · rintro ⟨s, s', h, -⟩
        cases (upstreamStep_recordFailure h).1
    · rintro d error hd ⟨s, s', -, h⟩
      exact h hd error rfl

/-! ### Runs -/

section Runs

variable {clock : ℚ → ℚ → Prop} {settings : ExternalSettings} {s₀ : BreakerState}
  {c : Config (externalRouteSystem clock settings)} {t : ℕ}

/-- The breaker is in order at any time. -/
theorem route_consistent (h₀ : CircuitBreaker.init settings.failureThreshold settings.recoveryTimeout = .ok s₀.breaker)
    (h : Interleaved (.init s₀) c) : c.state.breaker.Consistent := by
  induction h with
  | refl => exact .init h₀
  | @tail b d hb hs ih =>
    cases hs with
    | start t r hg hn => exact ih
    | call t r x k v s' hp hs =>
      obtain ⟨hs, -⟩ := hs
      cases x with
      | beforeCall =>
        obtain ⟨-, rfl⟩ := upstreamStep_beforeCall hs
        exact ih.beforeCall _
      | recordSuccess =>
        obtain ⟨-, rfl⟩ := upstreamStep_recordSuccess hs
        exact .recordSuccess
      | recordFailure =>
        obtain ⟨-, rfl⟩ := upstreamStep_recordFailure hs
        exact ih.recordFailure _
      | _ =>
        obtain rfl := upstreamStep_state rfl hs
        exact ih
    | env s' he => rwa [he.2]

/-- A breaker in order refuses with its own exception. -/
theorem refusal_open {b : CircuitBreaker} (h : b.Consistent) {now : ℚ} {error : UpstreamExn}
    (hrefused : (b.beforeCall now).1 = .error error) : error.isCircuitBreakerOpenError = true := by
  unfold CircuitBreaker.beforeCall at hrefused
  cases hstate : b.state with
  | closed => simp [hstate] at hrefused
  | halfOpen =>
    simp only [hstate] at hrefused
    cases hrefused
    rfl
  | opened =>
    obtain ⟨-, t, hat⟩ := h.of_not_closed (by simp [hstate])
    simp only [hstate, hat] at hrefused
    split_ifs at hrefused
    cases hrefused
    rfl

theorem route_refused (h₀ : CircuitBreaker.init settings.failureThreshold settings.recoveryTimeout = .ok s₀.breaker)
    (h : Interleaved (.init s₀) c) (hr : Requested t () c.trace) {error : UpstreamExn}
    (hrefused : (phase routeProtocol.toAutomaton t c.trace).refused = some error) :
    error.isCircuitBreakerOpenError = true := by
  have hphase := phase_prod (fetchProtocol settings.request) routeProtocol t c.trace
  obtain ⟨b, u, x, v, s', hb, -, -, hbefore, hnext, -, hs, -⟩ :=
    @Run.phase_made _ _ _ _ (routeDiscipline clock settings) c h t () hr (fun q => q.2.refused = some error)
      (fun hnone => by cases hnone)
      ((congrArg (fun q : FetchPhase × RoutePhase => q.2.refused) hphase).trans hrefused)
  cases x with
  | beforeCall =>
    obtain ⟨hv, -⟩ := upstreamStep_beforeCall hs
    cases v with
    | ok _ => exact absurd hnext hbefore
    | error e =>
      cases (show some e = some error from hnext)
      exact refusal_open (route_consistent h₀ hb) hv.symm
  | _ => exact absurd hnext hbefore

/-- A call that has asked the breaker was admitted or refused, and not both. -/
def Decided (q : FetchPhase) (p : RoutePhase) : Prop :=
  (q.asked = true → q.admitted = false → p.refused ≠ none) ∧ (q.admitted = true → p.refused = none)

theorem decided (h : Interleaved (.init s₀) c) (hr : Requested t () c.trace) :
    Decided (phase fetchAutomaton t c.trace) (phase routeProtocol.toAutomaton t c.trace) := by
  have hphase := phase_prod (fetchProtocol settings.request) routeProtocol t c.trace
  have hinv : Decided _ _ := @Run.phase_invariant _ _ _ _ (routeDiscipline clock settings)
    (fun _ q => Decided q.1 q.2) (fun _ => ⟨fun h _ => (Bool.false_ne_true h).elim, fun _ => rfl⟩) ?_ c h t () hr
  · exact (congrArg (fun q : FetchPhase × RoutePhase => Decided q.1 q.2) hphase).mp hinv
  · rintro _ ⟨q, p⟩ x v hq ⟨ha, ha'⟩ -
    have hfree : p.refused = none := ha'
    cases x with
    | beforeCall =>
      cases v with
      | ok _ => exact ⟨fun _ hnot => (Bool.false_ne_true hnot.symm).elim, fun _ => hfree⟩
      | error e =>
        obtain ⟨-, rfl⟩ : settings.request.circuitBreaker = true ∧ q = {} := ha
        exact ⟨fun _ _ => Option.some_ne_none e, fun h => (Bool.false_ne_true h).elim⟩
    | exitTimeout delay error => cases v <;> exact hq
    | _ => exact hq

/-- How often a request has made a call. -/
def made (t : ℕ) (x : UpstreamCall) (tr : List (Event (externalRouteSystem clock settings))) : ℕ :=
  tr.countP fun e => e.act.thread = t ∧ e.act.called = some x

/-- The breaker has let the request through. -/
def LetIn (t : ℕ) (tr : List (Event (externalRouteSystem clock settings))) : Prop :=
  ∃ e ∈ tr, e.act.thread = t ∧ e.act.called = some .beforeCall ∧ e.act.raised = false

theorem made_start {s s' : BreakerState} {t' : ℕ} {r : Unit} {x : UpstreamCall}
    {tr : List (Event (externalRouteSystem clock settings))} : made t x (⟨s, s', .start t' r⟩ :: tr) = made t x tr := by
  unfold made
  rw [List.countP_cons]
  simp [Act.called]

theorem made_call {s s' : BreakerState} {t' : ℕ} {x y : UpstreamCall} {v : upstreamCalls.Out y}
    {tr : List (Event (externalRouteSystem clock settings))} :
    made t x (⟨s, s', .call t' y v⟩ :: tr) = made t x tr + if t' = t ∧ y = x then 1 else 0 := by
  unfold made
  rw [List.countP_cons]
  simp [Act.called, Act.thread]

/-- The phase of a request counts its records, -/
theorem route_records (t : ℕ) : ∀ tr : List (Event (externalRouteSystem clock settings)),
    (phase fetchAutomaton t tr).successes = made t .recordSuccess tr ∧
    (phase fetchAutomaton t tr).failures = made t .recordFailure tr
  | [] => ⟨rfl, rfl⟩
  | ⟨s, s', .start t' r⟩ :: tr => by
    rw [phase_start, made_start, made_start]
    exact route_records t tr
  | ⟨s, s', .call t' x v⟩ :: tr => by
    obtain ⟨hsuccesses, hfailures⟩ := route_records t tr
    rw [made_call, made_call, ← hsuccesses, ← hfailures]
    by_cases ht : t' = t
    · subst ht
      rw [phase_call_self]
      cases x <;> cases v <;> simp [FetchPhase.next]
    · rw [phase_call_ne _ ht]
      simp [ht]

/-- and at least its requests to one address. -/
theorem made_le_sent (t : ℕ) (url : String) : ∀ tr : List (Event (externalRouteSystem clock settings)),
    made t (.httpGet url) tr ≤ (phase routeProtocol.toAutomaton t tr).sent
  | [] => le_rfl
  | ⟨s, s', .start t' r⟩ :: tr => by
    rw [phase_start, made_start]
    exact made_le_sent t url tr
  | ⟨s, s', .call t' x v⟩ :: tr => by
    have hle := made_le_sent t url tr
    rw [made_call]
    by_cases ht : t' = t
    · subst ht
      rw [phase_call_self]
      cases x with
      | httpGet url' =>
        show _ ≤ (phase routeProtocol.toAutomaton t' tr).sent + 1
        split_ifs <;> omega
      | beforeCall => cases v <;> simpa [RoutePhase.next] using hle
      | _ => simpa [RoutePhase.next] using hle
    · rw [phase_call_ne _ ht]
      simpa [ht] using hle

theorem admitted_iff (t : ℕ) : ∀ tr : List (Event (externalRouteSystem clock settings)),
    (phase fetchAutomaton t tr).admitted = true ↔ LetIn t tr
  | [] => iff_of_false Bool.false_ne_true fun ⟨_, he, _⟩ => by cases he
  | ⟨s, s', .start t' r⟩ :: tr => by
    rw [phase_start, admitted_iff t tr]
    unfold LetIn
    simp [Act.called]
  | ⟨s, s', .call t' x v⟩ :: tr => by
    have ih := admitted_iff t tr
    unfold LetIn at ih ⊢
    rw [List.exists_mem_cons_iff, ← ih]
    by_cases ht : t' = t
    · subst ht
      rw [phase_call_self]
      cases x <;> cases v <;> simp [FetchPhase.next, Act.called, Act.thread, Act.raised]
    · rw [phase_call_ne _ ht]
      simp [ht, Act.thread]

/-- **An answer says what was recorded.** A request is answered with 503 if the breaker has refused
it; then it has sent nothing. Otherwise it is answered with 200 and has recorded one success, or
with 502 or 504 and has recorded one failure, or it fails with an exception that the route does
not expect, and has recorded nothing. It has sent as many requests as the settings allow at most. -/
theorem external_status (h₀ : CircuitBreaker.init settings.failureThreshold settings.recoveryTimeout = .ok s₀.breaker)
    (h : Interleaved (.init s₀) c) {x : Except UpstreamExn ExternalAnswer} (hx : c.result t = some x) :
    (made t (.httpGet settings.url) c.trace : ℤ) ≤ settings.maxAttempts ∧
    ((x = .ok (.httpException 503 "Upstream service temporarily unavailable") ∧ ¬ LetIn t c.trace ∧
        made t (.httpGet settings.url) c.trace = 0 ∧
        made t .recordSuccess c.trace = 0 ∧ made t .recordFailure c.trace = 0) ∨
    (x = .ok .available ∧ LetIn t c.trace ∧ made t .recordSuccess c.trace = 1 ∧ made t .recordFailure c.trace = 0) ∨
    ((x = .ok (.httpException 504 "Upstream service timed out") ∨
        x = .ok (.httpException 502 "Upstream service unavailable")) ∧ LetIn t c.trace ∧
        made t .recordSuccess c.trace = 0 ∧ made t .recordFailure c.trace = 1) ∨
    ((∃ error, x = .error error) ∧ LetIn t c.trace ∧
        made t .recordSuccess c.trace = 0 ∧ made t .recordFailure c.trace = 0)) := by
  obtain ⟨⟨⟩, hr⟩ := Run.ended_requested h hx
  have hphase := phase_prod (fetchProtocol settings.request) routeProtocol t c.trace
  have hfinal := Run.final (routeDiscipline clock settings) h hr hx
  obtain ⟨y, ⟨hends, hsends⟩, hanswers⟩ :
      ∃ y, (FetchPhase.Ends settings.request (phase fetchAutomaton t c.trace) y ∧
        RoutePhase.Ends settings.request (phase routeProtocol.toAutomaton t c.trace) y) ∧ answers y x :=
    (congrArg (fun q : FetchPhase × RoutePhase => ∃ y, (FetchPhase.Ends settings.request q.1 y ∧
      RoutePhase.Ends settings.request q.2 y) ∧ answers y x) hphase).mp hfinal
  obtain ⟨hasked, hends⟩ := hends rfl
  obtain ⟨hsent, hsends⟩ := hsends
  obtain ⟨hrefused, hfree⟩ := decided h hr
  obtain ⟨hsuccesses, hfailures⟩ := route_records t c.trace
  have hmade := made_le_sent t settings.url c.trace
  have hmax := settings.maxAttempts_mem.1
  have hsent : (phase routeProtocol.toAutomaton t c.trace).sent ≤ settings.maxAttempts.toNat := hsent
  rw [← hsuccesses, ← hfailures, ← admitted_iff]
  refine ⟨by omega, ?_⟩
  rcases hends with ⟨hnot, hs, hf⟩ | ⟨hin, -, ⟨status, rfl⟩, hs, hf, -⟩ | ⟨hin, -, error, rfl, hs, -, hf⟩ | ⟨-, hnot, -⟩
  · -- refused, with the breaker's own exception
    rcases hsends with ⟨error, herror, hzero, rfl⟩ | ⟨hnone, -⟩
    · have hopen := route_refused h₀ h hr herror
      exact .inl ⟨answers_refusal hopen hanswers, by simp [hnot], by omega, hs, hf⟩
    · exact absurd hnone (hrefused hasked hnot)
  · exact .inr (.inl ⟨hanswers, hin, hs, hf⟩)
  · have hopen : error.isCircuitBreakerOpenError = false := by
      rcases hsends with ⟨error', herror, -⟩ | ⟨-, hunopened⟩
      · rw [hfree hin] at herror
        cases herror
      · exact hunopened error rfl
    rcases hanswers with ⟨htimedOut, rfl⟩ | ⟨-, hhttp, rfl⟩ | ⟨-, hisOpen, -⟩ | ⟨hrecorded, -, rfl⟩
    · have hrecorded : error.isRecorded = true := by simp [isRecorded_eq, htimedOut]
      rw [if_pos hrecorded] at hf
      exact .inr (.inr (.inl ⟨.inl rfl, hin, hs, hf⟩))
    · have hrecorded : error.isRecorded = true := by simp [isRecorded_eq, hhttp]
      rw [if_pos hrecorded] at hf
      exact .inr (.inr (.inl ⟨.inr rfl, hin, hs, hf⟩))
    · rw [hopen] at hisOpen
      cases hisOpen
    · rw [hrecorded] at hf
      exact .inr (.inr (.inr ⟨⟨error, rfl⟩, hin, hs, hf⟩))
  · exact absurd settings.accepted hnot

end Runs

/-! ### A concrete run -/

theorem routeStep_serve {get : Except UpstreamExn ℤ} (hget : ∀ error, get = .error error → error.isOwn = false)
    (x : UpstreamCall) (s : BreakerState) : routeStep x s (s.serve (.answering get) x).1 (s.serve (.answering get) x).2 := by
  refine ⟨upstreamStep_serve _ x s, fun hx error herror => ?_⟩
  cases x with
  | httpGet url => exact hget error herror
  | beforeCall => exact absurd rfl hx
  | _ => cases herror

theorem one_attempt_mem : (1 : ℤ) ≤ 1 ∧ (1 : ℤ) ≤ 5 := by norm_num

/-- One attempt, and a breaker that opens at the first failure, for ten seconds. -/
def exampleExternalSettings : ExternalSettings where
  maxAttempts := 1
  failureThreshold := 1
  recoveryTimeout := 10
  maxAttempts_mem := one_attempt_mem

/-- Nothing answers request 0, and request 1 comes after it. -/
def refusedRequest : Config (externalRouteSystem (· ≤ ·) exampleExternalSettings) :=
  (Config.init exampleBreaker).schedule (BreakerState.serve (.answering (.error .httpConnectError)))
    [.start 0 (), .call 0, .call 0, .call 0, .call 0, .start 1 (), .call 1]

theorem external_status_refused : refusedRequest.result 0 = some (.ok (.httpException 502 "Upstream service unavailable")) ∧
    ¬ LetIn 1 refusedRequest.trace ∧ made 1 (.httpGet "https://example.com") refusedRequest.trace = 0 := by
  have h : Interleaved (.init exampleBreaker) refusedRequest :=
    Interleaved.schedule (routeStep_serve fun error herror => by cases herror; rfl) _ _
  have h₀ : CircuitBreaker.init exampleExternalSettings.failureThreshold exampleExternalSettings.recoveryTimeout =
      .ok exampleBreaker.breaker := by decide +kernel
  have hx : refusedRequest.result 1 = some (.ok (.httpException 503 "Upstream service temporarily unavailable")) := by
    decide +kernel
  refine ⟨by decide +kernel, ?_⟩
  rcases (external_status h₀ h hx).2 with ⟨-, hnot, hnone, -⟩ | ⟨hx, -⟩ | ⟨hx | hx, -⟩ | ⟨⟨error, hx⟩, -⟩
  · exact ⟨hnot, hnone⟩
  · cases hx
  · cases hx
  · cases hx
  · cases hx

end TaskApi
