/-
# What a retried operation ends in

`retry_http_operation` over any sequence of outcomes of its operation, as long as
the total timeout does not expire. It calls the operation up to the first outcome
that is not retried, `max_attempts` times at most, and ends with the outcome of
the last call; before every further call it waits for what the jitter makes of
the capped exponential of the call's index.

The three functions given to it may be any programs that answer so (`AnswersAs`).

Key definitions: `retried`, `callsMade`, `RetryLog`, `AnswersAs`.
Key theorems: `yields_retryAttempt_wait`, `yields_retryLoop`, `retry_outcome`.
-/
import TaskApi.Retrying

namespace TaskApi

open Conc

/-! ### The calls that are made -/

section

variable {α : Type}

/-- The outcome is a retryable HTTP error. -/
def retried : Except UpstreamExn α → Bool
  | .ok _ => false
  | .error error => isRetryableHttpError error

/-- The smaller of `n` and the position of the first outcome that is not retried. -/
def callsMade (outcome : ℕ → Except UpstreamExn α) (n : ℕ) : ℕ :=
  min n ((List.range n).findIdx (fun i => !retried (outcome i)) + 1)

theorem isHttpError_of_retryable {error : UpstreamExn} (h : isRetryableHttpError error = true) :
    error.isHttpError = true := by
  cases error <;> first | rfl | cases h

variable {outcome : ℕ → Except UpstreamExn α} {n i : ℕ}

/-- Only the last call has an outcome that is not retried. -/
theorem retried_of_lt (h : i + 1 < callsMade outcome n) : retried (outcome i) = true := by
  have hlt : i < (List.range n).findIdx fun i => !retried (outcome i) := by
    unfold callsMade at h
    omega
  have hnot := List.not_of_lt_findIdx hlt
  simpa using hnot

theorem not_retried_of_eq (h : i + 1 = callsMade outcome n) (hn : i + 1 < n) : retried (outcome i) = false := by
  have heq : (List.range n).findIdx (fun i => !retried (outcome i)) = i := by
    unfold callsMade at h
    omega
  have hlt : (List.range n).findIdx (fun i => !retried (outcome i)) < (List.range n).length := by
    rw [heq, List.length_range]
    omega
  have hfound := List.findIdx_getElem (w := hlt)
  simp only [heq, List.getElem_range] at hfound
  simpa using hfound

theorem callsMade_pos (hn : 0 < n) : 0 < callsMade outcome n := by
  unfold callsMade
  omega

theorem callsMade_le : callsMade outcome n ≤ n := Nat.min_le_left _ _

end

/-! ### The functions that are given -/

/-- What has been asked of the operation, the jitter and the sleep. -/
structure RetryLog where
  operations : ℕ
  jittered : List ℚ
  slept : List ℚ

/-- The log before anything was asked. -/
def RetryLog.empty : RetryLog := ⟨0, [], []⟩

section

variable {α σ : Type} (serve : (c : UpstreamCall) → σ → upstreamCalls.Out c × σ) (log : σ → RetryLog)
  (outcome : ℕ → Except UpstreamExn α) (jitter : ℕ → ℚ → ℚ) (operation : Upstream α) (totalTimeout : Option ℚ)
  (jitterFunction : ℚ → Upstream ℚ) (sleepFunction : ℚ → Upstream Unit)

/-- The calls of the operation end in the outcomes, one after another; the jitter
and the sleep return, and the total timeout does not expire. -/
structure AnswersAs : Prop where
  operation s : operation.Yields serve (fun s' r => r = outcome (log s).operations ∧
    log s' = { log s with operations := (log s).operations + 1 }) s
  jitter s x : (jitterFunction x).Yields serve (fun s' r => r = .ok (jitter (log s).jittered.length x) ∧
    log s' = { log s with jittered := (log s).jittered ++ [x] }) s
  sleep s x : (sleepFunction x).Yields serve (fun s' r => r = .ok () ∧
    log s' = { log s with slept := (log s).slept ++ [x] }) s
  scope s error : (invoke (.exitTimeout totalTimeout error)).Yields serve (fun s' r =>
    ∃ scope : TimeoutScope, r = .ok scope ∧ scope.expired = false ∧ log s' = log s) s

end

/-! ### The loop -/

section

variable {α σ : Type} {serve : (c : UpstreamCall) → σ → upstreamCalls.Out c × σ} {log : σ → RetryLog}
  {outcome : ℕ → Except UpstreamExn α} {jitter : ℕ → ℚ → ℚ} {operation : Upstream α} {maxAttempts : ℤ}
  {baseDelay maxDelay : ℚ} {totalTimeout : Option ℚ} {jitterFunction : ℚ → Upstream ℚ}
  {sleepFunction : ℚ → Upstream Unit} {s : σ} {i n : ℕ}

/-- The bounds of the first waits. -/
def retryBounds (baseDelay maxDelay : ℚ) (n : ℕ) : List ℚ :=
  (List.range n).map fun i => min (baseDelay * 2 ^ i) maxDelay

/-- Without an expired deadline an error leaves the scope as it is. -/
theorem leaves_of_not_expired {scope : TimeoutScope} {error : UpstreamExn} (h : scope.expired = false) :
    leaves scope error = error := by
  simp [leaves, TimeoutScope.exit, h]

/-- What has been asked when `operations` calls and `waits` waits were made. -/
def logOf (jitter : ℕ → ℚ → ℚ) (baseDelay maxDelay : ℚ) (operations waits : ℕ) : RetryLog :=
  ⟨operations, retryBounds baseDelay maxDelay waits,
    (List.range waits).map fun i => jitter i (min (baseDelay * 2 ^ i) maxDelay)⟩

/-- An outcome that is not retried, or that of the last attempt, ends the loop. -/
theorem yields_retryAttempt_last
    (h : AnswersAs serve log outcome jitter operation totalTimeout jitterFunction sleepFunction)
    (hlast : retried (outcome (log s).operations) = true → (i : ℤ) = maxAttempts - 1) :
    (retryAttempt operation maxAttempts baseDelay maxDelay jitterFunction sleepFunction i).Yields serve
      (fun s' r => r = (outcome (log s).operations).map some ∧
        log s' = { log s with operations := (log s).operations + 1 }) s := by
  refine Prog.yields_tryCatch.mpr (Prog.yields_bind.mpr ((h.operation s).mono fun s' r hr => ?_))
  obtain ⟨rfl, hlog⟩ := hr
  cases hout : outcome (log s).operations with
  | ok a => exact ⟨rfl, hlog⟩
  | error error =>
    rw [hout] at hlast
    simp only [Prog.ends_error]
    split_ifs with hhttp hretry hindex
    · exact ⟨rfl, hlog⟩
    · exact ⟨rfl, hlog⟩
    · exact ⟨rfl, hlog⟩
    · have hretried : isRetryableHttpError error = true := by simpa using hretry
      exact absurd (hlast hretried) hindex

/-- A retried outcome of an earlier attempt is waited for. -/
theorem yields_retryAttempt_wait
    (h : AnswersAs serve log outcome jitter operation totalTimeout jitterFunction sleepFunction)
    (hretried : retried (outcome (log s).operations) = true) (hi : (i : ℤ) ≠ maxAttempts - 1)
    {x : ℚ} (hx : x = min (baseDelay * 2 ^ i) maxDelay) :
    (retryAttempt operation maxAttempts baseDelay maxDelay jitterFunction sleepFunction i).Yields serve
      (fun s' r => r = .ok none ∧ log s' = ⟨(log s).operations + 1, (log s).jittered ++ [x],
        (log s).slept ++ [jitter (log s).jittered.length x]⟩) s := by
  subst hx
  refine Prog.yields_tryCatch.mpr (Prog.yields_bind.mpr ((h.operation s).mono fun s₁ r hr => ?_))
  obtain ⟨rfl, hlog⟩ := hr
  cases hout : outcome (log s).operations with
  | ok a =>
    rw [hout] at hretried
    cases hretried
  | error error =>
    rw [hout] at hretried
    have hhttp := isHttpError_of_retryable hretried
    have hretryable : isRetryableHttpError error = true := hretried
    simp only [Prog.ends_error, hhttp, hretryable, hi, Bool.not_true, Bool.false_eq_true, if_false]
    refine Prog.yields_bind.mpr ((h.jitter s₁ _).mono fun s₂ r hr => ?_)
    obtain ⟨rfl, hlog₂⟩ := hr
    rw [Prog.ends_ok]
    refine Prog.yields_bind.mpr ((h.sleep s₂ _).mono fun s₃ r hr => ?_)
    obtain ⟨rfl, hlog₃⟩ := hr
    refine ⟨rfl, ?_⟩
    change log s₃ = _
    rw [hlog₃, hlog₂, hlog]

/-- From attempt `i` on, with `n` attempts left. -/
theorem yields_retryLoop (h : AnswersAs serve log outcome jitter operation totalTimeout jitterFunction sleepFunction)
    {total : ℕ} (hmax : maxAttempts = total) : ∀ (n i : ℕ) (s : σ), i + n = total →
    i < callsMade outcome total → log s = logOf jitter baseDelay maxDelay i i →
    (retryLoop operation maxAttempts baseDelay maxDelay jitterFunction sleepFunction i n).Yields serve
      (fun s' r => r = (outcome (callsMade outcome total - 1)).map some ∧
        log s' = logOf jitter baseDelay maxDelay (callsMade outcome total) (callsMade outcome total - 1)) s
  | 0, i, s, hn, hi, _ => by
    have hle : callsMade outcome total ≤ total := callsMade_le
    omega
  | n + 1, i, s, hn, hi, hlog => by
    have hops : (log s).operations = i := by rw [hlog]; rfl
    unfold retryLoop
    refine Prog.yields_bind.mpr ?_
    by_cases hlast : i + 1 = callsMade outcome total
    · -- the last call
      refine (yields_retryAttempt_last h fun hretried => ?_).mono fun s' r hr => ?_
      · by_contra hne
        rw [hops, not_retried_of_eq hlast (by omega)] at hretried
        cases hretried
      obtain ⟨rfl, hlog'⟩ := hr
      have hindex : callsMade outcome total - 1 = i := by omega
      rw [hindex, ← hlast]
      have hlogged : log s' = logOf jitter baseDelay maxDelay (i + 1) i := by
        rw [hlog', hlog]
        rfl
      rw [hops]
      cases outcome i with
      | ok a => exact ⟨rfl, hlogged⟩
      | error e => exact ⟨rfl, hlogged⟩
    · -- the outcome is retried, and the loop goes on
      have hle : callsMade outcome total ≤ total := callsMade_le
      have hretried : retried (outcome (log s).operations) = true := by
        rw [hops]
        exact retried_of_lt (n := total) (by omega)
      refine (yields_retryAttempt_wait h hretried (by omega) rfl).mono fun s' r hr => ?_
      obtain ⟨rfl, hlog'⟩ := hr
      refine yields_retryLoop h hmax n (i + 1) s' (by omega) (by omega) ?_
      rw [hlog', hlog]
      simp [logOf, retryBounds, List.range_succ]

/-- A timeout that does not expire changes nothing. -/
theorem yields_withTotalTimeout
    (h : AnswersAs serve log outcome jitter operation totalTimeout jitterFunction sleepFunction)
    {β : Type} {body : Upstream β} {x : Except UpstreamExn β} {l : RetryLog}
    (hbody : body.Yields serve (fun s' r => r = x ∧ log s' = l) s) :
    (withTotalTimeout totalTimeout body).Yields serve (fun s' r => r = x ∧ log s' = l) s := by
  refine Prog.yields_tryCatch.mpr (hbody.mono fun s' r hr => ?_)
  obtain ⟨rfl, hlog⟩ := hr
  cases r with
  | ok a => exact ⟨rfl, hlog⟩
  | error error =>
    rw [Prog.ends_error]
    refine Prog.yields_bind.mpr ((h.scope s' error).mono fun s'' r hr => ?_)
    obtain ⟨scope, rfl, hexpired, hlog'⟩ := hr
    refine ⟨?_, hlog'.trans hlog⟩
    rw [leaves_of_not_expired hexpired]
    rfl

/-- **What a retried operation ends in.** For arguments that are accepted, any
outcomes of the operation and any jitter, as long as the total timeout does not
expire: the operation is called up to its first outcome that is not retried, and
`max_attempts` times at most; the last outcome is that of the function; between
calls it sleeps for what the jitter makes of the capped exponentials in order;
and the loop does not run out. -/
theorem retry_outcome (h : AnswersAs serve log outcome jitter operation totalTimeout jitterFunction sleepFunction)
    (hargs : ArgumentsAccepted maxAttempts baseDelay maxDelay totalTimeout) (hempty : log s = .empty) :
    let k := callsMade outcome maxAttempts.toNat
    let run := (retryHttpOperation operation maxAttempts baseDelay maxDelay totalTimeout jitterFunction
      sleepFunction).run serve s
    run.1 = outcome (k - 1) ∧ (log run.2).operations = k ∧
      (log run.2).jittered = (List.range (k - 1)).map (fun i => min (baseDelay * 2 ^ i) maxDelay) ∧
      (log run.2).slept = (List.range (k - 1)).map (fun i => jitter i (min (baseDelay * 2 ^ i) maxDelay)) ∧
      ((withTotalTimeout totalTimeout (retryLoop operation maxAttempts baseDelay maxDelay jitterFunction
        sleepFunction 0 maxAttempts.toNat)).run serve s).1 ≠ .ok none := by
  intro k run
  obtain ⟨hmax, hbase, hdelay, htimeout⟩ := hargs
  have hpos : 0 < k := callsMade_pos (by omega)
  have htotal : maxAttempts = (maxAttempts.toNat : ℤ) := by omega
  have hstart : log s = logOf jitter baseDelay maxDelay 0 0 := hempty
  have hloop := yields_retryLoop h htotal maxAttempts.toNat 0 s (by omega) hpos hstart
  have htimed := yields_withTotalTimeout h hloop
  have hwhole : (retryHttpOperation operation maxAttempts baseDelay maxDelay totalTimeout jitterFunction
      sleepFunction).Yields serve (fun s' r => r = outcome (k - 1) ∧
        log s' = logOf jitter baseDelay maxDelay k (k - 1)) s := by
    unfold retryHttpOperation
    rw [if_neg (by omega), if_neg (not_lt.mpr hbase), if_neg (not_lt.mpr hdelay), if_neg htimeout]
    refine Prog.yields_bind.mpr (htimed.mono fun s' r hr => ?_)
    obtain ⟨rfl, hlog⟩ := hr
    cases outcome (k - 1) with
    | ok a => exact ⟨rfl, hlog⟩
    | error error => exact ⟨rfl, hlog⟩
  obtain ⟨hresult, hlog⟩ := hwhole
  refine ⟨hresult, congrArg RetryLog.operations hlog, congrArg RetryLog.jittered hlog,
    congrArg RetryLog.slept hlog, fun hnone => ?_⟩
  have houtcome := htimed.1.symm.trans hnone
  cases hout : outcome (k - 1) with
  | ok a =>
    rw [hout] at houtcome
    cases houtcome
  | error error =>
    rw [hout] at houtcome
    cases houtcome

end

/-! ### Functions that answer -/

/-- The calls of the operation are counted, the jitter answers as given, and nothing
expires. -/
def scripted (jitter : ℕ → ℚ → ℚ) : (c : UpstreamCall) → RetryLog → upstreamCalls.Out c × RetryLog
  | .httpGet _, log => (.ok (log.operations : ℤ), { log with operations := log.operations + 1 })
  | .uniform _ hi, log => (.ok (jitter log.jittered.length hi), { log with jittered := log.jittered ++ [hi] })
  | .sleep delay, log => (.ok (), { log with slept := log.slept ++ [delay] })
  | .exitTimeout _ _, log => (.ok ⟨false, true⟩, log)
  | .raiseForStatus _, log => (.ok (), log)
  | .beforeCall, log => (.ok (), log)
  | .recordSuccess, log => (.ok (), log)
  | .recordFailure, log => (.ok (), log)

/-- The operation with the given outcomes. -/
def scriptedOperation {α : Type} (outcome : ℕ → Except UpstreamExn α) : Upstream α := do
  let attemptIndex : ℤ ← invoke (.httpGet "")
  match outcome attemptIndex.toNat with
  | .ok result => return result
  | .error error => Prog.raise error

/-- There are functions for every outcomes and every jitter. -/
theorem answers_scripted {α : Type} (outcome : ℕ → Except UpstreamExn α) (jitter : ℕ → ℚ → ℚ)
    (totalTimeout : Option ℚ) :
    AnswersAs (scripted jitter) id outcome jitter (scriptedOperation outcome) totalTimeout fullJitter asyncSleep where
  operation s := by
    refine Prog.yields_bind.mpr (Prog.yields_perform.mpr ?_)
    simp only [scripted, Prog.ends_ok, Int.toNat_natCast, id]
    cases outcome s.operations with
    | ok a => exact ⟨rfl, rfl⟩
    | error error => exact ⟨rfl, rfl⟩
  jitter s x := ⟨rfl, rfl⟩
  sleep s x := ⟨rfl, rfl⟩
  scope s error := ⟨_, rfl, rfl, rfl⟩

/-- Two outcomes that are retried, and a result. -/
def exampleOutcome : ℕ → Except UpstreamExn ℤ
  | 0 => .error (.httpStatusError 503)
  | 1 => .error .httpConnectError
  | _ => .ok 7

theorem retry_outcome_third :
    let run := (retryHttpOperation (scriptedOperation exampleOutcome) 5 1 (3 / 2) none fullJitter asyncSleep).run
      (scripted fun _ x => x / 2) .empty
    run.1 = .ok 7 ∧ run.2.operations = 3 ∧ run.2.jittered = [1, 3 / 2] ∧ run.2.slept = [1 / 2, 3 / 4] := by
  intro run
  have hcalls : callsMade exampleOutcome (5 : ℤ).toNat = 3 := by decide
  obtain ⟨hresult, hoperations, hjittered, hslept, -⟩ := retry_outcome
    (answers_scripted exampleOutcome (fun _ x => x / 2) none)
    (show ArgumentsAccepted 5 1 (3 / 2) none by unfold ArgumentsAccepted; norm_num) (s := .empty) rfl
  rw [hcalls] at hresult hoperations hjittered hslept
  refine ⟨hresult, hoperations, hjittered.trans ?_, hslept.trans ?_⟩
  · norm_num [List.range_succ]
  · norm_num [List.range_succ]

end TaskApi
