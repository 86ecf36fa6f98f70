/-
# Calls that record nothing

An admitted call records its outcome before it ends unless what leaves its retry
loop is neither an `httpx.HTTPError` nor the end of its own time budget: a
cancellation from outside, a builtin `TimeoutError` before the deadline, any
other exception, or a `ValueError` for its arguments. Such a call leaves the
breaker as it is, and if it was the probe, half open for good.

Key definitions: `Caught`, `Escapes`.
Key theorems: `recordCount_eq_one_iff`, `probe_running`, `outcomes_recorded_iff`.
-/
import TaskApi.BreakerRuns

namespace TaskApi

open Conc

/-- The exception that leaves the retry loop's body is recorded: an
`httpx.HTTPError`, or the timeout of its expired scope. -/
def Caught (scope : TimeoutScope) (error : UpstreamExn) : Prop :=
  error.isRecorded ∨ (scope.expired ∧ (error.isTimeoutError ∨ (error = .cancelledError ∧ scope.uncancelled)))

theorem leaves_isRecorded {scope : TimeoutScope} {error : UpstreamExn} :
    (leaves scope error).isRecorded ↔ Caught scope error := by
  obtain ⟨expired, uncancelled⟩ := scope
  cases expired <;> cases uncancelled <;> cases error <;>
    simp [leaves, TimeoutScope.exit, Caught, UpstreamExn.isRecorded, UpstreamExn.isHttpError,
      UpstreamExn.isRetryBudgetExceededError, UpstreamExn.isTimeoutError]

section

variable {clock : ℚ → ℚ → Prop} {gate : Config (externalSystem clock) → Prop} {b₀ : BreakerState}
  {c : Config (externalSystem clock)} {t : ℕ} {n : ℤ} {T : ℚ}

/-- An exception that is not recorded leaves the retry loop of thread `t`. -/
def Escapes (t : ℕ) (e : BreakerEvent clock) : Prop :=
  ∃ delay error scope, e.act = .call t (.exitTimeout delay error) (.ok scope) ∧ ¬ Caught scope error

/-- An admitted call that has ended has recorded one outcome, exactly if its
arguments were accepted and nothing escaped its retry loop. -/
theorem recordCount_eq_one_iff (h : Run gate (.init b₀) c) {r : FetchRequest} (hr : Requested t r c.trace)
    {x : Except UpstreamExn ℤ} (hx : c.result t = some x) (hadmits : ∃ e ∈ c.trace, Admits t e) :
    recordCount t c.trace = 1 ↔ r.Accepted ∧ ∀ e ∈ c.trace, ¬ Escapes t e := by
  obtain ⟨e, he, hadmits⟩ := hadmits
  obtain ⟨hbreaker, hadmitted⟩ := hadmits.phase h hr he
  have hends : FetchPhase.Ends r (phase fetchAutomaton t c.trace) x := Run.final (fetchDiscipline clock) h hr hx
  have hescapes : ∀ e ∈ c.trace, Escapes t e →
      ∃ error, (phase fetchAutomaton t c.trace).failed = some error ∧ ¬ error.isRecorded := by
    rintro e he ⟨delay, error, scope, hact, hnot⟩
    exact ⟨_, exit_failed h he hact, fun hrec => hnot (leaves_isRecorded.mp hrec)⟩
  rw [recordCount_eq]
  rcases (hends hbreaker).2 with ⟨hnot, -, -⟩ | ⟨-, haccepted, -, hs, hf, hnone⟩ |
    ⟨-, haccepted, error, -, hs, hfailed, hf⟩ | ⟨-, hnot, hs, hf, -⟩
  · rw [hadmitted] at hnot
    cases hnot
  · rw [hs, hf]
    refine iff_of_true rfl ⟨haccepted, fun e he hesc => ?_⟩
    obtain ⟨error, hfailed, -⟩ := hescapes e he hesc
    rw [hnone] at hfailed
    cases hfailed
  · rw [hs, hf]
    by_cases hrec : error.isRecorded
    · rw [if_pos hrec]
      refine iff_of_true rfl ⟨haccepted, fun e he hesc => ?_⟩
      obtain ⟨error', hfailed', hnot⟩ := hescapes e he hesc
      rw [hfailed] at hfailed'
      cases hfailed'
      exact hnot hrec
    · rw [if_neg hrec]
      refine iff_of_false (by omega) fun hall => ?_
      obtain ⟨e, he, delay, raised, scope, hact, hleaves⟩ := failed_exit hfailed
      refine hall.2 e he ⟨delay, raised, scope, hact, fun hcaught => hrec ?_⟩
      rw [← hleaves]
      exact leaves_isRecorded.mpr hcaught
  · rw [hs, hf]
    exact iff_of_false (by omega) fun hall => hnot hall.1

/-- The condition under which no outcome is lost: every admitted call has accepted
arguments, and nothing but an `httpx.HTTPError` or its expired time budget ends
its retry loop. -/
def OutcomesCaught (tr : List (BreakerEvent clock)) : Prop :=
  ∀ t r, Requested t r tr → (∃ e ∈ tr, Admits t e) → r.Accepted ∧ ∀ e ∈ tr, ¬ Escapes t e

/-- The probe that was admitted last is still running. -/
def ProbeRunning (c : Config (externalSystem clock)) : Prop :=
  ∃ t u e v, c.trace = u ++ e :: v ∧ Probe t e ∧ (∀ x ∈ u, ∀ t', ¬ Admits t' x) ∧ c.Running t

theorem probe_running (h₀ : CircuitBreaker.init n T = .ok b₀.breaker) (h : Run gate (.init b₀) c)
    (hcaught : OutcomesCaught c.trace) (hhalf : c.state.breaker.state = .halfOpen) : ProbeRunning c := by
  obtain ⟨t, u, e, v, hsplit, hprobe, hu⟩ := run_probe h₀ h hhalf
  refine ⟨t, u, e, v, hsplit, hprobe, fun x hx t' => (hu x hx t').1, ?_⟩
  by_contra hended
  have he : e ∈ c.trace := by
    rw [hsplit]
    exact List.mem_append_right _ List.mem_cons_self
  obtain ⟨r, hr⟩ : ∃ r, Requested t r c.trace := by
    rw [← hprobe.1.1.1]
    exact h.acted he
  obtain ⟨x, hx⟩ := h.ended hr hended
  -- the ended probe would have recorded its outcome, but there is no record since its admission
  have hone := (recordCount_eq_one_iff h hr hx ⟨e, he, hprobe.1⟩).mpr (hcaught t r hr ⟨e, he, hprobe.1⟩)
  have hzero := recordCount_since h hsplit hprobe.1 fun x hx => (hu x hx t).2
  omega

/-- A call that is still running has had its arguments accepted, if it was
admitted, and nothing has escaped its retry loop. -/
theorem running_caught (h : Run gate (.init b₀) c) {r : FetchRequest} (hr : Requested t r c.trace)
    (hrun : c.Running t) (hadmits : ∃ e ∈ c.trace, Admits t e) :
    r.Accepted ∧ ∀ e ∈ c.trace, ¬ Escapes t e := by
  obtain ⟨e, he, hadmits⟩ := hadmits
  obtain ⟨-, hadmitted⟩ := hadmits.phase h hr he
  obtain ⟨p, hp⟩ := h.pool_trace.2.1 t r hr
  have hfollows := Run.follows (fetchDiscipline clock) h hp
  -- a running program has a call to make, and its protocol allows it
  obtain ⟨x, k, rfl⟩ : ∃ x k, p = .call x k := by
    have hnone := hrun.2
    rw [Config.result, hp] at hnone
    cases p with
    | ret a => cases hnone
    | raise error => cases hnone
    | call x k => exact ⟨x, k, rfl⟩
  have hallows : (phase fetchAutomaton t c.trace).allows r x := hfollows.1
  obtain ⟨haccepted, hfailed⟩ : r.Accepted ∧
      ∀ error, (phase fetchAutomaton t c.trace).failed = some error → error.isRecorded := by
    cases x with
    | beforeCall =>
      rw [hallows.2] at hadmitted
      cases hadmitted
    | recordSuccess =>
      obtain ⟨-, haccepted, -, -, -, -, hnone⟩ := hallows
      exact ⟨haccepted, fun error hsome => by rw [hnone] at hsome; cases hsome⟩
    | recordFailure =>
      obtain ⟨-, q, error, ⟨haccepted, -⟩, hrec, hq⟩ := hallows
      refine ⟨haccepted, fun error' hsome => ?_⟩
      rw [hq] at hsome
      cases hsome
      exact hrec
    | _ =>
      obtain ⟨haccepted, -, -, -, -, hnone⟩ := hallows
      exact ⟨haccepted, fun error hsome => by rw [hnone] at hsome; cases hsome⟩
  refine ⟨haccepted, ?_⟩
  rintro e he ⟨delay, error, scope, hact, hnot⟩
  exact hnot (leaves_isRecorded.mp (hfailed _ (exit_failed h he hact)))

/-- Every admitted call that has ended has recorded exactly one outcome, and a
half-open breaker has its probe running. -/
def OutcomesRecorded (c : Config (externalSystem clock)) : Prop :=
  (∀ t r x, Requested t r c.trace → c.result t = some x → (∃ e ∈ c.trace, Admits t e) →
    recordCount t c.trace = 1) ∧
  (c.state.breaker.state = .halfOpen → ProbeRunning c)

/-- **No probe is leaked** in a run exactly if nothing escapes a retry loop in it. -/
theorem outcomes_recorded_iff (h₀ : CircuitBreaker.init n T = .ok b₀.breaker) (h : Interleaved (.init b₀) c) :
    OutcomesRecorded c ↔ OutcomesCaught c.trace := by
  constructor
  · rintro ⟨hrecorded, -⟩ t r hr hadmits
    by_cases hrun : c.Running t
    · exact running_caught h hr hrun hadmits
    · obtain ⟨x, hx⟩ := h.ended hr hrun
      exact (recordCount_eq_one_iff h hr hx hadmits).mp (hrecorded t r x hr hx hadmits)
  · intro hcaught
    refine ⟨fun t r x hr hx hadmits => ?_, fun hhalf => probe_running h₀ h hcaught hhalf⟩
    exact (recordCount_eq_one_iff h hr hx hadmits).mpr (hcaught t r hr hadmits)

end

/-- Ten seconds after the breaker opened, the probe's task is cancelled while it
waits for the response. -/
def cancelledProbe : Config (externalSystem (· ≤ ·)) :=
  answered (asked (atTime openedUnderCall 10) 2) 2 2 (.error .cancelledError)

theorem cancelledProbe_interleaved : Interleaved (.init exampleBreaker) cancelledProbe := by
  have hnow : openedUnderCall.state.now ≤ 10 := by decide +kernel
  exact interleaved_answered (interleaved_asked (interleaved_atTime openedUnderCall_interleaved hnow) 2) 2 2 _

theorem outcomes_recorded_iff_cancelled :
    OutcomesRecorded cancelledProbe ↔ OutcomesCaught cancelledProbe.trace :=
  outcomes_recorded_iff (n := 1) (T := 10) rfl cancelledProbe_interleaved

/-- A cancelled probe ends without a record. -/
theorem probe_leaked :
    ¬ ∀ (n : ℤ) (T : ℚ) (b₀ : BreakerState) (c : Config (externalSystem (· ≤ ·))),
      CircuitBreaker.init n T = .ok b₀.breaker → Interleaved (.init b₀) c → OutcomesRecorded c := by
  intro hall
  obtain ⟨hrecorded, -⟩ := hall 1 10 exampleBreaker cancelledProbe rfl cancelledProbe_interleaved
  have hone := hrecorded 2 exampleFetch (.error .cancelledError)
    (Run.requested cancelledProbe_interleaved (by decide +kernel)) (by decide +kernel) (by decide +kernel)
  have hzero : recordCount 2 cancelledProbe.trace = 0 := by decide +kernel
  omega

end TaskApi
