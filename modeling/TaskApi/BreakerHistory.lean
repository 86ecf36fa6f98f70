/-
# One call after another

When no two calls overlap and every admitted call ends in a status code or in an
exception that is recorded, the breaker is never half open when a call asks. So
it lets a call through exactly when the history of recorded outcomes says so
(`CircuitBreaker.History.admits_iff`), and a call is one outcome in that history,
however many attempts it makes.

Key definitions: `EndsRecorded`.
Key theorems: `not_halfOpen`, `refused_sends_nothing`, `fetch_outcome`,
`sequential_admission`.
-/
import TaskApi.BreakerRuns

namespace TaskApi

open Conc

section

variable {clock : ℚ → ℚ → Prop} {gate : Config (externalSystem clock) → Prop} {b₀ : BreakerState}
  {c : Config (externalSystem clock)} {t : ℕ} {n : ℤ} {T : ℚ}

/-- Success, an `httpx.HTTPError` or a `RetryBudgetExceededError`. -/
def EndsRecorded : Except UpstreamExn ℤ → Prop
  | .ok _ => True
  | .error error => error.isRecorded

/-- Every admitted call that has ended has ended so. -/
def AllRecorded (c : Config (externalSystem clock)) : Prop :=
  ∀ t x, (∃ e ∈ c.trace, Admits t e) → c.result t = some x → EndsRecorded x

/-- An admitted call that has ended so has recorded its outcome, and no other. -/
theorem fetch_outcome (h : Run gate (.init b₀) c) (hends : AllRecorded c) {x : Except UpstreamExn ℤ}
    (hadmits : ∃ e ∈ c.trace, Admits t e) (hx : c.result t = some x) :
    c.trace.countP (fun e => decide (Calls t .recordSuccess e)) = (if x.isOk then 1 else 0) ∧
    c.trace.countP (fun e => decide (Calls t .recordFailure e)) = (if x.isOk then 0 else 1) := by
  have hrecorded := hends t x hadmits hx
  obtain ⟨e, he, hadmits⟩ := hadmits
  obtain ⟨r, hr⟩ : ∃ r, Requested t r c.trace := by
    rw [← hadmits.1.1]
    exact h.acted he
  obtain ⟨hbreaker, hadmitted⟩ := hadmits.phase h hr he
  have hphase : FetchPhase.Ends r (phase fetchAutomaton t c.trace) x := Run.final (fetchDiscipline clock) h hr hx
  obtain ⟨h1, h2⟩ := phase_records t c.trace
  rw [← h1, ← h2]
  rcases (hphase hbreaker).2 with ⟨hnot, -, -⟩ | ⟨-, -, ⟨status, rfl⟩, hs, hf, -⟩ |
    ⟨-, -, error, rfl, hs, -, hf⟩ | ⟨-, -, -, -, -, message, rfl⟩
  · rw [hadmitted] at hnot
    cases hnot
  · rw [hs, hf]
    exact ⟨rfl, rfl⟩
  · have hrecorded : error.isRecorded := hrecorded
    rw [if_pos hrecorded] at hf
    rw [hs, hf]
    exact ⟨rfl, rfl⟩
  · cases hrecorded

/-- The ends of a run are those of its later moments. -/
theorem AllRecorded.of_run {c' : Config (externalSystem clock)} (h : Run gate c c') (hends : AllRecorded c') :
    AllRecorded c := by
  rintro t x ⟨e, he, hadmits⟩ hx
  obtain ⟨u, hu⟩ := Run.trace_suffix h
  refine hends t x ⟨e, ?_, hadmits⟩ (h.result_stable hx)
  rw [hu]
  exact List.mem_append_right _ he

/-- While a call asks, every earlier one has ended and recorded its outcome, so
no probe is pending. -/
theorem not_halfOpen (h₀ : CircuitBreaker.init n T = .ok b₀.breaker) (h : Sequential (.init b₀) c)
    (hends : AllRecorded c) (hrun : c.Running t) (hphase : phase fetchAutomaton t c.trace = {}) :
    c.state.breaker.state ≠ .halfOpen := by
  intro hhalf
  obtain ⟨t', u, e, v, hsplit, hprobe, hu⟩ := run_probe h₀ h hhalf
  have he : e ∈ c.trace := by
    rw [hsplit]
    exact List.mem_append_right _ List.mem_cons_self
  obtain ⟨r, hr⟩ : ∃ r, Requested t' r c.trace := by
    rw [← hprobe.1.1.1]
    exact h.acted he
  -- the probe is another call: the one that asks has not been admitted
  have hended : ¬ c.Running t' := fun hrun' => by
    obtain rfl := Sequential.running_unique h hrun hrun'
    have hadmitted := (hprobe.1.phase h hr he).2
    rw [hphase] at hadmitted
    cases hadmitted
  obtain ⟨x, hx⟩ := h.ended hr hended
  obtain ⟨hs, hf⟩ := fetch_outcome h hends ⟨e, he, hprobe.1⟩ hx
  have hzero := recordCount_since h hsplit hprobe.1 fun x hx => (hu x hx t').2
  obtain ⟨h1, h2⟩ := phase_records t' c.trace
  rw [recordCount_eq, h1, h2, hs, hf] at hzero
  cases x <;> cases hzero

/-- A refused call sends no request. -/
theorem refused_sends_nothing (h : Run gate (.init b₀) c) {e : BreakerEvent clock} (he : e ∈ c.trace)
    (hcalls : Calls t .beforeCall e) (hraised : e.act.raised = true) (url : String) :
    ∀ y ∈ c.trace, ¬ Calls t (.httpGet url) y := by
  intro y hy hsends
  obtain ⟨-, hrefused⟩ := refused_phase h he hcalls hraised
  obtain ⟨w, hact⟩ := hsends.exists
  obtain ⟨w', hact'⟩ := hcalls.exists
  obtain ⟨u, v, hsplit⟩ := List.append_of_mem hy
  obtain ⟨u', v', hsplit'⟩ := List.append_of_mem he
  obtain ⟨r, hr, hallows⟩ := fetch_allowed h hsplit hact
  obtain ⟨r', hr', hallows'⟩ := fetch_allowed h hsplit' hact'
  obtain rfl := h.requested_unique hr hr'
  -- it would have been admitted before it sent the request
  have hadmitted : (phase fetchAutomaton t v).admitted = true := hallows.2.2.1.trans hallows'.1
  have hstays : (phase fetchAutomaton t c.trace).admitted = true := by
    rw [hsplit, ← List.singleton_append, ← List.append_assoc]
    exact @phase_stable _ _ fetchAutomaton t (fun q : FetchPhase => q.admitted = true)
      FetchPhase.admitted_next _ hadmitted _
  rw [hrefused] at hstays
  cases hstays

/-- **The breaker is its history.** In a sequential run whose admitted calls all
end in a recorded way, a call is admitted exactly when fewer than `n` failures
have been recorded since the latest success or the recovery timeout has passed
since the latest failure; a refused call changes nothing and sends nothing; and
an admitted call that has ended is one outcome. -/
theorem sequential_admission (h₀ : CircuitBreaker.init n T = .ok b₀.breaker) (h : Sequential (.init b₀) c)
    (hends : AllRecorded c) :
    (∀ u e v t, c.trace = u ++ e :: v → Calls t .beforeCall e →
      (Admits t e ↔ (failures v : ℤ) < n ∨ ∃ last, lastFailure v = some last ∧ T ≤ Double.sub e.before.now last) ∧
      (¬ Admits t e → e.after = e.before ∧ ∀ y ∈ c.trace, ∀ url, ¬ Calls t (.httpGet url) y)) ∧
    (∀ t x, (∃ e ∈ c.trace, Admits t e) → c.result t = some x →
      c.trace.countP (fun e => decide (Calls t .recordSuccess e)) = (if x.isOk then 1 else 0) ∧
      c.trace.countP (fun e => decide (Calls t .recordFailure e)) = (if x.isOk then 0 else 1)) := by
  refine ⟨fun u e v t hsplit hcalls => ?_, fun t x hadmits hx => fetch_outcome h hends hadmits hx⟩
  have he : e ∈ c.trace := by
    rw [hsplit]
    exact List.mem_append_right _ List.mem_cons_self
  obtain ⟨w, hact⟩ := hcalls.exists
  rcases e with ⟨s, s', act⟩
  subst hact
  obtain ⟨b, hb, hbc, rfl, rfl, hrun⟩ := Run.caller h hsplit
  obtain ⟨-, r, -, -, -, -, -, -, hallows, hs⟩ := Run.made (fetchDiscipline clock) h hsplit
  obtain ⟨rfl, rfl⟩ := upstreamStep_beforeCall hs
  have hhalf := not_halfOpen h₀ hb (hends.of_run hbc) hrun hallows.2
  have hadmits : Admits t (⟨b.state, { b.state with breaker := (b.state.breaker.beforeCall b.state.now).2 },
      .call t .beforeCall (b.state.breaker.beforeCall b.state.now).1⟩ : BreakerEvent clock) ↔
      (b.state.breaker.beforeCall b.state.now).1 = .ok () := by
    unfold Admits
    cases (b.state.breaker.beforeCall b.state.now).1 <;> simp [Act.raised]
  rw [hadmits]
  refine ⟨(run_history h₀ hb).admits_iff hhalf _, fun hrefused => ⟨?_, fun y hy url => ?_⟩⟩
  · rcases b.state.breaker.beforeCall_cases b.state.now with ⟨-, heq⟩ | ⟨a, -, -, -, heq⟩ | ⟨error, heq, -⟩
    · rw [heq] at hrefused
      exact absurd rfl hrefused
    · rw [heq] at hrefused
      exact absurd rfl hrefused
    · show { b.state with breaker := (b.state.breaker.beforeCall b.state.now).2 } = b.state
      rw [heq]
  · refine refused_sends_nothing h he hcalls ?_ url y hy
    rcases hv : (b.state.breaker.beforeCall b.state.now).1 with error | v
    · rfl
    · exact absurd hv hrefused

end

/-- A call that cannot connect, and one that asks at the same time of the clock. -/
def failedThenRefused : Config (externalSystem (· ≤ ·)) :=
  asked (answered (asked (.init exampleBreaker) 0) 0 3 (.error .httpConnectError)) 1

theorem failedThenRefused_sequential : Sequential (.init exampleBreaker) failedThenRefused := by
  have hserve := fun get => upstreamStep_serve (.answering get)
  have hfirst : Sequential (.init exampleBreaker)
      (answered (asked (.init exampleBreaker) 0) 0 3 (.error .httpConnectError)) :=
    Relation.ReflTransGen.trans (Sequential.request (hserve _) .refl (Config.quiet_init _) 0 exampleFetch 1)
      (Run.calls (hserve _) _ _)
  refine Sequential.request (hserve _) hfirst (Run.quiet hfirst ?_) 1 exampleFetch 1
  decide +kernel

theorem sequential_admission_failedThenRefused :
    (∀ u e v t, failedThenRefused.trace = u ++ e :: v → Calls t .beforeCall e →
      (Admits t e ↔ (failures v : ℤ) < 1 ∨ ∃ last, lastFailure v = some last ∧ 10 ≤ Double.sub e.before.now last) ∧
      (¬ Admits t e → e.after = e.before ∧ ∀ y ∈ failedThenRefused.trace, ∀ url, ¬ Calls t (.httpGet url) y)) ∧
    (∀ t x, (∃ e ∈ failedThenRefused.trace, Admits t e) → failedThenRefused.result t = some x →
      failedThenRefused.trace.countP (fun e => decide (Calls t .recordSuccess e)) = (if x.isOk then 1 else 0) ∧
      failedThenRefused.trace.countP (fun e => decide (Calls t .recordFailure e)) = (if x.isOk then 0 else 1)) := by
  refine sequential_admission (n := 1) (T := 10) rfl failedThenRefused_sequential ?_
  rintro t x ⟨e, he, hadmits⟩ hx
  have hzero : ∀ e ∈ failedThenRefused.trace, e.act.called = some .beforeCall → e.act.raised = false →
      e.act.thread = 0 := by decide +kernel
  obtain rfl : t = 0 := hadmits.1.1.symm.trans (hzero e he hadmits.1.2 hadmits.2)
  have hresult : failedThenRefused.result 0 = some (.error .httpConnectError) := by decide +kernel
  rw [hresult] at hx
  cases hx
  rfl

end TaskApi
