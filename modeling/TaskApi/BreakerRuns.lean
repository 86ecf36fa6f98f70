/-
# Runs of overlapping calls on one breaker

What holds of the breaker in every interleaving, with any clock: its count and
its opening time follow the history of recorded outcomes (`run_history`),
it is half open only while nothing has happened since a probe was admitted
(`run_probe`), and what a call has recorded is what its phase counts
(`recordCount_eq`).

Key definitions: `Admits`, `Records`, `Probe`, `failures`, `lastFailure`,
`recordCount`.
Key theorems: `run_history`, `run_probe`, `recordCount_eq`, `exit_failed`.
-/
import TaskApi.ExternalService

namespace TaskApi

open Conc

/-- An event of calls sharing a breaker. -/
abbrev BreakerEvent (clock : ℚ → ℚ → Prop) := Event (externalSystem clock)

section

variable {clock : ℚ → ℚ → Prop} {gate : Config (externalSystem clock) → Prop} {b₀ : BreakerState}
  {c : Config (externalSystem clock)} {tr : List (BreakerEvent clock)} {e : BreakerEvent clock} {t : ℕ}

/-- Thread `t` made the call `x`. -/
def Calls (t : ℕ) (x : UpstreamCall) (e : BreakerEvent clock) : Prop :=
  e.act.thread = t ∧ e.act.called = some x

instance (t : ℕ) (x : UpstreamCall) (e : BreakerEvent clock) : Decidable (Calls t x e) :=
  inferInstanceAs (Decidable (_ ∧ _))

/-- `before_call` let the call of thread `t` through. -/
def Admits (t : ℕ) (e : BreakerEvent clock) : Prop := Calls t .beforeCall e ∧ e.act.raised = false

instance (t : ℕ) (e : BreakerEvent clock) : Decidable (Admits t e) := inferInstanceAs (Decidable (_ ∧ _))

/-- Thread `t` recorded its outcome. -/
def Records (t : ℕ) (e : BreakerEvent clock) : Prop := Calls t .recordSuccess e ∨ Calls t .recordFailure e

instance (t : ℕ) (e : BreakerEvent clock) : Decidable (Records t e) := inferInstanceAs (Decidable (_ ∨ _))

/-- Thread `t` was admitted as the half-open probe. -/
def Probe (t : ℕ) (e : BreakerEvent clock) : Prop := Admits t e ∧ e.before.breaker.state = .opened

instance (t : ℕ) (e : BreakerEvent clock) : Decidable (Probe t e) := inferInstanceAs (Decidable (_ ∧ _))

@[simp] theorem calls_start {s s' : BreakerState} {t' : ℕ} {r : FetchRequest} {x : UpstreamCall} :
    ¬ Calls t x (⟨s, s', .start t' r⟩ : BreakerEvent clock) := fun h => by cases h.2

@[simp] theorem calls_call {s s' : BreakerState} {t' : ℕ} {x y : UpstreamCall} {v : upstreamCalls.Out y} :
    Calls t x (⟨s, s', .call t' y v⟩ : BreakerEvent clock) ↔ t' = t ∧ y = x :=
  and_congr Iff.rfl Option.some_inj

@[simp] theorem admits_start {s s' : BreakerState} {t' : ℕ} {r : FetchRequest} :
    ¬ Admits t (⟨s, s', .start t' r⟩ : BreakerEvent clock) := fun h => calls_start h.1

@[simp] theorem records_start {s s' : BreakerState} {t' : ℕ} {r : FetchRequest} :
    ¬ Records t (⟨s, s', .start t' r⟩ : BreakerEvent clock) := fun h => h.elim calls_start calls_start

theorem Calls.exists (h : Calls t x e) : ∃ v, e.act = .call t x v := by
  rcases e with ⟨s, s', _ | ⟨t', y, v⟩⟩
  · exact absurd h calls_start
  · obtain ⟨rfl, rfl⟩ := calls_call.mp h
    exact ⟨v, rfl⟩

theorem Admits.exists (h : Admits t e) : ∃ v, e.act = .call t .beforeCall (.ok v) := by
  obtain ⟨v, hv⟩ := h.1.exists
  cases v with
  | ok v => exact ⟨v, hv⟩
  | error error =>
    have hraised := h.2
    rw [hv] at hraised
    cases hraised

/-! ### The history of recorded outcomes -/

/-- The failures recorded since the latest recorded success, or since the start. -/
def failures : List (BreakerEvent clock) → ℕ
  | [] => 0
  | e :: tr =>
    if e.act.called = some .recordSuccess then 0
    else if e.act.called = some .recordFailure then failures tr + 1
    else failures tr

/-- The clock at the latest recorded failure. -/
def lastFailure : List (BreakerEvent clock) → Option ℚ
  | [] => none
  | e :: tr => if e.act.called = some .recordFailure then some e.before.now else lastFailure tr

variable {n : ℤ} {T : ℚ}

/-- In every run the breaker is as its history of recorded outcomes says. -/
theorem run_history (h₀ : CircuitBreaker.init n T = .ok b₀.breaker) (h : Run gate (.init b₀) c) :
    c.state.breaker.History n T (failures c.trace) (lastFailure c.trace) := by
  refine @Run.invariant _ _ gate b₀ (fetchDiscipline clock)
    (fun s tr => s.breaker.History n T (failures tr) (lastFailure tr)) (.init h₀) ?_ ?_ ?_ c h
  · exact fun b _ ih t r _ => ih
  · intro b _ ih t r x v s' _ _ _ hs
    cases x with
    | beforeCall =>
      obtain ⟨-, rfl⟩ := upstreamStep_beforeCall hs
      exact ih.beforeCall b.state.now
    | recordSuccess =>
      obtain ⟨-, rfl⟩ := upstreamStep_recordSuccess hs
      exact ih.recordSuccess
    | recordFailure =>
      obtain ⟨-, rfl⟩ := upstreamStep_recordFailure hs
      exact ih.recordFailure b.state.now
    | _ =>
      obtain rfl := upstreamStep_state rfl hs
      exact ih
  · rintro b _ ih s' ⟨-, hbreaker⟩
    rw [hbreaker]
    exact ih

/-! ### The probe -/

/-- Nothing of the breaker's has happened since a probe was admitted. -/
def ProbePending (tr : List (BreakerEvent clock)) : Prop :=
  ∃ t u e v, tr = u ++ e :: v ∧ Probe t e ∧ ∀ x ∈ u, ∀ t', ¬ Admits t' x ∧ ¬ Records t' x

theorem ProbePending.cons (h : ProbePending tr) (he : ∀ t', ¬ Admits t' e ∧ ¬ Records t' e) :
    ProbePending (e :: tr) := by
  obtain ⟨t, u, p, v, rfl, hp, hu⟩ := h
  refine ⟨t, e :: u, p, v, rfl, hp, fun x hx => ?_⟩
  rcases List.mem_cons.mp hx with rfl | hx
  · exact he
  · exact hu x hx

/-- The breaker is half open only while a probe is pending. -/
theorem run_probe (h₀ : CircuitBreaker.init n T = .ok b₀.breaker) (h : Run gate (.init b₀) c)
    (hhalf : c.state.breaker.state = .halfOpen) : ProbePending c.trace := by
  refine @Run.invariant _ _ gate b₀ (fetchDiscipline clock)
    (fun s tr => s.breaker.state = .halfOpen → ProbePending tr) ?_ ?_ ?_ ?_ c h hhalf
  · intro hhalf
    obtain ⟨-, -, -, -, -, hclosed⟩ := CircuitBreaker.init_ok h₀
    rw [hclosed] at hhalf
    cases hhalf
  · exact fun b _ ih t r _ hhalf => (ih hhalf).cons fun t' => ⟨admits_start, records_start⟩
  · intro b _ ih t r x v s' _ _ _ hs hhalf
    cases x with
    | beforeCall =>
      obtain ⟨rfl, rfl⟩ := upstreamStep_beforeCall hs
      rcases b.state.breaker.beforeCall_cases b.state.now with
        ⟨hclosed, heq⟩ | ⟨at_, hopened, -, -, heq⟩ | ⟨error, heq, -⟩
      · rw [heq] at hhalf
        rw [hclosed] at hhalf
        cases hhalf
      · refine ⟨t, [], _, b.trace, rfl, ⟨⟨calls_call.mpr ⟨rfl, rfl⟩, ?_⟩, hopened⟩, by simp⟩
        rw [heq]
        rfl
      · refine (ih (by rw [heq] at hhalf; exact hhalf)).cons fun t' => ⟨fun hadmits => ?_, by simp [Records]⟩
        have hraised := hadmits.2
        rw [heq] at hraised
        cases hraised
    | recordSuccess =>
      obtain ⟨-, rfl⟩ := upstreamStep_recordSuccess hs
      cases hhalf
    | recordFailure =>
      obtain ⟨-, rfl⟩ := upstreamStep_recordFailure hs
      exact absurd hhalf (CircuitBreaker.recordFailure_state_ne _ _)
    | _ =>
      obtain rfl := upstreamStep_state rfl hs
      exact (ih hhalf).cons fun t' => ⟨by simp [Admits], by simp [Records]⟩
  · rintro b _ ih s' ⟨-, hbreaker⟩ hhalf
    rw [hbreaker] at hhalf
    exact ih hhalf

/-! ### What a call has recorded -/

/-- The number of outcomes thread `t` has recorded. -/
def recordCount (t : ℕ) (tr : List (BreakerEvent clock)) : ℕ := tr.countP fun e => decide (Records t e)

theorem recordCount_append (u v : List (BreakerEvent clock)) :
    recordCount t (u ++ v) = recordCount t u + recordCount t v := List.countP_append

theorem recordCount_eq_zero : recordCount t tr = 0 ↔ ∀ e ∈ tr, ¬ Records t e := by
  simp [recordCount, List.countP_eq_zero]

/-- The phase of a thread counts its records. -/
theorem phase_records (t : ℕ) : ∀ tr : List (BreakerEvent clock),
    (phase fetchAutomaton t tr).successes = tr.countP (fun e => decide (Calls t .recordSuccess e)) ∧
    (phase fetchAutomaton t tr).failures = tr.countP (fun e => decide (Calls t .recordFailure e))
  | [] => ⟨rfl, rfl⟩
  | ⟨s, s', .start t' r⟩ :: tr => by
    obtain ⟨ih1, ih2⟩ := phase_records t tr
    rw [phase_start, ih1, ih2]
    simp
  | ⟨s, s', .call t' x v⟩ :: tr => by
    obtain ⟨ih1, ih2⟩ := phase_records t tr
    by_cases ht : t' = t
    · subst ht
      rw [phase_call_self]
      rw [List.countP_cons, List.countP_cons, ← ih1, ← ih2]
      cases x <;> cases v <;> simp [FetchPhase.next]
    · rw [phase_call_ne _ ht, ih1, ih2]
      simp [ht]

theorem recordCount_eq (t : ℕ) (tr : List (BreakerEvent clock)) : recordCount t tr =
    (phase fetchAutomaton t tr).successes + (phase fetchAutomaton t tr).failures := by
  obtain ⟨h1, h2⟩ := phase_records t tr
  rw [h1, h2]
  unfold recordCount
  clear h1 h2
  induction tr with
  | nil => rfl
  | cons e tr ih =>
    have hdisjoint : Calls t .recordSuccess e → ¬ Calls t .recordFailure e := fun hs hf => by
      have := hs.2.symm.trans hf.2
      cases this
    rw [List.countP_cons, List.countP_cons, List.countP_cons, ih]
    by_cases hs : Calls t .recordSuccess e
    · simp only [Records, hs, hdisjoint hs, true_or, decide_true, decide_false, if_true]
      simp
      omega
    · by_cases hf : Calls t .recordFailure e
      · simp [Records, hs, hf]
        omega
      · simp [Records, hs, hf]

/-- What a thread did was allowed to its request. -/
theorem fetch_allowed (h : Run gate (.init b₀) c) {u v : List (BreakerEvent clock)}
    (hsplit : c.trace = u ++ e :: v) {x : UpstreamCall} {w : upstreamCalls.Out x}
    (hact : e.act = .call t x w) :
    ∃ r, Requested t r c.trace ∧ (phase fetchAutomaton t v).allows r x := by
  rcases e with ⟨s, s', act⟩
  subst hact
  obtain ⟨-, r, -, -, -, -, hr, -, hallows, -⟩ := Run.made (fetchDiscipline clock) h hsplit
  refine ⟨r, ?_, hallows⟩
  rw [hsplit]
  exact (hr.cons _).append u

/-- A call that was admitted is given the breaker, and its phase says so. -/
theorem Admits.phase (h : Run gate (.init b₀) c) {r : FetchRequest} (hr : Requested t r c.trace)
    (he : e ∈ c.trace) (hadmits : Admits t e) :
    r.circuitBreaker ∧ (phase fetchAutomaton t c.trace).admitted := by
  obtain ⟨v, hact⟩ := hadmits.exists
  obtain ⟨u, tr', hsplit⟩ := List.append_of_mem he
  obtain ⟨r', hr', hallows⟩ := fetch_allowed h hsplit hact
  obtain rfl := h.requested_unique hr hr'
  exact ⟨hallows.1, @phase_of_call _ _ fetchAutomaton t (fun q : FetchPhase => q.admitted = true)
    FetchPhase.admitted_next _ _ he _ _ hact fun _ => rfl⟩

/-- A call that was refused is never admitted. -/
theorem refused_phase (h : Run gate (.init b₀) c) (he : e ∈ c.trace) (hcalls : Calls t .beforeCall e)
    (hraised : e.act.raised = true) :
    (phase fetchAutomaton t c.trace).asked = true ∧ (phase fetchAutomaton t c.trace).admitted = false := by
  refine @Run.invariant _ _ gate b₀ (fetchDiscipline clock)
    (fun _ tr => ∀ e ∈ tr, Calls t .beforeCall e → e.act.raised = true →
      (phase fetchAutomaton t tr).asked = true ∧ (phase fetchAutomaton t tr).admitted = false)
    (by simp) ?_ ?_ ?_ c h e he hcalls hraised
  · intro b _ ih t' r _ e he hcalls hraised
    rcases List.mem_cons.mp he with rfl | he
    · exact absurd hcalls calls_start
    · exact ih e he hcalls hraised
  · intro b _ ih t' r x v s' _ _ hallows _ e he hcalls hraised
    by_cases ht : t' = t
    · subst ht
      rw [phase_call_self]
      rcases List.mem_cons.mp he with rfl | he
      · obtain ⟨-, rfl⟩ := calls_call.mp hcalls
        have hphase : phase fetchAutomaton t' b.trace = {} := hallows.2
        rw [hphase]
        cases v with
        | ok v => cases hraised
        | error error => exact ⟨rfl, rfl⟩
      · obtain ⟨hasked, hadmitted⟩ := ih e he hcalls hraised
        cases x with
        | beforeCall =>
          have hphase : phase fetchAutomaton t' b.trace = {} := hallows.2
          rw [hphase] at hasked
          cases hasked
        | _ => cases v <;> exact ⟨hasked, hadmitted⟩
    · rw [phase_call_ne _ ht]
      rcases List.mem_cons.mp he with rfl | he
      · exact absurd (calls_call.mp hcalls).1 ht
      · exact ih e he hcalls hraised
  · exact fun b _ ih s' _ => ih

/-- What left the retry loop of a call is in its phase. -/
theorem exit_failed (h : Run gate (.init b₀) c) (he : e ∈ c.trace) {delay : Option ℚ} {error : UpstreamExn}
    {scope : TimeoutScope} (hact : e.act = .call t (.exitTimeout delay error) (.ok scope)) :
    (phase fetchAutomaton t c.trace).failed = some (leaves scope error) := by
  obtain ⟨u, tr', hsplit⟩ := List.append_of_mem he
  obtain ⟨r, -, hallows⟩ := fetch_allowed h hsplit hact
  have hnone : (phase fetchAutomaton t tr').failed = none := hallows.2.2.2.2.2
  rcases e with ⟨s, s', act⟩
  subst hact
  rw [hsplit]
  have hkeep : ∀ (q : FetchPhase) (x : UpstreamCall) (v : upstreamCalls.Out x),
      q.failed = some (leaves scope error) → (q.next x v).failed = some (leaves scope error) :=
    fun q x v hq => by cases x <;> cases v <;> simp [FetchPhase.next, hq]
  refine @phase_stable _ _ fetchAutomaton t (fun q : FetchPhase => q.failed = some (leaves scope error))
    hkeep _ ?_ u
  rw [phase_call_self]
  show some ((phase fetchAutomaton t tr').failed.getD (leaves scope error)) = _
  rw [hnone]
  rfl

/-- An exception in the phase left the retry loop. -/
theorem failed_exit {error : UpstreamExn} (h : (phase fetchAutomaton t tr).failed = some error) :
    ∃ e ∈ tr, ∃ delay raised scope, e.act = .call t (.exitTimeout delay raised) (.ok scope) ∧
      leaves scope raised = error := by
  obtain ⟨u, s, s', x, v, tr', rfl, hbefore, hafter⟩ :=
    phase_became (A := fetchAutomaton) (P := fun q : FetchPhase => q.failed = some error) (by simp) h
  refine ⟨_, List.mem_append_right _ List.mem_cons_self, ?_⟩
  cases x with
  | exitTimeout delay raised =>
    cases v with
    | error e => exact absurd hafter hbefore
    | ok scope =>
      refine ⟨delay, raised, scope, rfl, ?_⟩
      have hafter : (phase fetchAutomaton t tr').failed.getD (leaves scope raised) = error :=
        Option.some.inj hafter
      cases hfailed : (phase fetchAutomaton t tr').failed with
      | none => rwa [hfailed] at hafter
      | some e =>
        rw [hfailed] at hafter hbefore
        exact absurd (congrArg some hafter) hbefore
  | beforeCall => cases v <;> exact absurd hafter hbefore
  | recordSuccess => exact absurd hafter hbefore
  | recordFailure => exact absurd hafter hbefore
  | _ => exact absurd hafter hbefore

/-- A call that is being admitted has recorded nothing. -/
theorem recordCount_before (h : Run gate (.init b₀) c) {u v : List (BreakerEvent clock)} {e : BreakerEvent clock}
    (hsplit : c.trace = u ++ e :: v) (hadmits : Admits t e) : recordCount t v = 0 := by
  obtain ⟨w, hact⟩ := hadmits.exists
  obtain ⟨r, -, hallows⟩ := fetch_allowed h hsplit hact
  have hphase : phase fetchAutomaton t v = {} := hallows.2
  rw [recordCount_eq, hphase]
  rfl

/-- A call that has made no record since it was admitted has made none. -/
theorem recordCount_since (h : Run gate (.init b₀) c) {u v : List (BreakerEvent clock)} {e : BreakerEvent clock}
    (hsplit : c.trace = u ++ e :: v) (hadmits : Admits t e) (hu : ∀ x ∈ u, ¬ Records t x) :
    recordCount t c.trace = 0 := by
  have hnotRecord : ¬ Records t e := by
    rintro (hs | hf)
    · cases hs.2.symm.trans hadmits.1.2
    · cases hf.2.symm.trans hadmits.1.2
  have hv := recordCount_eq_zero.mp (recordCount_before h hsplit hadmits)
  rw [hsplit, recordCount_append, recordCount_eq_zero.mpr hu, Nat.zero_add]
  refine recordCount_eq_zero.mpr fun x hx => ?_
  rcases List.mem_cons.mp hx with rfl | hx
  · exact hnotRecord
  · exact hv x hx

/-! ### Schedules -/

/-- Every request of the HTTP client ends in `get`, and no scope has expired. -/
def Answers.answering (get : Except UpstreamExn ℤ) : Answers where
  httpGet _ := get
  raiseForStatus _ := .ok ()
  uniform lo _ := lo
  sleepCancelled := false
  exitTimeout _ _ := ⟨false, false⟩
  uniform_mem _ _ h := ⟨le_rfl, h⟩
  not_expired _ := rfl

/-- The same moment with the clock at `now`. -/
def atTime (c : Config (externalSystem clock)) (now : ℚ) : Config (externalSystem clock) :=
  ⟨{ c.state with now }, c.trace, c.pool⟩

theorem interleaved_atTime {c' : Config (externalSystem clock)} (h : Interleaved c c') {now : ℚ}
    (hclock : clock c'.state.now now) : Interleaved c (atTime c' now) :=
  h.tail (.env _ ⟨hclock, rfl⟩)

end

/-- A breaker that opens at the first failure, for ten seconds. -/
def exampleBreaker : BreakerState where
  now := 0
  breaker := { failureThreshold := 1, recoveryTimeout := 10,
               one_le_threshold := by decide, recoveryTimeout_pos := by norm_num }

/-- One attempt, with the breaker. -/
def exampleFetch : FetchRequest := { url := "https://example.com", maxAttempts := 1, circuitBreaker := true }

/-- Thread `t` starts and asks the breaker. -/
def asked (c : Config (externalSystem (· ≤ ·))) (t : ℕ) : Config (externalSystem (· ≤ ·)) :=
  c.schedule (BreakerState.serve (.answering (.ok 200))) [.start t exampleFetch, .call t]

/-- Thread `t` makes its next `k` calls; its request ends in `get`. -/
def answered (c : Config (externalSystem (· ≤ ·))) (t k : ℕ) (get : Except UpstreamExn ℤ) :
    Config (externalSystem (· ≤ ·)) :=
  c.schedule (BreakerState.serve (.answering get)) ((List.replicate k t).map .call)

section

variable {c c' : Config (externalSystem (· ≤ ·))}

theorem interleaved_asked (h : Interleaved c c') (t : ℕ) : Interleaved c (asked c' t) :=
  h.trans (Interleaved.schedule (upstreamStep_serve _) _ _)

theorem interleaved_answered (h : Interleaved c c') (t k : ℕ) (get : Except UpstreamExn ℤ) :
    Interleaved c (answered c' t k get) :=
  h.trans (Interleaved.schedule (upstreamStep_serve _) _ _)

end

/-- Two calls are admitted, and the first cannot connect: the breaker is open. -/
def openedUnderCall : Config (externalSystem (· ≤ ·)) :=
  answered (asked (asked (.init exampleBreaker) 0) 1) 0 3 (.error .httpConnectError)

theorem openedUnderCall_interleaved : Interleaved (.init exampleBreaker) openedUnderCall :=
  interleaved_answered (interleaved_asked (interleaved_asked .refl 0) 1) 0 3 _

end TaskApi
