/-
# Outcomes that arrive late

`record_success` and `record_failure` do not know which call they are for, so the
outcome of a call that was admitted before the breaker opened is taken for the
current one's. While the probe is in flight such an outcome closes or reopens
the breaker under it; without one only the probe decides (`probe_exclusive_iff`).
While the breaker is open such a success closes it before the recovery timeout;
without one, and unless the difference of two readings is rounded up to the
recovery timeout, nobody is let through in the quiet period (`quiet_period`).

Key definitions: `ProbeExclusive`, `OnlyProbeRecords`, `QuietPeriod`,
`NoEarlySuccess`, `NotRoundedUp`, `AskedInTime`.
Key theorems: `probe_exclusive_iff`, `quiet_period`.
-/
import TaskApi.BreakerRuns

namespace TaskApi

open Conc

section

variable {clock : ℚ → ℚ → Prop} {b₀ : BreakerState} {c : Config (externalSystem clock)}
  {tr : List (BreakerEvent clock)} {t : ℕ} {n : ℤ} {T : ℚ}

/-! ### The probe decides -/

/-- Thread `t` was admitted as the probe in event `e` and has recorded nothing in
the events `u` since. -/
def ProbeInFlight (t : ℕ) (u : List (BreakerEvent clock)) (e : BreakerEvent clock) : Prop :=
  Probe t e ∧ ∀ x ∈ u, ¬ Records t x

theorem ProbeInFlight.of_cons {x e : BreakerEvent clock} {u : List (BreakerEvent clock)}
    (h : ProbeInFlight t (x :: u) e) : ProbeInFlight t u e :=
  ⟨h.1, fun y hy => h.2 y (List.mem_cons_of_mem _ hy)⟩

/-- While a probe is in flight, the breaker is half open and no call has been
admitted since. -/
def ProbeExclusive (s : BreakerState) (tr : List (BreakerEvent clock)) : Prop :=
  ∀ t u e v, tr = u ++ e :: v → ProbeInFlight t u e →
    s.breaker.state = .halfOpen ∧ ∀ x ∈ u, ∀ t', ¬ Admits t' x

/-- While a probe is in flight, no other call records its outcome. -/
def OnlyProbeRecords (tr : List (BreakerEvent clock)) : Prop :=
  ∀ w x t u e v, tr = w ++ x :: (u ++ e :: v) → ProbeInFlight t u e → ∀ t', Records t' x → t' = t

theorem OnlyProbeRecords.of_append {u : List (BreakerEvent clock)} (h : OnlyProbeRecords (u ++ tr)) :
    OnlyProbeRecords tr := by
  intro w x t u' e v hsplit
  refine h (u ++ w) x t u' e v ?_
  rw [hsplit, List.append_assoc]

/-- A probe has just been admitted: the breaker is half open. -/
theorem Probe.halfOpen {s s' : BreakerState} {v : upstreamCalls.Out .beforeCall}
    (h : Probe t (⟨s, s', .call t .beforeCall v⟩ : BreakerEvent clock)) (hs : upstreamStep .beforeCall s v s') :
    s'.breaker.state = .halfOpen := by
  obtain ⟨⟨-, hraised⟩, hopened⟩ := h
  obtain ⟨rfl, rfl⟩ := upstreamStep_beforeCall hs
  have hopened : s.breaker.state = .opened := hopened
  rcases s.breaker.beforeCall_cases s.now with
    ⟨hclosed, -⟩ | ⟨at_, -, -, -, heq⟩ | ⟨error, heq, -⟩
  · rw [hopened] at hclosed
    cases hclosed
  · rw [heq]
  · rw [heq] at hraised
    cases hraised

/-- Half open, the breaker refuses every call. -/
theorem refused_of_halfOpen {s s' : BreakerState} {v : upstreamCalls.Out .beforeCall}
    (hs : upstreamStep .beforeCall s v s') (hhalf : s.breaker.state = .halfOpen) :
    s' = s ∧ ∃ error, v = .error error := by
  obtain ⟨rfl, rfl⟩ := upstreamStep_beforeCall hs
  rcases s.breaker.beforeCall_cases s.now with
    ⟨hclosed, -⟩ | ⟨at_, hopened, -⟩ | ⟨error, heq, -⟩
  · rw [hhalf] at hclosed
    cases hclosed
  · rw [hhalf] at hopened
    cases hopened
  · rw [heq]
    exact ⟨rfl, error, rfl⟩

theorem ProbeExclusive.of_onlyProbeRecords (h : Interleaved (.init b₀) c) (honly : OnlyProbeRecords c.trace) :
    ProbeExclusive c.state c.trace := by
  refine @Run.invariant _ _ _ b₀ (fetchDiscipline clock)
    (fun s tr => OnlyProbeRecords tr → ProbeExclusive s tr) ?_ ?_ ?_ ?_ c h honly
  · intro _ t u e v hsplit
    simp at hsplit
  · intro b _ ih t₁ r _ honly t u e v hsplit hflight
    rcases List.cons_eq_append_iff.mp hsplit with ⟨rfl, heq⟩ | ⟨u, rfl, htail⟩
    · obtain ⟨rfl, -⟩ := List.cons.inj heq
      exact absurd hflight.1.1 admits_start
    · obtain ⟨hhalf, hnone⟩ := ih (honly.of_append (u := [_])) t u e v htail hflight.of_cons
      refine ⟨hhalf, fun y hy t' => ?_⟩
      rcases List.mem_cons.mp hy with rfl | hy
      · exact admits_start
      · exact hnone y hy t'
  · intro b _ ih t₁ r x v₁ s' _ _ _ hs honly t u e v hsplit hflight
    rcases List.cons_eq_append_iff.mp hsplit with ⟨rfl, heq⟩ | ⟨u, rfl, htail⟩
    · obtain ⟨rfl, -⟩ := List.cons.inj heq
      obtain ⟨rfl, rfl⟩ := calls_call.mp hflight.1.1.1
      exact ⟨hflight.1.halfOpen hs, by simp⟩
    · obtain ⟨hhalf, hnone⟩ := ih (honly.of_append (u := [_])) t u e v htail hflight.of_cons
      -- a record now would be the probe's own
      have hrecord : ¬ Records t₁ (⟨b.state, s', .call t₁ x v₁⟩ : BreakerEvent clock) := fun hrec => by
        obtain rfl := honly [] _ t u e v (by rw [htail]; rfl) hflight.of_cons t₁ hrec
        exact hflight.2 _ List.mem_cons_self hrec
      suffices hkeep : s' = b.state ∧ ∀ t', ¬ Admits t' (⟨b.state, s', .call t₁ x v₁⟩ : BreakerEvent clock) by
        obtain ⟨rfl, hadmits⟩ := hkeep
        refine ⟨hhalf, fun y hy t' => ?_⟩
        rcases List.mem_cons.mp hy with rfl | hy
        · exact hadmits t'
        · exact hnone y hy t'
      cases x with
      | beforeCall =>
        obtain ⟨rfl, error, rfl⟩ := refused_of_halfOpen hs hhalf
        exact ⟨rfl, fun t' hadmits => by cases hadmits.2⟩
      | recordSuccess => exact absurd (.inl (calls_call.mpr ⟨rfl, rfl⟩)) hrecord
      | recordFailure => exact absurd (.inr (calls_call.mpr ⟨rfl, rfl⟩)) hrecord
      | _ => exact ⟨upstreamStep_state rfl hs, fun t' hadmits => by simp [Admits] at hadmits⟩
  · rintro b _ ih s' ⟨-, hbreaker⟩ honly t u e v hsplit hflight
    rw [hbreaker]
    exact ih honly t u e v hsplit hflight

/-- A record never leaves the breaker half open. -/
theorem Records.state_ne (h : Interleaved (.init b₀) c) {w v : List (BreakerEvent clock)}
    {x : BreakerEvent clock} (hsplit : c.trace = w ++ x :: v) (hrec : Records t x) :
    x.after.breaker.state ≠ .halfOpen := by
  rcases hrec with hrec | hrec
  all_goals
    obtain ⟨a, hact⟩ := hrec.exists
    rcases x with ⟨s, s', act⟩
    subst hact
    obtain ⟨b, r, -, -, -, -, -, -, -, hs⟩ := Run.made (fetchDiscipline clock) h hsplit
  · obtain ⟨-, rfl⟩ := upstreamStep_recordSuccess hs
    exact fun hhalf => by cases hhalf
  · obtain ⟨-, rfl⟩ := upstreamStep_recordFailure hs
    exact (CircuitBreaker.recordFailure_state_ne _ _)

/-- **Only the probe decides** throughout a run exactly if no other call records
its outcome while a probe is in flight. -/
theorem probe_exclusive_iff (h : Interleaved (.init b₀) c) :
    (∀ b, Interleaved (.init b₀) b → Interleaved b c → ProbeExclusive b.state b.trace) ↔
      OnlyProbeRecords c.trace := by
  constructor
  · intro hexclusive w x t u e v hsplit hflight t' hrec
    by_contra hne
    obtain ⟨c₁, c₂, hc₁, hs, hc₂, -, -, hafter, htrace⟩ := Run.split h hsplit
    have hflight' : ProbeInFlight t (x :: u) e := ⟨hflight.1, fun y hy => by
      rcases List.mem_cons.mp hy with rfl | hy
      · rintro (hs | hf)
        · exact hne (hrec.elim (·.1.symm.trans hs.1) (·.1.symm.trans hs.1))
        · exact hne (hrec.elim (·.1.symm.trans hf.1) (·.1.symm.trans hf.1))
      · exact hflight.2 y hy⟩
    have hhalf := (hexclusive c₂ (hc₁.tail hs) hc₂ t (x :: u) e v htrace hflight').1
    rw [hafter] at hhalf
    exact hrec.state_ne h hsplit hhalf
  · intro honly b hb hbc
    obtain ⟨u, hu⟩ := Run.trace_suffix hbc
    rw [hu] at honly
    exact .of_onlyProbeRecords hb honly.of_append

/-! ### The quiet period -/

/-- `record_failure` called `_open`, at the reading `e.before.now`. -/
def Opening (e : BreakerEvent clock) : Prop := e.act.called = some .recordFailure ∧ e.before.breaker.Opens

instance (e : BreakerEvent clock) : Decidable (Opening e) := inferInstanceAs (Decidable (_ ∧ _))

/-- For the time `T` after an opening no call is admitted, and no call that is
admitted after it sends a request. -/
structure QuietPeriod (T : ℚ) (tr : List (BreakerEvent clock)) : Prop where
  admitted : ∀ w x u e v t, tr = w ++ x :: (u ++ e :: v) → Opening e → Admits t x →
    e.before.now + T ≤ x.before.now
  sent : ∀ w y w' x u e v t url, tr = w ++ y :: (w' ++ x :: (u ++ e :: v)) → Opening e → Admits t x →
    Calls t (.httpGet url) y → e.before.now + T ≤ y.before.now

/-- For the time `T` after an opening no call records a success. -/
def NoEarlySuccess (T : ℚ) (tr : List (BreakerEvent clock)) : Prop :=
  ∀ w x u e v t, tr = w ++ x :: (u ++ e :: v) → Opening e → Calls t .recordSuccess x →
    e.before.now + T ≤ x.before.now

theorem NoEarlySuccess.of_append {u : List (BreakerEvent clock)} (h : NoEarlySuccess T (u ++ tr)) :
    NoEarlySuccess T tr := by
  intro w x u' e v t hsplit
  refine h (u ++ w) x u' e v t ?_
  rw [hsplit, List.append_assoc]

/-- `e` opened the breaker, and none of the events `u` since did. -/
def LatestOpening (u : List (BreakerEvent clock)) (e : BreakerEvent clock) : Prop :=
  Opening e ∧ ∀ x ∈ u, ¬ Opening x

theorem LatestOpening.of_cons {u : List (BreakerEvent clock)} {x e : BreakerEvent clock}
    (h : LatestOpening (x :: u) e) : LatestOpening u e :=
  ⟨h.1, fun y hy => h.2 y (List.mem_cons_of_mem _ hy)⟩

/-- At the reading `now` less than `T` has passed since the latest opening in doubles
too: the difference is not rounded up to `T`. -/
def NotRoundedUp (T now : ℚ) (tr : List (BreakerEvent clock)) : Prop :=
  ∀ u e v, tr = u ++ e :: v → LatestOpening u e → now < e.before.now + T → Double.sub now e.before.now < T

/-- The doubles nearest to 2.096 and 62.096 are less than 60 apart, and the double
nearest to their difference is 60. -/
example : Double.round (62096 / 1000) < Double.round (2096 / 1000) + 60 ∧
    Double.sub (Double.round (62096 / 1000)) (Double.round (2096 / 1000)) = 60 := by decide +kernel

/-- No call asks at a reading whose difference is rounded up. -/
def AskedInTime (T : ℚ) (tr : List (BreakerEvent clock)) : Prop :=
  ∀ w x v t, tr = w ++ x :: v → Calls t .beforeCall x → NotRoundedUp T x.before.now v

theorem AskedInTime.of_append {u : List (BreakerEvent clock)} (h : AskedInTime T (u ++ tr)) : AskedInTime T tr := by
  intro w x v t hsplit
  refine h (u ++ w) x v t ?_
  rw [hsplit, List.append_assoc]

/-- For the time `T` after the latest opening no call is admitted. -/
def Rejects (T : ℚ) (tr : List (BreakerEvent clock)) : Prop :=
  ∀ w x u e v t, tr = w ++ x :: (u ++ e :: v) → LatestOpening u e → Admits t x → e.before.now + T ≤ x.before.now

theorem Rejects.of_append {u : List (BreakerEvent clock)} (h : Rejects T (u ++ tr)) : Rejects T tr := by
  intro w x u' e v t hsplit
  refine h (u ++ w) x u' e v t ?_
  rw [hsplit, List.append_assoc]

/-- The breaker is open since the latest opening, until the quiet period is over. -/
def OpenSince (T : ℚ) (s : BreakerState) (tr : List (BreakerEvent clock)) : Prop :=
  ∀ u e v, tr = u ++ e :: v → LatestOpening u e → s.now < e.before.now + T →
    s.breaker.state = .opened ∧ s.breaker.openedAt = some e.before.now

end

section

variable {b₀ : BreakerState} {c : Config (externalSystem (· ≤ ·))} {n : ℤ} {T : ℚ}

/-- The clock never goes back. -/
theorem clock_mono {c c' : Config (externalSystem (· ≤ ·))} (h : Interleaved c c') :
    c.state.now ≤ c'.state.now := by
  induction h with
  | refl => exact le_rfl
  | tail _ hs ih =>
    refine ih.trans ?_
    cases hs with
    | start t r hg hn => exact le_rfl
    | call t r x k v s' hp hs => exact (upstreamStep_now hs).ge
    | env s' he => exact he.1

theorem event_le_now (h : Interleaved (.init b₀) c) {u v : List (BreakerEvent (· ≤ ·))} {e : BreakerEvent (· ≤ ·)}
    (hsplit : c.trace = u ++ e :: v) : e.before.now ≤ c.state.now := by
  obtain ⟨c₁, c₂, -, hs, hc₂, -, hbefore, -⟩ := Run.split h hsplit
  rw [← hbefore]
  exact clock_mono (Relation.ReflTransGen.head hs hc₂)

/-- After an opening there is a latest one, at that time or later. -/
theorem exists_latestOpening (h : Interleaved (.init b₀) c) {e : BreakerEvent (· ≤ ·)} (he : e ∈ c.trace)
    (hopening : Opening e) :
    ∃ u e' v, c.trace = u ++ e' :: v ∧ LatestOpening u e' ∧ e.before.now ≤ e'.before.now := by
  obtain ⟨e', hfind⟩ := Option.isSome_iff_exists.mp
    (List.find?_isSome.mpr ⟨e, he, decide_eq_true hopening⟩ : (c.trace.find? fun x => decide (Opening x)).isSome)
  obtain ⟨hopening', u, v, hsplit, hnone⟩ := List.find?_eq_some_iff_append.mp hfind
  have hlatest : ∀ x ∈ u, ¬ Opening x := fun x hx => by simpa using hnone x hx
  refine ⟨u, e', v, hsplit, ⟨of_decide_eq_true hopening', hlatest⟩, ?_⟩
  rw [hsplit] at he
  rcases List.mem_append.mp he with hlater | hhere
  · exact absurd hopening (hlatest e hlater)
  · rcases List.mem_cons.mp hhere with rfl | hearlier
    · exact le_rfl
    · obtain ⟨c₁, -, hc₁, -, -, htrace, hbefore, -⟩ := Run.split h hsplit
      obtain ⟨u', v', hv⟩ := List.append_of_mem hearlier
      rw [← hbefore]
      exact event_le_now hc₁ (htrace.trans hv)

/-- A breaker that refuses the calls stays open. -/
theorem open_since (h : Interleaved (.init b₀) c) (hno : NoEarlySuccess T c.trace) (hrejects : Rejects T c.trace) :
    OpenSince T c.state c.trace := by
  refine @Run.invariant _ _ _ b₀ (fetchDiscipline (· ≤ ·))
    (fun s tr => NoEarlySuccess T tr → Rejects T tr → OpenSince T s tr) ?_ ?_ ?_ ?_ c h hno hrejects
  · intro _ _ u e v hsplit
    simp at hsplit
  · intro b _ ih t r _ hno hrejects u e v hsplit hlatest hquiet
    rcases List.cons_eq_append_iff.mp hsplit with ⟨rfl, heq⟩ | ⟨u, rfl, htail⟩
    · obtain ⟨rfl, -⟩ := List.cons.inj heq
      cases hlatest.1.1
    · exact ih (hno.of_append (u := [_])) (hrejects.of_append (u := [_])) u e v htail hlatest.of_cons hquiet
  · intro b hb ih t r x v₁ s' _ _ _ hs hno hrejects u e v hsplit hlatest hquiet
    rcases List.cons_eq_append_iff.mp hsplit with ⟨rfl, heq⟩ | ⟨u, rfl, htail⟩
    · obtain ⟨rfl, -⟩ := List.cons.inj heq
      obtain ⟨hcalled, hopens⟩ := hlatest.1
      obtain rfl : x = .recordFailure := Option.some.inj hcalled
      obtain ⟨-, rfl⟩ := upstreamStep_recordFailure hs
      exact CircuitBreaker.recordFailure_of_opens b.state.now hopens
    · rw [upstreamStep_now hs] at hquiet
      obtain ⟨hopened, hat⟩ :=
        ih (hno.of_append (u := [_])) (hrejects.of_append (u := [_])) u e v htail hlatest.of_cons hquiet
      cases x with
      | beforeCall =>
        -- an admission would be early, and a refusal changes nothing
        obtain ⟨rfl, rfl⟩ := upstreamStep_beforeCall hs
        have hearly := hrejects [] _ u e v t (by rw [htail]; rfl) hlatest.of_cons
        rcases b.state.breaker.beforeCall_cases b.state.now with ⟨hclosed, -⟩ | ⟨a, -, -, -, heq⟩ | ⟨error, heq, -⟩
        · rw [hopened] at hclosed
          cases hclosed
        · rw [heq] at hearly
          exact absurd (hearly ⟨⟨rfl, rfl⟩, rfl⟩) (not_le.mpr hquiet)
        · rw [heq]
          exact ⟨hopened, hat⟩
      | recordSuccess =>
        have hlate := hno [] _ u e v t (by rw [htail]; rfl) hlatest.1 (calls_call.mpr ⟨rfl, rfl⟩)
        exact absurd hlate (not_le.mpr hquiet)
      | recordFailure =>
        -- a failure that opened the breaker again would be the latest opening
        obtain ⟨-, rfl⟩ := upstreamStep_recordFailure hs
        have hnot : ¬ b.state.breaker.Opens := fun hopens => hlatest.2 _ List.mem_cons_self ⟨rfl, hopens⟩
        show (b.state.breaker.recordFailure b.state.now).state = _ ∧
          (b.state.breaker.recordFailure b.state.now).openedAt = _
        rw [CircuitBreaker.recordFailure_of_not_opens _ hnot]
        exact ⟨hopened, hat⟩
      | _ =>
        obtain rfl := upstreamStep_state rfl hs
        exact ⟨hopened, hat⟩
  · rintro b _ ih s' ⟨hclock, hbreaker⟩ hno hrejects u e v hsplit hlatest hquiet
    rw [hbreaker]
    exact ih hno hrejects u e v hsplit hlatest (lt_of_le_of_lt hclock hquiet)

/-- Open since then, the breaker lets a call through exactly once the difference of
the readings is `T`. -/
theorem refused_iff (h₀ : CircuitBreaker.init n T = .ok b₀.breaker) (h : Interleaved (.init b₀) c) {a : ℚ}
    (hopened : c.state.breaker.state = .opened) (hat : c.state.breaker.openedAt = some a) :
    (c.state.breaker.beforeCall c.state.now).1 ≠ .ok () ↔ Double.sub c.state.now a < T := by
  have hT := (run_history h₀ h).timeout
  rcases c.state.breaker.beforeCall_cases c.state.now with ⟨hclosed, -⟩ | ⟨a', -, hat', helapsed, heq⟩ |
    ⟨error, heq, hstate⟩
  · rw [hopened] at hclosed
    cases hclosed
  · rw [hat] at hat'
    cases hat'
    rw [heq, ← hT]
    exact iff_of_false (fun hne => hne rfl) (not_lt.mpr helapsed)
  · have hwait := (hstate.resolve_left (by rw [hopened]; simp)).2 a hat
    rw [heq, ← hT]
    exact iff_of_true (by simp) hwait

/-- Calls that ask in time are refused. -/
theorem rejects_of_askedInTime (h₀ : CircuitBreaker.init n T = .ok b₀.breaker) (h : Interleaved (.init b₀) c)
    (hno : NoEarlySuccess T c.trace) (hasked : AskedInTime T c.trace) : Rejects T c.trace := by
  refine @Run.invariant _ _ _ b₀ (fetchDiscipline (· ≤ ·))
    (fun _ tr => NoEarlySuccess T tr → AskedInTime T tr → Rejects T tr) ?_ ?_ ?_ ?_ c h hno hasked
  · intro _ _ w x u e v t hsplit
    simp at hsplit
  · intro b _ ih t r _ hno hasked w x u e v t' hsplit hlatest hadmits
    rcases List.cons_eq_append_iff.mp hsplit with ⟨rfl, heq⟩ | ⟨w, rfl, htail⟩
    · obtain ⟨rfl, -⟩ := List.cons.inj heq
      exact absurd hadmits admits_start
    · exact ih (hno.of_append (u := [_])) (hasked.of_append (u := [_])) w x u e v t' htail hlatest hadmits
  · intro b hb ih t r y v₁ s' _ _ _ hs hno hasked w x u e v t' hsplit hlatest hadmits
    have hno' := hno.of_append (u := [_])
    have hrejects := ih hno' (hasked.of_append (u := [_]))
    rcases List.cons_eq_append_iff.mp hsplit with ⟨rfl, heq⟩ | ⟨w, rfl, htail⟩
    · obtain ⟨rfl, htail⟩ := List.cons.inj heq
      by_contra hearly
      obtain rfl : y = .beforeCall := Option.some.inj hadmits.1.2
      obtain ⟨hopened, hat⟩ := open_since hb hno' hrejects u e v htail.symm hlatest (not_le.mp hearly)
      have hdouble := hasked [] _ b.trace t rfl (calls_call.mpr ⟨rfl, rfl⟩) u e v htail.symm hlatest (not_le.mp hearly)
      have hrefused := (refused_iff h₀ hb hopened hat).mpr hdouble
      obtain ⟨rfl, -⟩ := upstreamStep_beforeCall hs
      obtain ⟨_, hact⟩ := hadmits.exists
      injection hact with _ _ hok
      exact hrefused hok
    · exact hrejects w x u e v t' htail hlatest hadmits
  · exact fun b _ ih s' _ hno hasked => ih hno hasked

/-- If no success is recorded in the recovery timeout after an opening, and no call
asks at a reading that is rounded up to its end, no call is admitted in it. -/
theorem admitted_late (h₀ : CircuitBreaker.init n T = .ok b₀.breaker) (h : Interleaved (.init b₀) c)
    (hno : NoEarlySuccess T c.trace) (hasked : AskedInTime T c.trace) : QuietPeriod T c.trace := by
  have hadmitted : ∀ w x u e v t, c.trace = w ++ x :: (u ++ e :: v) → Opening e → Admits t x →
      e.before.now + T ≤ x.before.now := by
    intro w x u e v t hsplit hopening hadmits
    obtain ⟨c₁, -, hc₁, -, -, htrace, -⟩ := Run.split h hsplit
    have he : e ∈ c₁.trace := by
      rw [htrace]
      simp
    obtain ⟨u', e', v', hsplit', hlatest, hle⟩ := exists_latestOpening hc₁ he hopening
    have hlate := rejects_of_askedInTime h₀ h hno hasked w x u' e' v' t (by rw [hsplit, ← htrace, hsplit'])
      hlatest hadmits
    linarith
  refine ⟨hadmitted, fun w y w' x u e v t url hsplit hopening hadmits hsends => ?_⟩
  have hle : x.before.now ≤ y.before.now := by
    obtain ⟨c₁, -, hc₁, -, -, htrace, hbefore, -⟩ := Run.split h hsplit
    rw [← hbefore]
    exact event_le_now hc₁ htrace
  refine le_trans (hadmitted (w ++ y :: w') x u e v t ?_ hopening hadmits) hle
  rw [hsplit, List.append_assoc, List.cons_append]

/-- In the time `T` after an opening the breaker would refuse a call. -/
def Refusing (T : ℚ) (b : Config (externalSystem (· ≤ ·))) : Prop :=
  ∀ e ∈ b.trace, Opening e → b.state.now < e.before.now + T →
    (b.state.breaker.beforeCall b.state.now).1 ≠ .ok ()

/-- A breaker that would refuse every call in the quiet periods admits none. -/
theorem rejects_of_refusing (h : Interleaved (.init b₀) c)
    (hrefusing : ∀ b, Interleaved (.init b₀) b → Interleaved b c → Refusing T b) : Rejects T c.trace := by
  intro w x u e v t hsplit hlatest hadmits
  by_contra hearly
  obtain ⟨y, hact⟩ := hadmits.exists
  rcases x with ⟨s, s', act⟩
  subst hact
  obtain ⟨b, hb, hbc, rfl, htrace, -⟩ := Run.caller h hsplit
  obtain ⟨-, -, -, -, -, -, -, -, -, hs⟩ := Run.made (fetchDiscipline (· ≤ ·)) h hsplit
  have he : e ∈ b.trace := by
    rw [htrace]
    simp
  exact hrefusing b hb hbc e he hlatest.1 (not_le.mp hearly) (upstreamStep_beforeCall hs).1.symm

theorem askedInTime_of_notRoundedUp (h : Interleaved (.init b₀) c)
    (hkept : ∀ b, Interleaved (.init b₀) b → Interleaved b c → NotRoundedUp T b.state.now b.trace) :
    AskedInTime T c.trace := by
  intro w x v t hsplit _
  obtain ⟨c₁, c₂, hc₁, hs, hc₂, htrace, hbefore, -⟩ := Run.split h hsplit
  rw [← htrace, ← hbefore]
  exact hkept c₁ hc₁ (Relation.ReflTransGen.head hs hc₂)

theorem refusing_of_notRoundedUp (h₀ : CircuitBreaker.init n T = .ok b₀.breaker) (h : Interleaved (.init b₀) c)
    (hno : NoEarlySuccess T c.trace) (hasked : AskedInTime T c.trace) (hkept : NotRoundedUp T c.state.now c.trace) :
    Refusing T c := by
  intro e he hopening hquiet
  obtain ⟨u, e', v, hsplit, hlatest, hle⟩ := exists_latestOpening h he hopening
  have hquiet' : c.state.now < e'.before.now + T := by linarith
  obtain ⟨hopened, hat⟩ := open_since h hno (rejects_of_askedInTime h₀ h hno hasked) u e' v hsplit hlatest hquiet'
  exact (refused_iff h₀ h hopened hat).mpr (hkept u e' v hsplit hlatest hquiet')

/-- Throughout a run the breaker refuses calls in the recovery timeout after an
opening only if no success is recorded in it. -/
theorem noEarlySuccess_of_refusing (h : Interleaved (.init b₀) c)
    (hrefusing : ∀ b, Interleaved (.init b₀) b → Interleaved b c → Refusing T b) : NoEarlySuccess T c.trace := by
  intro w x u e v t hsplit hopening hsuccess
  by_contra hquiet
  obtain ⟨c₁, c₂, hc₁, hs, hc₂, -, -, hafter, htrace⟩ := Run.split h hsplit
  obtain ⟨y, hact⟩ := hsuccess.exists
  rcases x with ⟨s, s', act⟩
  subst hact
  obtain ⟨-, -, -, -, -, -, -, -, -, hstep⟩ := Run.made (fetchDiscipline (· ≤ ·)) h hsplit
  obtain ⟨-, rfl⟩ := upstreamStep_recordSuccess hstep
  have hmem : e ∈ c₂.trace := by
    rw [htrace]
    simp
  have hrefused := hrefusing c₂ (hc₁.tail hs) hc₂ e hmem hopening (by
    rw [hafter]
    exact not_le.mp hquiet)
  -- the success has closed the breaker
  rw [hafter] at hrefused
  exact hrefused rfl

/-- **The quiet period.** Throughout a run the breaker refuses calls in the
recovery timeout after an opening, exactly if no success is recorded in it and no
reading in it is rounded up to its end; and if no success is recorded in it and no
call asks at such a reading, no call is admitted in it. -/
theorem quiet_period (h₀ : CircuitBreaker.init n T = .ok b₀.breaker) (h : Interleaved (.init b₀) c) :
    ((∀ b, Interleaved (.init b₀) b → Interleaved b c → Refusing T b) ↔ NoEarlySuccess T c.trace ∧
        ∀ b, Interleaved (.init b₀) b → Interleaved b c → NotRoundedUp T b.state.now b.trace) ∧
      (NoEarlySuccess T c.trace → AskedInTime T c.trace → QuietPeriod T c.trace) := by
  refine ⟨⟨fun hrefusing => ⟨noEarlySuccess_of_refusing h hrefusing, fun b hb hbc u e v hsplit hlatest hquiet => ?_⟩,
    fun ⟨hno, hkept⟩ b hb hbc => ?_⟩, admitted_late h₀ h⟩
  · have hrefusing' := fun b' hb' (hb'b : Interleaved b' b) => hrefusing b' hb' (hb'b.trans hbc)
    obtain ⟨hopened, hat⟩ := open_since hb (noEarlySuccess_of_refusing hb hrefusing')
      (rejects_of_refusing hb hrefusing') u e v hsplit hlatest hquiet
    have he : e ∈ b.trace := by
      rw [hsplit]
      simp
    exact (refused_iff h₀ hb hopened hat).mp (hrefusing b hb hbc e he hlatest.1 hquiet)
  · have hkept' := fun b' hb' (hb'b : Interleaved b' b) => hkept b' hb' (hb'b.trans hbc)
    obtain ⟨u, hu⟩ := Run.trace_suffix hbc
    rw [hu] at hno
    exact refusing_of_notRoundedUp h₀ hb hno.of_append (askedInTime_of_notRoundedUp hb hkept') (hkept b hb hbc)

end

/-- Ten seconds after the breaker opened, a probe is admitted. -/
def probeAdmitted : Config (externalSystem (· ≤ ·)) := asked (atTime openedUnderCall 10) 2

/-- The call that was admitted before the breaker opened succeeds. -/
def overtakenProbe : Config (externalSystem (· ≤ ·)) := answered probeAdmitted 1 3 (.ok 200)

theorem probeAdmitted_interleaved : Interleaved (.init exampleBreaker) probeAdmitted := by
  have hnow : openedUnderCall.state.now ≤ 10 := by decide +kernel
  exact interleaved_asked (interleaved_atTime openedUnderCall_interleaved hnow) 2

theorem overtakenProbe_interleaved : Interleaved (.init exampleBreaker) overtakenProbe :=
  interleaved_answered probeAdmitted_interleaved 1 3 _

theorem probe_exclusive_iff_overtaken :
    (∀ b, Interleaved (.init exampleBreaker) b → Interleaved b overtakenProbe → ProbeExclusive b.state b.trace) ↔
      OnlyProbeRecords overtakenProbe.trace :=
  probe_exclusive_iff overtakenProbe_interleaved

/-- The success of an earlier call closes the breaker under the probe. -/
theorem probe_overtaken :
    ¬ ∀ (n : ℤ) (T : ℚ) (b₀ : BreakerState) (c : Config (externalSystem (· ≤ ·))),
      CircuitBreaker.init n T = .ok b₀.breaker → Interleaved (.init b₀) c → ProbeExclusive c.state c.trace := by
  intro hall
  have hexclusive := hall 1 10 exampleBreaker overtakenProbe rfl overtakenProbe_interleaved
  have hprobe : (probeAdmitted.trace.head?.any fun e => decide (Probe 2 e)) = true := by decide +kernel
  obtain ⟨e, hhead, hprobe⟩ := (Option.any_eq_true _ _).mp hprobe
  obtain ⟨v, hv⟩ := List.head?_eq_some_iff.mp hhead
  have hrun : Interleaved probeAdmitted overtakenProbe := interleaved_answered .refl 1 3 _
  obtain ⟨u, hu⟩ := Run.trace_suffix hrun
  have hrecords : ∀ x ∈ overtakenProbe.trace, ¬ Records 2 x := by decide +kernel
  obtain ⟨hhalf, -⟩ := hexclusive 2 u e v (hu.trans (by rw [hv])) ⟨of_decide_eq_true hprobe, fun x hx =>
    hrecords x (by rw [hu]; exact List.mem_append_left _ hx)⟩
  have hclosed : overtakenProbe.state.breaker.state = .closed := by decide +kernel
  rw [hclosed] at hhalf
  cases hhalf

theorem quiet_period_opened :
    ((∀ b, Interleaved (.init exampleBreaker) b → Interleaved b openedUnderCall → Refusing 10 b) ↔
        NoEarlySuccess 10 openedUnderCall.trace ∧ ∀ b, Interleaved (.init exampleBreaker) b →
          Interleaved b openedUnderCall → NotRoundedUp 10 b.state.now b.trace) ∧
      (NoEarlySuccess 10 openedUnderCall.trace → AskedInTime 10 openedUnderCall.trace →
        QuietPeriod 10 openedUnderCall.trace) :=
  quiet_period (n := 1) rfl openedUnderCall_interleaved

/-- The call that was admitted before the breaker opened succeeds, and a third one
is admitted, all at the time of the opening. -/
def admittedEarly : Config (externalSystem (· ≤ ·)) := asked (answered openedUnderCall 1 3 (.ok 200)) 2

theorem admittedEarly_interleaved : Interleaved (.init exampleBreaker) admittedEarly :=
  interleaved_asked (interleaved_answered openedUnderCall_interleaved 1 3 _) 2

/-- A late success lets the next call through in the quiet period. -/
theorem quiet_period_broken :
    ¬ ∀ (n : ℤ) (T : ℚ) (b₀ : BreakerState) (c : Config (externalSystem (· ≤ ·))),
      CircuitBreaker.init n T = .ok b₀.breaker → Interleaved (.init b₀) c → QuietPeriod T c.trace := by
  intro hall
  have hquiet := (hall 1 10 exampleBreaker admittedEarly rfl admittedEarly_interleaved).admitted
  have hadmits : (admittedEarly.trace.head?.any fun x => decide (Admits 2 x ∧ x.before.now = 0)) = true := by
    decide +kernel
  have hopening : ∃ e ∈ admittedEarly.trace.tail, Opening e ∧ e.before.now = 0 := by decide +kernel
  obtain ⟨x, hhead, hadmits⟩ := (Option.any_eq_true _ _).mp hadmits
  obtain ⟨hadmits, hx⟩ := of_decide_eq_true hadmits
  obtain ⟨l, hl⟩ := List.head?_eq_some_iff.mp hhead
  obtain ⟨e, he, hopening, hnow⟩ := hopening
  rw [hl, List.tail_cons] at he
  obtain ⟨u, v, rfl⟩ := List.append_of_mem he
  have hlate := hquiet [] x u e v 2 hl hopening hadmits
  rw [hx, hnow] at hlate
  norm_num at hlate

end TaskApi
