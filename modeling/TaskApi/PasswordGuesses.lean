/-
# How often a host can guess passwords

Seen through the login limiters, a run of the application is a run of their own system: the
attempts of its logins, one for each, and time passing in between. A login verifies a password
only after its attempt was let through. So what bounds the attempts bounds the passwords that
one host gets to try, whatever else the application is doing and however Redis fails.

Key definitions: `loginPart`, `loginHosts`, `Guesses`.
Key theorem: `guesses_bounded`.
-/
import TaskApi.Authentication

namespace TaskApi

open Conc WindowCounter

variable {pkg : Packages} {settings : AppSettings pkg}

/-! ### The limiters in the application -/

theorem LoginState.step_now {c : LoginCall} {s s' : LoginState} {v : loginCalls.Out c} (h : step c s v s') :
    s'.now = s.now := by
  have hserve : (s.serve c).2.now = s.now := by cases c <;> rfl
  rcases h with h | ⟨-, -, rfl | rfl⟩
  · rw [← hserve, h]
  · rfl
  · exact hserve

/-- The limiters as a part of the application. -/
def loginPart (pkg : Packages) (settings : AppSettings pkg) :
    Part loginEmbedding (loginSystem settings.login) (appSystem pkg settings) where
  view := AppState.login
  makes _ := True
  makes_call _ _ := trivial
  apart _ := True
  own := by
    rintro c s v s' - ⟨w, x, hs, rfl, rfl⟩
    refine ⟨w, AppExn.hear_mapError AppExn.ofLimiter .limiter (fun _ => rfl) w, ?_⟩
    have hnow : x.now = s.now := LoginState.step_now hs
    have hview : AppState.login { s with counters := x.counters, fallback := x.fallback } = x := by
      rw [AppState.login, ← hnow]
    rw [hview]
    exact hs
  other := by
    intro d s v s' hd _ hs
    have hview : s'.login = s.login := by
      cases d with
      | limiter c => exact absurd rfl (hd c)
      | registration c | tickets c | tasks c =>
        obtain ⟨w, x, -, -, rfl⟩ := hs
        rfl
      | _ =>
        obtain ⟨-, rfl⟩ := hs
        rfl
    rw [hview]
  env := by
    intro s s' he
    refine .single ⟨s'.now, he.now, ?_⟩
    rw [AppState.login, AppState.login, he.counters, he.fallback]

/-- A login is an attempt, and verifies a password only once the limiters let it through. -/
def loginHosting {pkg : Packages} (settings : AppSettings pkg) :
    AppRequest → Hosting loginEmbedding (loginSystem settings.login)
  | .login attempt _ _ => {
    automaton := ⟨Unit, (), fun _ _ _ => ()⟩
    spawn := fun _ => some attempt
    allows := fun _ x d => ∀ plainPassword hashedPassword, d = .verifyPassword plainPassword hashedPassword →
      ∃ p, x = some (attempt, p) ∧ p.result = some (.ok ())
    next_own := fun _ _ _ => rfl }
  | _ => .idle loginEmbedding (loginSystem settings.login) fun _ => True

theorem foreign_limiter {d : AppCall} (h : ∀ c, d ≠ .limiter c) : loginEmbedding.Foreign d := h

theorem loginHosting_follows (r : AppRequest) : (r.body pkg settings).Follows (loginHosting settings r).protocol
    (appSystem pkg settings).Can (fun _ _ => True) (loginHosting settings r).protocol.init := by
  have hroute : ∀ d : AppCall, d.IsRoute → loginEmbedding.Foreign d := by
    rintro d hd c rfl
    exact hd
  cases r with
  | login attempt username password =>
    refine Prog.follows_bind.mpr (Hosting.follows_body (fun c v hv => ?_) (fun _ => ?_) fun e => trivial)
    · obtain ⟨w, hw, -⟩ := AppState.can_limiter hv
      exact ⟨w, hw⟩
    · have hrest : (withSession (loginForAccessToken pkg settings username password)).Makes loginEmbedding.Foreign :=
        withSession_makes hroute (loginForAccessToken_makes hroute username password)
      refine Prog.follows_bind.mpr ((Hosting.follows_quiet rfl (fun d hd => ?_) hrest).mono fun q x _ => ?_)
      · exact ⟨hd, fun _ _ _ => ⟨_, rfl, rfl⟩, fun _ => rfl⟩
      · cases x <;> trivial
  | _ =>
    exact Hosting.follows_idle (AppRequest.body_makes (fun d hd => ⟨hroute d hd, trivial⟩) _
      (fun _ _ _ c h => by cases h) (fun _ c _ => ⟨foreign_limiter (by simp), trivial⟩)
      (fun _ c _ => ⟨foreign_limiter (by simp), trivial⟩) fun _ _ c _ => ⟨foreign_limiter (by simp), trivial⟩)

/-- How every request uses the limiters. -/
def loginHosts (pkg : Packages) (settings : AppSettings pkg) : Hosts (loginPart pkg settings) where
  hosting := loginHosting settings
  apart _ _ := trivial
  final _ _ _ := True
  follows := loginHosting_follows

/-! ### Guesses -/

variable {s₀ : AppState} {c : Config (appSystem pkg settings)} {host : String} {a b : ℚ} {t : ℕ}

/-- The event is thread `t` asking a limiter. -/
def AsksLimiter (t : ℕ) (e : Event (appSystem pkg settings)) : Prop := ∃ x v, e.act = .call t (.limiter x) v

def asks (t : ℕ) (e : Event (appSystem pkg settings)) : Bool :=
  match e.act with
  | .call t' (.limiter _) _ => decide (t' = t)
  | _ => false

theorem asks_iff {e : Event (appSystem pkg settings)} : asks t e = true ↔ AsksLimiter t e := by
  obtain ⟨s, s', act⟩ := e
  constructor
  · intro h
    cases act with
    | start t' r => cases h
    | call t' x v =>
      cases x with
      | limiter x =>
        obtain rfl : t' = t := of_decide_eq_true h
        exact ⟨x, v, rfl⟩
      | _ => cases h
  · rintro ⟨x, v, hact⟩
    obtain rfl : act = _ := hact
    exact decide_eq_true rfl

instance (e : Event (appSystem pkg settings)) : Decidable (AsksLimiter t e) := decidable_of_iff _ asks_iff

/-- Thread `t` is a login by the host that has verified a password, and it last asked a limiter
at a time from `a` on and before `b`. -/
def Guesses (c : Config (appSystem pkg settings)) (host : String) (a b : ℚ) (t : ℕ) : Prop :=
  (∃ attempt username password, Requested t (AppRequest.login attempt username password) c.trace ∧
    attempt.clientHost = host) ∧
  (∃ e ∈ c.trace, ∃ plainPassword hashedPassword v,
    e.act = .call t (.verifyPassword plainPassword hashedPassword) v) ∧
  ∃ u e tr, c.trace = u ++ e :: tr ∧ AsksLimiter t e ∧ (∀ e' ∈ u, ¬ AsksLimiter t e') ∧
    a ≤ e.before.now ∧ e.before.now < b

/-- An attempt whose login verifies a password was let through. -/
theorem verified_letThrough (h : Interleaved (.init s₀) c) {attempt : LoginAttempt} {username password : String}
    (hr : Requested t (AppRequest.login attempt username password) c.trace) {e : Event (appSystem pkg settings)}
    (he : e ∈ c.trace) {plainPassword hashedPassword : String} {v : Except AppExn Bool}
    (hact : e.act = .call t (.verifyPassword plainPassword hashedPassword) v) :
    ∃ p, (loginHosts pkg settings).thread (.login attempt username password) t c.trace = some (attempt, p) ∧
      p.result = some (.ok ()) := by
  obtain ⟨s, s', act⟩ := e
  subst hact
  obtain ⟨u, tr, hu⟩ := List.append_of_mem he
  obtain ⟨b, r, hb, rfl, rfl, -, hrb, hunique, ha, hs⟩ := Run.made (loginHosts pkg settings).discipline h hu
  obtain rfl := hunique _ hr
  have hended := ha.2 (foreign_limiter (by simp)) plainPassword hashedPassword rfl
  -- and what has ended stays so
  rw [hu, ← List.singleton_append, ← List.append_assoc]
  exact phase_stable (A := ((loginHosts pkg settings).hosting (.login attempt username password)).protocol.toAutomaton)
    (P := fun q => ∃ p : Prog loginCalls Unit, q.2 = some (attempt, p) ∧ p.result = some (.ok ()))
    (fun q c v => Hosting.ended_stable q c v) hended _

/-- A guess was an attempt that the limiters let through, in the run that they saw. -/
theorem Guesses.letThrough (h : Interleaved (.init s₀) c) {l : Config (loginSystem settings.login)}
    (hl : Interleaved (.init s₀.login) l) (hseen : Seen (loginHosts pkg settings) c l)
    (hg : Guesses c host a b t) : LetThrough l host a b t := by
  obtain ⟨⟨attempt, username, password, hr, hhost⟩, ⟨e₁, he₁, plainPassword, hashedPassword, v₁, hact₁⟩, u, e, tr, he,
    ⟨x, v, hact⟩, hlast, hinterval⟩ := hg
  obtain ⟨p, hthread, hresult⟩ := verified_letThrough h hr he₁ hact₁
  have hpool : l.pool t = some (attempt, p) := (hseen.pool t _ hr).trans hthread
  refine ⟨⟨attempt, (Run.pool_trace hl).1 t attempt p hpool, hhost⟩, by simp [Config.result, hpool, hresult], ?_⟩
  obtain ⟨s, s', act⟩ := e
  subst hact
  obtain ⟨u', w, tr', hl', hw, hu', htr'⟩ := hseen.trace.split_own he
  refine ⟨u', _, tr', hl', rfl, fun e' he' hthread' => ?_, hinterval⟩
  obtain ⟨s₂, s₂', act₂⟩ := e'
  cases act₂ with
  | start t₂ r₂ =>
    -- it has asked before, so it did not start since
    obtain rfl : t₂ = t := hthread'
    obtain ⟨u₁, u₂, rfl⟩ := List.append_of_mem he'
    rw [List.append_assoc, List.cons_append] at hl'
    exact Run.start_fresh hl hl' _ (List.mem_append_right _ List.mem_cons_self) rfl
  | call t₂ x₂ w₂ =>
    obtain rfl : t₂ = t := hthread'
    obtain ⟨s₃, s₃', v₃, hmem, -⟩ := hu'.of_mem he'
    exact hlast _ hmem ⟨x₂, v₃, rfl⟩

/-- **Guessing is bounded.** However Redis fails, and whatever else the application is doing,
the logins of one host that get to verify a password, and asked a limiter last in an interval of
the window's length, are at most four times the limit. -/
theorem guesses_bounded (hs₀ : s₀.login.Initial settings.login) (h : Interleaved (.init s₀) c) (host : String) (a : ℚ)
    (logins : List ℕ) (hnodup : logins.Nodup)
    (hguesses : ∀ t ∈ logins, Guesses c host a (a + settings.login.loginRateWindowSeconds) t) :
    logins.length ≤ 4 * settings.login.loginRateLimit := by
  obtain ⟨l, hl, hseen⟩ := Run.part (loginHosts pkg settings) h
  have hl : Interleaved (.init s₀.login) l := hl
  have hinv := loginInv hs₀ hl host
  let b := a + (settings.login.loginRateWindowSeconds : ℚ)
  have hsub : logins ⊆ (inInterval a b (redisAdmissions host l.trace) ++
      inInterval a b (fallbackAdmissions host l.trace)).map (·.1) := fun t ht => by
    obtain ⟨now, hinterval, hmem⟩ := ((hguesses t ht).letThrough h hl hseen).admitted hl
    refine List.mem_map.mpr ⟨(t, now), List.mem_append.mpr ?_, rfl⟩
    rcases hmem with hmem | hmem
    · exact .inl (List.mem_filter.mpr ⟨hmem, decide_eq_true hinterval⟩)
    · exact .inr (List.mem_filter.mpr ⟨hmem, decide_eq_true hinterval⟩)
  have hredis : (between a b (times (redisAdmissions host l.trace)) : ℤ) ≤ 2 * settings.login.loginRateLimit :=
    hinv.redis.interval a
  have hfallback : (between a b (times (fallbackAdmissions host l.trace)) : ℤ) ≤ 2 * settings.login.loginRateLimit :=
    hinv.fallback.interval a
  have hlength := (List.subperm_of_subset hnodup hsub).length_le
  rw [List.length_map, List.length_append, length_inInterval, length_inInterval] at hlength
  calc (logins.length : ℤ)
      ≤ between a b (times (redisAdmissions host l.trace)) + between a b (times (fallbackAdmissions host l.trace)) := by
        exact_mod_cast hlength
    _ ≤ 2 * settings.login.loginRateLimit + 2 * settings.login.loginRateLimit := add_le_add hredis hfallback
    _ = 4 * settings.login.loginRateLimit := by ring

/-- Redis does not answer the limiter. -/
def AppState.serveAlone : (c : AppCall) → AppState → appCalls.Out c × AppState
  | .limiter c, s => ((s.login.serveAlone c).1.mapError .limiter,
    { s with counters := (s.login.serveAlone c).2.counters, fallback := (s.login.serveAlone c).2.fallback })
  | c, s => s.serve c

theorem AppState.step_serveAlone (c : AppCall) (s : AppState) :
    step examplePackages c s (s.serveAlone c).1 (s.serveAlone c).2 := by
  cases c with
  | limiter c => exact ⟨_, _, LoginState.step_serveAlone c s.login, rfl, rfl⟩
  | _ => exact step_serve _ s

/-- Alice has logged in, and from her host a wrong password is tried when Redis is gone. -/
noncomputable def loginAndGuess : Config (appSystem examplePackages exampleSettings) :=
  Config.schedule (S := appSystem examplePackages exampleSettings) (fun c s => s.serveAlone c) (appRun registerAndLogin)
    (.start 2 (.login ⟨some "10.0.0.1"⟩ "alice" "guess") :: (List.replicate 5 2).map .call)

theorem guesses_bounded_alice : ([1, 2] : List ℕ).length ≤ 4 * exampleSettings.login.loginRateLimit := by
  have h : Interleaved (.init AppState.new) loginAndGuess :=
    (appRun_interleaved registerAndLogin).trans (Interleaved.schedule AppState.step_serveAlone _ _)
  have hinitial : AppState.new.login.Initial exampleSettings.login :=
    ⟨rfl, fun key c hc => (by cases hc), fun key c hc => by cases hc⟩
  refine guesses_bounded hinitial h "10.0.0.1" 0 [1, 2] (by decide) fun t ht => ?_
  simp only [List.mem_cons, List.not_mem_nil, or_false] at ht
  have hinterval : (0 : ℚ) < 0 + exampleSettings.login.loginRateWindowSeconds := by decide +kernel
  have hverified : ∀ t, (∃ v e tr, loginAndGuess.trace = v ++ e :: tr ∧
      ∃ plainPassword hashedPassword w, e.act = .call t (.verifyPassword plainPassword hashedPassword) w) →
      ∃ e ∈ loginAndGuess.trace, ∃ plainPassword hashedPassword w,
        e.act = .call t (.verifyPassword plainPassword hashedPassword) w := by
    rintro t ⟨v, e, tr, htrace, hact⟩
    exact ⟨e, htrace ▸ List.mem_append_right _ List.mem_cons_self, hact⟩
  -- the first asked Redis alone, and the second the local limiter at last
  rcases ht with rfl | rfl
  · exact ⟨⟨_, _, _, (Run.pool_trace h).1 1 _ _ rfl, rfl⟩,
      hverified 1 ⟨[_, _, _, _, _, _, _, _], _, _, rfl, _, _, _, rfl⟩,
      [_, _, _, _, _, _, _, _, _, _], _, _, rfl, ⟨_, _, rfl⟩, by decide +kernel, le_rfl, hinterval⟩
  · exact ⟨⟨_, _, _, (Run.pool_trace h).1 2 _ _ rfl, rfl⟩,
      hverified 2 ⟨[_], _, _, rfl, _, _, _, rfl⟩,
      [_, _, _], _, _, rfl, ⟨_, _, rfl⟩, by decide +kernel, le_rfl, hinterval⟩

end TaskApi
