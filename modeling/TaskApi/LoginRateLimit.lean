/-
# The login rate limit

`rate_limit_dependencies.py` as an interleaved system: any number of login
attempts by any clients, each asking the limiter in Redis and, where that raises
`RedisError`, the local one. The script may have run although its reply was
lost. Each limiter admits at most two windows' worth in any interval of the
window's width, so the two together let through at most four
(`login_attempts_bounded`).

Key definitions: `enforceLoginRateLimit`, `loginSystem`, `LoginInv`.
Key theorems: `loginAttempt_follows`, `loginInv`, `login_attempts_bounded`.
-/
import TaskApi.Lib.Interleave
import TaskApi.RateLimiting

namespace TaskApi

open Conc WindowCounter

/-! ### The dependency -/

/-- What an attempt asks of Redis and of the local limiter. -/
inductive LoginCall where
  | evalFixedWindow (key : String) (windowSeconds : ℤ)
  | fallbackCheck (clientKey : String)
deriving DecidableEq

abbrev LoginCall.Val : LoginCall → Type
  | .evalFixedWindow .. => ℤ × ℤ
  | .fallbackCheck _ => Option ℤ

inductive LoginExn where
  | redisError
  | httpException (statusCode : ℕ) (detail : String) (retryAfter : String)
deriving DecidableEq

abbrev loginCalls : Interface := ⟨LoginCall, LoginCall.Val, LoginExn⟩

abbrev LoginAct (α : Type) := Prog loginCalls α

abbrev LoginCall.perform (c : LoginCall) : LoginAct c.Val := @Prog.perform loginCalls c

/-- The settings of the login limiters, with the lower bounds of `config.py`. -/
structure LoginSettings where
  loginRateLimit : ℤ := 5
  loginRateWindowSeconds : ℤ := 60
  one_le_limit : 1 ≤ loginRateLimit := by decide
  one_le_window : 1 ≤ loginRateWindowSeconds := by decide

theorem LoginSettings.one_le_five : (1 : ℤ) ≤ 5 := by decide

theorem LoginSettings.one_le_sixty : (1 : ℤ) ≤ 60 := by decide

/-- The defaults of `config.py`. -/
def LoginSettings.defaults : LoginSettings where
  one_le_limit := LoginSettings.one_le_five
  one_le_window := LoginSettings.one_le_sixty

/-- `get_login_rate_limiter` -/
def getLoginRateLimiter (settings : LoginSettings) : RedisFixedWindowRateLimiter :=
  ⟨settings.loginRateLimit, settings.loginRateWindowSeconds, "rate_limit:login", settings.one_le_limit,
    settings.one_le_window⟩

/-- The fallback limiter the application is started with. -/
def fallbackLoginRateLimiter (settings : LoginSettings) : FixedWindowRateLimiter where
  requestLimit := settings.loginRateLimit
  windowSeconds := settings.loginRateWindowSeconds

/-- An attempt, with the host of its client, if the request has one. -/
structure LoginAttempt where
  host : Option String
deriving DecidableEq

/-- The key of an attempt's client. -/
def LoginAttempt.clientHost (attempt : LoginAttempt) : String := attempt.host.getD "unknown"

/-- `RedisFixedWindowRateLimiter.check`, which awaits the script. -/
def checkInRedis (limiter : RedisFixedWindowRateLimiter) (clientKey : String) : LoginAct (Option ℤ) := do
  let scriptResult ← (LoginCall.evalFixedWindow (limiter.redisKey clientKey) limiter.windowSeconds).perform
  pure (limiter.retryAfter scriptResult)

def enforceLoginRateLimit (settings : LoginSettings) (attempt : LoginAttempt) : LoginAct Unit := do
  let clientHost := attempt.clientHost
  let retryAfterSeconds ← (checkInRedis (getLoginRateLimiter settings) clientHost).tryCatch fun
    | .redisError => (LoginCall.fallbackCheck clientHost).perform
    | e => Prog.raise e
  match retryAfterSeconds with
  | none => pure ()
  | some seconds => Prog.raise (.httpException 429 "Too many login attempts" (toString seconds))

/-! ### The interleaved system -/

/-- The shared state. -/
structure LoginState where
  now : ℚ
  counters : RedisCounters
  fallback : FixedWindowRateLimiter

namespace LoginState

/-- The effect of a call. -/
def serve : (c : LoginCall) → LoginState → loginCalls.Out c × LoginState
  | .evalFixedWindow key windowSeconds, s =>
    (.ok (fixedWindowScript s.counters s.now key windowSeconds).1,
      { s with counters := (fixedWindowScript s.counters s.now key windowSeconds).2 })
  | .fallbackCheck clientKey, s =>
    (.ok (s.fallback.check clientKey s.now).1, { s with fallback := (s.fallback.check clientKey s.now).2 })

/-- One atomic step. The script may raise `RedisError`, and has run or not. -/
def step (c : LoginCall) (s : LoginState) (v : loginCalls.Out c) (s' : LoginState) : Prop :=
  s.serve c = (v, s') ∨
  ((∃ key windowSeconds, c = .evalFixedWindow key windowSeconds) ∧ v = .error .redisError ∧
    (s' = s ∨ s' = (s.serve c).2))

/-- Time passes; a key is lost when its time has come, and not before. -/
def Passes (s s' : LoginState) : Prop := ∃ t, s.now ≤ t ∧ s' = { s with now := t }

theorem step_serve (c : LoginCall) (s : LoginState) : step c s (s.serve c).1 (s.serve c).2 := .inl rfl

variable {s s' : LoginState}

theorem step_evalFixedWindow {key : String} {windowSeconds : ℤ} {v : Except LoginExn (ℤ × ℤ)}
    (h : step (.evalFixedWindow key windowSeconds) s v s') :
    (s' = { s with counters := (fixedWindowScript s.counters s.now key windowSeconds).2 } ∧
      (v = .ok (fixedWindowScript s.counters s.now key windowSeconds).1 ∨ v = .error .redisError)) ∨
    (s' = s ∧ v = .error .redisError) := by
  rcases h with h | ⟨-, rfl, rfl | rfl⟩
  · cases h
    exact .inl ⟨rfl, .inl rfl⟩
  · exact .inr ⟨rfl, rfl⟩
  · exact .inl ⟨rfl, .inr rfl⟩

/-- The script raises nothing else. -/
theorem redisError_of_can {key : String} {windowSeconds : ℤ} {e : LoginExn}
    (h : ∃ s s', step (.evalFixedWindow key windowSeconds) s (.error e) s') : e = .redisError := by
  obtain ⟨s, s', hs⟩ := h
  rcases step_evalFixedWindow hs with ⟨-, h | h⟩ | ⟨-, h⟩ <;> cases h
  · rfl
  · rfl

theorem step_fallbackCheck {clientKey : String} {v : Except LoginExn (Option ℤ)}
    (h : step (.fallbackCheck clientKey) s v s') : v = .ok (s.fallback.check clientKey s.now).1 ∧
      s' = { s with fallback := (s.fallback.check clientKey s.now).2 } := by
  rcases h with h | ⟨⟨key, windowSeconds, h⟩, -⟩
  · cases h
    exact ⟨rfl, rfl⟩
  · cases h

end LoginState

/-- Login attempts over one Redis and one process. -/
abbrev loginSystem (settings : LoginSettings) : System loginCalls where
  State := LoginState
  step := LoginState.step
  env := LoginState.Passes
  Req := LoginAttempt
  Res := Unit
  body := enforceLoginRateLimit settings

/-! ### What an attempt does, call by call -/

/-- How the script and the local check came back. -/
structure LoginPhase where
  evaluated : Option (Except LoginExn (ℤ × ℤ)) := none
  fallback : Option (Except LoginExn (Option ℤ)) := none

def LoginPhase.next (q : LoginPhase) : (c : LoginCall) → loginCalls.Out c → LoginPhase
  | .evalFixedWindow .., v => { q with evaluated := some v }
  | .fallbackCheck _, v => { q with fallback := some v }

abbrev loginAutomaton : Automaton loginCalls := ⟨LoginPhase, {}, LoginPhase.next⟩

section Protocol

variable (settings : LoginSettings) (attempt : LoginAttempt)

/-- The calls an attempt may make in a phase. -/
def LoginAttempt.Allows (q : LoginPhase) : LoginCall → Prop
  | .evalFixedWindow key windowSeconds =>
    q = {} ∧ key = (getLoginRateLimiter settings).redisKey attempt.clientHost ∧
      windowSeconds = (getLoginRateLimiter settings).windowSeconds
  | .fallbackCheck clientKey =>
    q = { evaluated := some (.error .redisError) } ∧ clientKey = attempt.clientHost

/-- One of the limiters let the attempt through. -/
def LoginPhase.Admitted (q : LoginPhase) : Prop :=
  (∃ result, q = { evaluated := some (.ok result) } ∧ (getLoginRateLimiter settings).retryAfter result = none) ∨
  q = { evaluated := some (.error .redisError), fallback := some (.ok none) }

abbrev loginProtocol : Protocol loginCalls where
  toAutomaton := loginAutomaton
  allows := attempt.Allows settings

theorem loginAttempt_follows {can : (c : LoginCall) → loginCalls.Out c → Prop}
    (hcan : ∀ key w e, can (.evalFixedWindow key w) (.error e) → e = .redisError) :
    (enforceLoginRateLimit settings attempt).Follows (loginProtocol settings attempt) can
      (fun q r => r = .ok () → q.Admitted settings) {} := by
  unfold enforceLoginRateLimit checkInRedis
  refine Prog.follows_bind.mpr (Prog.follows_tryCatch.mpr (Prog.follows_bind.mpr
    (Prog.follows_perform.mpr ⟨⟨rfl, rfl, rfl⟩, fun v hv => ?_⟩)))
  rcases v with e | result
  · obtain rfl := hcan _ _ e hv
    refine Prog.follows_perform.mpr ⟨⟨rfl, rfl⟩, fun v _ => ?_⟩
    rcases v with e | _ | seconds
    · exact fun h => by cases h
    · exact fun _ => .inr rfl
    · exact fun h => by cases h
  · simp only [Prog.ends_ok, Prog.pure_eq, Prog.follows_ret]
    cases hr : (getLoginRateLimiter settings).retryAfter result with
    | none => exact fun _ => .inl ⟨result, rfl, hr⟩
    | some seconds => exact fun h => by cases h

end Protocol

def loginDiscipline (settings : LoginSettings) : Discipline (loginSystem settings) where
  protocol := loginProtocol settings
  final _ q r := r = .ok () → q.Admitted settings
  follows attempt := loginAttempt_follows settings attempt fun _ _ _ => LoginState.redisError_of_can

/-! ### Admissions -/

section Runs

variable {settings : LoginSettings} {host : String}

/-- The threads the limiter in Redis let through under the host's key, and when. -/
def redisAdmissions (host : String) : List (Event (loginSystem settings)) → List (ℕ × ℚ)
  | [] => []
  | ⟨s, _, .call t (.evalFixedWindow key _) (.ok result)⟩ :: tr =>
    if key = (getLoginRateLimiter settings).redisKey host ∧
        (getLoginRateLimiter settings).retryAfter result = none then
      (t, s.now) :: redisAdmissions host tr
    else redisAdmissions host tr
  | _ :: tr => redisAdmissions host tr

/-- The threads the local limiter let through under the host's key, and when. -/
def fallbackAdmissions (host : String) : List (Event (loginSystem settings)) → List (ℕ × ℚ)
  | [] => []
  | ⟨s, _, .call t (.fallbackCheck clientKey) (.ok answer)⟩ :: tr =>
    if clientKey = host ∧ answer = none then (t, s.now) :: fallbackAdmissions host tr
    else fallbackAdmissions host tr
  | _ :: tr => fallbackAdmissions host tr

/-- The times of admissions. -/
def times (admissions : List (ℕ × ℚ)) : List ℚ := admissions.map (·.2)

/-- Both limiters' windows for a host account for what they have let through. -/
structure LoginInv (settings : LoginSettings) (host : String) (s : LoginState)
    (tr : List (Event (loginSystem settings))) : Prop where
  limit : s.fallback.requestLimit = settings.loginRateLimit
  width : s.fallback.windowSeconds = settings.loginRateWindowSeconds
  expires : ∀ key c, s.counters key = some c → c.Expires
  redis : Bounded settings.loginRateLimit (settings.loginRateWindowSeconds : ℚ)
    ((s.counters ((getLoginRateLimiter settings).redisKey host)).map
      (·.window settings.loginRateLimit settings.loginRateWindowSeconds)) (times (redisAdmissions host tr))
  redis_start : ∀ x, (s.counters ((getLoginRateLimiter settings).redisKey host)).map
      (·.window settings.loginRateLimit settings.loginRateWindowSeconds) = some x → x.start ≤ s.now
  fallback : Bounded settings.loginRateLimit (settings.loginRateWindowSeconds : ℚ)
    ((s.fallback.windows host).map FixedWindow.window) (times (fallbackAdmissions host tr))
  fallback_start : ∀ x, (s.fallback.windows host).map FixedWindow.window = some x → x.start ≤ s.now

theorem LoginSettings.window_pos (settings : LoginSettings) : (0 : ℚ) < settings.loginRateWindowSeconds := by
  have := settings.one_le_window
  exact_mod_cast (show 0 < settings.loginRateWindowSeconds by omega)

namespace LoginInv

variable {s : LoginState} {tr : List (Event (loginSystem settings))}

/-- The script runs under any client's key: what it makes of the counters, and of
the host's window. -/
theorem evaluate (h : LoginInv settings host s tr) (clientKey : String) :
    let limiter := getLoginRateLimiter settings
    let script := fixedWindowScript s.counters s.now (limiter.redisKey clientKey) limiter.windowSeconds
    (∀ key c, script.2 key = some c → c.Expires) ∧
    Bounded settings.loginRateLimit (settings.loginRateWindowSeconds : ℚ)
      ((script.2 (limiter.redisKey host)).map (·.window settings.loginRateLimit settings.loginRateWindowSeconds))
      (if limiter.redisKey clientKey = limiter.redisKey host ∧ limiter.retryAfter script.1 = none then
        s.now :: times (redisAdmissions host tr) else times (redisAdmissions host tr)) ∧
    ∀ x, (script.2 (limiter.redisKey host)).map
      (·.window settings.loginRateLimit settings.loginRateWindowSeconds) = some x → x.start ≤ s.now := by
  intro limiter script
  obtain ⟨hanswer, hwindow, hexpires⟩ := limiter.check_window clientKey s.now (h.expires _)
  refine ⟨fun key c hc => ?_, ?_⟩
  · by_cases hkey : key = limiter.redisKey clientKey
    · exact hexpires c (hkey ▸ hc)
    · exact h.expires key c ((fixedWindowScript_ne _ hkey).symm.trans hc)
  by_cases hkey : clientKey = host
  · subst hkey
    have hcheck := h.redis.check settings.one_le_limit settings.window_pos h.redis_start
    have hadmit : (limiter.retryAfter script.1 = none) ↔ (WindowCounter.check settings.loginRateLimit
        (settings.loginRateWindowSeconds : ℚ) ((s.counters (limiter.redisKey clientKey)).map
          (·.window settings.loginRateLimit settings.loginRateWindowSeconds)) s.now).1 = true := by
      rw [← Option.isNone_iff_eq_none]
      exact hanswer ▸ Iff.rfl
    have hwindow : (script.2 (limiter.redisKey clientKey)).map
        (·.window settings.loginRateLimit settings.loginRateWindowSeconds) = _ := hwindow
    simp only [true_and, hadmit]
    rw [hwindow]
    exact ⟨hcheck, check_start h.redis_start⟩
  · have hne : limiter.redisKey host ≠ limiter.redisKey clientKey := fun heq =>
      hkey (RedisFixedWindowRateLimiter.redisKey_inj.mp heq).symm
    have hother : script.2 (limiter.redisKey host) = s.counters (limiter.redisKey host) := fixedWindowScript_ne _ hne
    rw [hother, if_neg fun heq => hne heq.1.symm]
    exact ⟨h.redis, h.redis_start⟩

/-- An attempt runs the script, and hears of it or not. -/
theorem eval {s' : LoginState} {t : ℕ} {clientKey : String} {v : Except LoginExn (ℤ × ℤ)}
    (h : LoginInv settings host s tr)
    (hs : LoginState.step (.evalFixedWindow ((getLoginRateLimiter settings).redisKey clientKey)
      (getLoginRateLimiter settings).windowSeconds) s v s') :
    LoginInv settings host s' (⟨s, s', .call t
      (.evalFixedWindow ((getLoginRateLimiter settings).redisKey clientKey)
        (getLoginRateLimiter settings).windowSeconds) v⟩ :: tr) := by
  obtain ⟨hexpires, hbounded, hstart⟩ := h.evaluate clientKey
  rcases LoginState.step_evalFixedWindow hs with ⟨rfl, rfl | rfl⟩ | ⟨rfl, rfl⟩
  · refine ⟨h.limit, h.width, hexpires, ?_, hstart, h.fallback, h.fallback_start⟩
    simp only [redisAdmissions]
    split_ifs with hif
    · rw [if_pos hif] at hbounded
      exact hbounded
    · rw [if_neg hif] at hbounded
      exact hbounded
  · -- the reply is lost: the script has counted a request that is not let through here
    refine ⟨h.limit, h.width, hexpires, hbounded.sublist ?_, hstart, h.fallback, h.fallback_start⟩
    simp only [redisAdmissions]
    split_ifs
    · exact List.sublist_cons_self _ _
    · exact List.Sublist.refl _
  · exact ⟨h.limit, h.width, h.expires, h.redis, h.redis_start, h.fallback, h.fallback_start⟩

/-- An attempt falls back on the local limiter. -/
theorem fall_back {t : ℕ} {clientKey : String} (h : LoginInv settings host s tr) :
    LoginInv settings host { s with fallback := (s.fallback.check clientKey s.now).2 }
      (⟨s, { s with fallback := (s.fallback.check clientKey s.now).2 },
        .call t (.fallbackCheck clientKey) (.ok (s.fallback.check clientKey s.now).1)⟩ :: tr) := by
  obtain ⟨hlimit, hwidth⟩ := s.fallback.check_limits clientKey s.now
  obtain ⟨hanswer, hwindow⟩ := s.fallback.check_window clientKey s.now fun _ _ => Iff.rfl
  rw [h.limit, h.width] at hanswer hwindow
  refine ⟨hlimit.trans h.limit, hwidth.trans h.width, h.expires, h.redis, h.redis_start, ?_, ?_⟩
  · by_cases hkey : clientKey = host
    · subst hkey
      have hcheck := h.fallback.check settings.one_le_limit settings.window_pos h.fallback_start
      rw [← hwindow, ← hanswer] at hcheck
      simp only [fallbackAdmissions, true_and]
      simp only [Option.isNone_iff_eq_none] at hcheck
      split_ifs with hif
      · rw [if_pos hif] at hcheck
        exact hcheck
      · rw [if_neg hif] at hcheck
        exact hcheck
    · simp only [fallbackAdmissions, if_neg fun heq : clientKey = host ∧ _ => hkey heq.1]
      rw [s.fallback.check_ne s.now (Ne.symm hkey)]
      exact h.fallback
  · by_cases hkey : clientKey = host
    · subst hkey
      rw [hwindow]
      exact check_start h.fallback_start
    · rw [s.fallback.check_ne s.now (Ne.symm hkey)]
      exact h.fallback_start

end LoginInv

/-- Where a process starts: its own limiter is new, and any counter in Redis is one
that the script has left. -/
structure LoginState.Initial (settings : LoginSettings) (s : LoginState) : Prop where
  fallback : s.fallback = fallbackLoginRateLimiter settings
  expires : ∀ key c, s.counters key = some c → c.Expires
  expiresAt : ∀ key c, s.counters key = some c → ∀ t ∈ c.expiresAt, t ≤ s.now + settings.loginRateWindowSeconds

theorem LoginState.Initial.loginInv {s : LoginState} (h : s.Initial settings) : LoginInv settings host s [] := by
  have hlimit := settings.one_le_limit
  refine ⟨by rw [h.fallback]; rfl, by rw [h.fallback]; rfl, h.expires, ?_, ?_, ?_, ?_⟩
  · cases hkey : s.counters ((getLoginRateLimiter settings).redisKey host) with
    | none => exact .init hlimit
    | some c =>
      have hcount := (h.expires _ c hkey).1
      exact .found (le_min (by omega) (by omega)) (min_le_right _ _)
  · intro x hx
    obtain ⟨c, hc, rfl⟩ := Option.map_eq_some_iff.mp hx
    obtain ⟨t, ht⟩ := Option.isSome_iff_exists.mp (h.expires _ c hc).2
    have hle := h.expiresAt _ c hc t ht
    simp only [RedisCounter.window, ht, Option.getD_some]
    linarith
  · rw [h.fallback]
    exact .init hlimit
  · rw [h.fallback]
    exact fun _ hx => by cases hx

variable {s₀ : LoginState} {c : Config (loginSystem settings)}

theorem loginInv (hs₀ : s₀.Initial settings) (h : Interleaved (.init s₀) c) (host : String) :
    LoginInv settings host c.state c.trace := by
  refine @Run.invariant _ _ _ s₀ (loginDiscipline settings) (fun s tr => LoginInv settings host s tr)
    hs₀.loginInv ?_ ?_ ?_ c h
  · intro b hb ih t r hn
    exact ⟨ih.limit, ih.width, ih.expires, ih.redis, ih.redis_start, ih.fallback, ih.fallback_start⟩
  · intro b hb ih t r x v s' hrun hr ha hs
    cases x with
    | evalFixedWindow key windowSeconds =>
      obtain ⟨-, rfl, rfl⟩ := ha
      exact ih.eval hs
    | fallbackCheck clientKey =>
      obtain ⟨rfl, rfl⟩ := LoginState.step_fallbackCheck hs
      exact ih.fall_back
  · rintro b hb ih _ ⟨t, ht, rfl⟩
    exact ⟨ih.limit, ih.width, ih.expires, ih.redis, fun x hx => (ih.redis_start x hx).trans ht, ih.fallback,
      fun x hx => (ih.fallback_start x hx).trans ht⟩

/-! ### Attempts that are let through -/

theorem redisAdmissions_sublist (e : Event (loginSystem settings)) (tr : List (Event (loginSystem settings))) :
    (redisAdmissions host tr).Sublist (redisAdmissions host (e :: tr)) := by
  rcases e with ⟨s, s', ⟨t, r⟩ | ⟨t, ⟨key, w⟩ | ⟨key⟩, v⟩⟩
  · exact .refl _
  · rcases v with e | result
    · exact .refl _
    · simp only [redisAdmissions]
      split_ifs
      · exact List.sublist_cons_self _ _
      · exact .refl _
  · exact .refl _

theorem fallbackAdmissions_sublist (e : Event (loginSystem settings)) (tr : List (Event (loginSystem settings))) :
    (fallbackAdmissions host tr).Sublist (fallbackAdmissions host (e :: tr)) := by
  rcases e with ⟨s, s', ⟨t, r⟩ | ⟨t, ⟨key, w⟩ | ⟨key⟩, v⟩⟩
  · exact .refl _
  · exact .refl _
  · rcases v with e | answer
    · exact .refl _
    · simp only [fallbackAdmissions]
      split_ifs
      · exact List.sublist_cons_self _ _
      · exact .refl _

/-- What follows an event keeps what it admitted. -/
theorem mem_of_sublist {f : List (Event (loginSystem settings)) → List (ℕ × ℚ)} {x : ℕ × ℚ}
    (hf : ∀ e tr, (f tr).Sublist (f (e :: tr))) {tr : List (Event (loginSystem settings))} (h : x ∈ f tr) :
    ∀ u : List (Event (loginSystem settings)), x ∈ f (u ++ tr)
  | [] => h
  | e :: u => (hf e (u ++ tr)).subset (mem_of_sublist hf h u)

/-- Thread `t` is an attempt by the host that ended without an error, and its last
step was at a time from `a` on and before `b`. -/
def LetThrough (c : Config (loginSystem settings)) (host : String) (a b : ℚ) (t : ℕ) : Prop :=
  (∃ attempt : LoginAttempt, Requested t attempt c.trace ∧ attempt.clientHost = host) ∧
  c.result t = some (.ok ()) ∧
  ∃ u e tr, c.trace = u ++ e :: tr ∧ e.act.thread = t ∧ (∀ e' ∈ u, e'.act.thread ≠ t) ∧
    a ≤ e.before.now ∧ e.before.now < b

/-- Who is let through was admitted by one of the limiters in its last step. -/
theorem LetThrough.admitted (h : Interleaved (.init s₀) c) {a b : ℚ} {t : ℕ} (ht : LetThrough c host a b t) :
    ∃ now, (a ≤ now ∧ now < b) ∧
      ((t, now) ∈ redisAdmissions host c.trace ∨ (t, now) ∈ fallbackAdmissions host c.trace) := by
  obtain ⟨⟨attempt, hr, rfl⟩, hresult, u, ⟨s, s', act⟩, tr, he, hthread, hlast, hinterval⟩ := ht
  have hadmitted := Run.final (loginDiscipline settings) h hr hresult rfl
  have hadmitted : (phase loginAutomaton t c.trace).Admitted settings := hadmitted
  rw [he, phase_append hlast] at hadmitted
  refine ⟨s.now, hinterval, ?_⟩
  rw [he]
  cases act with
  | start t' r =>
    obtain rfl : t' = t := hthread
    rw [phase_start, phase_eq_init _ (Run.start_fresh h he)] at hadmitted
    rcases hadmitted with ⟨result, heq, -⟩ | heq <;> cases heq
  | call t' x v =>
    obtain rfl : t' = t := hthread
    obtain ⟨b', r, -, -, -, -, -, huniq, ha, hs⟩ := Run.made (loginDiscipline settings) h he
    obtain rfl := huniq _ hr
    rw [phase_call_self] at hadmitted
    cases x with
    | evalFixedWindow key w =>
      obtain ⟨hq, rfl, rfl⟩ := ha
      have hq : phase loginAutomaton t' tr = {} := hq
      rcases hadmitted with ⟨result, heq, hnone⟩ | heq
      · rw [hq] at heq
        cases heq
        exact .inl (mem_of_sublist redisAdmissions_sublist (by simp [redisAdmissions, hnone]) u)
      · rw [hq] at heq
        cases heq
    | fallbackCheck clientKey =>
      obtain ⟨hq, rfl⟩ := ha
      have hq : phase loginAutomaton t' tr = { evaluated := some (.error .redisError) } := hq
      rcases hadmitted with ⟨result, heq, -⟩ | heq
      · rw [hq] at heq
        cases heq
      · rw [hq] at heq
        cases heq
        exact .inr (mem_of_sublist fallbackAdmissions_sublist (by simp [fallbackAdmissions]) u)

/-- The admissions in an interval. -/
def inInterval (a b : ℚ) (admissions : List (ℕ × ℚ)) : List (ℕ × ℚ) :=
  admissions.filter fun p => decide (a ≤ p.2 ∧ p.2 < b)

theorem length_inInterval (a b : ℚ) (admissions : List (ℕ × ℚ)) :
    (inInterval a b admissions).length = between a b (times admissions) := by
  rw [inInterval, ← List.countP_eq_length_filter, between, times, List.countP_map]
  rfl

/-- **Brute-force bound.** However Redis fails, and however the attempts of all
clients interleave, the attempts of one host that are let through in an interval
of the window's length are at most four times the limit. -/
theorem login_attempts_bounded (hs₀ : s₀.Initial settings) (h : Interleaved (.init s₀) c) (host : String) (a : ℚ)
    (attempts : List ℕ) (hnodup : attempts.Nodup)
    (hthrough : ∀ t ∈ attempts, LetThrough c host a (a + settings.loginRateWindowSeconds) t) :
    attempts.length ≤ 4 * settings.loginRateLimit := by
  have hinv := loginInv hs₀ h host
  let b := a + (settings.loginRateWindowSeconds : ℚ)
  have hsub : attempts ⊆ (inInterval a b (redisAdmissions host c.trace) ++
      inInterval a b (fallbackAdmissions host c.trace)).map (·.1) := fun t ht => by
    obtain ⟨now, hinterval, hmem⟩ := (hthrough t ht).admitted h
    refine List.mem_map.mpr ⟨(t, now), List.mem_append.mpr ?_, rfl⟩
    exact hmem.imp (fun hmem => List.mem_filter.mpr ⟨hmem, decide_eq_true hinterval⟩)
      fun hmem => List.mem_filter.mpr ⟨hmem, decide_eq_true hinterval⟩
  have hlength := (List.subperm_of_subset hnodup hsub).length_le
  rw [List.length_map, List.length_append, length_inInterval, length_inInterval] at hlength
  have hredis : (between a b (times (redisAdmissions host c.trace)) : ℤ) ≤ _ := hinv.redis.interval a
  have hfallback : (between a b (times (fallbackAdmissions host c.trace)) : ℤ) ≤ _ := hinv.fallback.interval a
  omega

end Runs

/-- Where a process starts over an empty Redis. -/
def LoginState.new (settings : LoginSettings) : LoginState := ⟨0, fun _ => none, fallbackLoginRateLimiter settings⟩

/-- Redis does not answer. -/
def LoginState.serveAlone : (c : LoginCall) → LoginState → loginCalls.Out c × LoginState
  | .evalFixedWindow .., s => (.error .redisError, s)
  | c, s => s.serve c

theorem LoginState.step_serveAlone (c : LoginCall) (s : LoginState) :
    step c s (s.serveAlone c).1 (s.serveAlone c).2 := by
  cases c with
  | evalFixedWindow key windowSeconds => exact .inr ⟨⟨key, windowSeconds, rfl⟩, rfl, .inl rfl⟩
  | fallbackCheck clientKey => exact step_serve _ s

/-- The second attempt of a client. -/
def secondAttempt : Config (loginSystem .defaults) :=
  (Config.init (LoginState.new .defaults)).schedule LoginState.serve
    [.start 0 ⟨some "10.0.0.1"⟩, .call 0, .start 1 ⟨some "10.0.0.1"⟩, .call 1]

/-- The third, when Redis is gone. -/
def thirdAttempt : Config (loginSystem .defaults) :=
  secondAttempt.schedule LoginState.serveAlone [.start 2 ⟨some "10.0.0.1"⟩, .call 2, .call 2]

theorem login_attempts_bounded_third :
    redisAdmissions "10.0.0.1" thirdAttempt.trace = [(1, 0), (0, 0)] ∧
    fallbackAdmissions "10.0.0.1" thirdAttempt.trace = [(2, 0)] ∧
    ([0, 1, 2] : List ℕ).length ≤ 4 * LoginSettings.defaults.loginRateLimit := by
  have h : Interleaved (.init (LoginState.new .defaults)) thirdAttempt :=
    (Interleaved.schedule LoginState.step_serve _ _).trans (Interleaved.schedule LoginState.step_serveAlone _ _)
  have hinitial : (LoginState.new .defaults).Initial .defaults :=
    ⟨rfl, fun key c hc => (by cases hc), fun key c hc => (by cases hc)⟩
  have hinterval : (0 : ℚ) < 0 + LoginSettings.defaults.loginRateWindowSeconds := by decide +kernel
  refine ⟨by decide +kernel, by decide +kernel,
    login_attempts_bounded hinitial h "10.0.0.1" 0 [0, 1, 2] (by decide) fun t ht => ?_⟩
  simp only [List.mem_cons, List.not_mem_nil, or_false] at ht
  rcases ht with rfl | rfl | rfl
  · exact ⟨⟨_, (Run.pool_trace h).1 0 _ _ rfl, rfl⟩, by decide +kernel, [_, _, _, _, _], _, _, rfl, rfl,
      by decide +kernel, le_rfl, hinterval⟩
  · exact ⟨⟨_, (Run.pool_trace h).1 1 _ _ rfl, rfl⟩, by decide +kernel, [_, _, _], _, _, rfl, rfl,
      by decide +kernel, le_rfl, hinterval⟩
  · exact ⟨⟨_, (Run.pool_trace h).1 2 _ _ rfl, rfl⟩, by decide +kernel, [], _, _, rfl, rfl,
      by decide +kernel, le_rfl, hinterval⟩

end TaskApi
