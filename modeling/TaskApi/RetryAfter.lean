/-
# What Retry-After promises

A refused client is told how many seconds to wait. Both limiters mean the rest of
its window. The local limiter rounds it up: a check after that time is admitted, and
one a second earlier is not (`retryAfter_exact`), as long as a check reads the clock
where it looks at the window. But `check` reads the clock before it takes the lock,
so another thread may have opened the window in between, and then the wait is longer
than the window (`retryAfter_le_window_iff`). The script in Redis gives the rest to
the nearest second, and so, more than a second before the end, less than half of the
time too little (`redis_retryAfter_suffices_iff`).

Key definitions: `RoundsUp`, `RedisFixedWindowRateLimiter.timeLeft`, `limiterSystem`,
`ReadBeforeOpened`.
Key theorems: `redis_retryAfter_suffices_iff`, `retryAfter_exact`, `retryAfter_le_window_iff`.
-/
import TaskApi.Lib.Interleave
import TaskApi.RateLimiting

namespace TaskApi

open Conc

/-! ### Redis: to the nearest second -/

/-- The rest of a window that is not cut short by rounding: at most a second, a whole
number of them, or a half or more beyond one. -/
def RoundsUp (rest : ℚ) : Prop := rest ≤ 1 ∨ Int.fract rest = 0 ∨ 1 / 2 ≤ Int.fract rest

/-- Rounded to the nearest second, and to one at least, these are the times that do
not get shorter. -/
theorem le_round_iff (rest : ℚ) : rest ≤ (max 1 ⌊rest + 1 / 2⌋ : ℤ) ↔ RoundsUp rest := by
  have hsplit := Int.floor_add_fract rest
  have hfract := Int.fract_nonneg rest
  rcases lt_or_ge (Int.fract rest) (1 / 2) with hhalf | hhalf
  · have hfloor : ⌊rest + 1 / 2⌋ = ⌊rest⌋ := by
      rw [Int.floor_eq_iff]
      constructor <;> linarith
    rw [hfloor, Int.cast_max, le_max_iff, RoundsUp, Int.cast_one]
    have hfloor : rest ≤ ⌊rest⌋ ↔ Int.fract rest = 0 := by
      constructor <;> intro h <;> linarith
    rw [hfloor]
    have hnot : ¬ 1 / 2 ≤ Int.fract rest := not_le.mpr hhalf
    tauto
  · have hfloor : ⌊rest + 1 / 2⌋ = ⌊rest⌋ + 1 := by
      have hone := Int.fract_lt_one rest
      rw [Int.floor_eq_iff]
      push_cast
      constructor <;> linarith
    have hle : rest ≤ (⌊rest⌋ + 1 : ℤ) := by
      push_cast
      linarith [Int.fract_lt_one rest]
    rw [hfloor]
    refine iff_of_true (hle.trans ?_) (.inr (.inr hhalf))
    exact_mod_cast le_max_right _ _

namespace RedisFixedWindowRateLimiter

variable {limiter : RedisFixedWindowRateLimiter} {clientKey : String} {now : ℚ} {r : RedisCounters}

/-- The time the client's window is still open. -/
def timeLeft (limiter : RedisFixedWindowRateLimiter) (clientKey : String) (now : ℚ) (r : RedisCounters) : ℚ :=
  match r (limiter.redisKey clientKey) with
  | some ⟨_, some expiresAt⟩ => expiresAt - now
  | _ => 0

/-- A refused check: the counter is live and full, and the answer its rounded rest. -/
theorem check_eq_some {seconds : ℤ} (hr : ∀ c, r (limiter.redisKey clientKey) = some c → c.Expires)
    (h : (limiter.check clientKey now r).1 = some seconds) : ∃ count expiresAt,
      r (limiter.redisKey clientKey) = some ⟨count, some expiresAt⟩ ∧ limiter.requestLimit ≤ count ∧
      seconds = max 1 ⌊expiresAt - now + 1 / 2⌋ ∧
      (limiter.check clientKey now r).2 (limiter.redisKey clientKey) = some ⟨count + 1, some expiresAt⟩ := by
  cases hlive : r.live now (limiter.redisKey clientKey) with
  | none =>
    rw [(limiter.check_of_none hlive).1] at h
    cases h
  | some c =>
    have hkey : r (limiter.redisKey clientKey) = some c := (Option.filter_eq_some_iff.mp hlive).1
    obtain ⟨hcount, hexpires⟩ := hr c hkey
    obtain ⟨count, expiresAt⟩ := c
    obtain ⟨t, rfl⟩ := Option.isSome_iff_exists.mp hexpires
    have hset := (limiter.check_of_some hlive hcount).2
    simp only [check, fixedWindowScript_of_some _ hlive hcount, retryAfter] at h
    split_ifs at h with hroom
    refine ⟨count, t, hkey, by omega, (Option.some.inj h).symm, hset⟩

/-- Until the key expires every check is refused, and then the next is admitted. -/
theorem check_again (hr : ∀ c, r (limiter.redisKey clientKey) = some c → c.Expires) {seconds : ℤ}
    (h : (limiter.check clientKey now r).1 = some seconds) (later : ℚ) :
    (limiter.check clientKey later (limiter.check clientKey now r).2).1 = none ↔
      limiter.timeLeft clientKey now r ≤ later - now := by
  obtain ⟨count, expiresAt, hkey, hfull, -, hset⟩ := check_eq_some hr h
  have hcount := limiter.one_le_limit
  have hleft : limiter.timeLeft clientKey now r = expiresAt - now := by rw [timeLeft, hkey]
  rw [hleft, sub_le_sub_iff_right]
  by_cases hexpired : expiresAt ≤ later
  · have hlive : (limiter.check clientKey now r).2.live later (limiter.redisKey clientKey) = none := by
      simp [RedisCounters.live, hset, hexpired]
    exact iff_of_true (limiter.check_of_none hlive).1 hexpired
  · have hlive : (limiter.check clientKey now r).2.live later (limiter.redisKey clientKey) =
        some ⟨count + 1, some expiresAt⟩ := by
      simp [RedisCounters.live, hset, not_le.mp hexpired]
    have hrefused := (limiter.check_of_some hlive (by dsimp only; omega)).1
    refine iff_of_false (fun hnone => ?_) hexpired
    rw [hnone, decide_eq_false (by dsimp only; omega)] at hrefused
    cases hrefused

/-- Waiting out the answer of a refused check is enough for the next one exactly when
rounding did not cut the rest of the window short. -/
theorem wait_suffices_iff (hr : ∀ c, r (limiter.redisKey clientKey) = some c → c.Expires) {seconds : ℤ}
    (h : (limiter.check clientKey now r).1 = some seconds) :
    (∀ later, now + seconds ≤ later →
      (limiter.check clientKey later (limiter.check clientKey now r).2).1 = none) ↔
      RoundsUp (limiter.timeLeft clientKey now r) := by
  obtain ⟨count, expiresAt, hkey, -, hseconds, -⟩ := check_eq_some hr h
  have hleft : limiter.timeLeft clientKey now r = expiresAt - now := by rw [timeLeft, hkey]
  rw [← le_round_iff, hleft, ← hseconds]
  simp only [check_again hr h, hleft]
  constructor
  · intro hall
    have hleast := hall (now + seconds) le_rfl
    linarith
  · intro hle later hlater
    linarith

end RedisFixedWindowRateLimiter

/-- After any checks, waiting out a Retry-After of the limiter in Redis is enough for
the client's next check exactly when the window had, at the refusal, at most a second
left, or a time that the nearest second does not cut short. -/
theorem redis_retryAfter_suffices_iff (limiter : RedisFixedWindowRateLimiter) (checks : List (String × ℚ))
    (clientKey : String) (now : ℚ) (seconds : ℤ)
    (h : (limiter.check clientKey now (limiter.checks (fun _ => none) checks).2).1 = some seconds) :
    (∀ later, now + seconds ≤ later → (limiter.check clientKey later
      (limiter.check clientKey now (limiter.checks (fun _ => none) checks).2).2).1 = none) ↔
      RoundsUp (limiter.timeLeft clientKey now (limiter.checks (fun _ => none) checks).2) := by
  have hexpires := limiter.checks_expires checks (r := fun _ => none) nofun
  exact RedisFixedWindowRateLimiter.wait_suffices_iff (fun c hc => hexpires _ c hc) h

theorem two_seconds : (1 : ℤ) ≤ 2 := by decide

/-- One request in two seconds. -/
def twoSecondLimiter : RedisFixedWindowRateLimiter := ⟨1, 2, "rate", one_request, two_seconds⟩

/-- A check at 0.6 s is told to wait one second, though 1.4 s are left. -/
theorem redis_retryAfter_suffices_iff_two :
    (∀ later, 3 / 5 + ((1 : ℤ) : ℚ) ≤ later → (twoSecondLimiter.check "a" later
      (twoSecondLimiter.check "a" (3 / 5) (twoSecondLimiter.checks (fun _ => none) [("a", 0)]).2).2).1 = none) ↔
      RoundsUp (twoSecondLimiter.timeLeft "a" (3 / 5) (twoSecondLimiter.checks (fun _ => none) [("a", 0)]).2) :=
  redis_retryAfter_suffices_iff twoSecondLimiter [("a", 0)] "a" (3 / 5) 1 (by decide +kernel)

/-- So the check it makes then is refused again, and all times are whole milliseconds. -/
theorem redis_retryAfter_too_short :
    ¬ ∀ (limiter : RedisFixedWindowRateLimiter) (checks : List (String × ℚ)) (clientKey : String) (now later : ℚ)
      (seconds : ℤ),
      (∀ c ∈ checks, c.1 = clientKey) → (checks.map (·.2) ++ [now, later]).Pairwise (· ≤ ·) →
      (∀ time ∈ checks.map (·.2) ++ [now, later], ∃ milliseconds : ℕ, time = milliseconds / 1000) →
      (limiter.check clientKey now (limiter.checks (fun _ => none) checks).2).1 = some seconds →
      now + seconds ≤ later →
      (limiter.check clientKey later
        (limiter.check clientKey now (limiter.checks (fun _ => none) checks).2).2).1 = none := by
  intro h
  have hsorted : ([0, 3 / 5, 8 / 5] : List ℚ).Pairwise (· ≤ ·) := by decide +kernel
  have hmilliseconds : ∀ time ∈ ([0, 3 / 5, 8 / 5] : List ℚ), ∃ milliseconds : ℕ, time = milliseconds / 1000 := by
    intro time htime
    simp only [List.mem_cons, List.not_mem_nil, or_false] at htime
    rcases htime with rfl | rfl | rfl
    · exact ⟨0, by norm_num⟩
    · exact ⟨600, by norm_num⟩
    · exact ⟨1600, by norm_num⟩
  have hnone := h twoSecondLimiter [("a", 0)] "a" (3 / 5) (8 / 5) 1 (by simp) hsorted hmilliseconds
    (by decide +kernel) (by norm_num)
  have hrefused : (twoSecondLimiter.check "a" (8 / 5)
      (twoSecondLimiter.check "a" (3 / 5) (twoSecondLimiter.checks (fun _ => none) [("a", 0)]).2).2).1 = some 1 := by
    decide +kernel
  rw [hrefused] at hnone
  cases hnone

/-! ### Local: rounded up -/

namespace FixedWindowRateLimiter

variable {limiter : FixedWindowRateLimiter} {clientKey : String} {now : ℚ} {seconds : ℤ}

/-- A refused check: the window is open and full, the answer its rest rounded up, and
nothing changes. -/
theorem check_eq_some_iff : (limiter.check clientKey now).1 = some seconds ↔
    ∃ window, limiter.windows clientKey = some window ∧ now - window.startedAt < limiter.windowSeconds ∧
      limiter.requestLimit ≤ window.requestCount ∧
      seconds = max 1 ⌈limiter.windowSeconds - (now - window.startedAt)⌉ := by
  unfold check
  cases hwindow : limiter.windows clientKey with
  | none => simp
  | some window =>
    dsimp only
    split_ifs with hclosed hroom
    · simp [not_lt.mpr hclosed]
    · simp [not_le.mpr hroom]
    · simp [not_le.mp hclosed, not_lt.mp hroom, eq_comm]

theorem check_of_some (h : (limiter.check clientKey now).1 = some seconds) :
    (limiter.check clientKey now).2 = limiter := by
  unfold check at h ⊢
  cases hwindow : limiter.windows clientKey with
  | none =>
    rw [hwindow] at h
    cases h
  | some window =>
    simp only [hwindow] at h ⊢
    split_ifs at h ⊢
    rfl

/-- An open, full window of the client. -/
structure Full (limiter : FixedWindowRateLimiter) (clientKey : String) (window : FixedWindow) : Prop where
  windows : limiter.windows clientKey = some window
  full : limiter.requestLimit ≤ window.requestCount

/-- On a full window a check is refused exactly until its end. -/
theorem Full.refused_iff {window : FixedWindow} (h : limiter.Full clientKey window) :
    (limiter.check clientKey now).1 ≠ none ↔ now - window.startedAt < limiter.windowSeconds := by
  rw [Option.ne_none_iff_exists']
  constructor
  · rintro ⟨seconds, hrefused⟩
    obtain ⟨window', hwindow', hopen, -⟩ := check_eq_some_iff.mp hrefused
    obtain rfl := Option.some.inj (h.windows.symm.trans hwindow')
    exact hopen
  · exact fun hopen => ⟨_, check_eq_some_iff.mpr ⟨window, h.windows, hopen, h.full, rfl⟩⟩

/-- A check of another client, or one that is refused, leaves it. -/
theorem Full.check {window : FixedWindow} (h : limiter.Full clientKey window) {clientKey' : String} {now : ℚ}
    (hrefused : clientKey' = clientKey → (limiter.check clientKey' now).1 ≠ none) :
    (limiter.check clientKey' now).2.Full clientKey window := by
  by_cases hkey : clientKey' = clientKey
  · obtain ⟨seconds, hsome⟩ := Option.ne_none_iff_exists'.mp (hrefused hkey)
    rwa [check_of_some hsome]
  · refine ⟨(check_ne limiter now (Ne.symm hkey)).trans h.windows, ?_⟩
    rw [(check_limits limiter clientKey' now).1]
    exact h.full

/-- The limiter after checks. -/
theorem checks_windowSeconds (checks : List (String × ℚ)) : ∀ limiter : FixedWindowRateLimiter,
    (limiter.checks checks).2.windowSeconds = limiter.windowSeconds := by
  induction checks with
  | nil => exact fun _ => rfl
  | cons c checks ih => exact fun limiter => (ih _).trans (check_limits limiter c.1 c.2).2

/-- So do any checks of which none of the client's is admitted. -/
theorem Full.checks {window : FixedWindow} : ∀ (checks : List (String × ℚ)) {limiter : FixedWindowRateLimiter},
    limiter.Full clientKey window →
    (∀ x ∈ checks.zip (limiter.checks checks).1, x.1.1 = clientKey → x.2 ≠ none) →
      (limiter.checks checks).2.Full clientKey window
  | [], _, h, _ => h
  | c :: checks, limiter, h, hrefused => by
    have hfirst := hrefused (c, (limiter.check c.1 c.2).1) List.mem_cons_self
    exact Full.checks checks (h.check hfirst) fun x hx => hrefused x (List.mem_cons_of_mem _ hx)

/-- Before its end all checks of the client are refused. -/
theorem Full.refused_before {window : FixedWindow} : ∀ (checks : List (String × ℚ))
    {limiter : FixedWindowRateLimiter}, limiter.Full clientKey window →
    (∀ c ∈ checks, c.2 - window.startedAt < limiter.windowSeconds) →
      ∀ x ∈ checks.zip (limiter.checks checks).1, x.1.1 = clientKey → x.2 ≠ none
  | [], _, _, _, x, hx, _ => by cases hx
  | c :: checks, limiter, h, hearly, x, hx, hkey => by
    have hrefused : c.1 = clientKey → (limiter.check c.1 c.2).1 ≠ none := fun hc => by
      rw [hc]
      exact h.refused_iff.mpr (hearly c List.mem_cons_self)
    have hwidth := (check_limits limiter c.1 c.2).2
    rcases List.mem_cons.mp hx with rfl | hx
    · exact hrefused hkey
    · refine Full.refused_before checks (h.check hrefused) (fun c' hc' => ?_) x hx hkey
      rw [hwidth]
      exact hearly c' (List.mem_cons_of_mem _ hc')

/-- The answer of a refused check is the rest of the window, to the next whole second. -/
theorem rest_of_check {window : FixedWindow} (hwindow : limiter.windows clientKey = some window)
    (h : (limiter.check clientKey now).1 = some seconds) :
    window.startedAt + limiter.windowSeconds ≤ now + seconds ∧
      now + seconds - 1 < window.startedAt + limiter.windowSeconds := by
  obtain ⟨window', hwindow', hopen, -, hseconds⟩ := check_eq_some_iff.mp h
  obtain rfl := Option.some.inj (hwindow.symm.trans hwindow')
  have hpos : 0 < (limiter.windowSeconds : ℚ) - (now - window.startedAt) := by linarith
  have hone : 1 ≤ ⌈(limiter.windowSeconds : ℚ) - (now - window.startedAt)⌉ := Int.one_le_ceil_iff.mpr hpos
  rw [max_eq_right hone] at hseconds
  have hle := Int.le_ceil ((limiter.windowSeconds : ℚ) - (now - window.startedAt))
  have hlt := Int.ceil_lt_add_one ((limiter.windowSeconds : ℚ) - (now - window.startedAt))
  rw [← hseconds] at hle hlt
  constructor <;> linarith

end FixedWindowRateLimiter

/-- A refused check of the local limiter is told the least number of whole seconds that
is enough, whatever windows the limiter has by then. Of the checks that follow it in
order of time, of any clients, the client's own up to a second less than that after it
are refused, and one from then on is admitted, unless one was in between. -/
theorem retryAfter_exact (limiter : FixedWindowRateLimiter) (clientKey : String) (now : ℚ) (seconds : ℤ)
    (h : (limiter.check clientKey now).1 = some seconds) (between : List (String × ℚ)) (later : ℚ)
    (hsorted : (now :: between.map (·.2) ++ [later]).Pairwise (· ≤ ·)) :
    (later ≤ now + seconds - 1 →
      (((limiter.check clientKey now).2.checks between).2.check clientKey later).1 ≠ none) ∧
    (now + seconds ≤ later →
      (∀ x ∈ between.zip ((limiter.check clientKey now).2.checks between).1, x.1.1 = clientKey → x.2 ≠ none) →
      (((limiter.check clientKey now).2.checks between).2.check clientKey later).1 = none) := by
  obtain ⟨window, hwindow, -, hcount, -⟩ := FixedWindowRateLimiter.check_eq_some_iff.mp h
  have hfull : limiter.Full clientKey window := ⟨hwindow, hcount⟩
  obtain ⟨henough, hleast⟩ := FixedWindowRateLimiter.rest_of_check hwindow h
  rw [FixedWindowRateLimiter.check_of_some h]
  have hwidth := FixedWindowRateLimiter.checks_windowSeconds between limiter
  constructor
  · intro hlater
    have hbefore : ∀ c ∈ between, c.2 ≤ later := fun c hc =>
      (List.pairwise_append.mp hsorted).2.2 c.2 (List.mem_cons_of_mem _ (List.mem_map_of_mem hc)) later (by simp)
    have hearly : ∀ c ∈ between, c.2 - window.startedAt < limiter.windowSeconds := fun c hc => by
      linarith [hbefore c hc]
    have hstill := hfull.checks between (hfull.refused_before between hearly)
    refine hstill.refused_iff.mpr ?_
    rw [hwidth]
    linarith
  · intro hlater hrefused
    have hstill := hfull.checks between hrefused
    have hclosed : ¬ later - window.startedAt < (limiter.checks between).2.windowSeconds := by
      rw [hwidth]
      linarith
    exact not_not.mp (hstill.refused_iff.not.mpr hclosed)

/-- One request in two seconds, after one at 0 s. -/
def localTwoSeconds : FixedWindowRateLimiter := (FixedWindowRateLimiter.check ⟨1, 2, fun _ => none⟩ "a" 0).2

/-- At 0.6 s the client is told to wait two; at 1.6 s it is refused, and at 2.6 s admitted. -/
theorem retryAfter_exact_two :
    (localTwoSeconds.check "a" (3 / 5)).1 = some 2 ∧
    (((localTwoSeconds.check "a" (3 / 5)).2.checks [("b", 1)]).2.check "a" (8 / 5)).1 ≠ none ∧
    (((localTwoSeconds.check "a" (3 / 5)).2.checks [("b", 1)]).2.check "a" (13 / 5)).1 = none := by
  have htold : (localTwoSeconds.check "a" (3 / 5)).1 = some 2 := by decide +kernel
  refine ⟨htold, ?_, ?_⟩
  · exact (retryAfter_exact _ "a" (3 / 5) 2 htold [("b", 1)] (8 / 5) (by decide +kernel)).1 (by norm_num)
  · refine (retryAfter_exact _ "a" (3 / 5) 2 htold [("b", 1)] (13 / 5) (by decide +kernel)).2 (by norm_num) ?_
    intro x hx hkey
    obtain rfl := List.mem_singleton.mp hx
    simp at hkey

/-! ### Local, from threads -/

/-- Where threads meet: the clock, and the section under the lock. -/
inductive LimiterCall where
  | clock
  | locked (clientKey : String) (currentTime : ℚ)

abbrev LimiterCall.Val : LimiterCall → Type
  | .clock => ℚ
  | .locked .. => Option ℤ

abbrev limiterCalls : Interface := ⟨LimiterCall, LimiterCall.Val, Empty⟩

structure LimiterState where
  now : ℚ
  limiter : FixedWindowRateLimiter

def LimiterState.serve : (c : LimiterCall) → LimiterState → limiterCalls.Out c × LimiterState
  | .clock, s => (.ok s.now, s)
  | .locked clientKey currentTime, s =>
    (.ok (s.limiter.check clientKey currentTime).1,
      { s with limiter := (s.limiter.check clientKey currentTime).2 })

/-- `check` in a thread: the clock is read before the lock is taken. -/
def checkThread (clientKey : String) : Prog limiterCalls (Option ℤ) := do
  let currentTime : ℚ ← Prog.perform (I := limiterCalls) .clock
  Prog.perform (I := limiterCalls) (.locked clientKey currentTime)

/-- Threads that check any clients, while time passes. -/
abbrev limiterSystem : System limiterCalls where
  State := LimiterState
  step c s v s' := s.serve c = (v, s')
  env s s' := ∃ now, s.now ≤ now ∧ s' = { s with now := now }
  Req := String
  Res := Option ℤ
  body := checkThread

/-- What a thread has seen. -/
structure CheckPhase where
  currentTime : Option ℚ := none
  answer : Option (Option ℤ) := none

def CheckPhase.next (q : CheckPhase) : (c : LimiterCall) → limiterCalls.Out c → CheckPhase
  | .clock, .ok currentTime => { q with currentTime := some currentTime }
  | .locked .., .ok answer => { q with answer := q.answer.or (some answer) }
  | _, _ => q

def CheckPhase.Allows (clientKey : String) (q : CheckPhase) : LimiterCall → Prop
  | .clock => q.currentTime = none ∧ q.answer = none
  | .locked clientKey' currentTime => clientKey' = clientKey ∧ q.currentTime = some currentTime ∧ q.answer = none

def CheckPhase.Ends (q : CheckPhase) : Except Empty (Option ℤ) → Prop
  | .ok answer => q.answer = some answer
  | .error _ => False

abbrev checkProtocol (clientKey : String) : Protocol limiterCalls :=
  ⟨⟨CheckPhase, {}, CheckPhase.next⟩, CheckPhase.Allows clientKey⟩

def limiterDiscipline : Discipline limiterSystem where
  protocol := checkProtocol
  final _ := CheckPhase.Ends
  follows clientKey := by
    refine Prog.follows_bind.mpr (Prog.follows_perform.mpr ⟨⟨rfl, rfl⟩, fun v _ => ?_⟩)
    rcases v with e | currentTime
    · exact e.elim
    refine Prog.follows_perform.mpr ⟨⟨rfl, rfl, rfl⟩, fun v _ => ?_⟩
    rcases v with e | answer
    · exact e.elim
    · rfl

section

variable {gate : Config limiterSystem → Prop} {s₀ s s' : LimiterState} {c : Config limiterSystem} {t : ℕ}
  {clientKey : String} {currentTime : ℚ} {u tr : List (Event limiterSystem)}

/-- The limits stay as they were. -/
theorem limits_of_run (h : Run gate (.init s₀) c) :
    c.state.limiter.requestLimit = s₀.limiter.requestLimit ∧
      c.state.limiter.windowSeconds = s₀.limiter.windowSeconds := by
  refine @Run.invariant _ _ gate s₀ limiterDiscipline (fun s _ =>
    s.limiter.requestLimit = s₀.limiter.requestLimit ∧ s.limiter.windowSeconds = s₀.limiter.windowSeconds)
    ⟨rfl, rfl⟩ ?_ ?_ ?_ c h
  · exact fun b hb ih t r hn => ih
  · rintro b hb ih t r x v s' - - - hs
    cases x with
    | clock =>
      cases hs
      exact ih
    | locked clientKey currentTime =>
      cases hs
      obtain ⟨hlimit, hwidth⟩ := FixedWindowRateLimiter.check_limits b.state.limiter clientKey currentTime
      exact ⟨hlimit.trans ih.1, hwidth.trans ih.2⟩
  · rintro b hb ih s' ⟨now, -, rfl⟩
    exact ih

/-- A check that has been through the lock has returned what it found there. -/
theorem locked_returned (h : Run gate (.init s₀) c) {v : Except Empty (Option ℤ)}
    (he : c.trace = u ++ ⟨s, s', .call t (.locked clientKey currentTime) v⟩ :: tr) :
    v = .ok (s.limiter.check clientKey currentTime).1 ∧
      c.result t = some (.ok (s.limiter.check clientKey currentTime).1) := by
  obtain ⟨b, r, hb, rfl, rfl, -, hr, -, ha, hs⟩ := Run.made limiterDiscipline h he
  obtain ⟨rfl, htime, hnone⟩ := ha
  obtain rfl : v = .ok (b.state.limiter.check clientKey currentTime).1 := (Prod.ext_iff.mp hs).1.symm
  refine ⟨rfl, ?_⟩
  have hafter : (phase (checkProtocol clientKey).toAutomaton t c.trace).answer =
      some (b.state.limiter.check clientKey currentTime).1 := by
    rw [he]
    refine phase_stable (P := fun q : CheckPhase => q.answer = some (b.state.limiter.check clientKey currentTime).1)
      (A := (checkProtocol clientKey).toAutomaton) (fun q x v hq => ?_) ?_ u
    · cases x <;> rcases v with e | v
      · exact e.elim
      · exact hq
      · exact e.elim
      · show q.answer.or (some v) = _
        rw [hq]
        rfl
    · rw [phase_call_self]
      show Option.or _ _ = _
      rw [show (phase (checkProtocol clientKey).toAutomaton t b.trace).answer = none from hnone, Option.none_or]
  have hrequested : Requested t clientKey c.trace := he ▸ (hr.cons _).append u
  obtain ⟨p, hp⟩ := h.pool_trace.2.1 t clientKey hrequested
  have hfollows := h.follows limiterDiscipline hp
  rw [Config.result, hp]
  cases p with
  | ret a =>
    have ha : (phase (checkProtocol clientKey).toAutomaton t c.trace).answer = some a := hfollows
    rw [hafter] at ha
    rw [Option.some.inj ha]
    rfl
  | raise e => exact e.elim
  | call x k =>
    -- it makes no call after the locked one
    have hallows : CheckPhase.Allows clientKey (phase (checkProtocol clientKey).toAutomaton t c.trace) x := hfollows.1
    cases x with
    | clock => exact absurd (hafter.symm.trans hallows.2) (by simp)
    | locked clientKey' currentTime' => exact absurd (hafter.symm.trans hallows.2.2) (by simp)

/-- What a check returned it found under the lock, on its own client's window. -/
theorem returned_locked (h : Run gate (.init s₀) c) {answer : Option ℤ} (hx : c.result t = some (.ok answer)) :
    ∃ u s s' clientKey currentTime tr,
      c.trace = u ++ ⟨s, s', .call t (.locked clientKey currentTime) (.ok answer)⟩ :: tr := by
  obtain ⟨clientKey, hr⟩ := h.ended_requested hx
  have hfinal := Run.final limiterDiscipline h hr hx
  obtain ⟨u, s, s', x, v, tr, he, hbefore, hnext⟩ :=
    phase_became (P := fun q : CheckPhase => q.answer = some answer) (A := (checkProtocol clientKey).toAutomaton)
      (by rintro ⟨⟩) hfinal
  cases x with
  | clock => rcases v with e | v <;> exact absurd hnext hbefore
  | locked clientKey' currentTime =>
    rcases v with e | v
    · exact e.elim
    rcases Option.or_eq_some_iff.mp hnext with hold | ⟨-, hnew⟩
    · exact absurd hold hbefore
    · obtain rfl := Option.some.inj hnew
      exact ⟨u, s, s', clientKey', currentTime, tr, he⟩

/-- A check comes to a full window that was opened after the check read the clock. -/
def ReadBeforeOpened (e : Event limiterSystem) : Prop := ∃ t clientKey currentTime v window,
  e.act = .call t (.locked clientKey currentTime) v ∧ e.before.limiter.Full clientKey window ∧
    currentTime < window.startedAt

end

/-- In any interleaving of checks from any threads, every refused check is told to wait
at least a second and at most the window exactly when none of them came to a full
window that was opened after it had read the clock. -/
theorem retryAfter_le_window_iff {s₀ : LimiterState} (hwidth : 1 ≤ s₀.limiter.windowSeconds)
    {c : Config limiterSystem} (h : Interleaved (.init s₀) c) :
    (∀ t seconds, c.result t = some (.ok (some seconds)) → 1 ≤ seconds ∧ seconds ≤ s₀.limiter.windowSeconds) ↔
      ∀ e ∈ c.trace, ¬ ReadBeforeOpened e := by
  have hlimits : ∀ {u tr s s' t} {x : LimiterCall} {v : limiterCalls.Out x},
      c.trace = u ++ ⟨s, s', .call t x v⟩ :: tr → s.limiter.windowSeconds = s₀.limiter.windowSeconds := fun he => by
    obtain ⟨b, r, hb, rfl, -⟩ := Run.made limiterDiscipline h he
    exact (limits_of_run hb).2
  constructor
  · rintro hall ⟨s, s', act⟩ he ⟨t, clientKey, currentTime, v, window, rfl, hfull, hlate⟩
    obtain ⟨u, tr, he⟩ := List.append_of_mem he
    have hwidth' := hlimits he
    have hpos : (1 : ℚ) ≤ s.limiter.windowSeconds := by
      rw [hwidth']
      exact_mod_cast hwidth
    have hrefused : (s.limiter.check clientKey currentTime).1 =
        some (max 1 ⌈(s.limiter.windowSeconds : ℚ) - (currentTime - window.startedAt)⌉) :=
      FixedWindowRateLimiter.check_eq_some_iff.mpr ⟨window, hfull.windows, by linarith, hfull.full, rfl⟩
    have hreturned := (locked_returned h he).2
    rw [hrefused] at hreturned
    have hle := (max_le_iff.mp (hall t _ hreturned).2).2
    rw [← hwidth', Int.ceil_le] at hle
    linarith
  · intro hnone t seconds hx
    obtain ⟨u, s, s', clientKey, currentTime, tr, he⟩ := returned_locked h hx
    have hchecked := Except.ok.inj (locked_returned h he).1
    obtain ⟨window, hwindow, -, hcount, rfl⟩ := FixedWindowRateLimiter.check_eq_some_iff.mp hchecked.symm
    have hread : window.startedAt ≤ currentTime := by
      by_contra hlate
      have hmem := he.symm.subst (motive := fun trace => _ ∈ trace) List.mem_append_cons_self
      exact hnone _ hmem ⟨t, clientKey, currentTime, _, window, rfl, ⟨hwindow, hcount⟩, not_le.mp hlate⟩
    refine ⟨le_max_left _ _, max_le hwidth ?_⟩
    rw [← hlimits he, Int.ceil_le]
    linarith

/-! ### A check that is overtaken -/

theorem LimiterState.step_serve (x : LimiterCall) (s : LimiterState) :
    limiterSystem.step x s (s.serve x).1 (s.serve x).2 := rfl

/-- One request in a second. -/
def threadStart : LimiterState := ⟨0, ⟨1, 1, fun _ => none⟩⟩

/-- The first thread has read the clock. -/
def clockRead : Config limiterSystem :=
  (Config.init threadStart).schedule LimiterState.serve [.start 1 "a", .call 1]

/-- Ten seconds have passed. -/
def tenSecondsLater : Config limiterSystem :=
  ⟨{ clockRead.state with now := 10 }, clockRead.trace, clockRead.pool⟩

/-- A second thread has opened the window before the first goes on. -/
def overtakenCheck : Config limiterSystem :=
  tenSecondsLater.schedule LimiterState.serve [.start 2 "a", .call 2, .call 2, .call 1]

theorem interleaved_clockRead : Interleaved (.init threadStart) clockRead :=
  Interleaved.schedule LimiterState.step_serve _ _

theorem interleaved_overtakenCheck : Interleaved (.init threadStart) overtakenCheck := by
  have hlater : Interleaved clockRead tenSecondsLater :=
    .single (.env _ ⟨10, by decide +kernel, rfl⟩)
  have hovertaken : Interleaved tenSecondsLater overtakenCheck :=
    Interleaved.schedule LimiterState.step_serve _ _
  exact (interleaved_clockRead.trans hlater).trans hovertaken

/-- The first thread is told to wait eleven seconds for a window of one. -/
theorem retryAfter_exceeds_window : ¬ ∀ (s₀ : LimiterState) (c : Config limiterSystem),
    1 ≤ s₀.limiter.requestLimit → 1 ≤ s₀.limiter.windowSeconds → (∀ clientKey, s₀.limiter.windows clientKey = none) →
    Interleaved (.init s₀) c → ∀ t seconds, c.result t = some (.ok (some seconds)) →
      1 ≤ seconds ∧ seconds ≤ s₀.limiter.windowSeconds := fun hall => by
  have hresult : overtakenCheck.result 1 = some (.ok (some 11)) := by decide +kernel
  have hle := (hall threadStart overtakenCheck (by decide) (by decide) (fun _ => rfl) interleaved_overtakenCheck
    1 11 hresult).2
  exact absurd hle (by decide)

theorem retryAfter_le_window_iff_overtaken :
    (∀ t seconds, overtakenCheck.result t = some (.ok (some seconds)) → 1 ≤ seconds ∧ seconds ≤ 1) ↔
      ∀ e ∈ overtakenCheck.trace, ¬ ReadBeforeOpened e :=
  retryAfter_le_window_iff (by decide) interleaved_overtakenCheck

end TaskApi
