/-
# The two rate limiters

`rate_limiting.py` and `redis_rate_limiting.py`: the local limiter keeps a window
and a capped count for each client, the script in Redis a counter that expires
with its window and counts refused requests too. Seen as fixed windows
(`WindowCounter`) they take the same steps, so they admit the same requests
wherever the local limiter's difference of two readings, a double, is on the
right side of the window's width (`limiters_agree`). Where it is rounded up to
the width, the local limiter opens a window before the counter expires
(`limiters_disagree`).

Key definitions: `FixedWindowRateLimiter.check`, `fixedWindowScript`,
`RedisFixedWindowRateLimiter.check`, `RedisCounter.window`, `SameSide`.
Key theorems: `FixedWindowRateLimiter.check_window`, `RedisFixedWindowRateLimiter.check_window`,
`limiters_agree`, `limiters_disagree`.
-/
import TaskApi.Lib.Double
import TaskApi.Lib.WindowCounter
import Mathlib

namespace TaskApi

open WindowCounter

/-! ### The local limiter -/

structure FixedWindow where
  startedAt : ℚ
  requestCount : ℤ
deriving DecidableEq

/-- The limiter, with the windows it has opened. -/
structure FixedWindowRateLimiter where
  requestLimit : ℤ
  windowSeconds : ℤ
  windows : String → Option FixedWindow := fun _ => none

namespace FixedWindowRateLimiter

/-- `self._windows[client_key] = window` -/
def setWindow (limiter : FixedWindowRateLimiter) (clientKey : String) (window : FixedWindow) :
    FixedWindowRateLimiter :=
  { limiter with windows := Function.update limiter.windows clientKey (some window) }

/-- `check`, with what the clock reads: none, or the seconds to wait. Times are
subtracted exactly, or as `subtract` does it: in the code as doubles (`Double.sub`). -/
def check (limiter : FixedWindowRateLimiter) (clientKey : String) (currentTime : ℚ)
    (subtract : ℚ → ℚ → ℚ := HSub.hSub) : Option ℤ × FixedWindowRateLimiter :=
  match limiter.windows clientKey with
  | none => (none, limiter.setWindow clientKey ⟨currentTime, 1⟩)
  | some window =>
    if limiter.windowSeconds ≤ subtract currentTime window.startedAt then
      (none, limiter.setWindow clientKey ⟨currentTime, 1⟩)
    else if window.requestCount < limiter.requestLimit then
      (none, limiter.setWindow clientKey { window with requestCount := window.requestCount + 1 })
    else
      (some (max 1 ⌈subtract limiter.windowSeconds (subtract currentTime window.startedAt)⌉), limiter)

variable {subtract : ℚ → ℚ → ℚ}

@[simp] theorem setWindow_self (limiter : FixedWindowRateLimiter) (clientKey : String) (window : FixedWindow) :
    (limiter.setWindow clientKey window).windows clientKey = some window := by
  simp [setWindow]

theorem check_limits (limiter : FixedWindowRateLimiter) (clientKey : String) (now : ℚ)
    (subtract : ℚ → ℚ → ℚ := HSub.hSub) :
    (limiter.check clientKey now subtract).2.requestLimit = limiter.requestLimit ∧
      (limiter.check clientKey now subtract).2.windowSeconds = limiter.windowSeconds := by
  unfold check
  split
  · exact ⟨rfl, rfl⟩
  · split_ifs <;> exact ⟨rfl, rfl⟩

/-- A check changes the window of its own client only. -/
theorem check_ne (limiter : FixedWindowRateLimiter) {clientKey clientKey' : String} (now : ℚ)
    (h : clientKey' ≠ clientKey) :
    (limiter.check clientKey now subtract).2.windows clientKey' = limiter.windows clientKey' := by
  have hset : ∀ window, (limiter.setWindow clientKey window).windows clientKey' = limiter.windows clientKey' :=
    fun window => Function.update_of_ne h _ _
  unfold check
  split
  · exact hset _
  · split_ifs
    · exact hset _
    · exact hset _
    · rfl

/-- A check leaves its client in a window that it opened itself or found. -/
theorem check_startedAt (limiter : FixedWindowRateLimiter) {clientKey : String} {now : ℚ} {window : FixedWindow}
    (h : (limiter.check clientKey now subtract).2.windows clientKey = some window) :
    window.startedAt = now ∨ ∃ found, limiter.windows clientKey = some found ∧ window.startedAt = found.startedAt := by
  unfold check at h
  cases hfound : limiter.windows clientKey with
  | none =>
    simp only [hfound, setWindow_self, Option.some.injEq] at h
    rw [← h]
    exact .inl rfl
  | some found =>
    simp only [hfound] at h
    split_ifs at h
    · simp only [setWindow_self, Option.some.injEq] at h
      rw [← h]
      exact .inl rfl
    · simp only [setWindow_self, Option.some.injEq] at h
      rw [← h]
      exact .inr ⟨found, rfl, rfl⟩
    · rw [hfound, Option.some.injEq] at h
      rw [← h]
      exact .inr ⟨found, rfl, rfl⟩

end FixedWindowRateLimiter

/-! ### The limiter in Redis -/

/-- A counter, and when its key expires, if it does. -/
structure RedisCounter where
  count : ℤ
  expiresAt : Option ℚ
deriving DecidableEq

/-- The counters, under their keys. -/
abbrev RedisCounters := String → Option RedisCounter

/-- The counter under a key that exists at time `now`. -/
def RedisCounters.live (r : RedisCounters) (now : ℚ) (key : String) : Option RedisCounter :=
  (r key).filter fun c => decide (∀ t ∈ c.expiresAt, now < t)

/-- `TTL`: the time left to the nearest second, or −1 for a key that does not expire. -/
def RedisCounter.ttl (c : RedisCounter) (now : ℚ) : ℤ :=
  match c.expiresAt with
  | none => -1
  | some t => ⌊t - now + 1 / 2⌋

/-- `FIXED_WINDOW_SCRIPT`: the request count and the time to live. -/
def fixedWindowScript (r : RedisCounters) (now : ℚ) (key : String) (windowSeconds : ℤ) :
    (ℤ × ℤ) × RedisCounters :=
  -- `INCR` leaves the expiry as it is
  let incremented : RedisCounter :=
    match r.live now key with
    | none => ⟨1, none⟩
    | some c => { c with count := c.count + 1 }
  let counter : RedisCounter :=
    if incremented.count = 1 then { incremented with expiresAt := some (now + windowSeconds) } else incremented
  ((counter.count, counter.ttl now), Function.update r key (some counter))

/-- The script opens a window where no counter exists. -/
theorem fixedWindowScript_of_none {r : RedisCounters} {now : ℚ} {key : String} (windowSeconds : ℤ)
    (h : r.live now key = none) : fixedWindowScript r now key windowSeconds =
      ((1, RedisCounter.ttl ⟨1, some (now + windowSeconds)⟩ now),
        Function.update r key (some ⟨1, some (now + windowSeconds)⟩)) := by
  simp [fixedWindowScript, h]

/-- The script counts one more where one does. -/
theorem fixedWindowScript_of_some {r : RedisCounters} {now : ℚ} {key : String} {c : RedisCounter}
    (windowSeconds : ℤ) (h : r.live now key = some c) (hc : 1 ≤ c.count) :
    fixedWindowScript r now key windowSeconds =
      ((c.count + 1, c.ttl now), Function.update r key (some { c with count := c.count + 1 })) := by
  have hne : c.count + 1 ≠ 1 := by omega
  simp only [fixedWindowScript, h, if_neg hne]
  rfl

theorem fixedWindowScript_ne {r : RedisCounters} {now : ℚ} {key key' : String} (windowSeconds : ℤ)
    (h : key' ≠ key) : (fixedWindowScript r now key windowSeconds).2 key' = r key' :=
  Function.update_of_ne h _ _

structure RedisFixedWindowRateLimiter where
  requestLimit : ℤ
  windowSeconds : ℤ
  keyPrefix : String
  one_le_limit : 1 ≤ requestLimit
  one_le_window : 1 ≤ windowSeconds

namespace RedisFixedWindowRateLimiter

theorem one_le_of_not_lt {n : ℤ} (h : ¬ n < 1) : 1 ≤ n := not_lt.mp h

/-- `__init__`; the error is the message of its `ValueError`. -/
def init (requestLimit windowSeconds : ℤ) (keyPrefix : String) : Except String RedisFixedWindowRateLimiter :=
  if hlimit : requestLimit < 1 then .error "request_limit must be at least 1"
  else if hwindow : windowSeconds < 1 then .error "window_seconds must be at least 1"
  else .ok ⟨requestLimit, windowSeconds, keyPrefix, one_le_of_not_lt hlimit, one_le_of_not_lt hwindow⟩

/-- The key of a client's counter. -/
def redisKey (limiter : RedisFixedWindowRateLimiter) (clientKey : String) : String :=
  s!"{limiter.keyPrefix}:{clientKey}"

/-- What `check` makes of the script's result. -/
def retryAfter (limiter : RedisFixedWindowRateLimiter) (scriptResult : ℤ × ℤ) : Option ℤ :=
  if scriptResult.1 ≤ limiter.requestLimit then none else some (max 1 scriptResult.2)

/-- `check` at time `now`: none, or the seconds to wait. -/
def check (limiter : RedisFixedWindowRateLimiter) (clientKey : String) (now : ℚ) (r : RedisCounters) :
    Option ℤ × RedisCounters :=
  let (scriptResult, r') := fixedWindowScript r now (limiter.redisKey clientKey) limiter.windowSeconds
  (limiter.retryAfter scriptResult, r')

theorem redisKey_inj {limiter : RedisFixedWindowRateLimiter} {clientKey clientKey' : String} :
    limiter.redisKey clientKey = limiter.redisKey clientKey' ↔ clientKey = clientKey' :=
  String.append_right_inj (limiter.keyPrefix ++ ":")

end RedisFixedWindowRateLimiter

/-! ### Both as fixed windows -/

/-- The window the local limiter keeps. -/
def FixedWindow.window (w : FixedWindow) : Window ℚ := ⟨w.startedAt, w.requestCount⟩

/-- The window a counter stands for: it ends when the key expires, and what the
counter has beyond the limit was refused. -/
def RedisCounter.window (limit windowSeconds : ℤ) (c : RedisCounter) : Window ℚ :=
  ⟨c.expiresAt.getD 0 - windowSeconds, min c.count limit⟩

theorem FixedWindowRateLimiter.check_window (limiter : FixedWindowRateLimiter) (clientKey : String) (now : ℚ)
    {subtract : ℚ → ℚ → ℚ} (hsubtract : ∀ window, limiter.windows clientKey = some window →
      (limiter.windowSeconds ≤ subtract now window.startedAt ↔ limiter.windowSeconds ≤ now - window.startedAt)) :
    (limiter.check clientKey now subtract).1.isNone =
        (WindowCounter.check limiter.requestLimit (limiter.windowSeconds : ℚ)
          ((limiter.windows clientKey).map FixedWindow.window) now).1 ∧
      ((limiter.check clientKey now subtract).2.windows clientKey).map FixedWindow.window =
        (WindowCounter.check limiter.requestLimit (limiter.windowSeconds : ℚ)
          ((limiter.windows clientKey).map FixedWindow.window) now).2 := by
  unfold FixedWindowRateLimiter.check WindowCounter.check
  cases hw : limiter.windows clientKey with
  | none => exact ⟨rfl, by simp [FixedWindow.window]⟩
  | some w =>
    have hend : w.window.start + limiter.windowSeconds ≤ now ↔
        limiter.windowSeconds ≤ subtract now w.startedAt := by
      rw [hsubtract w hw]
      simp only [FixedWindow.window]
      constructor <;> intro h <;> linarith
    have hcount : w.window.admitted = w.requestCount := rfl
    simp only [Option.map_some, hend, hcount]
    split_ifs
    · exact ⟨rfl, by simp [FixedWindow.window]⟩
    · exact ⟨rfl, by simp [FixedWindow.window]⟩
    · exact ⟨rfl, by simp [hw]⟩

/-- A counter that has counted and will expire. -/
def RedisCounter.Expires (c : RedisCounter) : Prop := 1 ≤ c.count ∧ c.expiresAt.isSome

theorem RedisCounter.window_of_expiresAt {c : RedisCounter} {t : ℚ} (ht : c.expiresAt = some t)
    (limit windowSeconds : ℤ) : c.window limit windowSeconds = ⟨t - windowSeconds, min c.count limit⟩ := by
  simp [RedisCounter.window, ht]

/-- Without a live counter the request is the first of its window, and admitted. -/
theorem RedisFixedWindowRateLimiter.check_of_none (limiter : RedisFixedWindowRateLimiter) {clientKey : String}
    {now : ℚ} {r : RedisCounters} (hlive : r.live now (limiter.redisKey clientKey) = none) :
    (limiter.check clientKey now r).1 = none ∧
      (limiter.check clientKey now r).2 (limiter.redisKey clientKey) =
        some ⟨1, some (now + limiter.windowSeconds)⟩ := by
  simp [RedisFixedWindowRateLimiter.check, fixedWindowScript_of_none _ hlive, retryAfter, limiter.one_le_limit]

/-- With a live counter the request is counted, and admitted up to the limit. -/
theorem RedisFixedWindowRateLimiter.check_of_some (limiter : RedisFixedWindowRateLimiter) {clientKey : String}
    {now : ℚ} {r : RedisCounters} {c : RedisCounter} (hlive : r.live now (limiter.redisKey clientKey) = some c)
    (hcount : 1 ≤ c.count) :
    (limiter.check clientKey now r).1.isNone = decide (c.count + 1 ≤ limiter.requestLimit) ∧
      (limiter.check clientKey now r).2 (limiter.redisKey clientKey) = some { c with count := c.count + 1 } := by
  simp only [RedisFixedWindowRateLimiter.check, fixedWindowScript_of_some _ hlive hcount, Function.update_self,
    retryAfter]
  by_cases hroom : c.count + 1 ≤ limiter.requestLimit <;> simp [hroom]

theorem RedisFixedWindowRateLimiter.check_window (limiter : RedisFixedWindowRateLimiter) (clientKey : String)
    (now : ℚ) {r : RedisCounters} (hr : ∀ c, r (limiter.redisKey clientKey) = some c → c.Expires) :
    (limiter.check clientKey now r).1.isNone =
        (WindowCounter.check limiter.requestLimit (limiter.windowSeconds : ℚ)
          ((r (limiter.redisKey clientKey)).map (·.window limiter.requestLimit limiter.windowSeconds)) now).1 ∧
      ((limiter.check clientKey now r).2 (limiter.redisKey clientKey)).map
          (·.window limiter.requestLimit limiter.windowSeconds) =
        (WindowCounter.check limiter.requestLimit (limiter.windowSeconds : ℚ)
          ((r (limiter.redisKey clientKey)).map (·.window limiter.requestLimit limiter.windowSeconds)) now).2 ∧
      ∀ c, (limiter.check clientKey now r).2 (limiter.redisKey clientKey) = some c → c.Expires := by
  cases hkey : r (limiter.redisKey clientKey) with
  | none =>
    have hlive : r.live now (limiter.redisKey clientKey) = none := by simp [RedisCounters.live, hkey]
    obtain ⟨hnone, hset⟩ := limiter.check_of_none hlive
    rw [hnone, hset, Option.map_some, RedisCounter.window_of_expiresAt rfl]
    refine ⟨rfl, ?_, ?_⟩
    · simp [WindowCounter.check, limiter.one_le_limit]
    · rintro _ ⟨⟩
      exact ⟨le_rfl, rfl⟩
  | some c =>
    obtain ⟨hcount, hsome⟩ := hr c hkey
    obtain ⟨t, ht⟩ := Option.isSome_iff_exists.mp hsome
    simp only [Option.map_some, RedisCounter.window_of_expiresAt ht, WindowCounter.check, sub_add_cancel]
    by_cases hclosed : t ≤ now
    · have hlive : r.live now (limiter.redisKey clientKey) = none := by
        simp [RedisCounters.live, hkey, ht, hclosed]
      obtain ⟨hnone, hset⟩ := limiter.check_of_none hlive
      rw [hnone, hset, if_pos hclosed, Option.map_some, RedisCounter.window_of_expiresAt rfl]
      refine ⟨rfl, ?_, ?_⟩
      · simp [limiter.one_le_limit]
      · rintro _ ⟨⟩
        exact ⟨le_rfl, rfl⟩
    · have hlive : r.live now (limiter.redisKey clientKey) = some c := by
        simp [RedisCounters.live, hkey, ht, not_le.mp hclosed]
      obtain ⟨hnone, hset⟩ := limiter.check_of_some hlive hcount
      have hwindow : ({ c with count := c.count + 1 } : RedisCounter).window limiter.requestLimit
          limiter.windowSeconds = ⟨t - limiter.windowSeconds, min (c.count + 1) limiter.requestLimit⟩ := by
        simp [RedisCounter.window, ht]
      rw [hnone, hset, if_neg hclosed, Option.map_some, hwindow]
      have hexpires : ∀ d, some ({ c with count := c.count + 1 } : RedisCounter) = some d → d.Expires := by
        rintro _ ⟨⟩
        exact ⟨by dsimp only; omega, hsome⟩
      by_cases hroom : c.count < limiter.requestLimit
      · have hnext := Int.add_one_le_iff.mpr hroom
        rw [min_eq_left hroom.le, if_pos hroom, decide_eq_true hnext, min_eq_left hnext]
        exact ⟨rfl, rfl, hexpires⟩
      · have hfull := not_lt.mp hroom
        have hnext : limiter.requestLimit ≤ c.count + 1 := hfull.trans (le_add_of_nonneg_right zero_le_one)
        rw [min_eq_right hfull, if_neg (lt_irrefl _), min_eq_right hnext,
          decide_eq_false (not_le.mpr (Int.lt_add_one_iff.mpr hfull))]
        exact ⟨rfl, rfl, hexpires⟩

/-! ### Sequences of checks -/

/-- The answers to checks made one after another, each a client and a time. -/
def FixedWindowRateLimiter.checks (limiter : FixedWindowRateLimiter) (checks : List (String × ℚ))
    (subtract : ℚ → ℚ → ℚ := HSub.hSub) : List (Option ℤ) × FixedWindowRateLimiter :=
  match checks with
  | [] => ([], limiter)
  | (clientKey, now) :: rest =>
    let (answer, limiter) := limiter.check clientKey now subtract
    let (answers, limiter) := limiter.checks rest subtract
    (answer :: answers, limiter)

def RedisFixedWindowRateLimiter.checks (limiter : RedisFixedWindowRateLimiter) (r : RedisCounters) :
    List (String × ℚ) → List (Option ℤ) × RedisCounters
  | [] => ([], r)
  | (clientKey, now) :: rest =>
    let (answer, r) := limiter.check clientKey now r
    let (answers, r) := limiter.checks r rest
    (answer :: answers, r)

/-- Of two readings the double that is their difference reaches the width of the
window exactly if the difference itself does. -/
def SameSide (windowSeconds : ℤ) (startedAt now : ℚ) : Prop :=
  windowSeconds ≤ Double.sub now startedAt ↔ windowSeconds ≤ now - startedAt

instance (windowSeconds : ℤ) (startedAt now : ℚ) : Decidable (SameSide windowSeconds startedAt now) :=
  inferInstanceAs (Decidable (_ ↔ _))

/-- The local limiter and the counters in Redis stand for the same windows. -/
structure SameWindows (limiter : RedisFixedWindowRateLimiter) (r : RedisCounters)
    (fallback : FixedWindowRateLimiter) : Prop where
  limit : fallback.requestLimit = limiter.requestLimit
  width : fallback.windowSeconds = limiter.windowSeconds
  windows : ∀ clientKey, (r (limiter.redisKey clientKey)).map
      (·.window limiter.requestLimit limiter.windowSeconds) = (fallback.windows clientKey).map FixedWindow.window
  expires : ∀ key c, r key = some c → c.Expires

namespace SameWindows

variable {limiter : RedisFixedWindowRateLimiter} {r : RedisCounters} {fallback : FixedWindowRateLimiter}

/-- A check of both gives the same answer and leaves them with the same windows. -/
theorem check (h : SameWindows limiter r fallback) (clientKey : String) (now : ℚ)
    (hside : ∀ window, fallback.windows clientKey = some window →
      SameSide limiter.windowSeconds window.startedAt now) :
    (limiter.check clientKey now r).1.isNone = (fallback.check clientKey now Double.sub).1.isNone ∧
      SameWindows limiter (limiter.check clientKey now r).2 (fallback.check clientKey now Double.sub).2 := by
  have hsubtract : ∀ window, fallback.windows clientKey = some window →
      SameSide fallback.windowSeconds window.startedAt now := h.width.symm ▸ hside
  obtain ⟨hanswer, hwindow⟩ := fallback.check_window clientKey now hsubtract
  obtain ⟨hanswer', hwindow', hexpires⟩ := limiter.check_window clientKey now (h.expires _)
  rw [h.limit, h.width, ← h.windows] at hanswer hwindow
  obtain ⟨hlimit, hwidth⟩ := fallback.check_limits clientKey now Double.sub
  refine ⟨hanswer'.trans hanswer.symm, hlimit.trans h.limit, hwidth.trans h.width, fun clientKey' => ?_,
    fun key c hc => ?_⟩
  · by_cases hkey : clientKey' = clientKey
    · rw [hkey, hwindow', hwindow]
    · have hother : (limiter.check clientKey now r).2 (limiter.redisKey clientKey') =
          r (limiter.redisKey clientKey') := fixedWindowScript_ne _ fun heq =>
        hkey (RedisFixedWindowRateLimiter.redisKey_inj.mp heq)
      rw [hother, fallback.check_ne now hkey]
      exact h.windows clientKey'
  · by_cases hkey : key = limiter.redisKey clientKey
    · exact hexpires c (hkey ▸ hc)
    · exact h.expires key c ((fixedWindowScript_ne _ hkey).symm.trans hc)

theorem checks (h : SameWindows limiter r fallback) {cs : List (String × ℚ)}
    (hpairs : cs.Pairwise fun a b => a.1 = b.1 → SameSide limiter.windowSeconds a.2 b.2)
    (hfound : ∀ c ∈ cs, ∀ window, fallback.windows c.1 = some window →
      SameSide limiter.windowSeconds window.startedAt c.2) :
    (limiter.checks r cs).1.map Option.isNone = (fallback.checks cs Double.sub).1.map Option.isNone := by
  induction cs generalizing r fallback with
  | nil => rfl
  | cons c cs ih =>
    obtain ⟨hlater, hpairs⟩ := List.pairwise_cons.mp hpairs
    obtain ⟨hanswer, hsame⟩ := h.check c.1 c.2 (hfound c List.mem_cons_self)
    have hanswers := ih hsame hpairs fun d hd window hwindow => by
      by_cases hkey : d.1 = c.1
      · -- the window was opened by this check, or was there before
        rw [hkey] at hwindow
        rcases fallback.check_startedAt hwindow with hnow | ⟨found, hbefore, hstart⟩
        · rw [hnow]
          exact hlater d hd hkey.symm
        · rw [hstart]
          exact hfound d (List.mem_cons_of_mem _ hd) found (hkey ▸ hbefore)
      · rw [fallback.check_ne _ hkey] at hwindow
        exact hfound d (List.mem_cons_of_mem _ hd) window hwindow
    simp only [RedisFixedWindowRateLimiter.checks, FixedWindowRateLimiter.checks, List.map_cons, hanswer, hanswers]

end SameWindows

/-- Whatever was checked, every counter expires. -/
theorem RedisFixedWindowRateLimiter.checks_expires (limiter : RedisFixedWindowRateLimiter) (cs : List (String × ℚ))
    {r : RedisCounters} (h : ∀ key c, r key = some c → c.Expires) :
    ∀ key c, (limiter.checks r cs).2 key = some c → c.Expires := by
  induction cs generalizing r with
  | nil => exact h
  | cons c cs ih =>
    refine ih fun key counter hcounter => ?_
    by_cases hkey : key = limiter.redisKey c.1
    · exact (limiter.check_window c.1 c.2 (h _)).2.2 counter (hkey ▸ hcounter)
    · exact h key counter ((fixedWindowScript_ne _ hkey).symm.trans hcounter)

/-- **The two limiters make the same decisions.** Started empty with one limit and
one window, they admit the same checks if the difference of any two readings for
one client is on the right side of the window's width; and every counter of the
script expires. -/
theorem limiters_agree (limiter : RedisFixedWindowRateLimiter) (cs : List (String × ℚ)) :
    ((cs.Pairwise fun a b => a.1 = b.1 → SameSide limiter.windowSeconds a.2 b.2) →
      (limiter.checks (fun _ => none) cs).1.map Option.isNone =
        ((FixedWindowRateLimiter.checks ⟨limiter.requestLimit, limiter.windowSeconds, fun _ => none⟩ cs
          Double.sub).1.map Option.isNone)) ∧
      ∀ key c, (limiter.checks (fun _ => none) cs).2 key = some c → c.expiresAt.isSome := by
  have hinit : SameWindows limiter (fun _ => none)
      ⟨limiter.requestLimit, limiter.windowSeconds, fun _ => none⟩ := ⟨rfl, rfl, fun _ => rfl, nofun⟩
  refine ⟨fun hpairs => hinit.checks hpairs fun c _ window hwindow => ?_, fun key c hc => ?_⟩
  · cases hwindow
  · exact (limiter.checks_expires cs hinit.expires key c hc).2

/-- Readings of whole seconds are subtracted exactly. -/
theorem sameSides_intCast (windowSeconds : ℤ) {cs : List (String × ℤ)} (h : ∀ c ∈ cs, 0 ≤ c.2 ∧ c.2 < 2 ^ 53) :
    (cs.map fun c => (c.1, (c.2 : ℚ))).Pairwise fun a b => a.1 = b.1 → SameSide windowSeconds a.2 b.2 := by
  refine List.pairwise_map.mpr (List.pairwise_of_forall_mem_list fun a ha b hb _ => ?_)
  have hsmall : |b.2 - a.2| < 2 ^ 53 := by
    have ha := h a ha
    have hb := h b hb
    rw [abs_lt]
    omega
  rw [SameSide, Double.sub_intCast hsmall]

theorem one_request : (1 : ℤ) ≤ 1 := le_rfl

theorem five_second_window : (1 : ℤ) ≤ 5 := by decide

/-- One request in five seconds. -/
def fiveSecondLimiter : RedisFixedWindowRateLimiter := ⟨1, 5, "rate", one_request, five_second_window⟩

theorem limiters_agree_five :
    (fiveSecondLimiter.checks (fun _ => none) [("a", 0), ("a", 4), ("b", 4), ("a", 5)]).1.map Option.isNone =
        [true, false, true, true] ∧
      (FixedWindowRateLimiter.checks ⟨1, 5, fun _ => none⟩ [("a", 0), ("a", 4), ("b", 4), ("a", 5)]
        Double.sub).1.map Option.isNone = [true, false, true, true] := by
  obtain ⟨hagree, -⟩ := limiters_agree fiveSecondLimiter
    ([("a", 0), ("a", 4), ("b", 4), ("a", 5)].map fun c : String × ℤ => (c.1, (c.2 : ℚ)))
  have hanswers : (fiveSecondLimiter.checks (fun _ => none) [("a", 0), ("a", 4), ("b", 4), ("a", 5)]).1.map
      Option.isNone = [true, false, true, true] := by decide +kernel
  exact ⟨hanswers, (hagree (sameSides_intCast 5 (by decide))).symm.trans hanswers⟩

/-- The doubles nearest to 0.1 and 5.1 are less than five seconds apart, but the
double nearest to their difference is 5. -/
theorem limiters_disagree :
    ¬ ∀ (limiter : RedisFixedWindowRateLimiter) (cs : List (String × ℚ)), (cs.Pairwise fun a b => a.2 ≤ b.2) →
      (limiter.checks (fun _ => none) cs).1.map Option.isNone =
        ((FixedWindowRateLimiter.checks ⟨limiter.requestLimit, limiter.windowSeconds, fun _ => none⟩ cs
          Double.sub).1.map Option.isNone) := by
  intro hall
  have hsame := hall fiveSecondLimiter [("a", Double.round (1 / 10)), ("a", Double.round (51 / 10))]
    (by decide +kernel)
  revert hsame
  decide +kernel

end TaskApi
