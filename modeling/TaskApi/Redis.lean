/-
# Redis, as far as the task cache and the tickets use it

A store of strings under string keys, every one set with `EX`: an entry is there
until its time has come. `GET`, `SET`, `SET NX`, `DEL`, `GETDEL` and the lock's
release script each take effect at once.

The keys are built from numbers. `Int.repr` never writes a colon, so two cache
keys are equal only if the numbers are (`buildKey_inj`), and a cache key is never
a lock key (`buildKey_ne_lockKey`).
-/
import Mathlib

namespace TaskApi

/-! ### Numbers in strings -/

/-- `int(s)`: the number, or the message of the `ValueError`. It reads back what
`str` wrote. -/
structure PyInt where
  int : String → Except String ℤ
  int_str (n : ℤ) : int (toString n) = .ok n

/-- `int` on decimal literals. -/
def PyInt.decimal : PyInt where
  int s :=
    match s.toInt? with
    | some n => .ok n
    | none => .error s!"invalid literal for int() with base 10: {s}"
  int_str n := by
    have hn : (toString n).toInt? = some n := Int.toInt?_repr n
    rw [hn]

/-! ### The store -/

/-- A stored string, and the time its `EX` runs out. -/
structure RedisEntry where
  value : String
  expiresAt : ℚ

/-- What is stored under each key. -/
abbrev Redis := String → Option RedisEntry

namespace Redis

/-- `GET key` at time `now`. -/
def get (r : Redis) (now : ℚ) (key : String) : Option String :=
  (r key).bind fun e => if now < e.expiresAt then some e.value else none

/-- `SET key value EX ex` -/
def set (r : Redis) (now : ℚ) (key value : String) (ex : ℤ) : Redis :=
  Function.update r key (some ⟨value, now + ex⟩)

/-- `SET key value NX EX ex`: whether it was set. -/
def setNx (r : Redis) (now : ℚ) (key value : String) (ex : ℤ) : Bool × Redis :=
  if (r.get now key).isSome then (false, r) else (true, r.set now key value ex)

/-- `DEL key` -/
def delete (r : Redis) (key : String) : Redis := Function.update r key none

/-- `GETDEL key` -/
def getDel (r : Redis) (now : ℚ) (key : String) : Option String × Redis := (r.get now key, r.delete key)

/-- `RELEASE_LOCK_SCRIPT`: deletes the key if it holds the token, and returns the
number of keys deleted. -/
def releaseLockScript (r : Redis) (now : ℚ) (key token : String) : ℤ × Redis :=
  if r.get now key = some token then (1, r.delete key) else (0, r)

/-! ### What is found -/

theorem get_congr {r r' : Redis} {now : ℚ} {key : String} (h : r' key = r key) :
    r'.get now key = r.get now key := by
  unfold get
  rw [h]

/-- An entry that outlives the time that passes is found as before. -/
theorem get_later {r : Redis} {now t : ℚ} {key : String} (ht : now ≤ t)
    (h : ∀ e, r key = some e → now < e.expiresAt → t < e.expiresAt) : r.get t key = r.get now key := by
  unfold get
  cases he : r key with
  | none => rfl
  | some e =>
    by_cases hlive : now < e.expiresAt
    · simp [hlive, h e he hlive]
    · simp [hlive, not_lt.mpr ((not_lt.mp hlive).trans ht)]

theorem get_set {r : Redis} {now : ℚ} {key value : String} {ex : ℤ} (h : 1 ≤ ex) :
    (r.set now key value ex).get now key = some value := by
  have hex : (1 : ℚ) ≤ ex := by exact_mod_cast h
  have hlive : now < now + ex := by linarith
  simp [get, set, hlive]

theorem get_delete {r : Redis} {now : ℚ} {key : String} : (r.delete key).get now key = none := by
  simp [get, delete]

/-! ### What a command does to the other keys -/

variable (r : Redis) (now : ℚ) {key key' : String} (value : String) (ex : ℤ)

theorem get_eq_some {x : String} :
    r.get now key = some x ↔ ∃ e, r key = some e ∧ now < e.expiresAt ∧ e.value = x := by
  unfold get
  cases r key with
  | none => simp
  | some e => by_cases h : now < e.expiresAt <;> simp [h]

@[simp] theorem set_self : r.set now key value ex key = some ⟨value, now + ex⟩ := by simp [set]

theorem set_ne (h : key' ≠ key) : r.set now key value ex key' = r key' := by
  simp [set, Function.update_of_ne h]

@[simp] theorem delete_self : r.delete key key = none := by simp [delete]

theorem delete_ne (h : key' ≠ key) : r.delete key key' = r key' := by
  simp [delete, Function.update_of_ne h]

theorem setNx_ne (h : key' ≠ key) : (r.setNx now key value ex).2 key' = r key' := by
  unfold setNx
  split
  · rfl
  · exact r.set_ne now value ex h

theorem setNx_of_some {x : String} (h : r.get now key = some x) :
    r.setNx now key value ex = (false, r) := by
  simp [setNx, h]

theorem setNx_of_none (h : r.get now key = none) :
    r.setNx now key value ex = (true, r.set now key value ex) := by
  simp [setNx, h]

theorem releaseLockScript_ne (token : String) (h : key' ≠ key) :
    (r.releaseLockScript now key token).2 key' = r key' := by
  unfold releaseLockScript
  split
  · exact r.delete_ne h
  · rfl

end Redis

/-! ### Keys -/

/-- `TaskCache._build_key` -/
def TaskCache.buildKey (ownerId taskId : ℤ) : String := s!"task:{ownerId}:{taskId}"

def buildTaskCacheLockKey (ownerId taskId : ℤ) : String := s!"lock:task:{ownerId}:{taskId}"

theorem colon_notMem_repr (n : ℤ) : ':' ∉ n.repr.toList := by
  have digits : ∀ m : ℕ, ':' ∉ (Nat.repr m).toList := fun m h => by
    simp only [Nat.repr, String.toList_ofList] at h
    have := Nat.isDigit_of_mem_toDigits (by decide) (by decide) h
    revert this
    decide
  cases n with
  | ofNat m => exact digits m
  | negSucc m =>
    intro h
    simp only [Int.repr, String.toList_append, List.mem_append] at h
    rcases h with h | h
    · revert h
      decide
    · exact digits _ h

/-- Two numbers joined by a colon are read back from the string. -/
theorem joined_inj {o i o' i' : ℤ}
    (h : o.repr.toList ++ ':' :: i.repr.toList = o'.repr.toList ++ ':' :: i'.repr.toList) :
    o = o' ∧ i = i' := by
  obtain ⟨h1, -, h2⟩ :=
    (List.append_cons_inj_of_notMem (colon_notMem_repr o) (colon_notMem_repr i)).mp h
  exact ⟨Int.repr_injective (String.toList_injective h1), Int.repr_injective (String.toList_injective h2)⟩

namespace TaskCache

theorem buildKey_toList (o i : ℤ) : (buildKey o i).toList =
    't' :: 'a' :: 's' :: 'k' :: ':' :: (o.repr.toList ++ ':' :: i.repr.toList) := by
  simp [buildKey, toString]

theorem buildKey_inj {o i o' i' : ℤ} : buildKey o i = buildKey o' i' ↔ o = o' ∧ i = i' := by
  refine ⟨fun h => ?_, fun ⟨h1, h2⟩ => by rw [h1, h2]⟩
  have := congrArg String.toList h
  simp only [buildKey_toList, List.cons.injEq, true_and] at this
  exact joined_inj this

end TaskCache

theorem lockKey_toList (o i : ℤ) : (buildTaskCacheLockKey o i).toList =
    'l' :: 'o' :: 'c' :: 'k' :: ':' :: 't' :: 'a' :: 's' :: 'k' :: ':' ::
      (o.repr.toList ++ ':' :: i.repr.toList) := by
  simp [buildTaskCacheLockKey, toString]

/-- A cache entry and a lock never share a key. -/
theorem buildKey_ne_lockKey (o i o' i' : ℤ) :
    TaskCache.buildKey o i ≠ buildTaskCacheLockKey o' i' := fun h => by
  have := congrArg String.toList h
  simp [TaskCache.buildKey_toList, lockKey_toList] at this

end TaskApi
