/-
# The task cache and its lock

`task_cache.py` and `redis_lock.py` as programs over the calls they make: the
Redis commands, the token and jitter generators, `sleep`, and (for the routes)
the statements a session issues. A call that fails raises; only the handlers of
the source catch.

JSON is pydantic's: `TaskJson` is a pair of functions with the two properties
the cache relies on, that a dumped response reads back and that the marker for
"not found" is no task's JSON.

Key definitions: `Call`, `Exn`, `TaskJson`, `TaskCache.lookupTask`,
`TaskCache.setTask`, `waitForTaskCacheFill`, `RedisLock.acquire`,
`RedisLock.release`.
-/
import TaskApi.Lib.Prog
import TaskApi.Models
import TaskApi.Redis

namespace TaskApi

open Conc

/-! ### Calls and errors -/

/-- What the task routes ask of Redis, the standard library and the database
session. -/
inductive Call where
  | redisGet (key : String)
  | redisSet (key value : String) (ex : ℤ)
  | redisSetNx (key value : String) (ex : ℤ)
  | redisDelete (key : String)
  | redisEvalReleaseLock (key token : String)
  | uuid4
  | randint (lo hi : ℤ)
  | sleep (seconds : ℚ)
  | findOwnedTask (taskId ownerId : ℤ)
  | commitInsert (body : TaskCreate) (ownerId : ℤ)
  | commitUpdate (id : ℤ) (changes : TaskUpdate)
  | commitDelete (id : ℤ)
  | refresh (id : ℤ)
deriving DecidableEq

/-- The calls that go to Redis. -/
def Call.isRedis : Call → Bool
  | .redisGet _ | .redisSet .. | .redisSetNx .. | .redisDelete _ | .redisEvalReleaseLock .. => true
  | _ => false

/-- What each call returns; an `INSERT` the id it was given. -/
abbrev Call.Val : Call → Type
  | .redisGet _ => Option String
  | .redisSet .. => Unit
  | .redisSetNx .. => Bool
  | .redisDelete _ => Unit
  | .redisEvalReleaseLock .. => ℤ
  | .uuid4 => String
  | .randint .. => ℤ
  | .sleep _ => Unit
  | .findOwnedTask .. => Option TaskRecord
  | .commitInsert .. => ℤ
  | .commitUpdate .. => Unit
  | .commitDelete _ => Unit
  | .refresh _ => TaskRecord

/-- The exceptions that can leave a call or a function. -/
inductive Exn where
  | redisError
  | httpException (statusCode : ℕ) (detail : String)
  | validationError
  | valueError (message : String)
  /-- SQLAlchemy: an `UPDATE` matched no row. -/
  | staleDataError
  /-- SQLAlchemy: a row to refresh is gone. -/
  | invalidRequestError
  /-- `sqlite3`: an integer does not fit in 64 bits. -/
  | overflowError
deriving DecidableEq

abbrev calls : Interface := ⟨Call, Call.Val, Exn⟩

/-- A function of the task routes. -/
abbrev Act (α : Type) := Prog calls α

/-- Make the call `c`. -/
abbrev perform (c : Call) : Act c.Val := @Prog.perform calls c

/-- `try: x = p except RedisError: …`: the value, or `none` where the handler takes over. -/
def attemptRedis {α : Type} (p : Act α) : Act (Option α) :=
  (p >>= fun a => Prog.ret (some a)).tryCatch fun
    | .redisError => Prog.ret none
    | e => Prog.raise e

/-! ### JSON -/

def taskNotFoundCacheMarker : String := "__task_not_found__"

/-- `TaskResponse.model_dump_json` and `TaskResponse.model_validate_json`
(`none`: a `ValidationError`). -/
structure TaskJson where
  modelDumpJson : TaskResponse → String
  modelValidateJson : String → Option TaskResponse
  validate_dump (t : TaskResponse) : modelValidateJson (modelDumpJson t) = some t
  validate_marker : modelValidateJson taskNotFoundCacheMarker = none

/-- What a cached value says: the task it decodes to, `some none` for "not found",
`none` if it is unreadable. -/
def TaskJson.read (J : TaskJson) (value : String) : Option (Option TaskResponse) :=
  if value = taskNotFoundCacheMarker then some none else (J.modelValidateJson value).map some

@[simp] theorem TaskJson.read_marker (J : TaskJson) : J.read taskNotFoundCacheMarker = some none :=
  if_pos rfl

@[simp] theorem TaskJson.read_dump (J : TaskJson) (t : TaskResponse) :
    J.read (J.modelDumpJson t) = some (some t) := by
  have : J.modelDumpJson t ≠ taskNotFoundCacheMarker := fun h => by
    have := J.validate_dump t
    rw [h, J.validate_marker] at this
    cases this
  simp [read, this, J.validate_dump]

open Classical in
/-- The codec that reads back what an injective dump wrote, and nothing else. -/
noncomputable def TaskJson.ofInjective (dump : TaskResponse → String) (inj : dump.Injective)
    (marker : ∀ t, dump t ≠ taskNotFoundCacheMarker) : TaskJson where
  modelDumpJson := dump
  modelValidateJson value := if h : ∃ t, dump t = value then some h.choose else none
  validate_dump t := by
    have h : ∃ t', dump t' = dump t := ⟨t, rfl⟩
    rw [dif_pos h, inj h.choose_spec]
  validate_marker := dif_neg fun ⟨t, ht⟩ => marker t ht

def exampleTitle : Title := ⟨"Buy milk", by decide⟩

/-- A body that sets nothing but the title. -/
def exampleBody : TaskCreate := { title := exampleTitle }

/-- The task as it is after a `POST` of `exampleBody`. -/
def exampleTask : TaskResponse where
  title := exampleTitle
  description := none
  priority := ⟨1, by decide⟩
  dueDate := none
  id := 1
  completed := false

/-- The fields of a response as plain values. -/
def TaskResponse.fields (t : TaskResponse) :
    List ℕ × Option (List ℕ) × ℤ × Option (ℕ × ℕ × ℕ) × ℤ × Bool :=
  (t.title.1.toList.map Char.toNat, t.description.map (·.1.toList.map Char.toNat), t.priority,
    t.dueDate.map fun d => (d.year, d.month, d.day), t.id, t.completed)

theorem TaskResponse.fields_injective : fields.Injective := by
  have chars : Function.Injective fun s : String => s.toList.map Char.toNat :=
    (List.map_injective_iff.mpr fun _ _ h => Char.toNat_inj.mp h).comp fun _ _ => String.toList_injective
  have desc : Function.Injective fun d : Description => d.1.toList.map Char.toNat :=
    chars.comp Subtype.val_injective
  have date : Function.Injective fun d : Date => (d.year, d.month, d.day) := fun d d' h => by
    cases d
    cases d'
    simpa using h
  rintro ⟨a, b, c, d, e, f⟩ ⟨a', b', c', d', e', f'⟩ h
  simp only [fields, Prod.mk.injEq] at h
  obtain ⟨h1, h2, h3, h4, h5, h6⟩ := h
  rw [Subtype.ext (chars h1), Option.map_injective desc h2, Subtype.ext h3, Option.map_injective date h4,
    h5, h6]

/-- The JSON text of `exampleTask`; any other task by a number. -/
def exampleDump (t : TaskResponse) : String :=
  if t = exampleTask then "\x7b\"title\":\"Buy milk\",\"description\":null,\"priority\":1," ++
    "\"due_date\":null,\"id\":1,\"completed\":false\x7d"
  else "\x7b\"task\":" ++ (Encodable.encode t.fields).repr ++ "\x7d"

theorem exampleDump_injective : exampleDump.Injective := fun t t' h => by
  have first : ∀ n : ℕ, "\x7b\"title\":\"Buy milk\",\"description\":null,\"priority\":1," ++
      "\"due_date\":null,\"id\":1,\"completed\":false\x7d" ≠ "\x7b\"task\":" ++ n.repr ++ "\x7d" := fun n h => by
    have := congrArg (fun s => s.toList[3]?) h
    simp at this
  unfold exampleDump at h
  split_ifs at h with h1 h2 h2
  · rw [h1, h2]
  · exact absurd h (first _)
  · exact absurd h.symm (first _)
  · have h := congrArg String.toList h
    simp only [String.toList_append, List.append_cancel_left_eq, List.append_cancel_right_eq] at h
    exact TaskResponse.fields_injective (Encodable.encode_injective (Nat.repr_injective (String.toList_injective h)))

/-- A codec that writes `exampleTask` as pydantic does. -/
noncomputable def exampleJson : TaskJson :=
  .ofInjective exampleDump exampleDump_injective fun t h => by
    have := congrArg (fun s => s.toList[0]?) h
    unfold exampleDump at this
    split_ifs at this <;> simp [taskNotFoundCacheMarker] at this

/-! ### `TaskCache` -/

/-- A constructed `TaskCache`: its times passed the checks of `__init__`. -/
structure TaskCache where
  ttlSeconds : ℤ
  negativeTtlSeconds : ℤ
  ttlJitterSeconds : ℤ
  one_le_ttl : 1 ≤ ttlSeconds
  one_le_negativeTtl : 1 ≤ negativeTtlSeconds
  jitter_nonneg : 0 ≤ ttlJitterSeconds

structure TaskCacheLookup where
  cacheHit : Bool
  task : Option TaskResponse
deriving DecidableEq

namespace TaskCache

/-- `TaskCache.__init__` -/
def init (ttlSeconds negativeTtlSeconds ttlJitterSeconds : ℤ) : Except Exn TaskCache :=
  if h1 : ttlSeconds < 1 then .error (.valueError "ttl_seconds must be at least 1")
  else if h2 : negativeTtlSeconds < 1 then
    .error (.valueError "negative_ttl_seconds must be at least 1")
  else if h3 : ttlJitterSeconds < 0 then
    .error (.valueError "ttl_jitter_seconds cannot be negative")
  else .ok ⟨ttlSeconds, negativeTtlSeconds, ttlJitterSeconds, not_lt.mp h1, not_lt.mp h2, not_lt.mp h3⟩

variable (J : TaskJson) (cache : TaskCache)

/-- `_calculate_positive_ttl` -/
def calculatePositiveTtl : Act ℤ := do
  let jitterSeconds : ℤ ← perform (.randint 0 cache.ttlJitterSeconds)
  return cache.ttlSeconds + jitterSeconds

def setTask (ownerId : ℤ) (task : TaskResponse) : Act Unit := do
  let cacheKey := buildKey ownerId task.id
  let ex ← cache.calculatePositiveTtl
  perform (.redisSet cacheKey (J.modelDumpJson task) ex)

def setTaskNotFound (ownerId taskId : ℤ) : Act Unit := do
  let cacheKey := buildKey ownerId taskId
  perform (.redisSet cacheKey taskNotFoundCacheMarker cache.negativeTtlSeconds)

def deleteTask (ownerId taskId : ℤ) : Act Unit :=
  perform (.redisDelete (buildKey ownerId taskId))

def lookupTask (ownerId taskId : ℤ) : Act TaskCacheLookup := do
  let cacheKey := buildKey ownerId taskId
  let cachedValue : Option String ← perform (.redisGet cacheKey)
  match cachedValue with
  | none => return ⟨false, none⟩
  | some cachedValue =>
    if cachedValue = taskNotFoundCacheMarker then return ⟨true, none⟩
    else match J.modelValidateJson cachedValue with
      | none => do
        perform (.redisDelete cacheKey)
        return ⟨false, none⟩
      | some task => return ⟨true, some task⟩

end TaskCache

/-- The loop of `wait_for_task_cache_fill`, with `n` attempts left. -/
def waitForTaskCacheFill.loop (J : TaskJson) (ownerId taskId : ℤ) (delaySeconds : ℚ) :
    ℕ → Act TaskCacheLookup
  | 0 => return ⟨false, none⟩
  | n + 1 => do
    perform (.sleep delaySeconds)
    let cacheLookup ← TaskCache.lookupTask J ownerId taskId
    if cacheLookup.cacheHit then return cacheLookup
    else loop J ownerId taskId delaySeconds n

def waitForTaskCacheFill (J : TaskJson) (ownerId taskId attempts : ℤ) (delaySeconds : ℚ) :
    Act TaskCacheLookup :=
  if attempts < 1 then Prog.raise (.valueError "attempts must be at least 1")
  else if delaySeconds < 0 then Prog.raise (.valueError "delay_seconds cannot be negative")
  else waitForTaskCacheFill.loop J ownerId taskId delaySeconds attempts.toNat

/-! ### `RedisLock` -/

/-- A constructed `RedisLock`. -/
structure RedisLock where
  ttlSeconds : ℤ
  one_le_ttl : 1 ≤ ttlSeconds

namespace RedisLock

/-- `RedisLock.__init__` -/
def init (ttlSeconds : ℤ) : Except Exn RedisLock :=
  if h : ttlSeconds < 1 then .error (.valueError "ttl_seconds must be at least 1")
  else .ok ⟨ttlSeconds, not_lt.mp h⟩

/-- The token, or `none` if the lock is taken. -/
def acquire (lock : RedisLock) (lockKey : String) : Act (Option String) := do
  let lockToken : String ← perform .uuid4
  let acquired : Bool ← perform (.redisSetNx lockKey lockToken lock.ttlSeconds)
  if acquired then return some lockToken else return none

def release (lockKey lockToken : String) : Act Bool := do
  let deletedCount : ℤ ← perform (.redisEvalReleaseLock lockKey lockToken)
  return deletedCount ≠ 0

end RedisLock
end TaskApi
