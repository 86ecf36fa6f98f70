/-
# The task routes

`task_cache_dependencies.py`, `task_dependencies.py` and the routes of
`routers/tasks.py` that read or write one task. A route runs for a user who is
already authenticated, and answers or raises; an exception that is not an
`HTTPException` is answered 500 by the application.

Log lines and the background audit task are left out: nothing reads them.

Key definitions: `Settings`, `loadOwnedTaskFromDatabase`,
`getCachedOwnedTaskOr404`, `invalidateCachedTask`, `createTask`, `updateTask`,
`deleteTask`, `Request`, `Request.body`.
-/
import TaskApi.TaskCache

namespace TaskApi

open Conc

/-- The settings of the task cache. `config.py` bounds each field from both
sides; only the lower bounds matter here. -/
structure Settings where
  taskCacheTtlSeconds : ℤ := 300
  taskNegativeCacheTtlSeconds : ℤ := 30
  taskCacheTtlJitterSeconds : ℤ := 60
  taskCacheLockTtlSeconds : ℤ := 5
  taskCacheLockWaitAttempts : ℤ := 5
  taskCacheLockWaitSeconds : ℚ := 1 / 20
  one_le_ttl : 1 ≤ taskCacheTtlSeconds := by decide
  one_le_negativeTtl : 1 ≤ taskNegativeCacheTtlSeconds := by decide
  jitter_nonneg : 0 ≤ taskCacheTtlJitterSeconds := by decide
  one_le_lockTtl : 1 ≤ taskCacheLockTtlSeconds := by decide
  one_le_waitAttempts : 1 ≤ taskCacheLockWaitAttempts := by decide
  waitSeconds_pos : 0 < taskCacheLockWaitSeconds := by norm_num

/-- The defaults of `config.py`. -/
def Settings.defaults : Settings := {}

/-- `get_task_cache` -/
def getTaskCache (settings : Settings) : TaskCache :=
  ⟨settings.taskCacheTtlSeconds, settings.taskNegativeCacheTtlSeconds, settings.taskCacheTtlJitterSeconds,
    settings.one_le_ttl, settings.one_le_negativeTtl, settings.jitter_nonneg⟩

/-- `get_task_cache_lock` -/
def getTaskCacheLock (settings : Settings) : RedisLock :=
  ⟨settings.taskCacheLockTtlSeconds, settings.one_le_lockTtl⟩

/-- Settings that were accepted pass the checks of `TaskCache.__init__` and
`RedisLock.__init__`. -/
theorem Settings.init_ok (settings : Settings) :
    TaskCache.init settings.taskCacheTtlSeconds settings.taskNegativeCacheTtlSeconds
        settings.taskCacheTtlJitterSeconds = .ok (getTaskCache settings) ∧
      RedisLock.init settings.taskCacheLockTtlSeconds = .ok (getTaskCacheLock settings) := by
  have h1 := settings.one_le_ttl
  have h2 := settings.one_le_negativeTtl
  have h3 := settings.jitter_nonneg
  have h4 := settings.one_le_lockTtl
  simp [TaskCache.init, RedisLock.init, getTaskCache, getTaskCacheLock, not_lt.mpr h1, not_lt.mpr h2,
    not_lt.mpr h3, not_lt.mpr h4]

/-- `HTTPException(404, "Task not found")` -/
def taskNotFound : Exn := .httpException 404 "Task not found"

def resolveCachedTask (cacheLookup : TaskCacheLookup) : Act TaskResponse :=
  match cacheLookup.task with
  | none => Prog.raise taskNotFound
  | some task => Prog.ret task

/-- `TaskResponse.model_validate(task_record)` -/
def validateTask (taskRecord : TaskRecord) : Act TaskResponse :=
  match TaskResponse.modelValidate taskRecord with
  | none => Prog.raise .validationError
  | some taskResponse => Prog.ret taskResponse

section

variable (J : TaskJson) (cache : TaskCache)

def loadOwnedTaskFromDatabase (ownerId taskId : ℤ) : Act TaskResponse := do
  let taskRecord : Option TaskRecord ← perform (.findOwnedTask taskId ownerId)
  match taskRecord with
  | none => do
    let _ ← attemptRedis (cache.setTaskNotFound ownerId taskId)
    Prog.raise taskNotFound
  | some taskRecord => do
    let taskResponse ← validateTask taskRecord
    let _ ← attemptRedis (cache.setTask J ownerId taskResponse)
    return taskResponse

def invalidateCachedTask (ownerId taskId : ℤ) : Act Unit := do
  let _ ← attemptRedis (TaskCache.deleteTask ownerId taskId)
  return ()

end

section

variable (J : TaskJson) (settings : Settings)

/-- The part of `get_cached_owned_task_or_404` that runs with the lock held:
`try: … finally: release`. -/
def fillUnderLock (userId taskId : ℤ) (lockKey lockToken : String) : Act TaskResponse :=
  Prog.tryFinally
    (do
      let secondLookup ← TaskCache.lookupTask J userId taskId
      if secondLookup.cacheHit then resolveCachedTask secondLookup
      else loadOwnedTaskFromDatabase J (getTaskCache settings) userId taskId)
    (do
      let _ ← attemptRedis (RedisLock.release lockKey lockToken)
      return ())

/-- The part that runs when another request holds the lock. -/
def waitForOtherFill (userId taskId : ℤ) : Act TaskResponse := do
  let waitedLookup ← attemptRedis (waitForTaskCacheFill J userId taskId
    settings.taskCacheLockWaitAttempts settings.taskCacheLockWaitSeconds)
  match waitedLookup with
  | none => loadOwnedTaskFromDatabase J (getTaskCache settings) userId taskId
  | some waitedLookup =>
    if waitedLookup.cacheHit then resolveCachedTask waitedLookup
    else loadOwnedTaskFromDatabase J (getTaskCache settings) userId taskId

def getCachedOwnedTaskOr404 (userId taskId : ℤ) : Act TaskResponse := do
  let initialLookup ← attemptRedis (TaskCache.lookupTask J userId taskId)
  match initialLookup with
  | none => loadOwnedTaskFromDatabase J (getTaskCache settings) userId taskId
  | some initialLookup =>
    if initialLookup.cacheHit then resolveCachedTask initialLookup
    else do
      let lockKey := buildTaskCacheLockKey userId taskId
      let lockToken ← attemptRedis ((getTaskCacheLock settings).acquire lockKey)
      match lockToken with
      | none => loadOwnedTaskFromDatabase J (getTaskCache settings) userId taskId
      | some none => waitForOtherFill J settings userId taskId
      | some (some lockToken) => fillUnderLock J settings userId taskId lockKey lockToken

end

/-! ### Routes -/

def getOwnedTaskOr404 (taskId userId : ℤ) : Act TaskRecord := do
  let taskRecord : Option TaskRecord ← perform (.findOwnedTask taskId userId)
  match taskRecord with
  | none => Prog.raise taskNotFound
  | some taskRecord => return taskRecord

def createTask (userId : ℤ) (body : TaskCreate) : Act TaskResponse := do
  let id : ℤ ← perform (.commitInsert body userId)
  let taskRecord : TaskRecord ← perform (.refresh id)
  invalidateCachedTask userId taskRecord.id
  validateTask taskRecord

def updateTask (userId taskId : ℤ) (body : TaskUpdate) : Act TaskResponse := do
  let storedTask ← getOwnedTaskOr404 taskId userId
  let ownerId := storedTask.ownerId
  let taskId := storedTask.id
  perform (.commitUpdate taskId (body.changesFrom storedTask))
  invalidateCachedTask ownerId taskId
  let storedTask : TaskRecord ← perform (.refresh taskId)
  validateTask storedTask

def deleteTask (userId taskId : ℤ) : Act Unit := do
  let storedTask ← getOwnedTaskOr404 taskId userId
  let ownerId := storedTask.ownerId
  let taskId := storedTask.id
  perform (.commitDelete taskId)
  invalidateCachedTask ownerId taskId

/-- A request for one task. -/
inductive Request where
  | create (userId : ℤ) (body : TaskCreate)
  | get (userId taskId : ℤ)
  | patch (userId taskId : ℤ) (body : TaskUpdate)
  | delete (userId taskId : ℤ)
deriving DecidableEq

/-- The user a request is made by. -/
def Request.userId : Request → ℤ
  | .create u _ | .get u _ | .patch u _ _ | .delete u _ => u

/-- The requests that commit. -/
def Request.isWrite : Request → Bool
  | .get .. => false
  | _ => true

/-- The owner and the task a request looks up before it writes. -/
def Request.target : Request → Option (ℤ × ℤ)
  | .patch u i _ | .delete u i => some (u, i)
  | _ => none

/-- What a request runs, and answers: the task, or nothing for a deletion. -/
def Request.body (J : TaskJson) (settings : Settings) : Request → Act (Option TaskResponse)
  | .create userId body => some <$> createTask userId body
  | .get userId taskId => some <$> getCachedOwnedTaskOr404 J settings userId taskId
  | .patch userId taskId body => some <$> updateTask userId taskId body
  | .delete userId taskId => (fun _ => none) <$> deleteTask userId taskId

end TaskApi
