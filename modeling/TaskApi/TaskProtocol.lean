/-
# What each task request does, call by call

The protocol of a `GET` and of the three writes, and that the routes follow
them. A `GET` looks up, takes the lock or waits, queries the database at most
once, and caches only what it read; it releases the lock it took. A write
commits at most once and then deletes the cache entry of the row it committed,
unless Redis fails or the row is gone before it could be read back.

These are facts about the program text alone. The invariants over interleaved
runs (`Coherence`, `Staleness`, `SingleFlight`) use nothing else of the code.

Key definitions: `Shows`, `Phase`, `taskProtocol`, `taskDiscipline`, `TaskEvent`.
Key theorems: `lookupTask_follows`, `loadOwnedTaskFromDatabase_follows`,
`getCachedOwnedTaskOr404_follows`, `createTask_follows`, `updateTask_follows`,
`deleteTask_follows`, `taskInvariant`.
-/
import TaskApi.TaskSystem

namespace TaskApi

open Conc

/-- What a database answer means to the client: the task, or not found. -/
def taskOf (row : Option TaskRecord) : Option TaskResponse := row.bind TaskResponse.modelValidate

/-- A row that satisfies the constraints is answered as a task. -/
theorem taskOf_some {row : TaskRecord} (h : row.Readable) : taskOf (some row) = some (row.response h) :=
  TaskResponse.modelValidate_of_readable h

/-- The answer shows the row: the task has its fields, and without a row there is none. -/
abbrev Shows : Option TaskResponse → Option TaskRecord → Prop := Option.Rel TaskResponse.Represents

theorem shows_taskOf {row : Option TaskRecord} (h : ∀ r ∈ row, r.Readable) : Shows (taskOf row) row := by
  cases row with
  | none => exact .none
  | some r =>
    rw [taskOf_some (h r rfl)]
    exact .some (r.represents_response _)

theorem Shows.eq {a : Option TaskResponse} {row : Option TaskRecord} (h : Shows a row) : a = taskOf row := by
  cases h with
  | none => rfl
  | some h => exact (TaskResponse.modelValidate_eq_some_iff.mpr h).symm

/-- How `get_cached_owned_task_or_404` ends on an answer. -/
def answerTask : Option TaskResponse → Except Exn TaskResponse
  | none => .error taskNotFound
  | some task => .ok task

/-- How the request ends on an answer. -/
def answerGet : Option TaskResponse → Except Exn (Option TaskResponse)
  | none => .error taskNotFound
  | some task => .ok (some task)

/-! ### Phases -/

/-- What a request has done so far. -/
structure Phase where
  /-- A Redis call failed. -/
  faulted : Bool := false
  /-- A commit or a refresh found its row gone. -/
  lost : Bool := false
  /-- The answer a lookup found. -/
  hit : Option (Option TaskResponse) := none
  /-- The last lookup found nothing, and the lock was not taken since. -/
  missed : Bool := false
  /-- The last lookup found an unreadable value. -/
  corrupt : Bool := false
  /-- The number of lookups that found nothing. -/
  lookups : ℕ := 0
  refused : Bool := false
  token : Option String := none
  /-- What the database query returned. -/
  answer : Option (Option TaskRecord) := none
  filled : Bool := false
  released : Bool := false
  /-- The id of the committed row. -/
  committed : Option ℤ := none
  deleted : Bool := false

namespace Phase

/-- The phase after a call that returned. -/
def seen (J : TaskJson) (q : Phase) : (c : Call) → c.Val → Phase
  | .redisGet _, value =>
    let found := value.bind J.read
    { q with
      hit := found.or q.hit
      missed := found.isNone || q.missed
      corrupt := value.isSome && found.isNone || q.corrupt
      lookups := q.lookups + found.isNone.toNat }
  | .redisSetNx _ token _, acquired =>
    { q with
      token := if acquired then some token else q.token
      missed := !acquired && q.missed
      refused := !acquired || q.refused }
  | .redisSet .., _ => { q with filled := true }
  | .redisDelete _, _ => { q with corrupt := false, deleted := true }
  | .redisEvalReleaseLock .., _ => { q with released := true }
  | .findOwnedTask .., x => { q with answer := some x }
  | .commitInsert .., id => { q with committed := some id }
  | .commitUpdate id _, _ => { q with committed := some id }
  | .commitDelete id, _ => { q with committed := some id }
  | _, _ => q

def next (J : TaskJson) (q : Phase) (c : Call) : calls.Out c → Phase
  | .ok v => q.seen J c v
  | .error .redisError => { q with faulted := true }
  | .error _ => { q with lost := true }

/-- A `GET` may query the database: it has not and found no answer, and either
it holds the lock and has missed again, or Redis failed, or it waited in vain. -/
def MayQuery (settings : Settings) (q : Phase) : Prop :=
  q.answer = none ∧ q.hit = none ∧ q.filled = false ∧ q.released = false ∧
  (q.token.isSome → q.missed) ∧
  (q.token = none → q.faulted ∨
    (q.refused ∧ (q.lookups : ℤ) = settings.taskCacheLockWaitAttempts + 1))

/-- The longest time an answer is cached. -/
def maxTtl (settings : Settings) : Option TaskResponse → ℤ
  | none => settings.taskNegativeCacheTtlSeconds
  | some _ => settings.taskCacheTtlSeconds + settings.taskCacheTtlJitterSeconds

def getAllows (J : TaskJson) (settings : Settings) (ownerId taskId : ℤ) (q : Phase) : Call → Prop
  | .redisGet key => key = TaskCache.buildKey ownerId taskId ∧ q.hit = none ∧ q.answer = none
  | .redisDelete key => key = TaskCache.buildKey ownerId taskId ∧ q.corrupt
  | .redisSet key value ex =>
    key = TaskCache.buildKey ownerId taskId ∧ q.filled = false ∧ q.released = false ∧
    1 ≤ ex ∧ ∃ x, q.answer = some x ∧ J.read value = some (taskOf x) ∧ ex ≤ maxTtl settings (taskOf x)
  | .redisSetNx key _ ex =>
    key = buildTaskCacheLockKey ownerId taskId ∧ q.token = none ∧ q.refused = false ∧ q.answer = none ∧
    q.released = false ∧ 1 ≤ ex
  | .redisEvalReleaseLock key token =>
    key = buildTaskCacheLockKey ownerId taskId ∧ q.token = some token ∧ q.released = false ∧
    (q.answer.isSome → q.filled ∨ q.faulted)
  | .findOwnedTask taskId' ownerId' => taskId' = taskId ∧ ownerId' = ownerId ∧ q.MayQuery settings
  | .uuid4 | .randint .. | .sleep _ => True
  | _ => False

/-- A write has not committed yet. -/
def MayCommit (q : Phase) : Prop := q.committed = none ∧ q.deleted = false ∧ q.lost = false

/-- The calls a request may make in a phase. -/
def allows (J : TaskJson) (settings : Settings) : Request → Phase → Call → Prop
  | .get ownerId taskId, q, c => q.getAllows J settings ownerId taskId c
  | .create userId _, q, c =>
    match c with
    | .commitInsert _ ownerId => ownerId = userId ∧ q.MayCommit
    | .redisDelete key => ∃ id, q.committed = some id ∧ key = TaskCache.buildKey userId id
    | .refresh id => q.committed = some id
    | _ => False
  | .patch userId taskId _, q, c =>
    match c with
    | .findOwnedTask taskId' ownerId => taskId' = taskId ∧ ownerId = userId ∧ q.answer = none
    | .commitUpdate id _ => id = taskId ∧ q.MayCommit ∧ ∃ row, q.answer = some (some row)
    | .redisDelete key => q.committed = some taskId ∧ key = TaskCache.buildKey userId taskId
    | .refresh _ => q.deleted ∨ q.faulted
    | _ => False
  | .delete userId taskId, q, c =>
    match c with
    | .findOwnedTask taskId' ownerId => taskId' = taskId ∧ ownerId = userId ∧ q.answer = none
    | .commitDelete id => id = taskId ∧ q.MayCommit ∧ ∃ row, q.answer = some (some row)
    | .redisDelete key => q.committed = some taskId ∧ key = TaskCache.buildKey userId taskId
    | _ => False

/-- The answer a `GET` has: from the cache, else from the database. -/
def Answered (q : Phase) (a : Option TaskResponse) : Prop :=
  q.hit = some a ∨ (q.hit = none ∧ ∃ x, q.answer = some x ∧ a = taskOf x)

/-! Each field of a phase is changed by the calls it is about, and by no other. -/

section

variable {J : TaskJson} {q : Phase} {c : Call} {v : calls.Out c}

theorem next_answer (h : ∀ i o, c ≠ .findOwnedTask i o) : (q.next J c v).answer = q.answer := by
  rcases v with e | v
  · cases e <;> rfl
  · cases c with
    | findOwnedTask i o => exact absurd rfl (h i o)
    | _ => rfl

theorem next_hit (h : ∀ k, c ≠ .redisGet k) : (q.next J c v).hit = q.hit := by
  rcases v with e | v
  · cases e <;> rfl
  · cases c with
    | redisGet k => exact absurd rfl (h k)
    | _ => rfl

theorem next_committed (h : c.isCommit = false) : (q.next J c v).committed = q.committed := by
  rcases v with e | v
  · cases e <;> rfl
  · cases c with
    | commitInsert _ _ | commitUpdate _ _ | commitDelete _ => cases h
    | _ => rfl

theorem next_faulted (h : v ≠ .error .redisError) : (q.next J c v).faulted = q.faulted := by
  rcases v with e | v
  · cases e <;> first | rfl | exact absurd rfl h
  · cases c <;> rfl

end

/-- How a write may end: a committed row's entry was deleted, or not for a
reason. -/
def WriteEnds (q : Phase) : Prop := q.committed.isSome → q.deleted ∨ q.faulted ∨ q.lost

/-- How a request may end. -/
def Ends : Request → Phase → Except Exn (Option TaskResponse) → Prop
  | .get _ _, q, r =>
    (q.token.isSome → q.released ∨ q.faulted) ∧
    ((∃ a, q.Answered a ∧ r = answerGet a) ∨ (r = .error .redisError ∧ q.faulted))
  | _, q, _ => q.WriteEnds

end Phase

/-- The phases of all requests. -/
abbrev taskAutomaton (J : TaskJson) : Automaton calls where
  Phase := Phase
  init := {}
  next := Phase.next J

/-- The protocol of a request. -/
abbrev taskProtocol (J : TaskJson) (settings : Settings) (r : Request) : Protocol calls where
  toAutomaton := taskAutomaton J
  allows := Phase.allows J settings r

/-- What a call can come back with. -/
abbrev Can (fails : Call → Prop) (c : Call) (v : calls.Out c) : Prop := ∃ s s', step fails c s v s'

/-- The handlers of the source: a `RedisError` ends in `none`, any other error goes on. -/
theorem follows_attemptRedis {P : Protocol calls} {can : (c : Call) → calls.Out c → Prop} {α : Type}
    {Q : P.Phase → Except Exn (Option α) → Prop} {q : P.Phase} {p : Act α}
    (h : p.Follows P can (Prog.ends (fun q a => Q q (.ok (some a))) fun q e =>
      if e = .redisError then Q q (.ok none) else Q q (.error e)) q) :
    (attemptRedis p).Follows P can Q q := by
  unfold attemptRedis
  rw [Prog.follows_tryCatch, Prog.follows_bind]
  refine h.mono fun q r hr => ?_
  cases r with
  | ok a => exact hr
  | error e => cases e <;> exact hr

/-- The same of a program run alone. -/
theorem yields_attemptRedis {σ α : Type} {serve : (c : Call) → σ → calls.Out c × σ}
    {Q : σ → Except Exn (Option α) → Prop} {s : σ} {p : Act α}
    (h : p.Yields serve (Prog.ends (fun s a => Q s (.ok (some a))) fun s e =>
      if e = Exn.redisError then Q s (.ok none) else Q s (.error e)) s) :
    (attemptRedis p).Yields serve Q s := by
  unfold attemptRedis
  rw [Prog.yields_tryCatch, Prog.yields_bind]
  refine h.mono fun s r hr => ?_
  cases r with
  | ok a => exact hr
  | error e => cases e <;> exact hr

/-! ### The calls of each function -/

section Makes

variable {α β : Type} {C : Call → Prop}

/-- Among the calls in `C` are those of the task cache. -/
structure HasCacheCalls (C : Call → Prop) : Prop where
  redisGet : ∀ key, C (.redisGet key)
  redisSet : ∀ key value ex, C (.redisSet key value ex)
  redisDelete : ∀ key, C (.redisDelete key)
  randint : ∀ lo hi, C (.randint lo hi)
  sleep : ∀ seconds, C (.sleep seconds)

theorem makes_attemptRedis {p : Act α} (hp : p.Makes C) : (attemptRedis p).Makes C :=
  Prog.Makes.tryCatch (fun e => by cases e <;> exact trivial) (Prog.Makes.bind (fun a => Prog.makes_ret (some a)) hp)

variable (J : TaskJson) (ownerId taskId : ℤ)

theorem lookupTask_makes (hC : HasCacheCalls C) : (TaskCache.lookupTask J ownerId taskId).Makes C := by
  refine Prog.Makes.bind (fun cachedValue => ?_) (Prog.makes_perform (hC.redisGet _))
  cases cachedValue with
  | none => exact trivial
  | some cachedValue =>
    dsimp only
    split_ifs
    · exact trivial
    · split
      · exact Prog.Makes.bind (fun _ => Prog.makes_ret _) (Prog.makes_perform (hC.redisDelete _))
      · exact trivial

theorem waitForTaskCacheFill_makes (hC : HasCacheCalls C) (attempts : ℤ) (delaySeconds : ℚ) :
    (waitForTaskCacheFill J ownerId taskId attempts delaySeconds).Makes C := by
  have hloop : ∀ n, (waitForTaskCacheFill.loop J ownerId taskId delaySeconds n).Makes C := fun n => by
    induction n with
    | zero => exact trivial
    | succ n ih =>
      refine Prog.Makes.bind (fun _ => ?_) (Prog.makes_perform (hC.sleep _))
      refine Prog.Makes.bind (fun cacheLookup => ?_) (lookupTask_makes J ownerId taskId hC)
      split_ifs
      · exact trivial
      · exact ih
  unfold waitForTaskCacheFill
  split_ifs
  · exact trivial
  · exact trivial
  · exact hloop _

theorem resolveCachedTask_makes (cacheLookup : TaskCacheLookup) : (resolveCachedTask cacheLookup).Makes C := by
  unfold resolveCachedTask
  split <;> exact trivial

theorem loadOwnedTaskFromDatabase_makes (hC : HasCacheCalls C) (cache : TaskCache)
    (hfind : C (.findOwnedTask taskId ownerId)) :
    (loadOwnedTaskFromDatabase J cache ownerId taskId).Makes C := by
  refine Prog.Makes.bind (fun taskRecord => ?_) (Prog.makes_perform hfind)
  cases taskRecord with
  | none =>
    exact Prog.Makes.bind (fun _ => Prog.makes_raise _) (makes_attemptRedis (Prog.makes_perform (hC.redisSet _ _ _)))
  | some taskRecord =>
    have hset : ∀ task, (cache.setTask J ownerId task).Makes C := fun task => by
      refine ⟨hC.randint _ _, fun v => ?_⟩
      cases v with
      | error e => exact trivial
      | ok jitterSeconds => exact Prog.makes_perform (hC.redisSet _ _ _)
    have hvalidate : (validateTask taskRecord).Makes C := by
      unfold validateTask
      split <;> exact trivial
    exact Prog.Makes.bind (fun task => Prog.Makes.bind (fun _ => Prog.makes_ret _) (makes_attemptRedis (hset task)))
      hvalidate

theorem waitForOtherFill_makes (hC : HasCacheCalls C) (settings : Settings)
    (hfind : C (.findOwnedTask taskId ownerId)) :
    (waitForOtherFill J settings ownerId taskId).Makes C := by
  refine Prog.Makes.bind (fun waitedLookup => ?_)
    (makes_attemptRedis (waitForTaskCacheFill_makes J ownerId taskId hC _ _))
  cases waitedLookup with
  | none => exact loadOwnedTaskFromDatabase_makes J ownerId taskId hC _ hfind
  | some waitedLookup =>
    dsimp only
    split_ifs
    · exact resolveCachedTask_makes _
    · exact loadOwnedTaskFromDatabase_makes J ownerId taskId hC _ hfind

end Makes

/-! ### `GET` -/

section Get

variable {J : TaskJson} {settings : Settings} {ownerId taskId : ℤ} {fails : Call → Prop} {q : Phase}

/-- The phases a failed call of a lookup leads to. -/
def Phase.lookupFailed (q : Phase) (missed corrupt : Bool) (lookups : ℕ) : Phase :=
  { q with faulted := true, missed := missed, corrupt := corrupt, lookups := lookups }

theorem lookupTask_follows {Q : Phase → Except Exn TaskCacheLookup → Prop}
    (hq : q.hit = none) (ha : q.answer = none)
    (hhit : ∀ a, Q { q with hit := some a } (.ok ⟨true, a⟩))
    (hmiss : ∀ c d, Q { q with missed := true, lookups := q.lookups + 1, corrupt := c, deleted := d }
      (.ok ⟨false, none⟩))
    (herr : ∀ m c n, Q (q.lookupFailed m c n) (.error .redisError)) :
    (TaskCache.lookupTask J ownerId taskId).Follows (taskProtocol J settings (.get ownerId taskId))
      (Can fails) Q q := by
  unfold TaskCache.lookupTask
  refine Prog.follows_bind.mpr (Prog.follows_perform.mpr ⟨⟨rfl, hq, ha⟩, fun v ⟨s, s', hs⟩ => ?_⟩)
  rcases v with e | _ | value
  · obtain rfl := step_redis_error rfl hs
    exact herr q.missed q.corrupt q.lookups
  · exact hmiss q.corrupt q.deleted
  · simp only [Prog.ends_ok, Phase.next, Phase.seen, Option.bind_some, TaskJson.read]
    split_ifs with hm
    · exact hhit none
    · cases hv : J.modelValidateJson value with
      | some task => exact hhit (some task)
      | none =>
        -- an unreadable value is deleted
        refine Prog.follows_bind.mpr (Prog.follows_perform.mpr ⟨⟨rfl, rfl⟩, fun v ⟨s, s', hs⟩ => ?_⟩)
        rcases v with e | _
        · obtain rfl := step_redis_error rfl hs
          exact herr true true (q.lookups + 1)
        · exact hmiss false true

/-- A lookup decides on nothing that a later query or fill depends on. -/
theorem Phase.MayQuery.lookupFailed (h1 : q.hit = none) (h2 : q.answer = none) (h3 : q.filled = false)
    (h4 : q.released = false) (h5 : q.token = none) (m c : Bool) (n : ℕ) :
    (q.lookupFailed m c n).MayQuery settings := by
  simp [Phase.MayQuery, Phase.lookupFailed, h1, h2, h3, h4, h5]

theorem setTaskNotFound_follows {Q : Phase → Except Exn (Option Unit) → Prop}
    (hx : q.answer = some none) (hf : q.filled = false) (hr : q.released = false)
    (hfill : ∀ r, Q { q with filled := true } (.ok r)) (herr : ∀ r, Q { q with faulted := true } (.ok r)) :
    (attemptRedis ((getTaskCache settings).setTaskNotFound ownerId taskId)).Follows
      (taskProtocol J settings (.get ownerId taskId)) (Can fails) Q q := by
  refine follows_attemptRedis (Prog.follows_perform.mpr
    ⟨⟨rfl, hf, hr, settings.one_le_negativeTtl, none, hx, J.read_marker, le_rfl⟩, fun v ⟨s, s', hs⟩ => ?_⟩)
  rcases v with e | _
  · obtain rfl := step_redis_error rfl hs
    exact herr none
  · exact hfill (some ())

theorem setTask_follows {Q : Phase → Except Exn (Option Unit) → Prop} {x : TaskRecord}
    (hx : q.answer = some (some x)) (hf : q.filled = false) (hr : q.released = false) {task : TaskResponse}
    (hid : task.id = taskId) (ht : taskOf (some x) = some task)
    (hfill : ∀ r, Q { q with filled := true } (.ok r)) (herr : ∀ r, Q { q with faulted := true } (.ok r)) :
    (attemptRedis ((getTaskCache settings).setTask J ownerId task)).Follows
      (taskProtocol J settings (.get ownerId taskId)) (Can fails) Q q := by
  refine follows_attemptRedis (Prog.follows_bind.mpr (Prog.follows_bind.mpr
    (Prog.follows_perform.mpr ⟨trivial, fun v ⟨s, s', hs⟩ => ?_⟩)))
  obtain ⟨jitter, rfl, hj⟩ := step_randint hs
  obtain ⟨hlo, hhi⟩ := hj settings.jitter_nonneg
  have hge : 1 ≤ (getTaskCache settings).ttlSeconds + jitter := by
    have := (getTaskCache settings).one_le_ttl
    omega
  have hle : (getTaskCache settings).ttlSeconds + jitter ≤ Phase.maxTtl settings (taskOf (some x)) := by
    rw [ht]
    exact add_le_add le_rfl hhi
  refine Prog.follows_perform.mpr ⟨⟨by rw [hid], hf, hr, hge, some x, hx, by rw [ht, J.read_dump], hle⟩,
    fun v ⟨s, s', hs⟩ => ?_⟩
  rcases v with e | _
  · obtain rfl := step_redis_error rfl hs
    exact herr none
  · exact hfill (some ())

/-- From a phase that may query, the load ends on the answer of its query, which
it cached unless Redis failed. -/
theorem loadOwnedTaskFromDatabase_follows {Q : Phase → Except Exn TaskResponse → Prop}
    (hq : q.MayQuery settings)
    (hfill : ∀ x, Q { q with answer := some x, filled := true } (answerTask (taskOf x)))
    (herr : ∀ x, Q { q with answer := some x, faulted := true } (answerTask (taskOf x))) :
    (loadOwnedTaskFromDatabase J (getTaskCache settings) ownerId taskId).Follows
      (taskProtocol J settings (.get ownerId taskId)) (Can fails) Q q := by
  unfold loadOwnedTaskFromDatabase
  refine Prog.follows_bind.mpr (Prog.follows_perform.mpr ⟨⟨rfl, rfl, hq⟩, fun v ⟨s, s', hs⟩ => ?_⟩)
  obtain rfl := step_findOwnedTask hs
  cases hx : s.db.findOwnedTask taskId ownerId with
  | none =>
    refine Prog.follows_bind.mpr (setTaskNotFound_follows rfl hq.2.2.1 hq.2.2.2.1 ?_ ?_)
    · exact fun _ => hfill none
    · exact fun _ => herr none
  | some row =>
    obtain ⟨hid, -, hread⟩ := TaskTable.findOwnedTask_some hx
    refine Prog.follows_bind.mpr ?_
    simp only [validateTask, TaskResponse.modelValidate_of_readable hread, Prog.follows_ret, Prog.ends_ok]
    refine Prog.follows_bind.mpr (setTask_follows rfl ?_ ?_ hid (taskOf_some hread) ?_ ?_)
    · exact hq.2.2.1
    · exact hq.2.2.2.1
    · intro _
      have := hfill (some row)
      rwa [taskOf_some hread] at this
    · intro _
      have := herr (some row)
      rwa [taskOf_some hread] at this

/-- Waiting ends with a hit, or after the last attempt missed. -/
theorem waitForTaskCacheFill_follows {Q : Phase → Except Exn TaskCacheLookup → Prop} (n : ℕ)
    (hq : q.hit = none) (ha : q.answer = none)
    (hhit : ∀ m c d l a, Q { q with missed := m, corrupt := c, deleted := d, lookups := l, hit := some a }
      (.ok ⟨true, a⟩))
    (hmiss : ∀ m c d, Q { q with missed := m, corrupt := c, deleted := d, lookups := q.lookups + n }
      (.ok ⟨false, none⟩))
    (herr : ∀ m c d l, Q { q with missed := m, corrupt := c, deleted := d, lookups := l, faulted := true }
      (.error .redisError)) :
    (waitForTaskCacheFill.loop J ownerId taskId settings.taskCacheLockWaitSeconds n).Follows
      (taskProtocol J settings (.get ownerId taskId)) (Can fails) Q q := by
  induction n generalizing q with
  | zero => exact hmiss q.missed q.corrupt q.deleted
  | succ n ih =>
    unfold waitForTaskCacheFill.loop
    refine Prog.follows_bind.mpr (Prog.follows_perform.mpr ⟨trivial, fun v ⟨s, s', hs⟩ => ?_⟩)
    obtain rfl := step_sleep hs
    refine Prog.follows_bind.mpr (lookupTask_follows hq ha ?_ ?_ ?_)
    · exact fun a => hhit q.missed q.corrupt q.deleted q.lookups a
    · refine fun c d => ih hq ha ?_ ?_ ?_
      · exact fun m c d l a => hhit m c d l a
      · intro m c d
        have := hmiss m c d
        rwa [Nat.add_comm n 1, ← Nat.add_assoc] at this
      · exact fun m c d l => herr m c d l
    · exact fun m c n => herr m c q.deleted n

theorem acquire_follows {lock : RedisLock} {Q : Phase → Except Exn (Option (Option String)) → Prop}
    (ht : q.token = none) (hr : q.refused = false) (ha : q.answer = none) (hrel : q.released = false)
    (htaken : ∀ token, Q { q with token := some token, missed := false } (.ok (some (some token))))
    (hrefused : Q { q with refused := true } (.ok (some none)))
    (herr : Q { q with faulted := true } (.ok none)) :
    (attemptRedis (lock.acquire (buildTaskCacheLockKey ownerId taskId))).Follows
      (taskProtocol J settings (.get ownerId taskId)) (Can fails) Q q := by
  refine follows_attemptRedis (Prog.follows_bind.mpr
    (Prog.follows_perform.mpr ⟨trivial, fun v ⟨s, s', hs⟩ => ?_⟩))
  obtain ⟨token, rfl⟩ := step_uuid4 hs
  refine Prog.follows_bind.mpr (Prog.follows_perform.mpr
    ⟨⟨rfl, ht, hr, ha, hrel, lock.one_le_ttl⟩, fun v ⟨s, s', hs⟩ => ?_⟩)
  rcases v with e | _ | _
  · obtain rfl := step_redis_error rfl hs
    exact herr
  · exact hrefused
  · exact htaken token

theorem release_follows {token : String} {Q : Phase → Except Exn (Option Bool) → Prop}
    (ht : q.token = some token) (hr : q.released = false) (hf : q.answer.isSome → q.filled ∨ q.faulted)
    (hrel : ∀ b, Q { q with released := true } (.ok b)) (herr : Q { q with faulted := true } (.ok none)) :
    (attemptRedis (RedisLock.release (buildTaskCacheLockKey ownerId taskId) token)).Follows
      (taskProtocol J settings (.get ownerId taskId)) (Can fails) Q q := by
  refine follows_attemptRedis (Prog.follows_bind.mpr
    (Prog.follows_perform.mpr ⟨⟨rfl, ht, hr, hf⟩, fun v ⟨s, s', hs⟩ => ?_⟩))
  rcases v with e | n
  · obtain rfl := step_redis_error rfl hs
    exact herr
  · exact hrel (some (n ≠ 0))

/-- How the dependency may end: with the lock released, on the answer it has, or
with the error of a Redis call. -/
def Phase.GetEnds (q : Phase) (r : Except Exn TaskResponse) : Prop :=
  (q.token.isSome → q.released ∨ q.faulted) ∧
  ((∃ a, q.Answered a ∧ r = answerTask a) ∨ (r = .error .redisError ∧ q.faulted))

theorem Phase.GetEnds.of_answered {a : Option TaskResponse} {r : Except Exn TaskResponse}
    (ht : q.token.isSome → q.released ∨ q.faulted) (ha : q.Answered a) (hr : r = answerTask a) :
    q.GetEnds r := ⟨ht, .inl ⟨a, ha, hr⟩⟩

theorem resolveCachedTask_follows {P : Protocol calls} {can : (c : Call) → calls.Out c → Prop}
    {Q : P.Phase → Except Exn TaskResponse → Prop} {q : P.Phase} {a : Option TaskResponse}
    (h : Q q (answerTask a)) : (resolveCachedTask ⟨true, a⟩).Follows P can Q q := by
  cases a <;> exact h

/-- A load outside the lock. -/
theorem load_ends (hq : q.MayQuery settings) (ht : q.token = none) :
    (loadOwnedTaskFromDatabase J (getTaskCache settings) ownerId taskId).Follows
      (taskProtocol J settings (.get ownerId taskId)) (Can fails) Phase.GetEnds q := by
  refine loadOwnedTaskFromDatabase_follows hq (fun x => ?_) (fun x => ?_)
  · exact .of_answered (by simp [ht]) (.inr ⟨hq.2.1, x, rfl, rfl⟩) rfl
  · exact .of_answered (by simp [ht]) (.inr ⟨hq.2.1, x, rfl, rfl⟩) rfl

/-- With the lock held and nothing else done since, the holder looks up again,
fills the cache if it must, and releases the lock. -/
theorem fillUnderLock_follows {token : String} (hh : q.hit = none) (ha : q.answer = none)
    (hf : q.filled = false) (hr : q.released = false) (ht : q.token = some token) :
    (fillUnderLock J settings ownerId taskId (buildTaskCacheLockKey ownerId taskId) token).Follows
      (taskProtocol J settings (.get ownerId taskId)) (Can fails) Phase.GetEnds q := by
  -- the block keeps the lock, and what it ends on is what is answered
  have block : ∀ {q' : Phase} {r : Except Exn TaskResponse}, q'.token = some token → q'.released = false →
      (q'.answer.isSome → q'.filled ∨ q'.faulted) →
      ((∃ a, q'.Answered a ∧ r = answerTask a) ∨ (r = .error .redisError ∧ q'.faulted)) →
      (attemptRedis (RedisLock.release (buildTaskCacheLockKey ownerId taskId) token) >>= fun _ =>
        (pure () : Act Unit)).Follows (taskProtocol J settings (.get ownerId taskId)) (Can fails)
        (Prog.ends (fun q _ => q.GetEnds r) fun q e => q.GetEnds (.error e)) q' := by
    intro q' r ht hr hf hres
    refine Prog.follows_bind.mpr (release_follows ht hr hf (fun b => ?_) ?_)
    · exact ⟨fun _ => .inl rfl, hres⟩
    · refine ⟨fun _ => .inr rfl, ?_⟩
      rcases hres with hres | ⟨hres, -⟩
      · exact .inl hres
      · exact .inr ⟨hres, rfl⟩
  unfold fillUnderLock
  refine Prog.follows_tryFinally.mpr (Prog.follows_bind.mpr (lookupTask_follows hh ha ?_ ?_ ?_))
  · exact fun a => resolveCachedTask_follows (block ht hr (by simp [ha]) (.inl ⟨a, .inl rfl, rfl⟩))
  · refine fun c d => loadOwnedTaskFromDatabase_follows ?_ (fun x => ?_) (fun x => ?_)
    · exact ⟨ha, hh, hf, hr, fun _ => rfl, by simp [ht]⟩
    · exact block ht hr (fun _ => .inl rfl) (.inl ⟨_, .inr ⟨hh, x, rfl, rfl⟩, rfl⟩)
    · exact block ht hr (fun _ => .inr rfl) (.inl ⟨_, .inr ⟨hh, x, rfl, rfl⟩, rfl⟩)
  · exact fun m c n => block ht hr (by simp [ha, Phase.lookupFailed]) (.inr ⟨rfl, rfl⟩)

theorem waitForOtherFill_follows (hh : q.hit = none) (ha : q.answer = none) (hf : q.filled = false)
    (hr : q.released = false) (ht : q.token = none) (hw : q.refused = true) (hl : q.lookups = 1) :
    (waitForOtherFill J settings ownerId taskId).Follows
      (taskProtocol J settings (.get ownerId taskId)) (Can fails) Phase.GetEnds q := by
  unfold waitForOtherFill waitForTaskCacheFill
  rw [if_neg (not_lt.mpr settings.one_le_waitAttempts), if_neg (not_lt.mpr settings.waitSeconds_pos.le)]
  have hn := settings.one_le_waitAttempts
  refine Prog.follows_bind.mpr (follows_attemptRedis (waitForTaskCacheFill_follows _ hh ha ?_ ?_ ?_))
  · exact fun m c d l a =>
      resolveCachedTask_follows (.of_answered (by simp [ht]) (.inl rfl) rfl)
  · refine fun m c d => load_ends ⟨ha, hh, hf, hr, by simp [ht], fun _ => .inr ⟨hw, ?_⟩⟩ ht
    simp only [hl]
    omega
  · exact fun m c d l => load_ends ⟨ha, hh, hf, hr, by simp [ht], fun _ => .inl rfl⟩ ht

theorem getCachedOwnedTaskOr404_follows :
    (getCachedOwnedTaskOr404 J settings ownerId taskId).Follows
      (taskProtocol J settings (.get ownerId taskId)) (Can fails) Phase.GetEnds {} := by
  unfold getCachedOwnedTaskOr404
  refine Prog.follows_bind.mpr (follows_attemptRedis (lookupTask_follows rfl rfl ?_ ?_ ?_))
  · exact fun a => resolveCachedTask_follows (.of_answered (by simp) (.inl rfl) rfl)
  · refine fun c d => Prog.follows_bind.mpr (acquire_follows rfl rfl rfl rfl ?_ ?_ ?_)
    · exact fun token => fillUnderLock_follows rfl rfl rfl rfl rfl
    · exact waitForOtherFill_follows rfl rfl rfl rfl rfl rfl rfl
    · exact load_ends ⟨rfl, rfl, rfl, rfl, by simp, fun _ => .inl rfl⟩ rfl
  · exact fun m c n => load_ends (.lookupFailed rfl rfl rfl rfl rfl m c n) rfl

end Get

/-! ### Writes -/

section Write

variable {J : TaskJson} {settings : Settings} {userId taskId : ℤ} {fails : Call → Prop} {r : Request}

/-- The invalidation is the last thing a write must do: whatever it comes back
with, the write may end, or go on with what needs no more. -/
theorem invalidateCachedTask_follows {q : Phase} {ownerId id : ℤ} {Q : Phase → Except Exn Unit → Prop}
    (h : Phase.allows J settings r q (.redisDelete (TaskCache.buildKey ownerId id)))
    (hdel : Q { q with corrupt := false, deleted := true } (.ok ())) (herr : Q { q with faulted := true } (.ok ())) :
    (invalidateCachedTask ownerId id).Follows (taskProtocol J settings r) (Can fails) Q q := by
  refine Prog.follows_bind.mpr
    (follows_attemptRedis (Prog.follows_perform.mpr ⟨h, fun v ⟨s, s', hs⟩ => ?_⟩))
  rcases v with e | _
  · obtain rfl := step_redis_error rfl hs
    exact herr
  · exact hdel

/-- What is left after the invalidation keeps the phase, up to a row found gone. -/
theorem validateTask_follows {P : Protocol calls} {can : (c : Call) → calls.Out c → Prop}
    {Q : P.Phase → Except Exn TaskResponse → Prop} {q : P.Phase} {row : TaskRecord} (h : ∀ r, Q q r) :
    (validateTask row).Follows P can Q q := by
  unfold validateTask
  split
  · exact h _
  · exact h _

theorem createTask_follows {body : TaskCreate} :
    (createTask userId body).Follows (taskProtocol J settings (.create userId body)) (Can fails)
      (fun q _ => q.WriteEnds) {} := by
  unfold createTask
  refine Prog.follows_bind.mpr (Prog.follows_perform.mpr ⟨⟨rfl, rfl, rfl, rfl⟩, fun v ⟨s, s', hs⟩ => ?_⟩)
  obtain ⟨id, -, rfl, -⟩ := step_commitInsert hs
  refine Prog.follows_bind.mpr (Prog.follows_perform.mpr ⟨rfl, fun v ⟨s, s', hs⟩ => ?_⟩)
  obtain ⟨-, ⟨rfl, -⟩ | ⟨row, rfl, hrow⟩⟩ := step_refresh hs
  · exact fun _ => .inr (.inr rfl)
  · obtain ⟨rfl, -⟩ := TaskTable.get_some hrow
    refine Prog.follows_bind.mpr (invalidateCachedTask_follows ⟨_, rfl, rfl⟩ ?_ ?_)
    · exact validateTask_follows fun _ _ => .inl rfl
    · exact validateTask_follows fun _ _ => .inr (.inl rfl)

/-- The row a write looks up first. -/
theorem getOwnedTaskOr404_follows {Q : Phase → Except Exn TaskRecord → Prop}
    (h : Phase.allows J settings r {} (.findOwnedTask taskId userId))
    (hnone : Q { answer := some none } (.error taskNotFound))
    (hsome : ∀ row, row.id = taskId → row.ownerId = userId → Q { answer := some (some row) } (.ok row)) :
    (getOwnedTaskOr404 taskId userId).Follows (taskProtocol J settings r) (Can fails) Q {} := by
  unfold getOwnedTaskOr404
  refine Prog.follows_bind.mpr (Prog.follows_perform.mpr ⟨h, fun v ⟨s, s', hs⟩ => ?_⟩)
  obtain rfl := step_findOwnedTask hs
  cases hx : s.db.findOwnedTask taskId userId with
  | none => exact hnone
  | some row =>
    obtain ⟨hid, howner, -⟩ := TaskTable.findOwnedTask_some hx
    exact hsome row hid howner

theorem updateTask_follows {body : TaskUpdate} :
    (updateTask userId taskId body).Follows (taskProtocol J settings (.patch userId taskId body))
      (Can fails) (fun q _ => q.WriteEnds) {} := by
  unfold updateTask
  refine Prog.follows_bind.mpr (getOwnedTaskOr404_follows ⟨rfl, rfl, rfl⟩ ?_ ?_)
  · exact fun h => nomatch h
  rintro row rfl rfl
  refine Prog.follows_bind.mpr (Prog.follows_perform.mpr
    ⟨⟨rfl, ⟨rfl, rfl, rfl⟩, row, rfl⟩, fun v ⟨s, s', hs⟩ => ?_⟩)
  have refreshed : ∀ {q : Phase}, (q.deleted = true ∨ q.faulted = true) →
      (perform (.refresh row.id) >>= validateTask).Follows (taskProtocol J settings
        (.patch row.ownerId row.id body)) (Can fails) (fun q _ => q.WriteEnds) q := by
    intro q hq
    refine Prog.follows_bind.mpr (Prog.follows_perform.mpr ⟨hq, fun v ⟨s, s', hs⟩ => ?_⟩)
    obtain ⟨-, ⟨rfl, -⟩ | ⟨row', rfl, -⟩⟩ := step_refresh hs
    · exact fun _ => .inr (.inr rfl)
    · exact validateTask_follows fun _ _ => hq.imp id .inl
  rcases v with e | _
  · have he := step_commitUpdate_error hs
    subst he
    exact fun h => nomatch h
  · refine Prog.follows_bind.mpr (invalidateCachedTask_follows ⟨rfl, rfl⟩ ?_ ?_)
    · exact refreshed (.inl rfl)
    · exact refreshed (.inr rfl)

theorem deleteTask_follows :
    (deleteTask userId taskId).Follows (taskProtocol J settings (.delete userId taskId)) (Can fails)
      (fun q _ => q.WriteEnds) {} := by
  unfold deleteTask
  refine Prog.follows_bind.mpr (getOwnedTaskOr404_follows ⟨rfl, rfl, rfl⟩ ?_ ?_)
  · exact fun h => nomatch h
  rintro row rfl rfl
  refine Prog.follows_bind.mpr (Prog.follows_perform.mpr
    ⟨⟨rfl, ⟨rfl, rfl, rfl⟩, row, rfl⟩, fun v ⟨s, s', hs⟩ => ?_⟩)
  obtain ⟨rfl, -⟩ := step_commitDelete hs
  refine invalidateCachedTask_follows ⟨rfl, rfl⟩ ?_ ?_
  · exact fun _ => .inl rfl
  · exact fun _ => .inr (.inl rfl)

end Write

/-! ### All requests -/

/-- Every request follows its protocol, whatever Redis calls fail. -/
def taskDiscipline (J : TaskJson) (settings : Settings) (fails : Call → Prop)
    (env : State → State → Prop) : Discipline (taskSystem J settings fails env) where
  protocol := taskProtocol J settings
  final := Phase.Ends
  follows
    | .create userId body => Prog.follows_bind.mpr (createTask_follows.mono fun q r hq => by
        cases r <;> exact hq)
    | .get ownerId taskId => Prog.follows_bind.mpr (getCachedOwnedTaskOr404_follows.mono fun q r hq => by
        obtain ⟨hq, ⟨a, ha, rfl⟩ | ⟨rfl, hf⟩⟩ := hq
        · cases a with
          | none => exact ⟨hq, .inl ⟨none, ha, rfl⟩⟩
          | some task => exact ⟨hq, .inl ⟨some task, ha, rfl⟩⟩
        · exact ⟨hq, .inr ⟨rfl, hf⟩⟩)
    | .patch userId taskId body => Prog.follows_bind.mpr (updateTask_follows.mono fun q r hq => by
        cases r <;> exact hq)
    | .delete userId taskId => Prog.follows_bind.mpr (deleteTask_follows.mono fun q r hq => by
        cases r <;> exact hq)

section

variable {J : TaskJson} {settings : Settings} {fails : Call → Prop} {env : State → State → Prop}

/-- An event of the task routes. -/
abbrev TaskEvent (J : TaskJson) (settings : Settings) (fails : Call → Prop)
    (env : State → State → Prop) := Event (taskSystem J settings fails env)

variable {gate : Config (taskSystem J settings fails env) → Prop} {s₀ : State}
  {c : Config (taskSystem J settings fails env)}

/-- The induction over runs, for the task routes. -/
theorem taskInvariant {Inv : State → List (TaskEvent J settings fails env) → Prop} (init : Inv s₀ [])
    (start : ∀ b, Run gate (.init s₀) b → Inv b.state b.trace → ∀ t r, b.pool t = none →
      Inv b.state (⟨b.state, b.state, .start t r⟩ :: b.trace))
    (call : ∀ b, Run gate (.init s₀) b → Inv b.state b.trace → ∀ t r x v s', b.Running t →
      Requested t r b.trace → Phase.allows J settings r (phase (taskAutomaton J) t b.trace) x →
      step fails x b.state v s' → Inv s' (⟨b.state, s', .call t x v⟩ :: b.trace))
    (env : ∀ b, Run gate (.init s₀) b → Inv b.state b.trace → ∀ s', env b.state s' → Inv s' b.trace)
    (h : Run gate (.init s₀) c) : Inv c.state c.trace :=
  Run.invariant (taskDiscipline J settings fails _) init start call env h

theorem taskFinal (h : Run gate (.init s₀) c) {t : ℕ} {r : Request}
    {x : Except Exn (Option TaskResponse)} (hr : Requested t r c.trace) (hx : c.result t = some x) :
    Phase.Ends r (phase (taskAutomaton J) t c.trace) x :=
  Run.final (taskDiscipline J settings fails _) h hr hx

theorem taskPhase {P : Request → Phase → Prop} (init : ∀ r, P r {})
    (call : ∀ r q x v, P r q → Phase.allows J settings r q x → Can fails x v → P r (q.next J x v))
    (h : Run gate (.init s₀) c) {t : ℕ} {r : Request} (hr : Requested t r c.trace) :
    P r (phase (taskAutomaton J) t c.trace) :=
  @Run.phase_invariant _ _ _ _ (taskDiscipline J settings fails env) P init call c h t r hr

/-- A call in the trace of a run was a step from a moment of the run, allowed to
the request of its thread. -/
theorem taskCall (h : Run gate (.init s₀) c) {u tr : List (TaskEvent J settings fails env)} {s s' : State}
    {t : ℕ} {x : Call} {v : calls.Out x} (he : c.trace = u ++ ⟨s, s', .call t x v⟩ :: tr) :
    ∃ b r, Run gate (.init s₀) b ∧ b.state = s ∧ b.trace = tr ∧ b.Running t ∧ Requested t r tr ∧
      (∀ r', Requested t r' c.trace → r' = r) ∧
      Phase.allows J settings r (phase (taskAutomaton J) t tr) x ∧ step fails x s v s' :=
  Run.made (taskDiscipline J settings fails env) h he

theorem taskMade (h : Run gate (.init s₀) c) {u tr : List (TaskEvent J settings fails env)} {s s' : State}
    {t : ℕ} {r : Request} (hr : Requested t r c.trace) {x : Call} {v : calls.Out x}
    (he : c.trace = u ++ ⟨s, s', .call t x v⟩ :: tr) :
    Phase.allows J settings r (phase (taskAutomaton J) t tr) x ∧ step fails x s v s' := by
  obtain ⟨b, r', -, -, -, -, -, hr', ha, hs⟩ := taskCall h he
  obtain rfl := hr' r hr
  exact ⟨ha, hs⟩

/-- Without failing calls no request sees a failure. -/
theorem not_faulted (hfails : ∀ x, ¬ fails x) (h : Run gate (.init s₀) c) {t : ℕ} {r : Request}
    (hr : Requested t r c.trace) : (phase (taskAutomaton J) t c.trace).faulted = false := by
  refine @taskPhase J settings fails env gate s₀ c (fun _ q => q.faulted = false)
    (fun _ => rfl) (fun r q x v ih ha hv => ?_) h t r hr
  obtain ⟨s, s', hs⟩ := hv
  rw [Phase.next_faulted fun he => hfails _ (step_error hs he).2]
  exact ih

/-- The database answer of a `GET` is what the table had when the thread queried it. -/
theorem get_answer (h : Run gate (.init s₀) c) {t : ℕ} {o i : ℤ} (hr : Requested t (Request.get o i) c.trace)
    {x : Option TaskRecord} (hx : (phase (taskAutomaton J) t c.trace).answer = some x) :
    ∃ u s s' tr, c.trace = u ++ ⟨s, s', .call t (.findOwnedTask i o) (.ok x)⟩ :: tr ∧
      s.db.findOwnedTask i o = x ∧ s'.db = s.db := by
  obtain ⟨u, s, s', y, v, tr, he, h1, h2⟩ :=
    @phase_became _ _ (taskAutomaton J) t (fun q => q.answer = some x) (by simp) _ hx
  by_cases hy : ∀ i o, y ≠ .findOwnedTask i o
  · exact absurd ((Phase.next_answer hy).symm.trans h2) h1
  · push Not at hy
    obtain ⟨i', o', rfl⟩ := hy
    obtain ⟨⟨rfl, rfl, -⟩, hs⟩ := taskMade h hr he
    obtain rfl := step_findOwnedTask hs
    cases h2
    exact ⟨u, s, s', tr, he, rfl, step_db rfl hs⟩

/-- The cached answer of a `GET` is what the entry said when the thread looked it up. -/
theorem get_hit (h : Run gate (.init s₀) c) {t : ℕ} {o i : ℤ} (hr : Requested t (Request.get o i) c.trace)
    {a : Option TaskResponse} (ha : (phase (taskAutomaton J) t c.trace).hit = some a) :
    ∃ u s tr value,
      c.trace = u ++ ⟨s, s, .call t (.redisGet (TaskCache.buildKey o i)) (.ok (some value))⟩ :: tr ∧
      s.redis.get s.now (TaskCache.buildKey o i) = some value ∧ J.read value = some a := by
  obtain ⟨u, s, s', y, v, tr, he, h1, h2⟩ :=
    @phase_became _ _ (taskAutomaton J) t (fun q => q.hit = some a) (by simp) _ ha
  by_cases hy : ∀ k, y ≠ .redisGet k
  · exact absurd ((Phase.next_hit hy).symm.trans h2) h1
  · push Not at hy
    obtain ⟨k, rfl⟩ := hy
    obtain ⟨⟨rfl, hhit, -⟩, hs⟩ := taskMade h hr he
    obtain ⟨rfl, hv | hv⟩ := step_redisGet hs
    · subst hv
      cases hg : s'.redis.get s'.now (TaskCache.buildKey o i) with
      | none =>
        rw [hg] at h2
        exact absurd h2 h1
      | some value =>
        rw [hg] at he h2
        refine ⟨u, s', tr, value, he, hg, ?_⟩
        have h2 : (J.read value).or (phase (taskAutomaton J) t tr).hit = some a := h2
        rwa [hhit, Option.or_none] at h2
    · subst hv
      exact absurd h2 h1

end

/-! ### Concrete runs -/

/-- A `POST` by user 1. -/
def examplePost : Request := .create 1 exampleBody

/-- A schedule of task requests from a new database and an empty Redis, on which no call fails. -/
noncomputable def exampleRun (fails : Call → Prop) (env : State → State → Prop)
    (moves : List (Move (taskSystem exampleJson .defaults fails env))) :
    Config (taskSystem exampleJson .defaults fails env) :=
  (Config.init State.new).schedule (State.serve Pick.first) moves

end TaskApi
