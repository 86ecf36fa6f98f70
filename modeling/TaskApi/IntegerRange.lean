/-
# Integers the database does not take

The path parameter `task_id` and the query parameter `skip` are integers of any
size, and the routes hand them to the database as they are. The driver of SQLite
binds signed 64-bit integers only; any other raises `OverflowError`, which no
route handles. So a user who asks for a task they do not have gets 404, and a list
its page, exactly when the number is one the driver can bind. A user's own id
comes from the database, and is one (`Int64`).

Key definitions: `Binds`, `Call.bound`, `State.bindServe`, `listTasks`, `NotFound`.
Key theorems: `get_unowned`, `listTasks_iff`, `answered_iff_binds`.
-/
import TaskApi.TenantIsolation

namespace TaskApi

open Conc

/-! ### The driver -/

/-- The integers `sqlite3` can bind. -/
def Binds (n : ℤ) : Prop := -2 ^ 63 ≤ n ∧ n < 2 ^ 63

instance : DecidablePred Binds := fun n => by
  unfold Binds
  exact instDecidableAnd

/-- What was read from the database can be bound again. -/
theorem binds_toInt (n : Int64) : Binds n.toInt := ⟨n.le_toInt, n.toInt_lt⟩

/-- The integers among the parameters a call binds. -/
def Call.bound : Call → List ℤ
  | .findOwnedTask taskId ownerId => [taskId, ownerId]
  | .commitInsert body ownerId => [body.priority, ownerId]
  | .commitUpdate id changes => (changes.priority.map (·.1)).toList ++ [id]
  | .commitDelete id | .refresh id => [id]
  | _ => []

/-- The effect of a call, the driver checking what it binds: a statement with an
integer it cannot bind never reaches the database. -/
def State.bindServe (pick : Pick) (c : Call) (s : State) : calls.Out c × State :=
  if ∀ n ∈ c.bound, Binds n then s.serve pick c else (.error .overflowError, s)

variable {pick : Pick} {s : State} {c : Call}

theorem State.bindServe_of_binds (h : ∀ n ∈ c.bound, Binds n) : s.bindServe pick c = s.serve pick c := if_pos h

/-- A call without such parameters is served as ever. -/
theorem State.bindServe_of_free (h : c.bound = []) : s.bindServe pick c = s.serve pick c :=
  if_pos (by rw [h]; simp)

theorem State.bindServe_findOwnedTask {taskId : ℤ} {ownerId : Int64} :
    s.bindServe pick (.findOwnedTask taskId ownerId.toInt) =
      if Binds taskId then (.ok (s.db.findOwnedTask taskId ownerId.toInt), s) else (.error .overflowError, s) := by
  have hbound : (∀ n ∈ (Call.findOwnedTask taskId ownerId.toInt).bound, Binds n) ↔ Binds taskId := by
    simp [Call.bound, binds_toInt]
  by_cases h : Binds taskId
  · rw [if_pos h, State.bindServe_of_binds (hbound.mpr h)]
    rfl
  · rw [if_neg h]
    exact if_neg (hbound.not.mpr h)

/-! ### A task the user does not have -/

/-- How a request for it ends. -/
def notFoundOrOverflow (taskId : ℤ) : Exn := if Binds taskId then taskNotFound else .overflowError

/-- The user has no such task, and the cache does not say otherwise. -/
structure Unowned (J : TaskJson) (ownerId : Int64) (taskId : ℤ) (s : State) : Prop where
  no_row : s.db.findOwnedTask taskId ownerId.toInt = none
  not_cached : ∀ value task, s.redis.get s.now (TaskCache.buildKey ownerId.toInt taskId) = some value →
    J.read value ≠ some (some task)

/-- Nothing is cached for it. -/
structure Uncached (ownerId : Int64) (taskId : ℤ) (s : State) : Prop where
  no_row : s.db.findOwnedTask taskId ownerId.toInt = none
  no_entry : s.redis.get s.now (TaskCache.buildKey ownerId.toInt taskId) = none

/-- The cache says it does not exist. -/
def MarkerCached (ownerId : Int64) (taskId : ℤ) (s : State) : Prop :=
  s.redis.get s.now (TaskCache.buildKey ownerId.toInt taskId) = some taskNotFoundCacheMarker

instance (ownerId : Int64) (taskId : ℤ) (s : State) : Decidable (MarkerCached ownerId taskId s) :=
  inferInstanceAs (Decidable (_ = _))

section

variable {J : TaskJson} {settings : Settings} {ownerId : Int64} {taskId : ℤ}

theorem Uncached.unowned (h : Uncached ownerId taskId s) : Unowned J ownerId taskId s :=
  ⟨h.no_row, fun value task hvalue => by simp [h.no_entry] at hvalue⟩

theorem Uncached.not_markerCached (h : Uncached ownerId taskId s) : ¬ MarkerCached ownerId taskId s := fun hm => by
  rw [MarkerCached, h.no_entry] at hm
  cases hm

/-- A Redis call without a fault, under its handler. -/
theorem attempt_served {Q : State → Except Exn (Option c.Val) → Prop} (hbound : c.bound = []) {v : c.Val}
    (hv : (s.serve pick c).1 = .ok v) (hQ : Q (s.serve pick c).2 (.ok (some v))) :
    (attemptRedis (perform c)).Yields (State.bindServe pick) Q s := by
  refine yields_attemptRedis (Prog.yields_perform.mpr ?_)
  rw [State.bindServe_of_free hbound, hv]
  exact hQ

/-- A lookup finds the marker, or nothing: an unreadable value it deletes. -/
theorem lookupTask_unowned {Q : State → Except Exn TaskCacheLookup → Prop} (h : Unowned J ownerId taskId s)
    (hmarker : MarkerCached ownerId taskId s → Q s (.ok ⟨true, none⟩))
    (hmiss : ¬ MarkerCached ownerId taskId s → ∀ s', Uncached ownerId taskId s' → Q s' (.ok ⟨false, none⟩)) :
    (TaskCache.lookupTask J ownerId.toInt taskId).Yields (State.bindServe pick) Q s := by
  refine Prog.yields_bind.mpr (Prog.yields_perform.mpr ?_)
  rw [State.bindServe_of_free rfl]
  cases hget : s.redis.get s.now (TaskCache.buildKey ownerId.toInt taskId) with
  | none =>
    have huncached : Uncached ownerId taskId s := ⟨h.no_row, hget⟩
    have hQ := hmiss huncached.not_markerCached s huncached
    simpa [State.serve, hget] using hQ
  | some value =>
    have hserve : s.serve pick (.redisGet (TaskCache.buildKey ownerId.toInt taskId)) = (.ok (some value), s) := by
      rw [State.serve, hget]
    rw [hserve]
    by_cases hm : value = taskNotFoundCacheMarker
    · subst hm
      have hQ := hmarker hget
      simpa using hQ
    · have hread : J.modelValidateJson value = none := Option.eq_none_iff_forall_not_mem.mpr fun task htask =>
        h.not_cached value task hget (by simp [TaskJson.read, hm, Option.mem_def.mp htask])
      simp only [Prog.ends_ok, hm, if_false, hread]
      refine Prog.yields_bind.mpr (Prog.yields_perform.mpr ?_)
      rw [State.bindServe_of_free rfl]
      refine hmiss (fun hmarked => ?_) _ ⟨h.no_row, Redis.get_delete ..⟩
      rw [MarkerCached, hget] at hmarked
      exact hm (Option.some.inj hmarked)

/-- The load raises whatever the query ends in, and caches a 404 on the way. -/
theorem load_unowned (h : s.db.findOwnedTask taskId ownerId.toInt = none) :
    (loadOwnedTaskFromDatabase J (getTaskCache settings) ownerId.toInt taskId).Yields (State.bindServe pick)
      (fun _ r => r = .error (notFoundOrOverflow taskId)) s := by
  refine Prog.yields_bind.mpr (Prog.yields_perform.mpr ?_)
  rw [State.bindServe_findOwnedTask, h, notFoundOrOverflow]
  split_ifs
  · rw [Prog.ends_ok]
    refine Prog.yields_bind.mpr (attempt_served (c := Call.redisSet _ _ _) rfl rfl ?_)
    rfl
  · rfl

theorem wait_unowned (n : ℕ) (delaySeconds : ℚ) : ∀ {s}, Uncached ownerId taskId s →
    (waitForTaskCacheFill.loop J ownerId.toInt taskId delaySeconds n).Yields (State.bindServe pick)
      (fun s' r => Uncached ownerId taskId s' ∧ r = .ok ⟨false, none⟩) s := by
  induction n with
  | zero => exact fun h => ⟨h, rfl⟩
  | succ n ih =>
    intro s h
    refine Prog.yields_bind.mpr (Prog.yields_perform.mpr ?_)
    rw [State.bindServe_of_free rfl]
    change Prog.ends _ _ s (.ok ())
    rw [Prog.ends_ok]
    refine Prog.yields_bind.mpr (lookupTask_unowned h.unowned (fun hm => absurd hm h.not_markerCached) ?_)
    exact fun _ s' hs' => ih hs'

theorem waitForOtherFill_unowned (h : Uncached ownerId taskId s) :
    (waitForOtherFill J settings ownerId.toInt taskId).Yields (State.bindServe pick)
      (fun _ r => r = .error (notFoundOrOverflow taskId)) s := by
  have hattempts : ¬ settings.taskCacheLockWaitAttempts < 1 := not_lt.mpr settings.one_le_waitAttempts
  have hseconds : ¬ settings.taskCacheLockWaitSeconds < 0 := not_lt.mpr settings.waitSeconds_pos.le
  unfold waitForOtherFill waitForTaskCacheFill
  rw [if_neg hattempts, if_neg hseconds]
  refine Prog.yields_bind.mpr (yields_attemptRedis ((wait_unowned _ _ h).mono fun s' r hr => ?_))
  obtain ⟨hs', rfl⟩ := hr
  exact load_unowned hs'.no_row

theorem fillUnderLock_unowned (lockToken : String) (h : Uncached ownerId taskId s) :
    (fillUnderLock J settings ownerId.toInt taskId (buildTaskCacheLockKey ownerId.toInt taskId) lockToken).Yields
      (State.bindServe pick) (fun _ r => r = .error (notFoundOrOverflow taskId)) s := by
  refine Prog.yields_tryFinally.mpr ?_
  refine Prog.Yields.mono (Q := fun _ r => r = .error (notFoundOrOverflow taskId)) ?_ fun s' r hr => ?_
  · refine Prog.yields_bind.mpr (lookupTask_unowned h.unowned (fun hm => absurd hm h.not_markerCached) ?_)
    exact fun _ s' hs' => load_unowned hs'.no_row
  · refine Prog.yields_bind.mpr (yields_attemptRedis (Prog.yields_bind.mpr (Prog.yields_perform.mpr ?_)))
    rw [State.bindServe_of_free rfl]
    exact hr

/-- Taking the lock leaves the cache entry alone. -/
theorem acquire_unowned {Q : State → Except Exn (Option (Option String)) → Prop} (h : Uncached ownerId taskId s)
    (hQ : ∀ s' lockToken, Uncached ownerId taskId s' → Q s' (.ok (some lockToken))) :
    (attemptRedis ((getTaskCacheLock settings).acquire (buildTaskCacheLockKey ownerId.toInt taskId))).Yields
      (State.bindServe pick) Q s := by
  refine yields_attemptRedis (Prog.yields_bind.mpr (Prog.yields_perform.mpr ?_))
  rw [State.bindServe_of_free rfl]
  change Prog.ends _ _ s (.ok pick.uuid4)
  rw [Prog.ends_ok]
  refine Prog.yields_bind.mpr (Prog.yields_perform.mpr ?_)
  rw [State.bindServe_of_free rfl]
  have huncached : Uncached ownerId taskId (s.serve pick (.redisSetNx (buildTaskCacheLockKey ownerId.toInt taskId)
      pick.uuid4 (getTaskCacheLock settings).ttlSeconds)).2 := by
    refine ⟨h.no_row, ?_⟩
    rw [← h.no_entry]
    exact Redis.get_congr (Redis.setNx_ne _ _ _ _ (buildKey_ne_lockKey _ _ _ _))
  change Prog.ends _ _ _ (.ok (s.redis.setNx s.now _ _ _).1)
  rw [Prog.ends_ok]
  split_ifs
  · exact hQ _ _ huncached
  · exact hQ _ _ huncached

/-- `GET`: the marker answers at once; else it comes to the query. -/
theorem get_unowned (h : Unowned J ownerId taskId s) :
    ((getCachedOwnedTaskOr404 J settings ownerId.toInt taskId).run (State.bindServe pick) s).1 =
      .error (if MarkerCached ownerId taskId s then taskNotFound else notFoundOrOverflow taskId) := by
  show (getCachedOwnedTaskOr404 J settings ownerId.toInt taskId).Yields (State.bindServe pick)
    (fun _ r => r = .error (if MarkerCached ownerId taskId s then taskNotFound else notFoundOrOverflow taskId)) s
  refine Prog.yields_bind.mpr (yields_attemptRedis (lookupTask_unowned h (fun hmarked => ?_) fun hnot s' hs' => ?_))
  · rw [if_pos hmarked]
    rfl
  · rw [if_neg hnot]
    simp only [Prog.ends_ok, Bool.false_eq_true, if_false]
    refine Prog.yields_bind.mpr (acquire_unowned hs' fun s'' lockToken hs'' => ?_)
    rw [Prog.ends_ok]
    cases lockToken with
    | none => exact waitForOtherFill_unowned hs''
    | some lockToken => exact fillUnderLock_unowned lockToken hs''

/-- `PATCH` and `DELETE` look the row up first. -/
theorem getOwnedTaskOr404_unowned (h : s.db.findOwnedTask taskId ownerId.toInt = none) :
    ((getOwnedTaskOr404 taskId ownerId.toInt).run (State.bindServe pick) s).1 =
      .error (notFoundOrOverflow taskId) := by
  show (getOwnedTaskOr404 taskId ownerId.toInt).Yields (State.bindServe pick)
    (fun _ r => r = .error (notFoundOrOverflow taskId)) s
  refine Prog.yields_bind.mpr (Prog.yields_perform.mpr ?_)
  rw [State.bindServe_findOwnedTask, h, notFoundOrOverflow]
  split_ifs <;> rfl

/-! ### What the database is asked -/

/-- A `GET` binds nothing but its two ids. -/
theorem get_makes : (getCachedOwnedTaskOr404 J settings ownerId.toInt taskId).Makes fun c : Call =>
    ∀ n ∈ c.bound, n = taskId ∨ n = ownerId.toInt := by
  have hfree : ∀ {c : Call}, c.bound = [] → ∀ n ∈ c.bound, n = taskId ∨ n = ownerId.toInt := fun hc n hn => by
    rw [hc] at hn
    cases hn
  have hC : HasCacheCalls fun c : Call => ∀ n ∈ c.bound, n = taskId ∨ n = ownerId.toInt :=
    ⟨fun _ => hfree rfl, fun _ _ _ => hfree rfl, fun _ => hfree rfl, fun _ _ => hfree rfl, fun _ => hfree rfl⟩
  have hfind : ∀ n ∈ (Call.findOwnedTask taskId ownerId.toInt).bound, n = taskId ∨ n = ownerId.toInt := by
    simp [Call.bound]
  have hload := loadOwnedTaskFromDatabase_makes J ownerId.toInt taskId hC (getTaskCache settings) hfind
  have hlookup := lookupTask_makes J ownerId.toInt taskId hC
  have hfill : ∀ lockKey lockToken, (fillUnderLock J settings ownerId.toInt taskId lockKey lockToken).Makes
      fun c : Call => ∀ n ∈ c.bound, n = taskId ∨ n = ownerId.toInt := fun lockKey lockToken => by
    refine Prog.Makes.tryFinally ?_ (Prog.Makes.bind (fun secondLookup => ?_) hlookup)
    · refine Prog.Makes.bind (fun _ => Prog.makes_ret ()) (makes_attemptRedis ?_)
      exact Prog.Makes.bind (fun deletedCount => Prog.makes_ret _) (Prog.makes_perform (hfree rfl))
    · split_ifs
      · exact resolveCachedTask_makes _
      · exact hload
  refine Prog.Makes.bind (fun initialLookup => ?_) (makes_attemptRedis hlookup)
  cases initialLookup with
  | none => exact hload
  | some initialLookup =>
    dsimp only
    split_ifs
    · exact resolveCachedTask_makes _
    · refine Prog.Makes.bind (fun lockToken => ?_) (makes_attemptRedis ?_)
      · rcases lockToken with _ | _ | lockToken
        · exact hload
        · exact waitForOtherFill_makes J ownerId.toInt taskId hC settings hfind
        · exact hfill _ lockToken
      · refine Prog.Makes.bind (fun lockToken => ?_) (Prog.makes_perform (hfree rfl))
        refine Prog.Makes.bind (fun acquired => ?_) (Prog.makes_perform (hfree rfl))
        split_ifs <;> exact trivial

theorem getOwnedTaskOr404_makes : (getOwnedTaskOr404 taskId ownerId.toInt).Makes fun c : Call =>
    ∀ n ∈ c.bound, n = taskId ∨ n = ownerId.toInt := by
  refine Prog.Makes.bind (fun taskRecord => ?_) (Prog.makes_perform (by simp [Call.bound]))
  cases taskRecord <;> exact trivial

/-! ### The requests -/

/-- The requests with the task's id in their path. -/
def Request.IsFor (userId taskId : ℤ) (r : Request) : Prop :=
  r = .get userId taskId ∨ (∃ body, r = .patch userId taskId body) ∨ r = .delete userId taskId

/-- The request ends in 404, and asks the database nothing it rejects. -/
def NotFound (J : TaskJson) (settings : Settings) (pick : Pick) (r : Request) (s : State) : Prop :=
  ((r.body J settings).run (State.bindServe pick) s).1 = .error taskNotFound ∧
    ∀ x ∈ (r.body J settings).log (State.bindServe pick) s, ∀ n ∈ x.1.bound, Binds n

/-- How each of the requests ends. -/
theorem run_unowned {r : Request} (hr : r.IsFor ownerId.toInt taskId) (h : Unowned J ownerId taskId s) :
    ((r.body J settings).run (State.bindServe pick) s).1 =
      .error (if r = .get ownerId.toInt taskId ∧ MarkerCached ownerId taskId s then taskNotFound
        else notFoundOrOverflow taskId) := by
  rcases hr with rfl | ⟨body, rfl⟩ | rfl
  · simp only [true_and]
    exact Prog.run_bind_error (get_unowned h)
  · simp only [reduceCtorEq, false_and, if_false]
    exact Prog.run_bind_error (Prog.run_bind_error (getOwnedTaskOr404_unowned h.no_row))
  · simp only [reduceCtorEq, false_and, if_false]
    exact Prog.run_bind_error (Prog.run_bind_error (getOwnedTaskOr404_unowned h.no_row))

/-- They bind the ids of their task and their user only. -/
theorem log_unowned {r : Request} (hr : r.IsFor ownerId.toInt taskId) (h : Unowned J ownerId taskId s) :
    ∀ x ∈ (r.body J settings).log (State.bindServe pick) s, ∀ n ∈ x.1.bound, n = taskId ∨ n = ownerId.toInt := by
  have hraised : ((getOwnedTaskOr404 taskId ownerId.toInt).run (State.bindServe pick) s).1 =
      .error (notFoundOrOverflow taskId) := getOwnedTaskOr404_unowned h.no_row
  rcases hr with rfl | ⟨body, rfl⟩ | rfl
  · exact (Prog.Makes.bind (fun task => Prog.makes_ret (some task)) get_makes).log _
  · have hupdate : ((updateTask ownerId.toInt taskId body).run (State.bindServe pick) s).1 =
        .error (notFoundOrOverflow taskId) := Prog.run_bind_error hraised
    show ∀ x ∈ Prog.log _ (updateTask ownerId.toInt taskId body >>= _) s, _
    rw [Prog.log_bind_error hupdate, updateTask, Prog.log_bind_error hraised]
    exact getOwnedTaskOr404_makes.log _
  · have hdelete : ((deleteTask ownerId.toInt taskId).run (State.bindServe pick) s).1 =
        .error (notFoundOrOverflow taskId) := Prog.run_bind_error hraised
    show ∀ x ∈ Prog.log _ (deleteTask ownerId.toInt taskId >>= _) s, _
    rw [Prog.log_bind_error hdelete, deleteTask, Prog.log_bind_error hraised]
    exact getOwnedTaskOr404_makes.log _

/-- One of the requests gets its 404 exactly when the id can be bound; a `GET` also
when the cache already has the 404. -/
theorem notFound_iff {r : Request} (hr : r.IsFor ownerId.toInt taskId) (h : Unowned J ownerId taskId s) :
    ((r.body J settings).run (State.bindServe pick) s).1 = .error taskNotFound ↔
      Binds taskId ∨ (r = .get ownerId.toInt taskId ∧ MarkerCached ownerId taskId s) := by
  rw [run_unowned hr h, notFoundOrOverflow]
  by_cases hcached : r = .get ownerId.toInt taskId ∧ MarkerCached ownerId taskId s
  · simp [hcached]
  · by_cases hbinds : Binds taskId
    · simp [hcached, hbinds]
    · simp [hcached, hbinds, taskNotFound]

/-- All of them are answered, and ask nothing the database rejects, exactly when the id
can be bound. -/
theorem all_notFound_iff (h : Unowned J ownerId taskId s) :
    (∀ r : Request, r.IsFor ownerId.toInt taskId → NotFound J settings pick r s) ↔ Binds taskId := by
  constructor
  · intro hall
    have hdelete : (Request.delete ownerId.toInt taskId).IsFor ownerId.toInt taskId := .inr (.inr rfl)
    rcases (notFound_iff hdelete h).mp (hall _ hdelete).1 with hbinds | ⟨hget, -⟩
    · exact hbinds
    · cases hget
  · intro hbinds r hr
    refine ⟨(notFound_iff hr h).mpr (.inl hbinds), fun x hx n hn => ?_⟩
    rcases log_unowned hr h x hx n hn with rfl | rfl
    · exact hbinds
    · exact binds_toInt ownerId

end

/-! ### The list -/

/-- `get_tasks` through the driver, which binds the owner's id, `LIMIT` and `OFFSET`. -/
def listTasks (userId : Int64) (pagination : Pagination) (s : State) : Except Exn (List TaskResponse) × State :=
  if ∀ n ∈ [userId.toInt, pagination.limit, (pagination.skip : ℤ)], Binds n then getTasks userId.toInt pagination s
  else (.error .overflowError, s)

/-- The rows of a page can always be answered. -/
theorem getTasks_page (userId : ℤ) (pagination : Pagination) (s : State) :
    ∃ tasks, (getTasks userId pagination s).1 = .ok tasks ∧
      (s.db.selectOwnedTasks userId pagination).map TaskResponse.modelValidate = tasks.map some := by
  have hall : ∀ rows : List TaskRecord, (∀ row ∈ rows, row ∈ s.db.rows) → ∃ tasks : List TaskResponse,
      rows.mapM TaskResponse.modelValidate = some tasks ∧ rows.map TaskResponse.modelValidate = tasks.map some := by
    intro rows
    induction rows with
    | nil => exact fun _ => ⟨[], rfl, rfl⟩
    | cons row rows ih =>
      intro hrows
      obtain ⟨tasks, hmapM, hmap⟩ := ih fun r hr => hrows r (List.mem_cons_of_mem _ hr)
      have hreadable := s.db.readable row (hrows row List.mem_cons_self)
      have hrow := TaskResponse.modelValidate_of_readable hreadable
      exact ⟨row.response hreadable :: tasks, by simp [hrow, hmapM], by simp [hrow, hmap]⟩
  obtain ⟨tasks, hmapM, hmap⟩ := hall (s.db.selectOwnedTasks userId pagination)
    fun row hrow => (TaskTable.mem_selectOwnedTasks hrow).1
  refine ⟨tasks, ?_, hmap⟩
  unfold getTasks
  simp only [hmapM]

/-- A list is answered with its page exactly when `skip` can be bound. -/
theorem listTasks_iff (userId : Int64) (pagination : Pagination) (s : State) :
    (∃ tasks, (listTasks userId pagination s).1 = .ok tasks ∧
      (s.db.selectOwnedTasks userId.toInt pagination).map TaskResponse.modelValidate = tasks.map some) ↔
      Binds pagination.skip := by
  have hlimit : Binds pagination.limit := by
    have h := pagination.limit_le
    unfold Binds
    omega
  have hbound : (∀ n ∈ [userId.toInt, pagination.limit, (pagination.skip : ℤ)], Binds n) ↔ Binds pagination.skip := by
    simp [binds_toInt, hlimit]
  unfold listTasks
  by_cases hskip : Binds pagination.skip
  · rw [if_pos (hbound.mpr hskip)]
    exact iff_of_true (getTasks_page userId.toInt pagination s) hskip
  · rw [if_neg (hbound.not.mpr hskip)]
    refine iff_of_false ?_ hskip
    rintro ⟨tasks, htasks, -⟩
    cases htasks

/-! ### Every integer -/

/-- Exactly when the id and `skip` can be bound, a task the user does not have is
answered with 404 by `GET`, `PATCH` and `DELETE`, the list with its page, and the
database rejects nothing it is asked. -/
theorem answered_iff_binds (J : TaskJson) (settings : Settings) (pick : Pick) (userId : Int64) (taskId : ℤ)
    (pagination : Pagination) (s : State) (h : Unowned J userId taskId s) :
    ((∀ r : Request, r.IsFor userId.toInt taskId → NotFound J settings pick r s) ∧
      ∃ tasks, (listTasks userId pagination s).1 = .ok tasks ∧
        (s.db.selectOwnedTasks userId.toInt pagination).map TaskResponse.modelValidate = tasks.map some) ↔
      Binds taskId ∧ Binds pagination.skip :=
  and_congr (all_notFound_iff h) (listTasks_iff userId pagination s)

theorem unowned_new (J : TaskJson) (userId : Int64) (taskId : ℤ) : Unowned J userId taskId .new :=
  ⟨rfl, fun value task hvalue => by cases hvalue⟩

/-- On a new database with the largest number a page can be counted to. -/
theorem answered_iff_binds_new :
    ((∀ r : Request, r.IsFor (Int64.toInt 1) (2 ^ 63 - 1) → NotFound exampleJson .defaults .first r .new) ∧
      ∃ tasks, (listTasks 1 {} .new).1 = .ok tasks ∧
        (State.new.db.selectOwnedTasks (Int64.toInt 1) {}).map TaskResponse.modelValidate = tasks.map some) ↔
      Binds (2 ^ 63 - 1) ∧ Binds (Pagination.skip {}) :=
  answered_iff_binds exampleJson .defaults .first 1 (2 ^ 63 - 1) {} .new (unowned_new _ _ _)

/-- The first number past the range ends in neither. -/
theorem overflow_not_answered :
    (¬ ∀ (J : TaskJson) (settings : Settings) (pick : Pick) (userId : Int64) (taskId : ℤ) (s : State),
      Unowned J userId taskId s → ∀ r : Request, r.IsFor userId.toInt taskId → NotFound J settings pick r s) ∧
    ¬ ∀ (userId : Int64) (pagination : Pagination) (s : State), ∃ tasks,
      (listTasks userId pagination s).1 = .ok tasks ∧
      (s.db.selectOwnedTasks userId.toInt pagination).map TaskResponse.modelValidate = tasks.map some := by
  have hout : ¬ Binds (2 ^ 63) := by decide
  refine ⟨fun h => ?_, fun h => ?_⟩
  · have hall := h exampleJson .defaults .first 1 (2 ^ 63) .new (unowned_new _ _ _)
    exact hout ((all_notFound_iff (unowned_new _ _ _)).mp hall)
  · have hpage := h 1 { skip := 2 ^ 63 } .new
    exact hout ((listTasks_iff _ _ _).mp hpage)

end TaskApi
