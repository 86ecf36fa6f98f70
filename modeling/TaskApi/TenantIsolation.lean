/-
# One user's requests leave the other users alone

What the routes of `routers/tasks.py` touch, run one request after another from
any database and any Redis, whatever Redis calls fail: the rows of the user who
makes the request, and the cache and lock keys of that user. The four stores that
share one Redis (task cache, cache lock, login limiter, ticket store) never build
the same key, though two of them copy text from the client into it.

Key definitions: `StoreKey.build`, `OwnKey`, `ownerProtocol`, `getTasks`, `Owned`.
Key theorems: `StoreKey.build_inj`, `body_follows_owner`, `step_owned`,
`step_frame`, `tenant_isolation`.
-/
import TaskApi.LoginRateLimit
import TaskApi.TaskProtocol
import TaskApi.WebSocketTickets

namespace TaskApi

open Conc

/-! ### Keys -/

/-- What the stores keep a value for. -/
inductive StoreKey where
  | task (ownerId taskId : ℤ)
  | taskLock (ownerId taskId : ℤ)
  | loginRate (clientHost : String)
  | ticket (value : String)
deriving DecidableEq

namespace StoreKey

/-- The key of `TaskCache`, the cache lock, the login limiter and the ticket store. -/
def build (login : LoginSettings) : StoreKey → String
  | .task ownerId taskId => TaskCache.buildKey ownerId taskId
  | .taskLock ownerId taskId => buildTaskCacheLockKey ownerId taskId
  | .loginRate clientHost => (getLoginRateLimiter login).redisKey clientHost
  | .ticket value => WebSocketTicketStore.buildKey value

/-- The user whose requests use the key. -/
def owner : StoreKey → Option ℤ
  | .task ownerId _ | .taskLock ownerId _ => some ownerId
  | _ => none

/-- The first letter of a key tells its store. -/
def letter : StoreKey → Char
  | .task .. => 't'
  | .taskLock .. => 'l'
  | .loginRate _ => 'r'
  | .ticket _ => 'w'

theorem build_head (login : LoginSettings) (k : StoreKey) : (k.build login).toList.head? = some k.letter := by
  cases k with
  | task o i =>
    rw [build, TaskCache.buildKey_toList]
    rfl
  | taskLock o i =>
    rw [build, lockKey_toList]
    rfl
  | loginRate clientHost =>
    show ("rate_limit:login" ++ ":" ++ clientHost).toList.head? = some 'r'
    simp
  | ticket value =>
    show ("websocket-ticket:" ++ value).toList.head? = some 'w'
    simp

theorem lockKey_inj {o i o' i' : ℤ} (h : buildTaskCacheLockKey o i = buildTaskCacheLockKey o' i') :
    o = o' ∧ i = i' := by
  have h := congrArg String.toList h
  simp only [lockKey_toList, List.cons.injEq, true_and] at h
  exact joined_inj h

/-- No two stores build the same key, and no store builds it for two arguments. -/
theorem build_inj (login : LoginSettings) : (build login).Injective := fun k k' h => by
  have hletter : k.letter = k'.letter := by
    have hhead := build_head login k
    rw [h, build_head] at hhead
    exact (Option.some.inj hhead).symm
  cases k with
  | task o i =>
    cases k' with
    | task o' i' =>
      obtain ⟨rfl, rfl⟩ := TaskCache.buildKey_inj.mp h
      rfl
    | _ => simp [letter] at hletter
  | taskLock o i =>
    cases k' with
    | taskLock o' i' =>
      obtain ⟨rfl, rfl⟩ := lockKey_inj h
      rfl
    | _ => simp [letter] at hletter
  | loginRate clientHost =>
    cases k' with
    | loginRate clientHost' => rw [RedisFixedWindowRateLimiter.redisKey_inj.mp h]
    | _ => simp [letter] at hletter
  | ticket value =>
    cases k' with
    | ticket value' => rw [WebSocketTicketStore.buildKey_inj.mp h]
    | _ => simp [letter] at hletter

end StoreKey

/-- A key that a request of the user may touch. -/
def OwnKey (userId : ℤ) (key : String) : Prop :=
  ∃ taskId, key = TaskCache.buildKey userId taskId ∨ key = buildTaskCacheLockKey userId taskId

/-- The keys a user's requests touch are no other user's, and no other store's. -/
theorem StoreKey.not_ownKey {login : LoginSettings} {k : StoreKey} {userId : ℤ} (h : k.owner ≠ some userId) :
    ¬ OwnKey userId (k.build login) := by
  rintro ⟨taskId, hkey | hkey⟩
  · have hk := @StoreKey.build_inj login k (.task userId taskId) hkey
    exact h (hk ▸ rfl)
  · have hk := @StoreKey.build_inj login k (.taskLock userId taskId) hkey
    exact h (hk ▸ rfl)

/-! ### Listing -/

/-- What `get_pagination` accepts. -/
structure Pagination where
  skip : ℕ := 0
  limit : ℕ := 20
  one_le_limit : 1 ≤ limit := by decide
  limit_le : limit ≤ 100 := by decide

/-- The statement of `get_tasks`. -/
def TaskTable.selectOwnedTasks (db : TaskTable) (ownerId : ℤ) (pagination : Pagination) : List TaskRecord :=
  (((db.rows.filter fun r => r.ownerId = ownerId).mergeSort fun r r' => r.id ≤ r'.id).drop pagination.skip).take
    pagination.limit

/-- `get_tasks` -/
def getTasks (userId : ℤ) (pagination : Pagination) (s : State) : Except Exn (List TaskResponse) × State :=
  let taskRecords := s.db.selectOwnedTasks userId pagination
  match taskRecords.mapM TaskResponse.modelValidate with
  | none => (.error .validationError, s)
  | some tasks => (.ok tasks, s)

theorem TaskTable.mem_selectOwnedTasks {db : TaskTable} {ownerId : ℤ} {pagination : Pagination} {row : TaskRecord}
    (h : row ∈ db.selectOwnedTasks ownerId pagination) : row ∈ db.rows ∧ row.ownerId = ownerId := by
  have hmem := List.mem_mergeSort.mp (List.mem_of_mem_drop (List.mem_of_mem_take h))
  simpa using hmem

/-- A list of responses was read from rows, and all of them could be. -/
theorem exists_of_mem_mapM {tasks : List TaskResponse} {task : TaskResponse} (htask : task ∈ tasks) :
    ∀ {rows : List TaskRecord}, rows.mapM TaskResponse.modelValidate = some tasks →
      ∃ row ∈ rows, TaskResponse.modelValidate row = some task := by
  intro rows
  induction rows generalizing tasks with
  | nil =>
    intro h
    cases h
    cases htask
  | cons row rows ih =>
    intro h
    rw [List.mapM_cons] at h
    obtain ⟨first, hfirst, h⟩ := Option.bind_eq_some_iff.mp h
    obtain ⟨rest, hrest, h⟩ := Option.bind_eq_some_iff.mp h
    cases h
    rcases List.mem_cons.mp htask with rfl | htask
    · exact ⟨row, List.mem_cons_self, hfirst⟩
    · obtain ⟨row', hmem, hrow'⟩ := ih htask hrest
      exact ⟨row', List.mem_cons_of_mem _ hmem, hrow'⟩

/-- A list changes nothing and answers with rows of the user. -/
theorem getTasks_owned (userId : ℤ) (pagination : Pagination) (s : State) :
    (getTasks userId pagination s).2 = s ∧
      ∀ tasks, (getTasks userId pagination s).1 = .ok tasks → ∀ task ∈ tasks,
        ∃ row ∈ s.db.rows, row.ownerId = userId ∧ TaskResponse.modelValidate row = some task := by
  unfold getTasks
  cases htasks : (s.db.selectOwnedTasks userId pagination).mapM TaskResponse.modelValidate with
  | none =>
    simp only [htasks]
    exact ⟨trivial, fun tasks h => nomatch h⟩
  | some tasks =>
    simp only [htasks]
    refine ⟨trivial, fun tasks' h task htask => ?_⟩
    cases h
    obtain ⟨row, hmem, hrow⟩ := exists_of_mem_mapM htask htasks
    obtain ⟨hmem, howner⟩ := TaskTable.mem_selectOwnedTasks hmem
    exact ⟨row, hmem, howner, hrow⟩

/-! ### The row a request works on -/

/-- The id of the row a request has found or added. -/
abbrev ownerAutomaton : Automaton calls where
  Phase := Option ℤ
  init := none
  next
    | _, .findOwnedTask taskId _, .ok (some _) => some taskId
    | _, .commitInsert .., .ok id => some id
    | q, _, _ => q

/-- A request touches keys of its user only, looks for rows of its user only, and
writes and reads back no row but the one it found or added. -/
abbrev ownerProtocol (r : Request) : Protocol calls where
  toAutomaton := ownerAutomaton
  allows
    | _, .redisGet key | _, .redisSet key _ _ | _, .redisSetNx key _ _ | _, .redisDelete key
    | _, .redisEvalReleaseLock key _ => OwnKey r.userId key
    | _, .findOwnedTask _ ownerId | _, .commitInsert _ ownerId => ownerId = r.userId
    | q, .commitUpdate id _ | q, .commitDelete id | q, .refresh id => q = some id
    | _, _ => True

section

variable {J : TaskJson} {settings : Settings} {fails : Call → Prop} {r : Request} {userId taskId : ℤ}

theorem invalidateCachedTask_follows_owner {q : Option ℤ} {Q : Option ℤ → Except Exn Unit → Prop}
    (h : OwnKey r.userId (TaskCache.buildKey userId taskId)) (hq : Q q (.ok ())) :
    (invalidateCachedTask userId taskId).Follows (ownerProtocol r) (Can fails) Q q := by
  refine Prog.follows_bind.mpr (follows_attemptRedis (Prog.follows_perform.mpr ⟨h, fun v ⟨s, s', hs⟩ => ?_⟩))
  rcases v with e | _
  · obtain rfl := step_redis_error rfl hs
    exact hq
  · exact hq

theorem createTask_follows_owner {body : TaskCreate} :
    (createTask userId body).Follows (ownerProtocol (.create userId body)) (Can fails) (fun _ _ => True) none := by
  unfold createTask
  refine Prog.follows_bind.mpr (Prog.follows_perform.mpr ⟨rfl, fun v ⟨s, s', hs⟩ => ?_⟩)
  obtain ⟨id, -, rfl, -⟩ := step_commitInsert hs
  refine Prog.follows_bind.mpr (Prog.follows_perform.mpr ⟨rfl, fun v ⟨s, s', hs⟩ => ?_⟩)
  obtain ⟨-, ⟨rfl, -⟩ | ⟨row, rfl, -⟩⟩ := step_refresh hs
  · trivial
  · exact Prog.follows_bind.mpr (invalidateCachedTask_follows_owner ⟨_, .inl rfl⟩
      (validateTask_follows fun _ => trivial))

/-- The row a write looks up first is the one it works on. -/
theorem getOwnedTaskOr404_follows_owner {Q : Option ℤ → Except Exn TaskRecord → Prop} (h : userId = r.userId)
    (hnone : Q none (.error taskNotFound)) (hsome : ∀ row, row.id = taskId → row.ownerId = userId →
      Q (some taskId) (.ok row)) :
    (getOwnedTaskOr404 taskId userId).Follows (ownerProtocol r) (Can fails) Q none := by
  unfold getOwnedTaskOr404
  refine Prog.follows_bind.mpr (Prog.follows_perform.mpr ⟨h, fun v ⟨s, s', hs⟩ => ?_⟩)
  obtain rfl := step_findOwnedTask hs
  cases hx : s.db.findOwnedTask taskId userId with
  | none => exact hnone
  | some row =>
    obtain ⟨hid, howner, -⟩ := TaskTable.findOwnedTask_some hx
    exact hsome row hid howner

theorem updateTask_follows_owner {body : TaskUpdate} :
    (updateTask userId taskId body).Follows (ownerProtocol (.patch userId taskId body)) (Can fails)
      (fun _ _ => True) none := by
  unfold updateTask
  refine Prog.follows_bind.mpr (getOwnedTaskOr404_follows_owner rfl trivial ?_)
  rintro row rfl rfl
  refine Prog.follows_bind.mpr (Prog.follows_perform.mpr ⟨rfl, fun v ⟨s, s', hs⟩ => ?_⟩)
  rcases v with e | _
  · trivial
  · refine Prog.follows_bind.mpr (invalidateCachedTask_follows_owner ⟨_, .inl rfl⟩ ?_)
    refine Prog.follows_bind.mpr (Prog.follows_perform.mpr ⟨rfl, fun v _ => ?_⟩)
    rcases v with e | row'
    · trivial
    · exact validateTask_follows fun _ => trivial

theorem deleteTask_follows_owner :
    (deleteTask userId taskId).Follows (ownerProtocol (.delete userId taskId)) (Can fails)
      (fun _ _ => True) none := by
  unfold deleteTask
  refine Prog.follows_bind.mpr (getOwnedTaskOr404_follows_owner rfl trivial ?_)
  rintro row rfl rfl
  refine Prog.follows_bind.mpr (Prog.follows_perform.mpr ⟨rfl, fun v ⟨s, s', hs⟩ => ?_⟩)
  rcases v with e | _
  · trivial
  · exact invalidateCachedTask_follows_owner ⟨_, .inl rfl⟩ trivial

/-- A `GET` commits and refreshes nothing. -/
theorem getCachedOwnedTaskOr404_follows_owner :
    (getCachedOwnedTaskOr404 J settings userId taskId).Follows (ownerProtocol (.get userId taskId)) (Can fails)
      (fun _ _ => True) none := by
  suffices hcalls : ∀ q c, (taskProtocol J settings (.get userId taskId)).allows q c →
      ∀ q', (ownerProtocol (.get userId taskId)).allows q' c from
    getCachedOwnedTaskOr404_follows.weaken hcalls _
  intro q c hc q'
  cases c with
  | redisGet key => exact ⟨taskId, .inl hc.1⟩
  | redisSet key value ex => exact ⟨taskId, .inl hc.1⟩
  | redisSetNx key value ex => exact ⟨taskId, .inr hc.1⟩
  | redisDelete key => exact ⟨taskId, .inl hc.1⟩
  | redisEvalReleaseLock key token => exact ⟨taskId, .inr hc.1⟩
  | findOwnedTask taskId' ownerId => exact hc.2.1
  | commitInsert body ownerId => exact hc.elim
  | commitUpdate id changes => exact hc.elim
  | commitDelete id => exact hc.elim
  | refresh id => exact hc.elim
  | _ => trivial

/-- Every request touches only what is its user's. -/
theorem body_follows_owner (J : TaskJson) (settings : Settings) (fails : Call → Prop) : ∀ r : Request,
    (r.body J settings).Follows (ownerProtocol r) (Can fails) (fun _ _ => True) none
  | .create userId body => Prog.follows_bind.mpr (createTask_follows_owner.mono fun q r _ => by
      cases r <;> trivial)
  | .get userId taskId => Prog.follows_bind.mpr (getCachedOwnedTaskOr404_follows_owner.mono fun q r _ => by
      cases r <;> trivial)
  | .patch userId taskId body => Prog.follows_bind.mpr (updateTask_follows_owner.mono fun q r _ => by
      cases r <;> trivial)
  | .delete userId taskId => Prog.follows_bind.mpr (deleteTask_follows_owner.mono fun q r _ => by
      cases r <;> trivial)

end

/-- The discipline of ownership. -/
def ownerDiscipline (J : TaskJson) (settings : Settings) (fails : Call → Prop) (env : State → State → Prop) :
    Discipline (taskSystem J settings fails env) where
  protocol := ownerProtocol
  final _ _ _ := True
  follows := body_follows_owner J settings fails

/-! ### What a step changes -/

/-- The row a request works on is its user's, as long as it is there. -/
def Owned (userId : ℤ) (db : TaskTable) (q : Option ℤ) : Prop :=
  ∀ id, q = some id → ∀ row, db.get id = some row → row.ownerId = userId

/-- The rows of the other users, in their order. -/
def TaskTable.others (db : TaskTable) (userId : ℤ) : List TaskRecord := db.rows.filter fun r => r.ownerId ≠ userId

namespace TaskTable

variable {db : TaskTable} {userId : ℤ}

theorem get_of_mem {row : TaskRecord} (h : row ∈ db.rows) : db.get row.id = some row := by
  unfold get
  have hn := db.ids_nodup
  generalize db.rows = rows at h hn
  induction rows with
  | nil => cases h
  | cons r rows ih =>
    obtain ⟨hnot, hn⟩ := List.nodup_cons.mp hn
    rcases List.mem_cons.mp h with rfl | h
    · simp
    · have hne : r.id ≠ row.id := fun hr => hnot (List.mem_map.mpr ⟨row, h, hr.symm⟩)
      simp [hne, ih h hn]

theorem others_insert (body : TaskCreate) (id : ℤ) (h : db.get id = none) :
    (db.insert body userId id h).others userId = db.others userId := by
  simp [others, insert, TaskCreate.record]

/-- An update of the user's own row. -/
theorem others_update {id : ℤ} (u : TaskUpdate) (h : Owned userId db (some id)) :
    (db.update id u).others userId = db.others userId := by
  have hrow : ∀ r ∈ db.rows, r.id = id → r.ownerId = userId := fun r hr hid =>
    h id rfl r (hid ▸ get_of_mem hr)
  show (db.rows.map fun r => if r.id = id then r.assign u else r).filter (fun r => r.ownerId ≠ userId) =
    db.rows.filter fun r => r.ownerId ≠ userId
  generalize db.rows = rows at hrow
  induction rows with
  | nil => rfl
  | cons r rows ih =>
    have ih := ih fun r hr => hrow r (List.mem_cons_of_mem _ hr)
    by_cases hid : r.id = id
    · have howner := hrow r List.mem_cons_self hid
      simp only [List.map_cons, hid, if_true, ne_eq, howner, TaskRecord.assign_ownerId, not_true_eq_false,
        decide_false, Bool.false_eq_true, not_false_eq_true, List.filter_cons_of_neg]
      exact ih
    · by_cases howner : r.ownerId = userId
      · simp only [List.map_cons, if_neg hid, ne_eq, howner, not_true_eq_false, decide_false, Bool.false_eq_true,
          not_false_eq_true, List.filter_cons_of_neg]
        exact ih
      · simp only [List.map_cons, if_neg hid, ne_eq, howner, not_false_eq_true, decide_true, List.filter_cons_of_pos]
        exact congrArg _ ih

/-- A deletion of the user's own row. -/
theorem others_delete {id : ℤ} (h : Owned userId db (some id)) : (db.delete id).others userId = db.others userId := by
  unfold others delete
  rw [List.filter_filter]
  refine List.filter_congr fun r hr => ?_
  by_cases hid : r.id = id
  · simp [h id rfl r (hid ▸ get_of_mem hr)]
  · simp [hid]

end TaskTable

section

variable {fails : Call → Prop} {r : Request} {q : Option ℤ} {x : Call} {v : calls.Out x} {s s' : State}

theorem ownerAutomaton_next (h : ∀ i o, x ≠ .findOwnedTask i o) (h' : ∀ b o, x ≠ .commitInsert b o) :
    ownerAutomaton.next q x v = q := by
  cases x with
  | findOwnedTask i o => exact absurd rfl (h i o)
  | commitInsert b o => exact absurd rfl (h' b o)
  | _ => rfl

/-- The row a request works on stays its user's. -/
theorem step_owned (hs : step fails x s v s') (ha : (ownerProtocol r).allows q x) (h : Owned r.userId s.db q) :
    Owned r.userId s'.db (ownerAutomaton.next q x v) := by
  cases x with
  | findOwnedTask i o =>
    obtain rfl : o = r.userId := ha
    rw [step_db rfl hs]
    obtain rfl := step_findOwnedTask hs
    cases hx : s.db.findOwnedTask i r.userId with
    | none => exact h
    | some row =>
      obtain ⟨hget, howner⟩ := TaskTable.findOwnedTask_eq_some_iff.mp hx
      rintro id ⟨⟩ row' hrow'
      rw [hget] at hrow'
      exact Option.some.inj hrow' ▸ howner
  | commitInsert body o =>
    obtain rfl : o = r.userId := ha
    obtain ⟨id, hid, rfl, rfl⟩ := step_commitInsert hs
    rintro id' ⟨⟩ row hrow
    rw [TaskTable.get_insert, if_pos rfl] at hrow
    exact Option.some.inj hrow ▸ rfl
  | commitUpdate id u =>
    rcases step_commitUpdate hs with rfl | ⟨-, rfl⟩
    · exact h
    · intro id' hid' row hrow
      rw [ownerAutomaton_next (by simp) (by simp)] at hid'
      rw [TaskTable.get_update] at hrow
      split_ifs at hrow
      · obtain ⟨row', hrow', rfl⟩ := Option.map_eq_some_iff.mp hrow
        exact h id' hid' row' hrow'
      · exact h id' hid' row hrow
  | commitDelete id =>
    obtain ⟨-, rfl⟩ := step_commitDelete hs
    intro id' hid' row hrow
    rw [ownerAutomaton_next (by simp) (by simp)] at hid'
    rw [TaskTable.get_delete] at hrow
    split_ifs at hrow
    exact h id' hid' row hrow
  | _ =>
    rw [step_db rfl hs, ownerAutomaton_next (by simp) (by simp)]
    exact h

/-- A step of a request changes the rows and the keys of no other user. -/
theorem step_frame (hs : step fails x s v s') (ha : (ownerProtocol r).allows q x) (h : Owned r.userId s.db q) :
    s'.db.others r.userId = s.db.others r.userId ∧ ∀ key, ¬ OwnKey r.userId key → s'.redis key = s.redis key := by
  constructor
  · cases x with
    | commitInsert body o =>
      obtain rfl : o = r.userId := ha
      obtain ⟨id, hid, rfl, rfl⟩ := step_commitInsert hs
      exact TaskTable.others_insert body id hid
    | commitUpdate id u =>
      obtain rfl : q = some id := ha
      rcases step_commitUpdate hs with rfl | ⟨-, rfl⟩
      · rfl
      · exact TaskTable.others_update u h
    | commitDelete id =>
      obtain rfl : q = some id := ha
      obtain ⟨-, rfl⟩ := step_commitDelete hs
      exact TaskTable.others_delete h
    | _ => rw [step_db rfl hs]
  · intro key hkey
    refine step_redis (fun hwrites => hkey ?_) hs
    cases x <;> cases hwrites <;> exact ha

/-- The rows the database returns to a request are its user's. -/
theorem step_rows (hs : step fails x s v s') (ha : (ownerProtocol r).allows q x) (h : Owned r.userId s.db q)
    (row : TaskRecord) :
    (∀ i o, (⟨x, v⟩ : Σ c, calls.Out c) = ⟨.findOwnedTask i o, .ok (some row)⟩ → row.ownerId = r.userId) ∧
      ∀ id, (⟨x, v⟩ : Σ c, calls.Out c) = ⟨.refresh id, .ok row⟩ → row.ownerId = r.userId := by
  constructor
  · rintro i o ⟨⟩
    obtain rfl : o = r.userId := ha
    have hfound := step_findOwnedTask hs
    exact (TaskTable.findOwnedTask_some (Except.ok.inj hfound).symm).2.1
  · rintro id ⟨⟩
    obtain rfl : q = some id := ha
    obtain ⟨-, ⟨hv, -⟩ | ⟨row', hv, hrow⟩⟩ := step_refresh hs
    · cases hv
    · cases hv
      exact h id rfl row hrow

end

/-! ### Every run -/

section

variable {J : TaskJson} {settings : Settings} {fails : Call → Prop} {s₀ : State}
  {c : Config (taskSystem J settings fails Passes)}

/-- The row the running request works on is its user's. -/
theorem sequential_owned (h : Sequential (.init s₀) c) {t : ℕ} {r : Request}
    (ht : (starts c.trace).head? = some (t, r)) :
    Owned r.userId c.state.db (phase ownerAutomaton t c.trace) := by
  refine @Run.invariant _ _ _ _ (ownerDiscipline J settings fails Passes)
    (fun s tr => ∀ t r, (starts tr).head? = some (t, r) → Owned r.userId s.db (phase ownerAutomaton t tr))
    ?_ ?_ ?_ ?_ c h t r ht
  · intro t r ht
    cases ht
  · intro b hb _ t r hnew t' r' ht'
    cases ht'
    rw [phase_start, phase_eq_init _ (Run.not_acted hb hnew)]
    intro id hid
    cases hid
  · intro b hb ih t r x v s' hrun hr ha hs t' r' ht'
    have ht' : (starts b.trace).head? = some (t', r') := ht'
    obtain ⟨r₀, hhead⟩ := Sequential.running hb hrun
    rw [ht'] at hhead
    cases hhead
    obtain rfl := hb.requested_unique hr (Sequential.requested hb ht')
    rw [phase_call_self]
    exact step_owned hs ha (ih _ _ ht')
  · rintro b hb ih s' ⟨now, -, rfl⟩ t r ht
    exact ih t r ht

/-- What a call in the trace changes and returns is its user's. -/
theorem sequential_call (h : Sequential (.init s₀) c) {u tr : List (TaskEvent J settings fails Passes)} {s s' : State}
    {t : ℕ} {x : Call} {v : calls.Out x} (he : c.trace = u ++ ⟨s, s', .call t x v⟩ :: tr) :
    ∃ r q, (t, r) ∈ starts c.trace ∧ step fails x s v s' ∧ (ownerProtocol r).allows q x ∧ Owned r.userId s.db q := by
  obtain ⟨b, r, hb, rfl, rfl, hrun, hr, -, ha, hs⟩ := Run.made (ownerDiscipline J settings fails Passes) h he
  obtain ⟨r₀, hhead⟩ := Sequential.running hb hrun
  obtain rfl := hb.requested_unique hr (Sequential.requested hb hhead)
  refine ⟨r, _, ?_, hs, ha, sequential_owned hb hhead⟩
  rw [he]
  exact ((hr.cons _).append u).mem_starts

/-- Requests of one user leave the rows and the keys of the others as they were. -/
theorem sequential_frame (h : Sequential (.init s₀) c) {userId : ℤ}
    (huser : ∀ p ∈ starts c.trace, p.2.userId = userId) :
    c.state.db.others userId = s₀.db.others userId ∧
      ∀ key, ¬ OwnKey userId key → c.state.redis key = s₀.redis key := by
  refine @Run.invariant _ _ _ _ (ownerDiscipline J settings fails Passes)
    (fun s tr => (∀ p ∈ starts tr, p.2.userId = userId) → s.db.others userId = s₀.db.others userId ∧
      ∀ key, ¬ OwnKey userId key → s.redis key = s₀.redis key) ?_ ?_ ?_ ?_ c h huser
  · exact fun _ => ⟨rfl, fun _ _ => rfl⟩
  · intro b hb ih t r hnew huser
    exact ih fun p hp => huser p (List.mem_cons_of_mem _ hp)
  · intro b hb ih t r x v s' hrun hr ha hs huser
    obtain ⟨r₀, hhead⟩ := Sequential.running hb hrun
    obtain rfl := hb.requested_unique hr (Sequential.requested hb hhead)
    obtain rfl := huser _ hr.mem_starts
    obtain ⟨hrows, hkeys⟩ := step_frame hs ha (sequential_owned hb hhead)
    obtain ⟨hrows', hkeys'⟩ := ih huser
    exact ⟨hrows.trans hrows', fun key hkey => (hkeys key hkey).trans (hkeys' key hkey)⟩
  · rintro b hb ih s' ⟨now, -, rfl⟩ huser
    exact ih huser

end

/-- A row that the database returned to a request. -/
def Returned {J : TaskJson} {settings : Settings} {fails : Call → Prop}
    (tr : List (TaskEvent J settings fails Passes)) (row : TaskRecord) : Prop :=
  ∃ e ∈ tr, (∃ t i o, e.act = .call t (.findOwnedTask i o) (.ok (some row))) ∨
    ∃ t id, e.act = .call t (.refresh id) (.ok row)

/-- **Isolation of users.** Requests of one user, one after another from any
database and any Redis, whatever Redis calls fail, leave the rows of all other
users, their cache and lock keys, all login-rate keys and all tickets as they
were; the database returns them no row but the user's; a list reads the user's
rows and changes nothing; and no two stores ever build the same key. -/
theorem tenant_isolation (J : TaskJson) (settings : Settings) (login : LoginSettings) (userId : ℤ) {s₀ : State}
    {c : Config (taskSystem J settings (fun _ => True) Passes)} (h : Sequential (.init s₀) c)
    (huser : ∀ p ∈ starts c.trace, p.2.userId = userId) :
    c.state.db.others userId = s₀.db.others userId ∧
      (∀ k : StoreKey, k.owner ≠ some userId → c.state.redis (k.build login) = s₀.redis (k.build login)) ∧
      (∀ row, Returned c.trace row → row.ownerId = userId) ∧
      (∀ pagination s, (getTasks userId pagination s).2 = s ∧
        ∀ tasks, (getTasks userId pagination s).1 = .ok tasks → ∀ task ∈ tasks,
          ∃ row ∈ s.db.rows, row.ownerId = userId ∧ TaskResponse.modelValidate row = some task) ∧
      (StoreKey.build login).Injective := by
  obtain ⟨hrows, hkeys⟩ := sequential_frame h huser
  refine ⟨hrows, fun k hk => hkeys _ (StoreKey.not_ownKey hk), ?_, getTasks_owned userId, StoreKey.build_inj login⟩
  · rintro row ⟨⟨s, s', act⟩, he, hact⟩
    obtain ⟨u, tr, he⟩ := List.append_of_mem he
    rcases hact with ⟨t, i, o, rfl⟩ | ⟨t, id, rfl⟩
    · obtain ⟨r, q, hr, hs, ha, howned⟩ := sequential_call h he
      exact ((step_rows hs ha howned row).1 i o rfl).trans (huser _ hr)
    · obtain ⟨r, q, hr, hs, ha, howned⟩ := sequential_call h he
      exact ((step_rows hs ha howned row).2 id rfl).trans (huser _ hr)

/-- User 2 has task 1. -/
def exampleOther : State := { State.new with db := TaskTable.empty.insert exampleBody 2 1 TaskTable.get_empty_one }

/-- User 1 posts a task. -/
noncomputable def examplePosted : Config (taskSystem exampleJson .defaults (fun _ => True) Passes) :=
  (Config.init exampleOther).schedule (State.serve Pick.first)
    (.start 0 examplePost :: (List.replicate 3 0).map .call)

theorem tenant_isolation_post :
    examplePosted.state.db.others 1 = exampleOther.db.others 1 ∧
      examplePosted.state.redis (StoreKey.build .defaults (.ticket "t")) =
        exampleOther.redis (StoreKey.build .defaults (.ticket "t")) := by
  have hrun : Sequential (.init exampleOther) examplePosted :=
    Sequential.request (S := taskSystem exampleJson .defaults (fun _ => True) Passes) (step_serve _ Pick.first) .refl
      (Config.quiet_init exampleOther) 0 examplePost 3
  have huser : ∀ p ∈ starts examplePosted.trace, p.2.userId = 1 := by decide +kernel
  obtain ⟨hrows, hkeys, -⟩ := tenant_isolation exampleJson .defaults .defaults 1 hrun huser
  exact ⟨hrows, hkeys (.ticket "t") (by simp [StoreKey.owner])⟩

end TaskApi
