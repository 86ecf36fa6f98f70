/-
# Listing while tasks change

`get_tasks` of `routers/tasks.py` beside the other task routes. A list is one query, and
whatever commits between two pages shows in the second. A client that asks for page after page
reads a set that changes in the order of its elements, ids; where the database counts its ids
up, a new task comes after all tasks before it, and the rules for such sets apply
(`Paging.pages_sorted`, `Paging.pages_complete`). A SQLite table without `AUTOINCREMENT` counts
up until its newest task is deleted, whose id it gives out again; then a client can get a task
twice (`page_repeats`).

The statement's parameters go through the driver, which takes signed 64-bit integers only, as in
`listTasks`; `skip` is the one that can be larger.

Key definitions: `listOwnedTasks`, `listingSystem`, `TaskTable.ownedIds`, `IdsGrow`, `Paged`.
Key theorems: `selectOwnedTasks_ids`, `ownedIds_grow`, `ownedIds_stand`, `Paged.reads`,
`listing_pages`.
-/
import TaskApi.ConcurrentTenants
import TaskApi.IntegerRange
import TaskApi.Lib.Components
import TaskApi.Lib.Paging

namespace TaskApi

open Conc

/-! ### The routes -/

/-- The calls of the other task routes, and `session.scalars(statement).all()` of `get_tasks`. -/
inductive ListingCall where
  | tasks (c : Call)
  | selectOwnedTasks (userId : ℤ) (pagination : Pagination)

abbrev ListingCall.Val : ListingCall → Type
  | .tasks c => c.Val
  | .selectOwnedTasks .. => List TaskRecord

abbrev listingCalls : Interface := ⟨ListingCall, ListingCall.Val, Exn⟩

theorem ListingCall.tasks_injective : Function.Injective ListingCall.tasks := fun _ _ h => by
  cases h
  rfl

/-- The task call that a call is. -/
def ListingCall.seesTasks : (d : ListingCall) → listingCalls.Out d → Option (Σ c : Call, calls.Out c)
  | .tasks c, v => some ⟨c, v⟩
  | .selectOwnedTasks .., _ => none

theorem ListingCall.of_seesTasks {d : ListingCall} {v : listingCalls.Out d} {x : Σ c : Call, calls.Out c}
    (h : d.seesTasks v = some x) : d = .tasks x.1 := by
  cases d with
  | tasks c =>
    cases h
    rfl
  | selectOwnedTasks userId pagination => cases h

theorem ListingCall.sees_ok {c : Call} {v w : calls.Out c} (h : (.ok v : Except Exn (calls.Out c)) = .ok w) :
    ListingCall.seesTasks (.tasks c) v = some ⟨c, w⟩ := by
  cases h
  rfl

def listingEmbedding : Embedding calls listingCalls where
  call := .tasks
  call_injective := ListingCall.tasks_injective
  hears _ v := .ok v
  raise e := e
  sees := ListingCall.seesTasks
  sees_call := ListingCall.sees_ok
  of_sees := ListingCall.of_seesTasks

/-- `[TaskResponse.model_validate(task_record) for task_record in task_records]` -/
def validateTasks (taskRecords : List TaskRecord) : Prog listingCalls (List TaskResponse) :=
  match taskRecords.mapM TaskResponse.modelValidate with
  | none => Prog.raise .validationError
  | some tasks => Prog.ret tasks

/-- `get_tasks` -/
def listOwnedTasks (userId : ℤ) (pagination : Pagination) : Prog listingCalls (List TaskResponse) := do
  let taskRecords : List TaskRecord ← @Prog.perform listingCalls (.selectOwnedTasks userId pagination)
  validateTasks taskRecords

inductive ListingRequest where
  | one (r : Request)
  | list (userId : ℤ) (pagination : Pagination)

inductive ListingResponse where
  | one (task : Option TaskResponse)
  | list (tasks : List TaskResponse)
deriving DecidableEq

def ListingRequest.body (J : TaskJson) (settings : Settings) : ListingRequest → Prog listingCalls ListingResponse
  | .one r => .one <$> (r.body J settings).lift listingEmbedding
  | .list userId pagination => .list <$> listOwnedTasks userId pagination

/-! ### The system -/

/-- The parameters of the list's statement can be bound. -/
def Pagination.BindsFor (userId : ℤ) (pagination : Pagination) : Prop :=
  ∀ n ∈ [userId, (pagination.limit : ℤ), (pagination.skip : ℤ)], Binds n

instance (userId : ℤ) (pagination : Pagination) : Decidable (pagination.BindsFor userId) :=
  inferInstanceAs (Decidable (∀ n ∈ [userId, (pagination.limit : ℤ), (pagination.skip : ℤ)], Binds n))

/-- What the query of a list returns. -/
def State.select (s : State) (userId : ℤ) (pagination : Pagination) : Except Exn (List TaskRecord) :=
  if pagination.BindsFor userId then .ok (s.db.selectOwnedTasks userId pagination) else .error .overflowError

/-- One atomic step. A list is one query, and sees what is committed. -/
def listingStep (fails : Call → Prop) : (d : ListingCall) → State → listingCalls.Out d → State → Prop
  | .tasks c, s, v, s' => step fails c s v s'
  | .selectOwnedTasks userId pagination, s, v, s' => v = s.select userId pagination ∧ s' = s

def State.serveListing (pick : Pick) : (d : ListingCall) → State → listingCalls.Out d × State
  | .tasks c, s => s.serve pick c
  | .selectOwnedTasks userId pagination, s => (s.select userId pagination, s)

theorem listingStep_serve (fails : Call → Prop) (pick : Pick) (d : ListingCall) (s : State) :
    listingStep fails d s (s.serveListing pick d).1 (s.serveListing pick d).2 := by
  cases d with
  | tasks c => exact step_serve fails pick c s
  | selectOwnedTasks userId pagination => exact ⟨rfl, rfl⟩

/-- The rows of a page can all be answered. -/
theorem mapM_selectOwnedTasks (db : TaskTable) (userId : ℤ) (pagination : Pagination) :
    ∃ tasks, (db.selectOwnedTasks userId pagination).mapM TaskResponse.modelValidate = some tasks := by
  obtain ⟨tasks, htasks, -⟩ := getTasks_page userId pagination ⟨0, fun _ => none, db⟩
  unfold getTasks at htasks
  cases hmapM : (db.selectOwnedTasks userId pagination).mapM TaskResponse.modelValidate with
  | none =>
    simp only [hmapM] at htasks
    cases htasks
  | some tasks' => exact ⟨tasks', rfl⟩

/-- On its own a list does what `listTasks` says. -/
theorem listOwnedTasks_run (pick : Pick) (userId : Int64) (pagination : Pagination) (s : State) :
    (listOwnedTasks userId.toInt pagination).run (fun (d : ListingCall) (s : State) => s.serveListing pick d) s =
      listTasks userId pagination s := by
  by_cases hbinds : pagination.BindsFor userId.toInt
  · have hselect : s.select userId.toInt pagination = .ok (s.db.selectOwnedTasks userId.toInt pagination) :=
      if_pos hbinds
    have hlist : listTasks userId pagination s = getTasks userId.toInt pagination s := if_pos hbinds
    obtain ⟨tasks, htasks⟩ := mapM_selectOwnedTasks s.db userId.toInt pagination
    rw [hlist]
    unfold getTasks
    simp only [listOwnedTasks, Prog.perform, Prog.call_bind, Prog.run, State.serveListing, hselect, Prog.ret_bind,
      validateTasks, htasks]
  · have hselect : s.select userId.toInt pagination = .error .overflowError := if_neg hbinds
    have hlist : listTasks userId pagination s = (.error .overflowError, s) := if_neg hbinds
    rw [hlist]
    simp only [listOwnedTasks, Prog.perform, Prog.call_bind, Prog.run, State.serveListing, hselect, Prog.raise_bind]

/-- All task routes over one Redis and one database. -/
abbrev listingSystem (J : TaskJson) (settings : Settings) (fails : Call → Prop) : System listingCalls where
  State := State
  step := listingStep fails
  env := Environment
  Req := ListingRequest
  Res := ListingResponse
  body := ListingRequest.body J settings

/-- An event of a run of the task routes. -/
abbrev ListingEvent (J : TaskJson) (settings : Settings) (fails : Call → Prop) : Type :=
  Event (listingSystem J settings fails)

variable {J : TaskJson} {settings : Settings} {fails : Call → Prop} {s₀ : State}

/-- The rows a list has read, once it has. -/
def rowsRead (q : Option (List TaskRecord)) (d : ListingCall) (v : listingCalls.Out d) : Option (List TaskRecord) :=
  match d, v with
  | .selectOwnedTasks .., .ok rows => some rows
  | _, _ => q

/-- A list makes its query, once; the other requests make none. -/
abbrev listingProtocol (r : ListingRequest) : Protocol listingCalls where
  Phase := Option (List TaskRecord)
  init := none
  next := rowsRead
  allows q d :=
    match r with
    | .one _ => ∃ c, d = .tasks c
    | .list userId pagination => d = .selectOwnedTasks userId pagination ∧ q = none

/-- A list answers with all rows of its page, and fails only if its parameters cannot be bound. -/
def ListingRequest.Ends : ListingRequest → Option (List TaskRecord) → Except Exn ListingResponse → Prop
  | .one _, _, _ => True
  | .list userId pagination, q, x =>
    (∃ rows tasks, q = some rows ∧ rows.mapM TaskResponse.modelValidate = some tasks ∧ x = .ok (.list tasks)) ∨
      (¬ pagination.BindsFor userId ∧ x = .error .overflowError)

theorem listOwnedTasks_follows {userId : ℤ} {pagination : Pagination} :
    ((ListingRequest.list userId pagination).body J settings).Follows (listingProtocol (.list userId pagination))
      (listingSystem J settings fails).Can (ListingRequest.Ends (.list userId pagination)) none := by
  refine Prog.follows_bind.mpr (Prog.follows_bind.mpr (Prog.follows_perform.mpr ⟨⟨rfl, rfl⟩, fun v hv => ?_⟩))
  obtain ⟨s, s', rfl, rfl⟩ := hv
  unfold State.select
  by_cases hbinds : pagination.BindsFor userId
  · obtain ⟨tasks, htasks⟩ := mapM_selectOwnedTasks s'.db userId pagination
    rw [if_pos hbinds]
    show (validateTasks (s'.db.selectOwnedTasks userId pagination)).Follows _ _ _ _
    unfold validateTasks
    rw [htasks]
    exact .inl ⟨_, tasks, rfl, htasks, rfl⟩
  · rw [if_neg hbinds]
    exact .inr ⟨hbinds, rfl⟩

/-- All requests follow their protocol. -/
def listingDiscipline (J : TaskJson) (settings : Settings) (fails : Call → Prop) :
    Discipline (listingSystem J settings fails) where
  protocol := listingProtocol
  final := ListingRequest.Ends
  follows
    | .one r => by
      have hmakes : ((ListingRequest.one r).body J settings).Makes fun d => ∃ c, d = ListingCall.tasks c :=
        (Prog.makes_lift (fun c => ⟨c, rfl⟩) _).bind fun _ => Prog.makes_ret _
      refine (hmakes.keeps fun q d hd => ⟨hd, fun v => ?_⟩).mono fun _ _ _ => trivial
      obtain ⟨c, rfl⟩ := hd
      rfl
    | .list userId pagination => listOwnedTasks_follows

/-! ### The ids of a user -/

namespace TaskTable

/-- The ids of the user's tasks. -/
def ownedIds (db : TaskTable) (userId : ℤ) : Finset ℤ :=
  ((db.rows.filter fun r => r.ownerId = userId).map (·.id)).toFinset

variable {db : TaskTable} {userId id : ℤ}

theorem mem_ownedIds : id ∈ db.ownedIds userId ↔ ∃ row ∈ db.rows, row.ownerId = userId ∧ row.id = id := by
  unfold ownedIds
  simp [and_assoc]

theorem mem_ownedIds_iff_find : id ∈ db.ownedIds userId ↔ (db.findOwnedTask id userId).isSome := by
  unfold findOwnedTask
  rw [mem_ownedIds, List.find?_isSome]
  simp only [decide_eq_true_eq]
  constructor
  · rintro ⟨row, hrow, howner, hid⟩
    exact ⟨row, hrow, hid, howner⟩
  · rintro ⟨row, hrow, hid, howner⟩
    exact ⟨row, hrow, howner, hid⟩

theorem mem_ownedIds_insert {body : TaskCreate} {ownerId newId : ℤ} (h : db.get newId = none) :
    id ∈ (db.insert body ownerId newId h).ownedIds userId ↔
      (id = newId ∧ userId = ownerId) ∨ id ∈ db.ownedIds userId := by
  rw [mem_ownedIds_iff_find, mem_ownedIds_iff_find, findOwnedTask_insert]
  by_cases hnew : id = newId ∧ userId = ownerId
  · simp [hnew]
  · rw [if_neg hnew]
    simp [hnew]

theorem mem_ownedIds_update {taskId : ℤ} {u : TaskUpdate} :
    id ∈ (db.update taskId u).ownedIds userId ↔ id ∈ db.ownedIds userId := by
  rw [mem_ownedIds_iff_find, mem_ownedIds_iff_find, findOwnedTask_update]
  split <;> simp

theorem mem_ownedIds_delete {taskId : ℤ} :
    id ∈ (db.delete taskId).ownedIds userId ↔ id ≠ taskId ∧ id ∈ db.ownedIds userId := by
  rw [mem_ownedIds_iff_find, mem_ownedIds_iff_find, findOwnedTask_delete]
  by_cases hid : id = taskId <;> simp [hid]

/-- The ids of a page are a page of the ids. -/
theorem selectOwnedTasks_ids (db : TaskTable) (userId : ℤ) {pagination : Pagination} {size k : ℕ}
    (hskip : pagination.skip = k * size) (hlimit : pagination.limit = size) :
    (db.selectOwnedTasks userId pagination).map (·.id) = Paging.page size k (db.ownedIds userId) := by
  have hperm : (((db.rows.filter fun r => r.ownerId = userId).mergeSort fun r r' => r.id ≤ r'.id).map (·.id)).Perm
      ((db.rows.filter fun r => r.ownerId = userId).map (·.id)) := (List.mergeSort_perm ..).map _
  have hnodup : ((db.rows.filter fun r => r.ownerId = userId).map (·.id)).Nodup :=
    db.ids_nodup.sublist (List.filter_sublist.map _)
  have hsorted : (((db.rows.filter fun r => r.ownerId = userId).mergeSort fun r r' => r.id ≤ r'.id).map
      (·.id)).Pairwise (· ≤ ·) := by
    rw [List.pairwise_map]
    have hmerge := @List.pairwise_mergeSort TaskRecord (fun r r' => decide (r.id ≤ r'.id))
      (fun a b c hab hbc => by simp only [decide_eq_true_eq] at *; exact hab.trans hbc)
      (fun a b => by simpa using le_total a.id b.id) (db.rows.filter fun r => r.ownerId = userId)
    exact hmerge.imp fun h => by simpa using h
  have hids : (db.ownedIds userId).sort (· ≤ ·) =
      ((db.rows.filter fun r => r.ownerId = userId).mergeSort fun r r' => r.id ≤ r'.id).map (·.id) := by
    unfold ownedIds
    rw [← List.toFinset_eq_of_perm _ _ hperm]
    exact (List.toFinset_sort (· ≤ ·) (hperm.nodup_iff.mpr hnodup)).mpr hsorted
  unfold selectOwnedTasks Paging.page
  rw [hids, List.map_take, List.map_drop, hskip, hlimit]

end TaskTable

/-! ### New ids -/

section Ids

variable {tr : List (ListingEvent J settings fails)} {e : ListingEvent J settings fails} {s s' : State} {t : ℕ}
  {d : ListingCall} {v : listingCalls.Out d} {userId id y : ℤ}

/-- The id that an event gives to a new task. -/
def insertedId : ListingEvent J settings fails → Option ℤ
  | ⟨_, _, .call _ (.tasks (.commitInsert _ _)) (.ok id)⟩ => some id
  | _ => none

/-- The ids given in a run, the latest first. -/
def insertedIds (tr : List (ListingEvent J settings fails)) : List ℤ := tr.filterMap insertedId

/-- A task had the id at first, or was given it in the run. -/
def Given (s₀ : State) (tr : List (ListingEvent J settings fails)) (id : ℤ) : Prop :=
  (∃ row ∈ s₀.db.rows, row.id = id) ∨ id ∈ insertedIds tr

/-- The database counts up: an id that it gives to a new task is above all before it. In a
SQLite table without `AUTOINCREMENT` that is so while the newest task is not deleted. -/
structure IdsGrow (s₀ : State) (tr : List (ListingEvent J settings fails)) : Prop where
  ordered : (insertedIds tr).Pairwise (· > ·)
  above : ∀ id ∈ insertedIds tr, ∀ row ∈ s₀.db.rows, row.id < id

/-- The event deletes a task of the user's. -/
def Deletes (userId id : ℤ) (e : ListingEvent J settings fails) : Prop :=
  id ∈ e.before.db.ownedIds userId ∧ ∃ t v, e.act = .call t (.tasks (.commitDelete id)) v

theorem Given.cons (h : Given s₀ tr id) (e : ListingEvent J settings fails) : Given s₀ (e :: tr) id :=
  h.imp_right fun hmem => ((List.sublist_cons_self e tr).filterMap insertedId).subset hmem

theorem IdsGrow.of_cons (h : IdsGrow s₀ (e :: tr)) : IdsGrow s₀ tr where
  ordered := h.ordered.sublist ((List.sublist_cons_self e tr).filterMap insertedId)
  above id hid := h.above id (((List.sublist_cons_self e tr).filterMap insertedId).subset hid)

theorem insertedIds_cons (he : insertedId e = some id) : insertedIds (e :: tr) = id :: insertedIds tr := by
  unfold insertedIds
  rw [List.filterMap_cons, he]

/-- A new id is above all ids that have been given. -/
theorem IdsGrow.lt (h : IdsGrow s₀ (e :: tr)) (he : insertedId e = some id) (hy : Given s₀ tr y) : y < id := by
  obtain ⟨hordered, habove⟩ := h
  rw [insertedIds_cons he] at hordered habove
  rcases hy with ⟨row, hrow, rfl⟩ | hmem
  · exact habove id List.mem_cons_self row hrow
  · exact (List.pairwise_cons.mp hordered).1 y hmem

/-- What a step adds to the ids of a user. -/
theorem new_of_step (hs : listingStep fails d s v s') (hy : y ∈ s'.db.ownedIds userId) :
    y ∈ s.db.ownedIds userId ∨ insertedId (⟨s, s', .call t d v⟩ : ListingEvent J settings fails) = some y := by
  cases d with
  | selectOwnedTasks u pagination =>
    obtain ⟨-, rfl⟩ := hs
    exact .inl hy
  | tasks c =>
    have hs : step fails c s v s' := hs
    cases c with
    | commitInsert body ownerId =>
      obtain ⟨newId, hfree, rfl, rfl⟩ := step_commitInsert hs
      rcases (TaskTable.mem_ownedIds_insert hfree).mp hy with ⟨rfl, -⟩ | hold
      · exact .inr rfl
      · exact .inl hold
    | commitUpdate taskId changes =>
      rcases step_commitUpdate hs with rfl | ⟨-, rfl⟩
      · exact .inl hy
      · exact .inl (TaskTable.mem_ownedIds_update.mp hy)
    | commitDelete taskId =>
      obtain ⟨-, rfl⟩ := step_commitDelete hs
      exact .inl (TaskTable.mem_ownedIds_delete.mp hy).2
    | _ =>
      rw [step_db rfl hs] at hy
      exact .inl hy

/-- What a step takes from them. -/
theorem kept_of_step (hs : listingStep fails d s v s') (hy : y ∈ s.db.ownedIds userId) :
    y ∈ s'.db.ownedIds userId ∨ Deletes userId y (⟨s, s', .call t d v⟩ : ListingEvent J settings fails) := by
  cases d with
  | selectOwnedTasks u pagination =>
    obtain ⟨-, rfl⟩ := hs
    exact .inl hy
  | tasks c =>
    have hs : step fails c s v s' := hs
    cases c with
    | commitInsert body ownerId =>
      obtain ⟨newId, hfree, rfl, rfl⟩ := step_commitInsert hs
      exact .inl ((TaskTable.mem_ownedIds_insert hfree).mpr (.inr hy))
    | commitUpdate taskId changes =>
      rcases step_commitUpdate hs with rfl | ⟨-, rfl⟩
      · exact .inl hy
      · exact .inl (TaskTable.mem_ownedIds_update.mpr hy)
    | commitDelete taskId =>
      obtain ⟨-, rfl⟩ := step_commitDelete hs
      by_cases hid : y = taskId
      · subst hid
        exact .inr ⟨hy, t, v, rfl⟩
      · exact .inl (TaskTable.mem_ownedIds_delete.mpr ⟨hid, hy⟩)
    | _ =>
      rw [← step_db rfl hs] at hy
      exact .inl hy

end Ids

/-! ### Runs -/

section Runs

variable {b c : Config (listingSystem J settings fails)} {userId : ℤ}

/-- The ids there are, and were at any event, have been given. -/
theorem given_of_mem (userId : ℤ) (h : Interleaved (.init s₀) c) :
    (∀ y ∈ c.state.db.ownedIds userId, Given s₀ c.trace y) ∧
    ∀ e ∈ c.trace, ∀ y ∈ e.before.db.ownedIds userId, Given s₀ c.trace y := by
  induction h with
  | refl =>
    refine ⟨fun y hy => ?_, fun e he => by cases he⟩
    obtain ⟨row, hrow, -, rfl⟩ := TaskTable.mem_ownedIds.mp hy
    exact .inl ⟨row, hrow, rfl⟩
  | tail _ hs ih =>
    obtain ⟨ih, hpast⟩ := ih
    cases hs with
    | start t r hg hn =>
      refine ⟨fun y hy => (ih y hy).cons _, fun e he y hy => ?_⟩
      rcases List.mem_cons.mp he with rfl | he
      · exact (ih y hy).cons _
      · exact (hpast e he y hy).cons _
    | call t r x k v s' hp hs =>
      refine ⟨fun y hy => ?_, fun e he y hy => ?_⟩
      · rcases @new_of_step J settings _ _ _ t _ _ _ _ hs hy with hold | hnew
        · exact (ih y hold).cons _
        · right
          rw [insertedIds_cons hnew]
          exact List.mem_cons_self
      · rcases List.mem_cons.mp he with rfl | he
        · exact (ih y hy).cons _
        · exact (hpast e he y hy).cons _
    | env s' he =>
      refine ⟨fun y hy => ih y ?_, hpast⟩
      rwa [Environment.db he] at hy

/-- From any event on, what is new to a user's ids is above what there was. -/
theorem ownedIds_grow (userId : ℤ) (h : Interleaved (.init s₀) c) (hgrow : IdsGrow s₀ c.trace) :
    c.trace.Pairwise (fun e e' => Paging.GrowsAbove (e'.before.db.ownedIds userId) (e.before.db.ownedIds userId)) ∧
    ∀ e ∈ c.trace, Paging.GrowsAbove (e.before.db.ownedIds userId) (c.state.db.ownedIds userId) := by
  induction h with
  | refl => exact ⟨.nil, fun e he => by cases he⟩
  | @tail b d hb hs ih =>
    cases hs with
    | start t r hg hn =>
      obtain ⟨ih, hlast⟩ := ih hgrow.of_cons
      refine ⟨List.pairwise_cons.mpr ⟨hlast, ih⟩, fun e he => ?_⟩
      rcases List.mem_cons.mp he with rfl | he
      · exact fun y hy => .inl hy
      · exact hlast e he
    | call t r x k v s' hp hs =>
      obtain ⟨ih, hlast⟩ := ih hgrow.of_cons
      obtain ⟨hnow, hpast⟩ := given_of_mem userId hb
      refine ⟨List.pairwise_cons.mpr ⟨hlast, ih⟩, fun e he y hy => ?_⟩
      have hgiven : ∀ z ∈ e.before.db.ownedIds userId, Given s₀ b.trace z := by
        rcases List.mem_cons.mp he with rfl | he
        · exact hnow
        · exact hpast e he
      rcases @new_of_step J settings _ _ _ t _ _ _ _ hs hy with hold | hnew
      · rcases List.mem_cons.mp he with rfl | he
        · exact .inl hold
        · exact hlast e he y hold
      · exact .inr fun z hz => hgrow.lt hnew (hgiven z hz)
    | env s' he =>
      obtain ⟨ih, hlast⟩ := ih hgrow
      refine ⟨ih, fun e hmem y hy => hlast e hmem y ?_⟩
      rwa [Environment.db he] at hy

/-- Up to an id that has been given, a user's ids stand still as long as none of them is deleted. -/
theorem ownedIds_stand (h : Interleaved b c) (hgrow : IdsGrow s₀ c.trace) {x : ℤ} (hx : Given s₀ b.trace x) :
    ∀ u, c.trace = u ++ b.trace → (∀ e ∈ u, ∀ id, Deletes userId id e → x < id) →
      (∀ y, y ≤ x → (y ∈ c.state.db.ownedIds userId ↔ y ∈ b.state.db.ownedIds userId)) ∧
      ∀ e ∈ u, ∀ y, y ≤ x → (y ∈ e.before.db.ownedIds userId ↔ y ∈ b.state.db.ownedIds userId) := by
  induction h with
  | refl =>
    intro u hu _
    obtain rfl : u = [] := List.self_eq_append_left.mp hu
    exact ⟨fun y _ => Iff.rfl, fun e he => by cases he⟩
  | @tail c d hc hs ih =>
    obtain ⟨w, hw⟩ := Run.trace_suffix hc
    have hx' : Given s₀ c.trace x := by
      refine hx.imp_right fun hmem => ?_
      rw [hw]
      exact ((List.sublist_append_right w b.trace).filterMap insertedId).subset hmem
    cases hs with
    | start t r hg hn =>
      intro u hu hkeeps
      obtain rfl : u = _ :: w := List.append_cancel_right (hu.symm.trans (congrArg (List.cons _) hw))
      obtain ⟨hnow, hpast⟩ := ih hgrow.of_cons w hw fun e he => hkeeps e (List.mem_cons_of_mem _ he)
      refine ⟨hnow, fun e he => ?_⟩
      rcases List.mem_cons.mp he with rfl | he
      · exact hnow
      · exact hpast e he
    | call t r z k v s' hp hs =>
      intro u hu hkeeps
      obtain rfl : u = _ :: w := List.append_cancel_right (hu.symm.trans (congrArg (List.cons _) hw))
      obtain ⟨hnow, hpast⟩ := ih hgrow.of_cons w hw fun e he => hkeeps e (List.mem_cons_of_mem _ he)
      refine ⟨fun y hy => ?_, fun e he => ?_⟩
      · rw [← hnow y hy]
        constructor
        · intro hmem
          rcases @new_of_step J settings _ _ _ t _ _ _ _ hs hmem with hold | hnew
          · exact hold
          · exact absurd (hgrow.lt hnew hx') hy.not_gt
        · intro hmem
          rcases @kept_of_step J settings _ _ _ t _ _ _ _ hs hmem with hkept | hdeletes
          · exact hkept
          · exact absurd (hkeeps _ List.mem_cons_self y hdeletes) hy.not_gt
      · rcases List.mem_cons.mp he with rfl | he
        · exact hnow
        · exact hpast e he
    | env s' he =>
      intro u hu hkeeps
      obtain ⟨hnow, hpast⟩ := ih hgrow u hu hkeeps
      refine ⟨fun y hy => ?_, hpast⟩
      rw [← hnow y hy, Environment.db he]

/-- A list that is answered has read its page at one event, and answers with it. -/
theorem list_read (h : Interleaved (.init s₀) c) {t : ℕ} {pagination : Pagination} {tasks : List TaskResponse}
    (hr : Requested t (ListingRequest.list userId pagination) c.trace) (hx : c.result t = some (.ok (.list tasks))) :
    ∃ u e tr, c.trace = u ++ e :: tr ∧ e.act.thread = t ∧
      (e.before.db.selectOwnedTasks userId pagination).mapM TaskResponse.modelValidate = some tasks := by
  have hends : ListingRequest.Ends (.list userId pagination) _ _ :=
    Run.final (listingDiscipline J settings fails) h hr hx
  rcases hends with ⟨rows, tasks', hrows, hmapM, heq⟩ | ⟨-, heq⟩
  · cases heq
    obtain ⟨b, u, x, v, s', -, -, he, hbefore, hnext, ⟨rfl, -⟩, ⟨rfl, rfl⟩⟩ :=
      @Run.phase_made _ _ _ _ (listingDiscipline J settings fails) c h t _ hr (fun q => q = some rows)
        (fun hnone => by cases hnone) hrows
    refine ⟨u, _, b.trace, he, rfl, ?_⟩
    have hread : rowsRead _ (.selectOwnedTasks userId pagination) (b.state.select userId pagination) = some rows :=
      hnext
    unfold State.select at hread
    split_ifs at hread with hbinds
    · cases hread
      exact hmapM
    · exact absurd hread hbefore
  · cases heq

/-! ### Page after page -/

/-- From `b` on, a client has asked for one page after another, each when it had the answer to the
one before, and has been answered with the pages. -/
inductive Paged (userId : ℤ) (size : ℕ) (b : Config (listingSystem J settings fails)) :
    List (List TaskResponse) → Config (listingSystem J settings fails) → Prop
  | start : Paged userId size b [] b
  | page {pages : List (List TaskResponse)} {c c' : Config (listingSystem J settings fails)} {t : ℕ}
      {pagination : Pagination} {tasks : List TaskResponse} (hp : Paged userId size b pages c) (hn : c.pool t = none)
      (h : Interleaved c c') (hr : Requested t (ListingRequest.list userId pagination) c'.trace)
      (hskip : pagination.skip = pages.length * size) (hlimit : pagination.limit = size)
      (hx : c'.result t = some (.ok (.list tasks))) : Paged userId size b (pages ++ [tasks]) c'

variable {size : ℕ} {pages : List (List TaskResponse)}

theorem Paged.run (hp : Paged userId size b pages c) : Interleaved b c := by
  induction hp with
  | start => exact .refl
  | page _ _ h _ _ _ _ ih => exact ih.trans h

theorem mapM_ids {rows : List TaskRecord} {tasks : List TaskResponse}
    (h : rows.mapM TaskResponse.modelValidate = some tasks) : tasks.map (·.id) = rows.map (·.id) := by
  induction rows generalizing tasks with
  | nil =>
    cases h
    rfl
  | cons row rows ih =>
    rw [List.mapM_cons] at h
    obtain ⟨task, hrow, h⟩ := Option.bind_eq_some_iff.mp h
    obtain ⟨tasks', hrows, h⟩ := Option.bind_eq_some_iff.mp h
    cases h
    rw [List.map_cons, List.map_cons, (TaskResponse.modelValidate_eq_some_iff.mp hrow).id, ih hrows]

/-- The pages were read at one event after another. -/
theorem Paged.reads (hb : Interleaved (.init s₀) b) (hp : Paged userId size b pages c) :
    ∃ u, c.trace = u ++ b.trace ∧ ∃ es : List (ListingEvent J settings fails), es.reverse.Sublist u ∧
      pages.map (fun tasks => tasks.map (·.id)) = Paging.pages size (es.map fun e => e.before.db.ownedIds userId) ∧
      ∀ tasks ∈ pages, ∀ task ∈ tasks, ∃ e ∈ u, ∃ row ∈ e.before.db.rows, row.ownerId = userId ∧
        task.Represents row := by
  induction hp with
  | start => exact ⟨[], rfl, [], .slnil, rfl, fun tasks htasks => by cases htasks⟩
  | @page pages c c' t pagination tasks hp hn h hr hskip hlimit hx ih =>
    obtain ⟨u, hu, es, hes, hpages, hrows⟩ := ih
    have hc : Interleaved (.init s₀) c := hb.trans hp.run
    obtain ⟨w, hw⟩ := Run.trace_suffix h
    obtain ⟨w', e, tr, he, ht, hmapM⟩ := list_read (hc.trans h) hr hx
    have hnew : e ∉ c.trace := fun hmem => Run.not_acted hc hn e hmem ht
    obtain ⟨m, rfl, -⟩ := append_cons_eq_append (he.symm.trans hw) hnew
    have hlength : es.length = pages.length := by
      have hlengths := congrArg List.length hpages
      simpa [Paging.pages] using hlengths.symm
    refine ⟨(w' ++ e :: m) ++ u, by rw [hw, hu, List.append_assoc (w' ++ e :: m)], es ++ [e], ?_, ?_, ?_⟩
    · rw [List.reverse_append, List.reverse_singleton]
      exact (List.singleton_sublist.mpr (List.mem_append_right _ List.mem_cons_self)).append hes
    · rw [List.map_append, List.map_append, hpages]
      show _ = Paging.pages size (_ ++ [_])
      rw [Paging.pages_concat, List.length_map, hlength]
      show _ ++ [tasks.map (·.id)] = _
      rw [mapM_ids hmapM, TaskTable.selectOwnedTasks_ids _ _ hskip hlimit]
    · intro tasks' htasks' task htask
      rcases List.mem_append.mp htasks' with hold | hlast
      · obtain ⟨e', he', hrow⟩ := hrows tasks' hold task htask
        exact ⟨e', List.mem_append_right _ he', hrow⟩
      · obtain rfl := List.mem_singleton.mp hlast
        obtain ⟨row, hrow, hvalidate⟩ := exists_of_mem_mapM htask hmapM
        obtain ⟨hmem, howner⟩ := TaskTable.mem_selectOwnedTasks hrow
        exact ⟨e, List.mem_append_left _ (List.mem_append_right _ List.mem_cons_self), row, hmem, howner,
          TaskResponse.modelValidate_eq_some_iff.mp hvalidate⟩

/-- **Page after page.** While any requests of all users run, a client that asks for its tasks
page after page gets tasks of its user only, in the order of their ids and none twice. When a
page is not full, it has got every task that its user had when it began, unless the task or one
of the user's tasks with a smaller id has been deleted since. -/
theorem listing_pages (hb : Interleaved (.init s₀) b) (hp : Paged userId size b pages c) (hgrow : IdsGrow s₀ c.trace) :
    ∃ u, c.trace = u ++ b.trace ∧
      (pages.flatten.map (·.id)).Pairwise (· < ·) ∧
      (∀ task ∈ pages.flatten, ∃ e ∈ u, ∃ row ∈ e.before.db.rows, row.ownerId = userId ∧ task.Represents row) ∧
      ∀ last, pages.getLast? = some last → last.length < size → ∀ row ∈ b.state.db.rows, row.ownerId = userId →
        (∀ e ∈ u, ∀ id, Deletes userId id e → row.id < id) → ∃ task ∈ pages.flatten, task.id = row.id := by
  obtain ⟨u, hu, es, hes, hpages, hrows⟩ := hp.reads hb
  have hflatten : pages.flatten.map (·.id) =
      (Paging.pages size (es.map fun e => e.before.db.ownedIds userId)).flatten := by
    rw [← hpages, List.map_flatten]
  refine ⟨u, hu, ?_, fun task htask => ?_, fun last hlast hshort row hrow howner hkeeps => ?_⟩
  · rw [hflatten]
    have htrace := (ownedIds_grow userId (hb.trans hp.run) hgrow).1
    rw [hu] at htrace
    have hes' := (List.pairwise_append.mp htrace).1.sublist hes
    exact Paging.pages_sorted (List.pairwise_map.mpr (List.pairwise_reverse.mp hes'))
  · obtain ⟨tasks, htasks, htask⟩ := List.mem_flatten.mp htask
    exact hrows tasks htasks task htask
  · have hmem : row.id ∈ b.state.db.ownedIds userId := TaskTable.mem_ownedIds.mpr ⟨row, hrow, howner, rfl⟩
    have hgiven := (given_of_mem userId hb).1 row.id hmem
    obtain ⟨-, hstand⟩ := ownedIds_stand hp.run hgrow hgiven u hu hkeeps
    have hlast' : (Paging.pages size (es.map fun e => e.before.db.ownedIds userId)).getLast? =
        some (last.map (·.id)) := by
      rw [← hpages, List.getLast?_map, hlast]
      rfl
    have hcomplete := Paging.pages_complete (x := row.id) (fun s hs y hy => ?_) hmem hlast' (by simpa using hshort)
    · rw [← hflatten] at hcomplete
      exact List.mem_map.mp hcomplete
    · obtain ⟨e, he, rfl⟩ := List.mem_map.mp hs
      exact hstand e (hes.subset (List.mem_reverse.mpr he)) y hy

/-- Page `k` of pages of one task. -/
def examplePage (k : ℕ) : Pagination := ⟨k, 1, le_rfl, Nat.le_add_left 1 99⟩

/-- User 1 has task 1 and asks for the first page, -/
noncomputable def exampleListing : Config (listingSystem exampleJson .defaults fun _ => True) :=
  (Config.init exampleFirst).schedule (fun (d : ListingCall) (s : State) => s.serveListing Pick.first d)
    [.start 0 (.list 1 (examplePage 0)), .call 0]

/-- user 2 posts a task, and user 1 asks for the second page. -/
noncomputable def exampleListed : Config (listingSystem exampleJson .defaults fun _ => True) :=
  exampleListing.schedule (fun (d : ListingCall) (s : State) => s.serveListing Pick.first d)
    [.start 1 (.one (.create 2 exampleBody)), .call 1, .start 2 (.list 1 (examplePage 1)), .call 2]

theorem listing_pages_example : ∃ task ∈ [[exampleTask], []].flatten, task.id = 1 := by
  have h : Interleaved (.init exampleFirst) exampleListing := Interleaved.schedule (listingStep_serve _ Pick.first) _ _
  have h' : Interleaved exampleListing exampleListed := Interleaved.schedule (listingStep_serve _ Pick.first) _ _
  have hpaged : Paged 1 1 (.init exampleFirst) [[exampleTask], []] exampleListed :=
    .page (.page .start rfl h ((Run.pool_trace h).1 0 _ _ rfl) rfl rfl (by decide +kernel)) rfl h'
      ((Run.pool_trace (h.trans h')).1 2 _ _ rfl) rfl rfl (by decide +kernel)
  have hgrow : IdsGrow exampleFirst exampleListed.trace := ⟨by decide +kernel, by decide +kernel⟩
  obtain ⟨u, hu, -, -, hcomplete⟩ := listing_pages .refl hpaged hgrow
  obtain ⟨row, hrow, hid, howner⟩ : ∃ row ∈ exampleFirst.db.rows, row.id = 1 ∧ row.ownerId = 1 := by decide +kernel
  rw [← hid]
  refine hcomplete [] rfl (by decide) row hrow howner fun e he id hdeletes => ?_
  -- nothing is deleted
  obtain ⟨-, t, v, hact⟩ := hdeletes
  have hmem : some (ListingCall.tasks (.commitDelete id)) ∈ exampleListed.trace.map fun e => e.act.called :=
    List.mem_map.mpr ⟨e, hu ▸ List.mem_append_left _ he, by rw [hact]; rfl⟩
  have hcalls : exampleListed.trace.map (fun e => e.act.called) = [some (.selectOwnedTasks 1 (examplePage 1)), none,
      some (.tasks (.commitInsert exampleBody 2)), none, some (.selectOwnedTasks 1 (examplePage 0)), none] := rfl
  rw [hcalls] at hmem
  simp at hmem

/-- Task 1 is user 2's and task 2 is user 1's, who asks for the first page. -/
noncomputable def secondListed : Config (listingSystem exampleJson .defaults fun _ => True) :=
  (Config.init State.new).schedule (fun (d : ListingCall) (s : State) => s.serveListing Pick.first d)
    [.start 0 (.one (.create 2 exampleBody)), .call 0, .start 1 (.one (.create 1 exampleBody)), .call 1,
      .start 2 (.list 1 (examplePage 0)), .call 2]

/-- Both are deleted, the two tasks that user 1 posts get their ids, and it asks for the second. -/
noncomputable def refilled : Config (listingSystem exampleJson .defaults fun _ => True) :=
  secondListed.schedule (fun (d : ListingCall) (s : State) => s.serveListing Pick.first d)
    [.start 3 (.one (.delete 1 2)), .call 3, .call 3, .start 4 (.one (.delete 2 1)), .call 4, .call 4,
      .start 5 (.one (.create 1 exampleBody)), .call 5, .start 6 (.one (.create 1 exampleBody)), .call 6,
      .start 7 (.list 1 (examplePage 1))]

theorem refilled_select : refilled.state.select 1 (examplePage 1) = .ok [exampleBody.record 1 2] := by
  have hrows : refilled.state.db.rows = [exampleBody.record 1 1, exampleBody.record 1 2] := by decide +kernel
  have hsorted : [exampleBody.record 1 1, exampleBody.record 1 2].Pairwise
      fun r r' => decide (r.id ≤ r'.id) = true := by decide +kernel
  have hfilter : ([exampleBody.record 1 1, exampleBody.record 1 2].filter fun r => decide (r.ownerId = 1)) =
      [exampleBody.record 1 1, exampleBody.record 1 2] := by decide +kernel
  rw [State.select, if_pos (by decide +kernel), TaskTable.selectOwnedTasks, hrows, hfilter,
    List.mergeSort_of_pairwise hsorted]
  rfl

/-- With ids that come back, the second page has the task of the first. -/
theorem page_repeats : ∃ c : Config (listingSystem exampleJson .defaults fun _ => True), ¬ IdsGrow State.new c.trace ∧
    Paged 1 1 (.init State.new) [[{ exampleTask with id := 2 }], [{ exampleTask with id := 2 }]] c := by
  have h : Interleaved (.init State.new) secondListed := Interleaved.schedule (listingStep_serve _ Pick.first) _ _
  have h' : Interleaved secondListed refilled := Interleaved.schedule (listingStep_serve _ Pick.first) _ _
  have hs : listingStep (fun _ => True) (.selectOwnedTasks 1 (examplePage 1)) refilled.state
      (.ok [exampleBody.record 1 2]) refilled.state := ⟨refilled_select.symm, rfl⟩
  have h' := h'.tail (.call 7 (ListingRequest.list 1 (examplePage 1))
    (ListingCall.selectOwnedTasks 1 (examplePage 1)) _ _ _ rfl hs)
  have hfirst : Paged 1 1 (.init State.new) [[{ exampleTask with id := 2 }]] secondListed :=
    .page .start rfl h ((Run.pool_trace h).1 2 _ _ rfl) rfl rfl (by decide +kernel)
  have hpaged := hfirst.page rfl h' ((Run.pool_trace (h.trans h')).1 7 (ListingRequest.list 1 (examplePage 1)) _ rfl)
    rfl rfl rfl
  exact ⟨_, fun hgrow => absurd hgrow.ordered (by decide +kernel), hpaged⟩

end Runs

end TaskApi
