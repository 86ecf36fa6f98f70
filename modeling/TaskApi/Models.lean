/-
# Tasks: request bodies, rows and responses

The pydantic models of `models.py` and the `tasks` table of
`database_models.py`. A body that was accepted satisfies its field constraints,
so `TaskCreate`, `TaskUpdate` and `TaskResponse` carry them in their field types
(`Title`, `Description`, `Priority`); a row is raw, the database checks nothing
but the primary key. `TaskTable` holds rows that were written from accepted
bodies: they satisfy the constraints of `TaskResponse`, and every operation
below keeps that.

Not modelled: the `users` table (a request comes with its user's id), the error
texts pydantic builds for a rejected body.

Key definitions: `TaskRecord`, `TaskResponse.modelValidate`, `TaskResponse.Represents`, `TaskTable`,
`TaskTable.findOwnedTask`, `TaskUpdate.changesFrom`.
Key theorems: `TaskTable.findOwnedTask_insert`, `TaskTable.findOwnedTask_update`,
`TaskTable.findOwnedTask_delete`.
-/
import Mathlib.Data.List.Nodup
import Mathlib.Data.Int.Notation
import Mathlib.Tactic.Common

namespace TaskApi

/-- A calendar date. -/
structure Date where
  year : ℕ
  month : ℕ
  day : ℕ
deriving DecidableEq

/-- `Field(min_length=2, max_length=100)` -/
abbrev Title := { s : String // 2 ≤ s.length ∧ s.length ≤ 100 }

/-- `Field(max_length=500)` -/
abbrev Description := { s : String // s.length ≤ 500 }

/-- `Field(ge=1, le=5)` -/
abbrev Priority := { n : ℤ // 1 ≤ n ∧ n ≤ 5 }

/-- An accepted body of `POST /tasks`. -/
structure TaskCreate where
  title : Title
  description : Option Description := none
  priority : Priority := ⟨1, by decide⟩
  dueDate : Option Date := none
deriving DecidableEq

/-- An accepted body of `PATCH /tasks/{task_id}`: the fields that are set. An
explicit null is accepted for the description and the due date only. -/
structure TaskUpdate where
  title : Option Title := none
  description : Option (Option Description) := none
  priority : Option Priority := none
  completed : Option Bool := none
  dueDate : Option (Option Date) := none
deriving DecidableEq

/-- A row of the `tasks` table. -/
structure TaskRecord where
  id : ℤ
  title : String
  description : Option String
  priority : ℤ
  completed : Bool
  ownerId : ℤ
  dueDate : Option Date
deriving DecidableEq

/-- What the API answers for a task. -/
structure TaskResponse where
  title : Title
  description : Option Description
  priority : Priority
  dueDate : Option Date
  id : ℤ
  completed : Bool
deriving DecidableEq

/-- The constraints `TaskResponse` puts on the row it is built from. -/
def TaskRecord.Readable (r : TaskRecord) : Prop :=
  (2 ≤ r.title.length ∧ r.title.length ≤ 100) ∧
  (∀ d ∈ r.description, d.length ≤ 500) ∧
  (1 ≤ r.priority ∧ r.priority ≤ 5)

instance (r : TaskRecord) : Decidable r.Readable := by
  unfold TaskRecord.Readable
  exact instDecidableAnd

/-- The response for a row that satisfies the constraints. -/
def TaskRecord.response (r : TaskRecord) (h : r.Readable) : TaskResponse where
  title := ⟨r.title, h.1⟩
  description := r.description.pmap Subtype.mk h.2.1
  priority := ⟨r.priority, h.2.2⟩
  dueDate := r.dueDate
  id := r.id
  completed := r.completed

/-- `TaskResponse.model_validate(task_record)`; `none` is its `ValidationError`. -/
def TaskResponse.modelValidate (r : TaskRecord) : Option TaskResponse :=
  if h : r.Readable then some (r.response h) else none

theorem TaskResponse.modelValidate_of_readable {r : TaskRecord} (h : r.Readable) :
    TaskResponse.modelValidate r = some (r.response h) := dif_pos h

/-- The task is the row: it has its id, and each of its fields that a client may see. -/
structure TaskResponse.Represents (task : TaskResponse) (r : TaskRecord) : Prop where
  id : task.id = r.id
  title : task.title.1 = r.title
  description : task.description.map (·.1) = r.description
  priority : task.priority.1 = r.priority
  dueDate : task.dueDate = r.dueDate
  completed : task.completed = r.completed

theorem TaskRecord.represents_response {r : TaskRecord} (h : r.Readable) : (r.response h).Represents r where
  id := rfl
  title := rfl
  description := by simp [TaskRecord.response, Option.map_pmap]
  priority := rfl
  dueDate := rfl
  completed := rfl

namespace TaskResponse.Represents

variable {task task' : TaskResponse} {r : TaskRecord}

/-- A row that is represented satisfies the constraints. -/
theorem readable (h : task.Represents r) : r.Readable := by
  refine ⟨h.title ▸ task.title.2, fun d hd => ?_, h.priority ▸ task.priority.2⟩
  rw [← h.description, Option.mem_def, Option.map_eq_some_iff] at hd
  obtain ⟨d', -, rfl⟩ := hd
  exact d'.2

/-- One task represents a row. -/
theorem unique (h : task.Represents r) (h' : task'.Represents r) : task = task' := by
  obtain ⟨title, description, priority, dueDate, id, completed⟩ := task
  obtain ⟨title', description', priority', dueDate', id', completed'⟩ := task'
  have htitle : title = title' := Subtype.ext (h.title.trans h'.title.symm)
  have hpriority : priority = priority' := Subtype.ext (h.priority.trans h'.priority.symm)
  have hdescription : description = description' :=
    Option.map_injective Subtype.val_injective (h.description.trans h'.description.symm)
  have hdate : dueDate = dueDate' := h.dueDate.trans h'.dueDate.symm
  have hid : id = id' := h.id.trans h'.id.symm
  have hcompleted : completed = completed' := h.completed.trans h'.completed.symm
  rw [htitle, hpriority, hdescription, hdate, hid, hcompleted]

end TaskResponse.Represents

theorem TaskResponse.modelValidate_eq_some_iff {r : TaskRecord} {task : TaskResponse} :
    TaskResponse.modelValidate r = some task ↔ task.Represents r := by
  constructor
  · intro h
    unfold TaskResponse.modelValidate at h
    split_ifs at h with hread
    rw [← Option.some.inj h]
    exact r.represents_response hread
  · intro h
    rw [TaskResponse.modelValidate_of_readable h.readable, (r.represents_response h.readable).unique h]

/-! ### Writing rows -/

/-- The row `create_task` adds: `TaskRecord(**task_create.model_dump(), completed=False, owner_id=…)`
with the id the database gave it. -/
def TaskCreate.record (body : TaskCreate) (ownerId id : ℤ) : TaskRecord where
  id := id
  title := body.title
  description := body.description.map (·.1)
  priority := body.priority
  completed := false
  ownerId := ownerId
  dueDate := body.dueDate

theorem TaskCreate.readable_record (body : TaskCreate) (ownerId id : ℤ) :
    (body.record ownerId id).Readable := by
  refine ⟨body.title.2, fun d hd => ?_, body.priority.2⟩
  simp only [record, Option.mem_def, Option.map_eq_some_iff] at hd
  obtain ⟨d', -, rfl⟩ := hd
  exact d'.2

/-- `setattr` for each field that is set. -/
def TaskRecord.assign (r : TaskRecord) (u : TaskUpdate) : TaskRecord :=
  { r with
    title := (u.title.map (·.1)).getD r.title
    description := (u.description.map (·.map (·.1))).getD r.description
    priority := (u.priority.map (·.1)).getD r.priority
    completed := u.completed.getD r.completed
    dueDate := u.dueDate.getD r.dueDate }

@[simp] theorem TaskRecord.assign_id (r : TaskRecord) (u : TaskUpdate) : (r.assign u).id = r.id := rfl
@[simp] theorem TaskRecord.assign_ownerId (r : TaskRecord) (u : TaskUpdate) :
    (r.assign u).ownerId = r.ownerId := rfl

theorem TaskRecord.Readable.assign {r : TaskRecord} (h : r.Readable) (u : TaskUpdate) :
    (r.assign u).Readable := by
  obtain ⟨h1, h2, h3⟩ := h
  refine ⟨?_, fun d hd => ?_, ?_⟩
  · cases ht : u.title with
    | none => simpa [TaskRecord.assign, ht] using h1
    | some t => simpa [TaskRecord.assign, ht] using t.2
  · cases hu : u.description with
    | none => exact h2 d (by simpa [TaskRecord.assign, hu] using hd)
    | some x =>
      simp only [TaskRecord.assign, hu, Option.map_some, Option.getD_some, Option.mem_def,
        Option.map_eq_some_iff] at hd
      obtain ⟨d', -, rfl⟩ := hd
      exact d'.2
  · cases hp : u.priority with
    | none => simpa [TaskRecord.assign, hp] using h3
    | some p => simpa [TaskRecord.assign, hp] using p.2

/-- The assignments of `u` that change the loaded row `r`: the columns the
session's `UPDATE` writes. -/
def TaskUpdate.changesFrom (u : TaskUpdate) (r : TaskRecord) : TaskUpdate where
  title := u.title.filter (·.1 ≠ r.title)
  description := u.description.filter (·.map (·.1) ≠ r.description)
  priority := u.priority.filter (·.1 ≠ r.priority)
  completed := u.completed.filter (· ≠ r.completed)
  dueDate := u.dueDate.filter (· ≠ r.dueDate)

/-! ### The table -/

/-- No id is larger than the largest. -/
theorem le_foldr_max (ids : List ℤ) : ∀ id ∈ ids, id ≤ ids.foldr max 0 := by
  induction ids with
  | nil => simp
  | cons m ids ih =>
    intro id hid
    rw [List.foldr_cons]
    rcases List.mem_cons.mp hid with rfl | hid
    · omega
    · have hle := ih id hid
      omega

/-- The `tasks` table: ids are unique, and every row was written from an
accepted body. -/
structure TaskTable where
  rows : List TaskRecord
  ids_nodup : (rows.map (·.id)).Nodup
  readable : ∀ r ∈ rows, r.Readable

namespace TaskTable

/-- The table of a new database. -/
def empty : TaskTable := ⟨[], List.nodup_nil, fun _ h => by cases h⟩

/-- `select(TaskRecord).where(id == task_id, owner_id == owner_id)`, the scalar. -/
def findOwnedTask (db : TaskTable) (taskId ownerId : ℤ) : Option TaskRecord :=
  db.rows.find? fun r => r.id = taskId ∧ r.ownerId = ownerId

/-- The row with a primary key. -/
def get (db : TaskTable) (id : ℤ) : Option TaskRecord := db.rows.find? fun r => r.id = id

theorem get_empty_one : empty.get 1 = none := rfl

/-- `INSERT` with an id that is free. -/
def insert (db : TaskTable) (body : TaskCreate) (ownerId id : ℤ) (h : db.get id = none) :
    TaskTable where
  rows := db.rows ++ [body.record ownerId id]
  ids_nodup := by
    rw [List.map_append, List.nodup_append]
    refine ⟨db.ids_nodup, by simp, fun x hx y hy => ?_⟩
    obtain ⟨r, hr, rfl⟩ := List.mem_map.mp hx
    simp only [List.map_cons, List.map_nil, List.mem_singleton] at hy
    have := List.find?_eq_none.mp h r hr
    simp only [decide_eq_true_eq] at this
    rw [hy]
    exact this
  readable := fun r hr => by
    rcases List.mem_append.mp hr with hr | hr
    · exact db.readable r hr
    · rw [List.mem_singleton.mp hr]
      exact body.readable_record ownerId id

/-- `UPDATE … WHERE id = …` of the columns set in `u`. -/
def update (db : TaskTable) (id : ℤ) (u : TaskUpdate) : TaskTable where
  rows := db.rows.map fun r => if r.id = id then r.assign u else r
  ids_nodup := by
    have : ∀ r : TaskRecord, (if r.id = id then r.assign u else r).id = r.id := fun r => by
      split <;> rfl
    simpa [List.map_map, Function.comp_def, this] using db.ids_nodup
  readable := fun r hr => by
    obtain ⟨r', hr', rfl⟩ := List.mem_map.mp hr
    split
    · exact (db.readable r' hr').assign u
    · exact db.readable r' hr'

/-- `DELETE … WHERE id = …` -/
def delete (db : TaskTable) (id : ℤ) : TaskTable where
  rows := db.rows.filter fun r => r.id ≠ id
  ids_nodup := db.ids_nodup.sublist (List.filter_sublist.map _)
  readable := fun r hr => db.readable r (List.mem_of_mem_filter hr)

variable {db : TaskTable} {i o : ℤ}

theorem findOwnedTask_some {r : TaskRecord} (h : db.findOwnedTask i o = some r) :
    r.id = i ∧ r.ownerId = o ∧ r.Readable := by
  have := List.find?_some h
  simp only [decide_eq_true_eq] at this
  exact ⟨this.1, this.2, db.readable r (List.mem_of_find?_eq_some h)⟩

theorem get_some {r : TaskRecord} (h : db.get i = some r) : r.id = i ∧ r.Readable := by
  have := List.find?_some h
  simp only [decide_eq_true_eq] at this
  exact ⟨this, db.readable r (List.mem_of_find?_eq_some h)⟩

/-- The owned row is the row with the id, if it has that owner. -/
theorem findOwnedTask_eq : db.findOwnedTask i o = (db.get i).filter (·.ownerId = o) := by
  unfold findOwnedTask get
  have hn := db.ids_nodup
  generalize db.rows = rs at hn
  induction rs with
  | nil => rfl
  | cons r rs ih =>
    simp only [List.map_cons, List.nodup_cons] at hn
    have ih := ih hn.2
    simp only [Bool.decide_and] at ih ⊢
    by_cases hi : r.id = i
    · by_cases ho : r.ownerId = o
      · simp [hi, ho, Option.filter_some]
      · have hrs : rs.find? (fun x => decide (x.id = i) && decide (x.ownerId = o)) = none := by
          rw [List.find?_eq_none]
          intro x hx h
          simp only [Bool.and_eq_true, decide_eq_true_eq] at h
          exact hn.1 (List.mem_map.mpr ⟨x, hx, h.1.trans hi.symm⟩)
        simp [hi, ho, hrs, Option.filter_some]
    · simp [hi, ih]

theorem findOwnedTask_eq_some_iff {r : TaskRecord} :
    db.findOwnedTask i o = some r ↔ db.get i = some r ∧ r.ownerId = o := by
  rw [findOwnedTask_eq, Option.filter_eq_some_iff]
  simp

theorem get_insert (body : TaskCreate) (ownerId id : ℤ) (h : db.get id = none) :
    (db.insert body ownerId id h).get i =
      if i = id then some (body.record ownerId id) else db.get i := by
  unfold get at h ⊢
  simp only [insert, List.find?_append]
  by_cases hi : i = id
  · subst hi
    simp [h, TaskCreate.record]
  · have : (body.record ownerId id).id ≠ i := fun h' => hi h'.symm
    simp [hi, this]

theorem get_update (id : ℤ) (u : TaskUpdate) :
    (db.update id u).get i = if i = id then (db.get i).map (·.assign u) else db.get i := by
  simp only [get, update]
  induction db.rows with
  | nil => simp
  | cons r rs ih =>
    by_cases hr : r.id = i <;> by_cases hi : i = id <;> by_cases hrid : r.id = id <;>
      simp_all

theorem get_delete (id : ℤ) :
    (db.delete id).get i = if i = id then none else db.get i := by
  unfold get delete
  by_cases hi : i = id
  · subst hi
    simp
  · rw [if_neg hi, List.find?_filter]
    congr 1
    funext r
    by_cases hr : r.id = i
    · simp [hr, hi]
    · simp [hr]

theorem findOwnedTask_insert (body : TaskCreate) (ownerId id : ℤ) (h : db.get id = none) :
    (db.insert body ownerId id h).findOwnedTask i o =
      if i = id ∧ o = ownerId then some (body.record ownerId id) else db.findOwnedTask i o := by
  rw [findOwnedTask_eq, findOwnedTask_eq, get_insert]
  by_cases hi : i = id
  · subst hi
    by_cases ho : o = ownerId
    · simp [ho, TaskCreate.record]
    · have : ¬ ownerId = o := fun h => ho h.symm
      simp [ho, h, TaskCreate.record, this]
  · simp [hi]

theorem findOwnedTask_update (id : ℤ) (u : TaskUpdate) :
    (db.update id u).findOwnedTask i o =
      if i = id then (db.findOwnedTask i o).map (·.assign u) else db.findOwnedTask i o := by
  rw [findOwnedTask_eq, findOwnedTask_eq, get_update]
  by_cases hi : i = id
  · simp only [hi, if_true]
    cases db.get id with
    | none => rfl
    | some r => by_cases ho : r.ownerId = o <;> simp [Option.filter_some, ho]
  · simp [hi]

theorem findOwnedTask_delete (id : ℤ) :
    (db.delete id).findOwnedTask i o = if i = id then none else db.findOwnedTask i o := by
  rw [findOwnedTask_eq, findOwnedTask_eq, get_delete]
  by_cases hi : i = id <;> simp [hi]

end TaskTable
end TaskApi
