/-
# Rows written from any bodies read back

`POST /tasks` and `PATCH /tasks/{task_id}` on bodies as they come: any JSON, checked
by `TaskCreate` and `TaskUpdate` field by field, and rows as the database has them,
with a null in any column. The two input models, the `NOT NULL` columns and
`TaskResponse` put their constraints separately; that they agree is what makes the
rows those of a `TaskTable` (`Refines`), over any sequence of requests. So a row can
always be answered, a post adds the row of its body, and a patch changes the fields
of its body and no others.

How pydantic reads numbers, booleans and dates out of JSON is a parameter
(`LaxParsing`); nothing below depends on it.

Key definitions: `JsonValue`, `TaskCreate.modelValidate`, `TaskUpdateModel.modelValidate`,
`StoredTask`, `patchTask`, `Refines`, `StoredTask.posted`, `StoredTask.patched`.
Key theorems: `create_posted`, `setattr_patched`, `run_refines`, `rows_read_back`.
-/
import TaskApi.Models
import Mathlib.Data.Option.Basic

namespace TaskApi

/-! ### Bodies -/

/-- What `json.loads` returns; a number by its text. -/
inductive JsonValue where
  | null
  | bool (b : Bool)
  | number (text : String)
  | string (s : String)
  | array (items : List JsonValue)
  | object (members : List (String × JsonValue))

/-- pydantic's reading of an `int`, a `bool` and a `date`. -/
structure LaxParsing where
  int : JsonValue → Option ℤ
  bool : JsonValue → Option Bool
  date : JsonValue → Option Date

/-- A `str` is read from a string only. -/
def JsonValue.str : JsonValue → Option String
  | .string s => some s
  | _ => none

/-- The member of an object; of several with one name the last. -/
def member (members : List (String × JsonValue)) (name : String) : Option JsonValue :=
  members.reverse.lookup name

section

variable {α : Type} (P : LaxParsing)

/-- `Field(min_length=2, max_length=100)` -/
def titleField (v : JsonValue) : Option Title :=
  v.str.bind fun s => if h : 2 ≤ s.length ∧ s.length ≤ 100 then some ⟨s, h⟩ else none

/-- `Field(max_length=500)` -/
def descriptionField (v : JsonValue) : Option Description :=
  v.str.bind fun s => if h : s.length ≤ 500 then some ⟨s, h⟩ else none

/-- `Field(ge=1, le=5)` -/
def priorityField (v : JsonValue) : Option Priority :=
  (P.int v).bind fun n => if h : 1 ≤ n ∧ n ≤ 5 then some ⟨n, h⟩ else none

/-- The type `T | None`. -/
def nullable (f : JsonValue → Option α) : JsonValue → Option (Option α)
  | .null => some none
  | v => (f v).map some

/-- `reject_null`, which runs before the type of its field is looked at. -/
def rejectNull (f : JsonValue → Option α) : JsonValue → Option α
  | .null => none
  | v => f v

/-- A field with a default: `none` inside if it is not in the body. -/
def optionalField (f : JsonValue → Option α) (members : List (String × JsonValue)) (name : String) :
    Option (Option α) :=
  match member members name with
  | none => some none
  | some v => (f v).map some

/-- The fields of `TaskCreate`; it forbids others. -/
def TaskCreate.fieldNames : List String := ["title", "description", "priority", "due_date"]

theorem TaskCreate.one_isPriority : (1 : ℤ) ≤ 1 ∧ (1 : ℤ) ≤ 5 := by decide

/-- `TaskCreate`, from a body. -/
def TaskCreate.modelValidate : JsonValue → Option TaskCreate
  | .object members => do
    guard (members.all fun m => m.1 ∈ fieldNames)
    let title ← (member members "title").bind titleField
    let description ← optionalField (nullable descriptionField) members "description"
    let priority ← optionalField (priorityField P) members "priority"
    let dueDate ← optionalField (nullable P.date) members "due_date"
    return ⟨title, description.getD none, priority.getD ⟨1, one_isPriority⟩, dueDate.getD none⟩
  | _ => none

/-- A `TaskUpdate` as pydantic holds it: a field that was not set, a null, or a value. -/
structure TaskUpdateModel where
  title : Option (Option Title)
  description : Option (Option Description)
  priority : Option (Option Priority)
  completed : Option (Option Bool)
  dueDate : Option (Option Date)

/-- The fields of `TaskUpdate`; it forbids others. -/
def TaskUpdateModel.fieldNames : List String := ["title", "description", "priority", "completed", "due_date"]

/-- `TaskUpdate`, from a body. -/
def TaskUpdateModel.modelValidate : JsonValue → Option TaskUpdateModel
  | .object members => do
    guard (members.all fun m => m.1 ∈ fieldNames)
    let title ← optionalField (rejectNull (nullable titleField)) members "title"
    let description ← optionalField (nullable descriptionField) members "description"
    let priority ← optionalField (rejectNull (nullable (priorityField P))) members "priority"
    let completed ← optionalField (rejectNull (nullable P.bool)) members "completed"
    let dueDate ← optionalField (nullable P.date) members "due_date"
    return ⟨title, description, priority, completed, dueDate⟩
  | _ => none

end

/-! ### Rows -/

/-- A row of the `tasks` table, with a null in any column but the ids. -/
structure StoredTask where
  id : ℤ
  title : Option String
  description : Option String
  priority : Option ℤ
  completed : Option Bool
  ownerId : ℤ
  dueDate : Option Date
deriving DecidableEq

namespace StoredTask

/-- A row without nulls where there must not be any. -/
def ofRecord (r : TaskRecord) : StoredTask :=
  ⟨r.id, some r.title, r.description, some r.priority, some r.completed, r.ownerId, r.dueDate⟩

/-- The columns that are `nullable=False`. -/
def NotNull (r : StoredTask) : Prop := r.title.isSome ∧ r.priority.isSome ∧ r.completed.isSome

instance (r : StoredTask) : Decidable r.NotNull := by
  unfold NotNull
  exact instDecidableAnd

/-- `TaskRecord(**task_create.model_dump(), completed=False, owner_id=…)` -/
def create (taskCreate : TaskCreate) (ownerId id : ℤ) : StoredTask where
  id := id
  title := some taskCreate.title
  description := taskCreate.description.map (·.1)
  priority := some taskCreate.priority
  completed := some false
  ownerId := ownerId
  dueDate := taskCreate.dueDate

/-- `setattr` for each field of `model_dump(exclude_unset=True)`. -/
def setattr (r : StoredTask) (u : TaskUpdateModel) : StoredTask :=
  { r with
    title := (u.title.map (·.map (·.1))).getD r.title
    description := (u.description.map (·.map (·.1))).getD r.description
    priority := (u.priority.map (·.map (·.1))).getD r.priority
    completed := u.completed.getD r.completed
    dueDate := u.dueDate.getD r.dueDate }

/-- What `TaskResponse` requires of a row. -/
structure Valid (r : StoredTask) : Prop where
  title : ∃ title, r.title = some title ∧ 2 ≤ title.length ∧ title.length ≤ 100
  description : ∀ description, r.description = some description → description.length ≤ 500
  priority : ∃ priority, r.priority = some priority ∧ 1 ≤ priority ∧ priority ≤ 5
  completed : r.completed ≠ none

end StoredTask

/-- `TaskResponse.model_validate(task_record)`: a null title, priority or completed is
a `ValidationError` too. -/
def TaskResponse.fromAttributes (r : StoredTask) : Option TaskResponse :=
  match r.title, r.priority, r.completed with
  | some title, some priority, some completed =>
    TaskResponse.modelValidate ⟨r.id, title, r.description, priority, completed, r.ownerId, r.dueDate⟩
  | _, _, _ => none

/-! ### Requests -/

/-- The id the database gives to a new row, which no row has. -/
structure IdSource where
  newId : List StoredTask → ℤ
  newId_free : ∀ rows, ∀ r ∈ rows, r.id ≠ newId rows

/-- The choice of SQLite: one more than the largest. -/
def IdSource.afterLargest : IdSource where
  newId rows := (rows.map (·.id)).foldr max 0 + 1
  newId_free rows r hr h := by
    have hle := le_foldr_max (rows.map (·.id)) r.id (List.mem_map_of_mem hr)
    omega

/-- How a request ends. -/
inductive Outcome where
  | answered (task : TaskResponse)
  /-- 422: the body was rejected. -/
  | unprocessable
  /-- 404 -/
  | notFound
  /-- 500: a null in a `NOT NULL` column. -/
  | integrityError
  /-- 500: no `TaskResponse` can be built from the row. -/
  | validationError
deriving DecidableEq

/-- The task is the row, and no column that must not be is null. -/
def StoredTask.ShownBy (row : StoredTask) (task : TaskResponse) : Prop :=
  ∃ record, row = .ofRecord record ∧ task.Represents record

def answer (taskRecord : StoredTask) : Outcome :=
  match TaskResponse.fromAttributes taskRecord with
  | none => .validationError
  | some task => .answered task

section

variable (P : LaxParsing) (ids : IdSource)

/-- `create_task` -/
def postTask (userId : ℤ) (body : JsonValue) (rows : List StoredTask) : Outcome × List StoredTask :=
  match TaskCreate.modelValidate P body with
  | none => (.unprocessable, rows)
  | some taskCreate =>
    let taskRecord := StoredTask.create taskCreate userId (ids.newId rows)
    if taskRecord.NotNull then (answer taskRecord, rows ++ [taskRecord])
    else (.integrityError, rows)

/-- `find_owned_task` -/
def findStoredTask (rows : List StoredTask) (taskId ownerId : ℤ) : Option StoredTask :=
  rows.find? fun r => r.id = taskId ∧ r.ownerId = ownerId

/-- `update_task`; its dependency comes before the body. -/
def patchTask (userId taskId : ℤ) (body : JsonValue) (rows : List StoredTask) : Outcome × List StoredTask :=
  match findStoredTask rows taskId userId with
  | none => (.notFound, rows)
  | some storedTask =>
    match TaskUpdateModel.modelValidate P body with
    | none => (.unprocessable, rows)
    | some taskUpdate =>
      let storedTask := storedTask.setattr taskUpdate
      if storedTask.NotNull then
        (answer storedTask, rows.map fun r => if r.id = storedTask.id then storedTask else r)
      else (.integrityError, rows)

/-- A request with its body. -/
inductive BodyRequest where
  | create (userId : ℤ) (body : JsonValue)
  | patch (userId taskId : ℤ) (body : JsonValue)

def BodyRequest.run : BodyRequest → List StoredTask → Outcome × List StoredTask
  | .create userId body, rows => postTask P ids userId body rows
  | .patch userId taskId body, rows => patchTask P userId taskId body rows

/-- One request after another: how they ended, and the rows they left. -/
def runRequests : List BodyRequest → List StoredTask → List Outcome × List StoredTask
  | [], rows => ([], rows)
  | r :: rs, rows =>
    let rest := runRequests rs (r.run P ids rows).2
    ((r.run P ids rows).1 :: rest.1, rest.2)

end

/-! ### What an accepted body sets -/

section

variable {α β : Type} {P : LaxParsing} {members : List (String × JsonValue)} {name : String}

/-- What a column holds after a patch with these members. -/
def patchedColumn (parse : JsonValue → Option α) (members : List (String × JsonValue)) (name : String)
    (old : Option α) : Option α :=
  match member members name with
  | none => old
  | some .null => none
  | some v => parse v

/-- The row of a new task: a field of the body has the value it has there, and every other
field its default. -/
def StoredTask.posted (P : LaxParsing) (members : List (String × JsonValue)) (ownerId id : ℤ) : StoredTask where
  id := id
  title := (member members "title").bind JsonValue.str
  description := patchedColumn JsonValue.str members "description" none
  priority := (member members "priority").elim (some 1) P.int
  completed := some false
  ownerId := ownerId
  dueDate := patchedColumn P.date members "due_date" none

/-- The row after a patch: a field of the body has the value it has there, or a null,
and every other field the value it had. -/
def StoredTask.patched (P : LaxParsing) (members : List (String × JsonValue)) (r : StoredTask) : StoredTask :=
  { r with
    title := patchedColumn JsonValue.str members "title" r.title
    description := patchedColumn JsonValue.str members "description" r.description
    priority := patchedColumn P.int members "priority" r.priority
    completed := patchedColumn P.bool members "completed" r.completed
    dueDate := patchedColumn P.date members "due_date" r.dueDate }

theorem rejectNull_eq_some {f : JsonValue → Option α} {v : JsonValue} {a : α} (h : rejectNull f v = some a) :
    v ≠ .null ∧ f v = some a := by
  cases v with
  | null => cases h
  | _ => exact ⟨by simp, h⟩

/-- A value of a field is set with what is read from it; a null with null. -/
theorem nullable_parsed {f : JsonValue → Option β} {k : β → α} {parse : JsonValue → Option α}
    (hf : ∀ v b, f v = some b → parse v = some (k b)) {v : JsonValue} {x : Option β}
    (h : nullable f v = some x) (old : Option α) (hv : member members name = some v) :
    x.map k = patchedColumn parse members name old := by
  unfold patchedColumn
  rw [hv]
  cases v with
  | null =>
    cases h
    rfl
  | _ =>
    obtain ⟨b, hb, rfl⟩ := Option.map_eq_some_iff.mp h
    exact (hf _ b hb).symm

/-- What is set for a field, if its type reads no more than `nullable f`. -/
theorem optionalField_patched {f : JsonValue → Option β} {g : JsonValue → Option (Option β)} {k : β → α}
    {parse : JsonValue → Option α} (hg : ∀ v x, g v = some x → nullable f v = some x)
    (hf : ∀ v b, f v = some b → parse v = some (k b)) {x : Option (Option β)}
    (h : optionalField g members name = some x) (old : Option α) :
    (x.map (·.map k)).getD old = patchedColumn parse members name old := by
  unfold optionalField at h
  cases hv : member members name with
  | none =>
    rw [hv] at h
    obtain rfl := Option.some.inj h
    simp [patchedColumn, hv]
  | some v =>
    rw [hv] at h
    obtain ⟨y, hy, rfl⟩ := Option.map_eq_some_iff.mp h
    exact nullable_parsed hf (hg v y hy) old hv

/-- What a field with a default is set to, if its type reads no more than `parse`. -/
theorem optionalField_parsed {f : JsonValue → Option β} {k : β → α} {parse : JsonValue → Option α}
    (hf : ∀ v b, f v = some b → parse v = some (k b)) {x : Option β} (h : optionalField f members name = some x)
    (default : β) : some (k (x.getD default)) = (member members name).elim (some (k default)) parse := by
  unfold optionalField at h
  cases hv : member members name with
  | none =>
    rw [hv] at h
    obtain rfl := Option.some.inj h
    rfl
  | some v =>
    rw [hv] at h
    obtain ⟨b, hb, rfl⟩ := Option.map_eq_some_iff.mp h
    exact (hf v b hb).symm

/-- The checks read what `parse` reads. -/
theorem titleField_str {v : JsonValue} {t : Title} (h : titleField v = some t) : v.str = some t.1 := by
  obtain ⟨s, hs, h⟩ := Option.bind_eq_some_iff.mp h
  split_ifs at h
  cases h
  exact hs

theorem descriptionField_str {v : JsonValue} {d : Description} (h : descriptionField v = some d) :
    v.str = some d.1 := by
  obtain ⟨s, hs, h⟩ := Option.bind_eq_some_iff.mp h
  split_ifs at h
  cases h
  exact hs

theorem priorityField_int {v : JsonValue} {p : Priority} (h : priorityField P v = some p) :
    P.int v = some p.1 := by
  obtain ⟨n, hn, h⟩ := Option.bind_eq_some_iff.mp h
  split_ifs at h
  cases h
  exact hn

theorem create_posted {t : TaskCreate} (h : TaskCreate.modelValidate P (.object members) = some t)
    (ownerId taskId : ℤ) : StoredTask.create t ownerId taskId = .posted P members ownerId taskId := by
  unfold TaskCreate.modelValidate at h
  simp only [Option.bind_eq_bind, Option.bind_eq_some_iff, Option.guard_eq_some'] at h
  obtain ⟨-, -, title, ⟨v, hv, htitle⟩, description, hdescription, priority, hpriority, dueDate, hdueDate, h⟩ := h
  cases h
  have htitle : (member members "title").bind JsonValue.str = some title.1 := by
    rw [hv]
    exact titleField_str htitle
  have hdescription : (description.getD none).map (·.1) = patchedColumn JsonValue.str members "description" none := by
    rw [← optionalField_patched (fun v x hx => hx) (fun v d => descriptionField_str) hdescription none]
    cases description <;> rfl
  have hpriority : some (priority.getD ⟨1, TaskCreate.one_isPriority⟩).1 =
      (member members "priority").elim (some 1) P.int :=
    optionalField_parsed (fun v p => priorityField_int) hpriority _
  have hdueDate : dueDate.getD none = patchedColumn P.date members "due_date" none := by
    simpa using optionalField_patched (k := id) (fun v x hx => hx) (fun v d hd => hd) hdueDate none
  simp only [StoredTask.create, StoredTask.posted, htitle, hdescription, hpriority, hdueDate]

/-- An accepted body is an object with fields of the model only, each of which passed
its checks. -/
theorem modelValidate_eq_some {body : JsonValue} {u : TaskUpdateModel}
    (h : TaskUpdateModel.modelValidate P body = some u) : ∃ members, body = .object members ∧
      (∀ m ∈ members, m.1 ∈ TaskUpdateModel.fieldNames) ∧
      optionalField (rejectNull (nullable titleField)) members "title" = some u.title ∧
      optionalField (nullable descriptionField) members "description" = some u.description ∧
      optionalField (rejectNull (nullable (priorityField P))) members "priority" = some u.priority ∧
      optionalField (rejectNull (nullable P.bool)) members "completed" = some u.completed ∧
      optionalField (nullable P.date) members "due_date" = some u.dueDate := by
  cases body with
  | object members =>
    unfold TaskUpdateModel.modelValidate at h
    simp only [Option.bind_eq_bind, Option.bind_eq_some_iff, Option.guard_eq_some'] at h
    obtain ⟨-, hnames, title, htitle, description, hdescription, priority, hpriority, completed, hcompleted,
      dueDate, hdueDate, h⟩ := h
    cases h
    exact ⟨members, rfl, by simpa using hnames, htitle, hdescription, hpriority, hcompleted, hdueDate⟩
  | _ => cases h

theorem setattr_patched {u : TaskUpdateModel} (h : TaskUpdateModel.modelValidate P (.object members) = some u)
    (r : StoredTask) : r.setattr u = r.patched P members := by
  obtain ⟨members', hmembers, -, htitle, hdescription, hpriority, hcompleted, hdueDate⟩ := modelValidate_eq_some h
  cases hmembers
  have htitle := optionalField_patched (fun v x hx => (rejectNull_eq_some hx).2) (fun v t => titleField_str) htitle
    r.title
  have hdescription := optionalField_patched (fun v x hx => hx) (fun v d => descriptionField_str) hdescription
    r.description
  have hpriority := optionalField_patched (fun v x hx => (rejectNull_eq_some hx).2) (fun v p => priorityField_int)
    hpriority r.priority
  have hcompleted : u.completed.getD r.completed = patchedColumn P.bool members "completed" r.completed := by
    simpa using optionalField_patched (k := id) (fun v x hx => (rejectNull_eq_some hx).2) (fun v b hb => hb)
      hcompleted r.completed
  have hdueDate : u.dueDate.getD r.dueDate = patchedColumn P.date members "due_date" r.dueDate := by
    simpa using optionalField_patched (k := id) (fun v x hx => hx) (fun v d hd => hd) hdueDate r.dueDate
  simp only [StoredTask.setattr, StoredTask.patched, htitle, hdescription, hpriority, hcompleted, hdueDate]

/-- `reject_null` keeps nulls out. -/
theorem optionalField_rejectNull {f : JsonValue → Option α} {x : Option (Option α)}
    (h : optionalField (rejectNull (nullable f)) members name = some x) :
    member members name ≠ some .null ∧ x ≠ some none := by
  unfold optionalField at h
  cases hv : member members name with
  | none =>
    rw [hv] at h
    obtain rfl := Option.some.inj h
    simp
  | some v =>
    rw [hv] at h
    obtain ⟨y, hy, rfl⟩ := Option.map_eq_some_iff.mp h
    obtain ⟨hnull, hy⟩ := rejectNull_eq_some hy
    refine ⟨by simpa using hnull, fun hx => ?_⟩
    obtain rfl := Option.some.inj hx
    cases v with
    | null => exact hnull rfl
    | _ =>
      obtain ⟨b, -, hb⟩ := Option.map_eq_some_iff.mp hy
      cases hb

/-- A member has a name of the object. -/
theorem mem_of_member {v : JsonValue} (h : member members name = some v) : ∃ m ∈ members, m.1 = name := by
  obtain ⟨l₁, l₂, hl, -⟩ := List.lookup_eq_some_iff.mp h
  exact ⟨(name, v), List.mem_reverse.mp (by simp [hl]), rfl⟩

/-- The nulls of an accepted body are a description's or a due date's. -/
theorem null_of_accepted {u : TaskUpdateModel} (h : TaskUpdateModel.modelValidate P (.object members) = some u)
    (hnull : member members name = some .null) : name = "description" ∨ name = "due_date" := by
  obtain ⟨members', hmembers, hnames, htitle, -, hpriority, hcompleted, -⟩ := modelValidate_eq_some h
  cases hmembers
  obtain ⟨m, hm, rfl⟩ := mem_of_member hnull
  have hname := hnames m hm
  simp only [TaskUpdateModel.fieldNames, List.mem_cons, List.not_mem_nil, or_false] at hname
  rcases hname with hname | hname | hname | hname | hname
  · exact absurd (hname ▸ hnull) (optionalField_rejectNull htitle).1
  · exact .inl hname
  · exact absurd (hname ▸ hnull) (optionalField_rejectNull hpriority).1
  · exact absurd (hname ▸ hnull) (optionalField_rejectNull hcompleted).1
  · exact .inr hname

example (P : LaxParsing) : TaskUpdateModel.modelValidate P (.object [("title", .null)]) = none := rfl

/-- Both nulls are accepted. -/
theorem null_accepted (h : name = "description" ∨ name = "due_date") :
    TaskUpdateModel.modelValidate P (.object [(name, .null)]) ≠ none := by
  rcases h with rfl | rfl <;> exact Option.some_ne_none _

/-! ### The rows are those of a table -/

/-- The update that `model_dump(exclude_unset=True)` of an accepted body is. -/
def TaskUpdateModel.toUpdate (u : TaskUpdateModel) : TaskUpdate :=
  ⟨u.title.join, u.description, u.priority.join, u.completed.join, u.dueDate⟩

/-- A value that is set, and is no null, takes the place of the old one. -/
theorem getD_join {x : Option (Option α)} (hx : x ≠ some none) (k : α → β) (old : β) :
    (x.map (·.map k)).getD (some old) = some ((x.join.map k).getD old) := by
  rcases x with _ | _ | a
  · rfl
  · exact absurd rfl hx
  · rfl

theorem setattr_ofRecord {body : JsonValue} {u : TaskUpdateModel} (h : TaskUpdateModel.modelValidate P body = some u)
    (r : TaskRecord) : (StoredTask.ofRecord r).setattr u = .ofRecord (r.assign u.toUpdate) := by
  obtain ⟨members, -, -, htitle, -, hpriority, hcompleted, -⟩ := modelValidate_eq_some h
  have htitle := getD_join (optionalField_rejectNull htitle).2 Subtype.val r.title
  have hpriority := getD_join (optionalField_rejectNull hpriority).2 Subtype.val r.priority
  have hcompleted : u.completed.getD (some r.completed) = some (u.completed.join.getD r.completed) := by
    simpa using getD_join (optionalField_rejectNull hcompleted).2 id r.completed
  simp only [StoredTask.setattr, StoredTask.ofRecord, TaskRecord.assign, TaskUpdateModel.toUpdate, htitle, hpriority,
    hcompleted]

/-- The rows are those of a table whose rows satisfy the constraints. -/
def Refines (rows : List StoredTask) (db : TaskTable) : Prop := rows = db.rows.map .ofRecord

end

section

variable (P : LaxParsing) (ids : IdSource) {rows : List StoredTask} {db : TaskTable}

theorem StoredTask.notNull_ofRecord (r : TaskRecord) : (ofRecord r).NotNull := ⟨rfl, rfl, rfl⟩

theorem answer_ofRecord {r : TaskRecord} (h : r.Readable) : answer (.ofRecord r) = .answered (r.response h) := by
  have hfrom : TaskResponse.fromAttributes (.ofRecord r) = some (r.response h) :=
    TaskResponse.modelValidate_of_readable h
  rw [answer, hfrom]

/-- A row the table has is found in it. -/
theorem findStoredTask_refines (h : Refines rows db) (taskId ownerId : ℤ) :
    findStoredTask rows taskId ownerId = (db.findOwnedTask taskId ownerId).map .ofRecord := by
  subst h
  unfold findStoredTask TaskTable.findOwnedTask
  rw [List.find?_map]
  rfl

/-- `create_task` inserts, or changes nothing; what it answers is a task or a 422. -/
theorem postTask_refines (h : Refines rows db) (userId : ℤ) (body : JsonValue) :
    (∃ db', Refines (postTask P ids userId body rows).2 db') ∧
      ((postTask P ids userId body rows).1 = .unprocessable ∨
        ∃ task, (postTask P ids userId body rows).1 = .answered task) := by
  unfold postTask
  cases hbody : TaskCreate.modelValidate P body with
  | none => exact ⟨⟨db, h⟩, .inl rfl⟩
  | some taskCreate =>
    have hfree : db.get (ids.newId rows) = none := by
      refine List.find?_eq_none.mpr fun r hr hid => ?_
      refine ids.newId_free rows (.ofRecord r) ?_ (of_decide_eq_true hid)
      rw [h]
      exact List.mem_map_of_mem hr
    have hrecord : StoredTask.create taskCreate userId (ids.newId rows) =
        .ofRecord (taskCreate.record userId (ids.newId rows)) := rfl
    simp only [hrecord, if_pos (StoredTask.notNull_ofRecord _), answer_ofRecord (taskCreate.readable_record _ _)]
    refine ⟨⟨db.insert taskCreate userId _ hfree, ?_⟩, .inr ⟨_, rfl⟩⟩
    have hrows : rows = db.rows.map .ofRecord := h
    show rows ++ _ = (db.rows ++ _).map .ofRecord
    rw [List.map_append, ← hrows]
    rfl

/-- An accepted body is inserted, with the values it has, and answered. -/
theorem postTask_accepted (userId : ℤ) {body : JsonValue} {t : TaskCreate}
    (ht : TaskCreate.modelValidate P body = some t) :
    ∃ members task, body = .object members ∧
      postTask P ids userId body rows =
        (.answered task, rows ++ [.posted P members userId (ids.newId rows)]) ∧
      (StoredTask.posted P members userId (ids.newId rows)).ShownBy task := by
  cases body with
  | object members =>
    have hreadable := t.readable_record userId (ids.newId rows)
    have hrecord : StoredTask.posted P members userId (ids.newId rows) =
        .ofRecord (t.record userId (ids.newId rows)) := (create_posted ht _ _).symm
    refine ⟨members, (t.record userId (ids.newId rows)).response hreadable, rfl, ?_, _, hrecord,
      TaskRecord.represents_response hreadable⟩
    rw [postTask, ht]
    simp only [create_posted ht, hrecord, if_pos (StoredTask.notNull_ofRecord _), answer_ofRecord hreadable]
  | _ => cases ht

/-- The row that was found is the one with its id: an accepted patch sets the fields
there and nowhere else. -/
theorem patchTask_accepted (h : Refines rows db) {userId taskId : ℤ} {body : JsonValue} {row : StoredTask}
    (hrow : findStoredTask rows taskId userId = some row) {u : TaskUpdateModel}
    (hu : TaskUpdateModel.modelValidate P body = some u) :
    (∃ task, (patchTask P userId taskId body rows).1 = .answered task ∧ (row.setattr u).ShownBy task) ∧
      (patchTask P userId taskId body rows).2 = rows.map fun r => if r.id = taskId then r.setattr u else r := by
  rw [findStoredTask_refines h] at hrow
  obtain ⟨record, hrecord, rfl⟩ := Option.map_eq_some_iff.mp hrow
  obtain ⟨hid, -, hreadable⟩ := TaskTable.findOwnedTask_some hrecord
  have hmem : record ∈ db.rows := List.mem_of_find?_eq_some hrecord
  have hset := setattr_ofRecord hu record
  have hpatch : patchTask P userId taskId body rows = (.answered ((record.assign u.toUpdate).response
      (hreadable.assign u.toUpdate)),
      rows.map fun r => if r.id = taskId then .ofRecord (record.assign u.toUpdate) else r) := by
    unfold patchTask
    rw [findStoredTask_refines h, hrecord, hu]
    simp only [Option.map_some, hset, if_pos (StoredTask.notNull_ofRecord _),
      answer_ofRecord (hreadable.assign u.toUpdate)]
    rw [show (StoredTask.ofRecord (record.assign u.toUpdate)).id = taskId from hid]
  rw [hpatch]
  refine ⟨⟨_, rfl, _, hset, TaskRecord.represents_response _⟩, List.map_congr_left fun r hr => ?_⟩
  by_cases hrid : r.id = taskId
  · rw [if_pos hrid, if_pos hrid]
    rw [h] at hr
    obtain ⟨record', hmem', rfl⟩ := List.mem_map.mp hr
    -- ids are unique
    obtain rfl := List.inj_on_of_nodup_map db.ids_nodup hmem' hmem (hrid.trans hid.symm)
    exact hset.symm
  · rw [if_neg hrid, if_neg hrid]

/-- `update_task` updates, or changes nothing. -/
theorem patchTask_refines (h : Refines rows db) (userId taskId : ℤ) (body : JsonValue) :
    (∃ db', Refines (patchTask P userId taskId body rows).2 db') ∧
      ((patchTask P userId taskId body rows).1 = .unprocessable ∨
        (patchTask P userId taskId body rows).1 = .notFound ∨
        ∃ task, (patchTask P userId taskId body rows).1 = .answered task) := by
  cases hrow : findStoredTask rows taskId userId with
  | none =>
    have hpatch : patchTask P userId taskId body rows = (.notFound, rows) := by rw [patchTask, hrow]
    rw [hpatch]
    exact ⟨⟨db, h⟩, .inr (.inl rfl)⟩
  | some row =>
    cases hu : TaskUpdateModel.modelValidate P body with
    | none =>
      have hpatch : patchTask P userId taskId body rows = (.unprocessable, rows) := by rw [patchTask, hrow, hu]
      rw [hpatch]
      exact ⟨⟨db, h⟩, .inl rfl⟩
    | some u =>
      obtain ⟨⟨task, hanswered, -⟩, hrows⟩ := patchTask_accepted P h hrow hu
      refine ⟨⟨db.update taskId u.toUpdate, ?_⟩, .inr (.inr ⟨task, hanswered⟩)⟩
      rw [hrows]
      show _ = (db.rows.map _).map _
      rw [h, List.map_map, List.map_map]
      refine List.map_congr_left fun r _ => ?_
      by_cases hrid : r.id = taskId
      · have hstored : (StoredTask.ofRecord r).id = taskId := hrid
        simp only [Function.comp, if_pos hstored, if_pos hrid]
        exact setattr_ofRecord hu r
      · have hstored : (StoredTask.ofRecord r).id ≠ taskId := hrid
        simp only [Function.comp, if_neg hstored, if_neg hrid]

/-- One request keeps the rows those of a table, and does not fail. -/
theorem run_refines (h : Refines rows db) (r : BodyRequest) :
    (∃ db', Refines (r.run P ids rows).2 db') ∧
      (r.run P ids rows).1 ≠ .integrityError ∧ (r.run P ids rows).1 ≠ .validationError := by
  cases r with
  | create userId body =>
    obtain ⟨hrows, hanswer | ⟨task, hanswer⟩⟩ := postTask_refines P ids h userId body <;>
      exact ⟨hrows, by simp [BodyRequest.run, hanswer]⟩
  | patch userId taskId body =>
    obtain ⟨hrows, hanswer | hanswer | ⟨task, hanswer⟩⟩ := patchTask_refines P h userId taskId body <;>
      exact ⟨hrows, by simp [BodyRequest.run, hanswer]⟩

/-- So does a run of requests. -/
theorem runRequests_refines : ∀ (requests : List BodyRequest) {rows : List StoredTask} {db : TaskTable},
    Refines rows db → (∃ db', Refines (runRequests P ids requests rows).2 db') ∧
      ∀ o ∈ (runRequests P ids requests rows).1, o ≠ .integrityError ∧ o ≠ .validationError
  | [], rows, db, h => ⟨⟨db, h⟩, fun o ho => by cases ho⟩
  | r :: requests, rows, db, h => by
    obtain ⟨⟨db', hrefines⟩, hanswer⟩ := run_refines P ids h r
    obtain ⟨hrest, hanswers⟩ := runRequests_refines requests hrefines
    refine ⟨hrest, fun o ho => ?_⟩
    rcases List.mem_cons.mp ho with rfl | ho
    · exact hanswer
    · exact hanswers o ho

/-- The rows of a table satisfy what `TaskResponse` requires. -/
theorem valid_of_refines (h : Refines rows db) {row : StoredTask} (hrow : row ∈ rows) :
    row.Valid ∧ ∃ task, TaskResponse.fromAttributes row = some task ∧ row.ShownBy task := by
  rw [h] at hrow
  obtain ⟨record, hmem, rfl⟩ := List.mem_map.mp hrow
  have hreadable := db.readable record hmem
  refine ⟨?_, record.response hreadable, TaskResponse.modelValidate_of_readable hreadable, record, rfl,
    TaskRecord.represents_response hreadable⟩
  obtain ⟨htitle, hdescription, hpriority⟩ := hreadable
  exact ⟨⟨_, rfl, htitle⟩, hdescription, ⟨_, rfl, hpriority⟩, Option.some_ne_none _⟩

end

/-- After any creates and patches with any bodies, every row satisfies the constraints of
`TaskResponse` and can be answered, and no request of them failed. A rejected body
changes nothing; a post of an accepted one adds the row of its values, and a patch
with one sets the fields it has, a null only in the description and the due date,
and no others. Both answer the row. -/
theorem rows_read_back (P : LaxParsing) (ids : IdSource) (requests : List BodyRequest) :
    (∀ row ∈ (runRequests P ids requests []).2,
      row.Valid ∧ ∃ task, TaskResponse.fromAttributes row = some task ∧ row.ShownBy task) ∧
    (∀ o ∈ (runRequests P ids requests []).1, o ≠ .integrityError ∧ o ≠ .validationError) ∧
    (∀ userId body, TaskCreate.modelValidate P body = none →
      (postTask P ids userId body (runRequests P ids requests []).2).2 = (runRequests P ids requests []).2) ∧
    (∀ userId taskId body, TaskUpdateModel.modelValidate P body = none →
      (patchTask P userId taskId body (runRequests P ids requests []).2).2 = (runRequests P ids requests []).2) ∧
    (∀ userId body, TaskCreate.modelValidate P body ≠ none →
      ∃ members id task, body = .object members ∧ (∀ r ∈ (runRequests P ids requests []).2, r.id ≠ id) ∧
        postTask P ids userId body (runRequests P ids requests []).2 =
          (.answered task, (runRequests P ids requests []).2 ++ [.posted P members userId id]) ∧
        (StoredTask.posted P members userId id).ShownBy task) ∧
    (∀ userId taskId body row, findStoredTask (runRequests P ids requests []).2 taskId userId = some row →
      TaskUpdateModel.modelValidate P body ≠ none →
      ∃ members, body = .object members ∧
        (∀ name, member members name = some .null → name = "description" ∨ name = "due_date") ∧
        (∃ task, (patchTask P userId taskId body (runRequests P ids requests []).2).1 = .answered task ∧
          (row.patched P members).ShownBy task) ∧
        (patchTask P userId taskId body (runRequests P ids requests []).2).2 =
          (runRequests P ids requests []).2.map fun r => if r.id = taskId then r.patched P members else r) ∧
    ∀ name, name = "description" ∨ name = "due_date" →
      TaskUpdateModel.modelValidate P (.object [(name, .null)]) ≠ none := by
  have hempty : Refines [] .empty := rfl
  obtain ⟨⟨db, hrefines⟩, hanswers⟩ := runRequests_refines P ids requests hempty
  refine ⟨fun row hrow => valid_of_refines hrefines hrow, hanswers, ?notCreated, ?rejected, ?created, ?accepted,
    fun name => null_accepted⟩
  case notCreated =>
    intro userId body hbody
    rw [postTask, hbody]
  case rejected =>
    intro userId taskId body hbody
    unfold patchTask
    rw [hbody]
    split <;> rfl
  case created =>
    intro userId body hbody
    obtain ⟨t, ht⟩ := Option.ne_none_iff_exists'.mp hbody
    obtain ⟨members, task, hmembers, hpost, hshown⟩ := postTask_accepted P ids userId ht
    exact ⟨members, _, task, hmembers, ids.newId_free _, hpost, hshown⟩
  case accepted =>
    intro userId taskId body row hrow hbody
    obtain ⟨u, hu⟩ := Option.ne_none_iff_exists'.mp hbody
    obtain ⟨members, rfl, -⟩ := modelValidate_eq_some hu
    obtain ⟨hanswered, hrows⟩ := patchTask_accepted P hrefines hrow hu
    rw [setattr_patched hu] at hanswered
    refine ⟨members, rfl, fun name => null_of_accepted hu, hanswered, ?_⟩
    rw [hrows]
    simp only [setattr_patched hu]

/-- A number of decimal digits. -/
def readDigits (text : String) : Option ℕ :=
  if text.toList.all Char.isDigit then some (Nat.ofDigitChars 10 text.toList 0) else none

/-- Numbers are read from their digits, and dates from three members. -/
def exampleParsing : LaxParsing where
  int
    | .number text => (readDigits text).map (↑)
    | _ => none
  bool
    | .bool b => some b
    | _ => none
  date
    | .array [.number year, .number month, .number day] => do
      return ⟨← readDigits year, ← readDigits month, ← readDigits day⟩
    | _ => none

/-- A task of user 1, which its owner completes, and a body without a title. -/
def exampleRequests : List BodyRequest :=
  [.create 1 (.object [("title", .string "Buy milk"), ("description", .null), ("priority", .number "2")]),
    .patch 1 1 (.object [("completed", .bool true)]), .create 1 (.object [("priority", .number "2")])]

theorem rows_read_back_posted :
    (runRequests exampleParsing .afterLargest exampleRequests []).2 =
      [⟨1, some "Buy milk", none, some 2, some true, 1, none⟩] ∧
    ∃ id task, postTask exampleParsing .afterLargest 2 (.object [("title", .string "Call Bob")])
        [⟨1, some "Buy milk", none, some 2, some true, 1, none⟩] =
      (.answered task, [⟨1, some "Buy milk", none, some 2, some true, 1, none⟩,
        ⟨id, some "Call Bob", none, some 1, some false, 2, none⟩]) := by
  have hrows : (runRequests exampleParsing .afterLargest exampleRequests []).2 =
      [⟨1, some "Buy milk", none, some 2, some true, 1, none⟩] := by decide +kernel
  have hbody : TaskCreate.modelValidate exampleParsing (.object [("title", .string "Call Bob")]) ≠ none := by
    decide +kernel
  obtain ⟨-, -, -, -, hcreated, -⟩ := rows_read_back exampleParsing .afterLargest exampleRequests
  obtain ⟨members, id, task, hmembers, -, hpost, -⟩ := hcreated 2 _ hbody
  cases hmembers
  rw [hrows] at hpost
  exact ⟨hrows, id, task, hpost⟩

end TaskApi
