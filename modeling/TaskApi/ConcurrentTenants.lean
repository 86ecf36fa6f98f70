/-
# Users apart, in any order of their requests

In `TenantIsolation` the requests of a user run one after another. Here those of all users
overlap, and a request can lose its row between the query that finds it and the commit that
changes it. If the database gives every id out once, that row was the user's for good, and the
users stay apart as before. If it does not (a SQLite table without `AUTOINCREMENT` takes the
largest id plus one), a `PATCH` can find its id on a row of another user (`patch_crosses`).

Key definitions: `insertions`, `IdsNew`, `OwnedBy`, `refreshProtocol`, `Held`.
Key theorems: `ownedBy_unique`, `rows_ownedBy`, `concurrent_isolation`, `answered_row`.
-/
import TaskApi.Coherence
import TaskApi.Staleness
import TaskApi.TenantIsolation

namespace TaskApi

open Conc

variable {J : TaskJson} {settings : Settings} {fails : Call → Prop} {env : State → State → Prop} {s₀ : State}

/-! ### Whose an id is -/

/-- The id of the row that an event inserts, and the user it is for. -/
def insertion : TaskEvent J settings fails env → Option (ℤ × ℤ)
  | ⟨_, _, .call _ (.commitInsert _ userId) (.ok id)⟩ => some (id, userId)
  | _ => none

def insertions (tr : List (TaskEvent J settings fails env)) : List (ℤ × ℤ) := tr.filterMap insertion

theorem insertions_append (u tr : List (TaskEvent J settings fails env)) :
    insertions (u ++ tr) = insertions u ++ insertions tr := List.filterMap_append

/-- No id is given to a new row that a row has had before. -/
structure IdsNew (s₀ : State) (tr : List (TaskEvent J settings fails env)) : Prop where
  nodup : ((insertions tr).map (·.1)).Nodup
  free : ∀ p ∈ insertions tr, s₀.db.get p.1 = none

theorem IdsNew.of_append {u tr : List (TaskEvent J settings fails env)} (h : IdsNew s₀ (u ++ tr)) : IdsNew s₀ tr := by
  obtain ⟨hnodup, hfree⟩ := h
  rw [insertions_append] at hnodup hfree
  rw [List.map_append] at hnodup
  exact ⟨hnodup.of_append_right, fun p hp => hfree p (List.mem_append_right _ hp)⟩

/-- The id was given to a row of the user, at first or in the run. -/
def OwnedBy (s₀ : State) (tr : List (TaskEvent J settings fails env)) (id userId : ℤ) : Prop :=
  (∃ row, s₀.db.get id = some row ∧ row.ownerId = userId) ∨ (id, userId) ∈ insertions tr

theorem OwnedBy.append {tr : List (TaskEvent J settings fails env)} {id userId : ℤ} (h : OwnedBy s₀ tr id userId)
    (u : List (TaskEvent J settings fails env)) : OwnedBy s₀ (u ++ tr) id userId := by
  refine h.imp_right fun hmem => ?_
  rw [insertions_append]
  exact List.mem_append_right _ hmem

/-- New ids have one owner. -/
theorem ownedBy_unique {tr : List (TaskEvent J settings fails env)} (hnew : IdsNew s₀ tr) {id userId userId' : ℤ}
    (h : OwnedBy s₀ tr id userId) (h' : OwnedBy s₀ tr id userId') : userId = userId' := by
  rcases h with ⟨row, hrow, rfl⟩ | hmem
  · rcases h' with ⟨row', hrow', rfl⟩ | hmem'
    · rw [hrow] at hrow'
      rw [Option.some.inj hrow']
    · rw [hnew.free _ hmem'] at hrow
      cases hrow
  · rcases h' with ⟨row', hrow', -⟩ | hmem'
    · rw [hnew.free _ hmem] at hrow'
      cases hrow'
    · have heq := List.inj_on_of_nodup_map hnew.nodup hmem hmem' rfl
      exact congrArg Prod.snd heq

/-! ### Every run -/

variable {gate : Config (taskSystem J settings fails Environment) → Prop}
  {c : Config (taskSystem J settings fails Environment)}

/-- The rows of a table after a step: the rows before, changed or not, and the one that it
inserts. -/
theorem step_rows_from {x : Call} {v : calls.Out x} {s s' : State} (hs : step fails x s v s') {row : TaskRecord}
    (hrow : row ∈ s'.db.rows) : (∃ row' ∈ s.db.rows, row'.id = row.id ∧ row'.ownerId = row.ownerId) ∨
      ∃ body, (⟨x, v⟩ : Σ c, calls.Out c) = ⟨.commitInsert body row.ownerId, .ok row.id⟩ := by
  cases x with
  | commitInsert body o =>
    obtain ⟨id, hid, rfl, rfl⟩ := step_commitInsert hs
    rcases List.mem_append.mp hrow with hrow | hrow
    · exact .inl ⟨row, hrow, rfl, rfl⟩
    · obtain rfl := List.mem_singleton.mp hrow
      exact .inr ⟨body, rfl⟩
  | commitUpdate id u =>
    rcases step_commitUpdate hs with rfl | ⟨-, rfl⟩
    · exact .inl ⟨row, hrow, rfl, rfl⟩
    · obtain ⟨row', hrow', rfl⟩ := List.mem_map.mp hrow
      refine .inl ⟨row', hrow', ?_⟩
      split_ifs
      · exact ⟨(TaskRecord.assign_id _ _).symm, (TaskRecord.assign_ownerId _ _).symm⟩
      · exact ⟨rfl, rfl⟩
  | commitDelete id =>
    obtain ⟨-, rfl⟩ := step_commitDelete hs
    exact .inl ⟨row, List.mem_of_mem_filter hrow, rfl, rfl⟩
  | _ =>
    rw [step_db rfl hs] at hrow
    exact .inl ⟨row, hrow, rfl, rfl⟩

/-- Every row, and every id a request works on, is its owner's. -/
theorem rows_ownedBy (h : Run gate (.init s₀) c) :
    (∀ row ∈ c.state.db.rows, OwnedBy s₀ c.trace row.id row.ownerId) ∧
    ∀ t r id, Requested t r c.trace → phase ownerAutomaton t c.trace = some id → OwnedBy s₀ c.trace id r.userId := by
  refine @Run.invariant _ _ _ s₀ (ownerDiscipline J settings fails Environment)
    (fun s tr => (∀ row ∈ s.db.rows, OwnedBy s₀ tr row.id row.ownerId) ∧
      ∀ t r id, Requested t r tr → phase ownerAutomaton t tr = some id → OwnedBy s₀ tr id r.userId) ?_ ?_ ?_ ?_ c h
  · exact ⟨fun row hrow => .inl ⟨row, TaskTable.get_of_mem hrow, rfl⟩, fun t r id hr => by cases hr.choose_spec⟩
  · rintro b hb ⟨hrows, hphase⟩ t r hn
    refine ⟨fun row hrow => (hrows row hrow).append [_], fun t' r' id hr hid => ?_⟩
    rw [phase_start] at hid
    rcases requested_start.mp hr with ⟨-, rfl, -⟩ | hr
    · rw [phase_eq_init _ (Run.not_acted hb hn)] at hid
      cases hid
    · exact (hphase t' r' id hr hid).append [_]
  · rintro b hb ⟨hrows, hphase⟩ t r x v s' hrun hr ha hs
    refine ⟨fun row hrow => ?_, fun t' r' id hr' hid => ?_⟩
    · rcases step_rows_from hs hrow with ⟨row', hrow', hid, howner⟩ | ⟨body, heq⟩
      · exact hid ▸ howner ▸ (hrows row' hrow').append [_]
      · cases heq
        exact .inr List.mem_cons_self
    have hbefore : Requested t' r' b.trace := requested_call.mp hr'
    by_cases ht : t' = t
    · subst ht
      obtain rfl := hb.requested_unique hr hbefore
      rw [phase_call_self] at hid
      by_cases hcall : (∀ i o, x ≠ .findOwnedTask i o) ∧ ∀ b o, x ≠ .commitInsert b o
      · rw [ownerAutomaton_next hcall.1 hcall.2] at hid
        exact (hphase t' r id hr hid).append [_]
      · cases x with
        | findOwnedTask i o =>
          obtain rfl : o = r.userId := ha
          obtain rfl := step_findOwnedTask hs
          cases hx : b.state.db.findOwnedTask i r.userId with
          | none =>
            rw [hx] at hid
            exact (hphase t' r id hr hid).append [_]
          | some row =>
            rw [hx] at hid
            obtain ⟨rfl, howner, -⟩ := TaskTable.findOwnedTask_some hx
            cases hid
            have hmem : row ∈ b.state.db.rows := List.mem_of_find?_eq_some hx
            exact howner ▸ (hrows row hmem).append [_]
        | commitInsert body o =>
          obtain rfl : o = r.userId := ha
          obtain ⟨id', hid', rfl, rfl⟩ := step_commitInsert hs
          cases hid
          exact .inr List.mem_cons_self
        | _ => exact absurd ⟨by simp, by simp⟩ hcall
    · rw [phase_call_ne _ (Ne.symm ht)] at hid
      exact (hphase t' r' id hbefore hid).append [_]
  · rintro b hb ⟨hrows, hphase⟩ s' he
    exact ⟨fun row hrow => hrows row (he.db ▸ hrow), hphase⟩

/-- What a call of a thread can do is told by what the thread's row is. -/
theorem call_owned (hnew : IdsNew s₀ c.trace) (h : Run gate (.init s₀) c)
    {u tr : List (TaskEvent J settings fails Environment)} {s s' : State} {t : ℕ} {r : Request} {x : Call}
    {v : calls.Out x} (he : c.trace = u ++ ⟨s, s', .call t x v⟩ :: tr) (hr : Requested t r c.trace) :
    ∃ q, step fails x s v s' ∧ (ownerProtocol r).allows q x ∧ Owned r.userId s.db q := by
  obtain ⟨b, r', hb, rfl, rfl, -, hr', hunique, ha, hs⟩ := Run.made (ownerDiscipline J settings fails Environment) h he
  obtain rfl := hunique r hr
  refine ⟨_, hs, ha, fun id hid row hrow => ?_⟩
  obtain ⟨hrows, hphase⟩ := rows_ownedBy hb
  have hnew : IdsNew s₀ b.trace := by
    rw [he, ← List.singleton_append, ← List.append_assoc] at hnew
    exact hnew.of_append
  have hmem : row ∈ b.state.db.rows := List.mem_of_find?_eq_some hrow
  obtain ⟨rfl, -⟩ := TaskTable.get_some hrow
  exact ownedBy_unique hnew (hrows row hmem) (hphase t r row.id hr' hid)

/-! ### Answers -/

/-- The row that a request has read back last. -/
abbrev refreshProtocol : Protocol calls where
  Phase := Option TaskRecord
  init := none
  next
    | _, .refresh _, .ok row => some row
    | q, _, _ => q
  allows _ _ := True

/-- The task is the row's that was read back. -/
def ReadBack (q : Option TaskRecord) (x : Except Exn TaskResponse) : Prop :=
  ∀ task, x = .ok task → ∃ row, q = some row ∧ TaskResponse.modelValidate row = some task

section Follows

variable {can : (c : Call) → calls.Out c → Prop} {q : Option TaskRecord}

theorem validateTask_readBack (row : TaskRecord) :
    (validateTask row).Follows refreshProtocol can ReadBack (some row) := by
  unfold validateTask
  split
  · exact fun task h => by cases h
  · rename_i task' hvalidate
    intro task h
    cases h
    exact ⟨row, rfl, hvalidate⟩

theorem follows_unread {α : Type} {p : Act α} (hp : p.Makes fun c : Call => ∀ id, c ≠ .refresh id) :
    p.Follows refreshProtocol can (fun q' _ => q' = q) q :=
  hp.keeps fun q c hc => ⟨trivial, fun v => by
    cases c with
    | refresh id => exact absurd rfl (hc id)
    | _ => rfl⟩

theorem invalidateCachedTask_unread (ownerId taskId : ℤ) :
    (invalidateCachedTask ownerId taskId).Makes fun c : Call => ∀ id, c ≠ .refresh id :=
  Prog.Makes.bind (fun _ => Prog.makes_ret _) (makes_attemptRedis (Prog.makes_perform (by simp)))

theorem createTask_readBack (userId : ℤ) (body : TaskCreate) :
    (createTask userId body).Follows refreshProtocol can ReadBack none := by
  unfold createTask
  refine Prog.follows_bind.mpr (Prog.follows_perform.mpr ⟨trivial, fun v _ => ?_⟩)
  rcases v with e | id
  · exact fun task h => by cases h
  refine Prog.follows_bind.mpr (Prog.follows_perform.mpr ⟨trivial, fun v _ => ?_⟩)
  rcases v with e | row
  · exact fun task h => by cases h
  refine Prog.follows_bind.mpr ((follows_unread (invalidateCachedTask_unread userId row.id)).mono fun q x hq => ?_)
  subst hq
  cases x with
  | error e => exact fun task h => by cases h
  | ok _ => exact validateTask_readBack row

theorem updateTask_readBack (userId taskId : ℤ) (body : TaskUpdate) :
    (updateTask userId taskId body).Follows refreshProtocol can ReadBack none := by
  unfold updateTask getOwnedTaskOr404
  refine Prog.follows_bind.mpr (Prog.follows_bind.mpr (Prog.follows_perform.mpr ⟨trivial, fun v _ => ?_⟩))
  rcases v with e | _ | row
  · exact fun task h => by cases h
  · exact fun task h => by cases h
  refine Prog.follows_bind.mpr (Prog.follows_perform.mpr ⟨trivial, fun v _ => ?_⟩)
  rcases v with e | _
  · exact fun task h => by cases h
  refine Prog.follows_bind.mpr ((follows_unread (invalidateCachedTask_unread _ _)).mono fun q x hq => ?_)
  subst hq
  cases x with
  | error e => exact fun task h => by cases h
  | ok _ =>
    refine Prog.follows_bind.mpr (Prog.follows_perform.mpr ⟨trivial, fun v _ => ?_⟩)
    rcases v with e | row'
    · exact fun task h => by cases h
    · exact validateTask_readBack row'

end Follows

/-- A write answers with the row that it has read back. -/
def refreshDiscipline (J : TaskJson) (settings : Settings) (fails : Call → Prop) (env : State → State → Prop) :
    Discipline (taskSystem J settings fails env) where
  protocol _ := refreshProtocol
  final r q x := r.isWrite = true → ∀ task, x = .ok (some task) →
    ∃ row, q = some row ∧ TaskResponse.modelValidate row = some task
  follows
    | .create userId body => Prog.follows_bind.mpr ((createTask_readBack userId body).mono fun q x hx => by
        cases x with
        | ok task =>
          intro _ task' h
          cases h
          exact hx task rfl
        | error e => exact fun _ task h => by cases h)
    | .get ownerId taskId => (((taskDiscipline J settings fails env).follows (.get ownerId taskId)).weaken
        (R := refreshProtocol) (fun _ _ _ _ => trivial) none).mono fun _ _ _ h => by cases h
    | .patch userId taskId body => Prog.follows_bind.mpr ((updateTask_readBack userId taskId body).mono fun q x hx => by
        cases x with
        | ok task =>
          intro _ task' h
          cases h
          exact hx task rfl
        | error e => exact fun _ task h => by cases h)
    | .delete userId taskId => Prog.follows_bind.mpr ((deleteTask_follows_owner.weaken (R := refreshProtocol)
        (fun _ _ _ _ => trivial) none).mono fun q x _ => by
        cases x with
        | ok _ => exact fun _ task h => by cases h
        | error e => exact fun _ task h => by cases h)

/-- Nothing that happened is later than now. -/
theorem now_of_mem (h : Run gate (.init s₀) c) {e : TaskEvent J settings fails Environment} (he : e ∈ c.trace) :
    s₀.now ≤ e.before.now ∧ e.before.now ≤ c.state.now := by
  obtain ⟨u, tr, he⟩ := List.append_of_mem he
  obtain ⟨b, b', hb, hs, hbc, -, hstate, -⟩ := Run.split h he
  rw [hstate.symm]
  exact ⟨now_mono hb, now_mono (.head hs hbc)⟩

/-- Some call of the run found the task in the table, as the fields of a row of the user. -/
def Held (tr : List (TaskEvent J settings fails env)) (userId : ℤ) (task : TaskResponse) : Prop :=
  ∃ s s' t x v, (⟨s, s', .call t x v⟩ : TaskEvent J settings fails env) ∈ tr ∧
    ∃ row ∈ s.db.rows, row.ownerId = userId ∧ task.Represents row

/-- What a `GET` answers has been a row of its user when it was queried. -/
theorem get_answered_row (h : Run gate (.init s₀) c) {t : ℕ} {o i : ℤ}
    (hempty : s₀.redis (TaskCache.buildKey o i) = none) (hr : Requested t (Request.get o i) c.trace)
    {task : TaskResponse} (hx : c.result t = some (.ok (some task))) : Held c.trace o task := by
  have hfound : ∀ {s : State}, taskOf (s.row o i) = some task →
      ∃ row ∈ s.db.rows, row.ownerId = o ∧ task.Represents row := by
    intro s hs
    obtain ⟨row, hrow, hvalidate⟩ := Option.bind_eq_some_iff.mp hs
    exact ⟨row, List.mem_of_find?_eq_some hrow, (TaskTable.findOwnedTask_some hrow).2.1,
      TaskResponse.modelValidate_eq_some_iff.mp hvalidate⟩
  obtain ⟨-, ⟨a, ha, heq⟩ | ⟨heq, -⟩⟩ := taskFinal h hr hx
  · obtain rfl : a = some task := by
      cases a <;> cases heq
      rfl
    rcases ha with hhit | ⟨-, x, hx, htask⟩
    · -- the entry was written with what a query had found, however long ago
      obtain ⟨u, s, tr, value, he, hget, hread⟩ := get_hit h hr hhit
      obtain ⟨b, b', hb, hs, hbc, rfl, rfl, -⟩ := Run.split h he
      obtain ⟨entry, hentry, -, rfl⟩ := (b.state.redis.get_eq_some _).mp hget
      have hd : FillsWithin (b.state.now - s₀.now) o i b.trace := fun t f hf _ q hq _ => by
        have hf := (now_of_mem hb hf).2
        have hq := (now_of_mem hb hq).1
        linarith
      obtain ⟨t', q, hq, hreads, hqread, -⟩ := fresh_of_run hempty hb hd entry hentry
      rw [hread] at hqread
      obtain ⟨s, s', act⟩ := q
      obtain ⟨v, hact⟩ := hreads
      subst hact
      refine ⟨s, s', t', _, v, ?_, hfound (Option.some.inj hqread).symm⟩
      rw [he]
      exact List.mem_append_right _ (List.mem_cons_of_mem _ hq)
    · obtain ⟨u, s, s', tr, he, rfl, -⟩ := get_answer h hr hx
      exact ⟨s, s', t, _, _, he ▸ List.mem_append_right _ List.mem_cons_self, hfound htask.symm⟩
  · cases heq

/-- What any request answers has been a row of its user. -/
theorem answered_row (hempty : ∀ o i, s₀.redis (TaskCache.buildKey o i) = none) (hnew : IdsNew s₀ c.trace)
    (h : Run gate (.init s₀) c) {t : ℕ} {r : Request} (hr : Requested t r c.trace) {task : TaskResponse}
    (hx : c.result t = some (.ok (some task))) : Held c.trace r.userId task := by
  by_cases hwrite : r.isWrite = true
  · obtain ⟨row, hrow, hvalidate⟩ := Run.final (refreshDiscipline J settings fails Environment) h hr hx hwrite task rfl
    obtain ⟨u, s, s', x, v, tr, he, hnot, hnext⟩ := @phase_became _ _ refreshProtocol.toAutomaton t
      (fun q => q = some row) (by rintro ⟨⟩) _ hrow
    cases x with
    | refresh id =>
      rcases v with e | row'
      · exact absurd hnext hnot
      · obtain rfl : row' = row := Option.some.inj hnext
        obtain ⟨q, hs, ha, howned⟩ := call_owned hnew h he hr
        obtain ⟨-, ⟨hv, -⟩ | ⟨row'', hv, hget⟩⟩ := step_refresh hs
        · cases hv
        · cases hv
          exact ⟨s, s', t, _, _, he ▸ List.mem_append_right _ List.mem_cons_self, _,
            show row' ∈ s.db.rows from List.mem_of_find?_eq_some hget, (step_rows hs ha howned _).2 id rfl,
            TaskResponse.modelValidate_eq_some_iff.mp hvalidate⟩
    | _ => exact absurd hnext hnot
  · cases r with
    | get o i => exact get_answered_row h (hempty o i) hr hx
    | _ => exact absurd rfl hwrite

/-- **Users apart.** However the requests of all users overlap, whatever Redis calls fail and
whatever entries are lost: if no id is given out twice, each call of a request leaves the rows
of all other users and their keys as they were, the database returns it no row but its user's,
and it answers with nothing but what a row of its user has been in the run. -/
theorem concurrent_isolation (hempty : ∀ o i, s₀.redis (TaskCache.buildKey o i) = none) (hnew : IdsNew s₀ c.trace)
    (h : Interleaved (.init s₀) c) {t : ℕ} {r : Request} (hr : Requested t r c.trace) :
    (∀ u s s' tr x v, c.trace = u ++ ⟨s, s', .call t x v⟩ :: tr →
      s'.db.others r.userId = s.db.others r.userId ∧ (∀ key, ¬ OwnKey r.userId key → s'.redis key = s.redis key) ∧
      ∀ row, ((∃ i o, (⟨x, v⟩ : Σ c, calls.Out c) = ⟨.findOwnedTask i o, .ok (some row)⟩) ∨
        ∃ id, (⟨x, v⟩ : Σ c, calls.Out c) = ⟨.refresh id, .ok row⟩) → row.ownerId = r.userId) ∧
    ∀ task, c.result t = some (.ok (some task)) → Held c.trace r.userId task := by
  refine ⟨fun u s s' tr x v he => ?_, fun task => answered_row hempty hnew h hr⟩
  obtain ⟨q, hs, ha, howned⟩ := call_owned hnew h he hr
  obtain ⟨hothers, hkeys⟩ := step_frame hs ha howned
  refine ⟨hothers, hkeys, fun row hrow => ?_⟩
  obtain ⟨hfind, hrefresh⟩ := step_rows hs ha howned row
  rcases hrow with ⟨i, o, heq⟩ | ⟨id, heq⟩
  · exact hfind i o heq
  · exact hrefresh id heq

/-- Users 1 and 2 post a task each, call by call in turns. -/
noncomputable def postsInTurns : Config (taskSystem exampleJson .defaults (fun _ => True) Environment) :=
  exampleRun _ _ [.start 0 (.create 1 exampleBody), .start 1 (.create 2 exampleBody), .call 0, .call 1, .call 0, .call 1,
    .call 0, .call 1]

theorem concurrent_isolation_posts : Held postsInTurns.trace 1 exampleTask := by
  have h : Interleaved (.init State.new) postsInTurns := Interleaved.schedule (step_serve _ _) _ _
  have hnew : IdsNew State.new postsInTurns.trace := ⟨by decide +kernel, fun p _ => rfl⟩
  have hr : Requested 0 (Request.create 1 exampleBody) postsInTurns.trace := (Run.pool_trace h).1 0 _ _ rfl
  exact (concurrent_isolation (fun _ _ => rfl) hnew h hr).2 exampleTask (by decide +kernel)

/-- User 1 has task 1. -/
def exampleFirst : State := { State.new with db := TaskTable.empty.insert exampleBody 1 1 TaskTable.get_empty_one }

def exampleCompletion : TaskUpdate := { completed := some true }

/-- User 1 completes task 1 and deletes it at the same time, and user 2 posts a task that gets
the id. -/
noncomputable def crossedRun : Config (taskSystem exampleJson .defaults (fun _ => True) Environment) :=
  (Config.init exampleFirst).schedule (State.serve Pick.first) [.start 0 (.patch 1 1 exampleCompletion), .call 0,
    .start 1 (.delete 1 1), .call 1, .call 1, .start 2 (.create 2 exampleBody), .call 2, .call 0]

/-- With an id that comes back, a request of user 1 writes to a row of user 2. -/
theorem patch_crosses : Interleaved (.init exampleFirst) crossedRun ∧
    Requested 0 (Request.patch 1 1 exampleCompletion) crossedRun.trace ∧
    ∃ e ∈ crossedRun.trace, e.act = .call 0 (.commitUpdate 1 exampleCompletion) (.ok ()) ∧
      e.after.db.others 1 ≠ e.before.db.others 1 := by
  have h : Interleaved (.init exampleFirst) crossedRun := Interleaved.schedule (step_serve _ _) _ _
  exact ⟨h, (Run.pool_trace h).1 0 _ _ rfl, _, List.mem_cons_self, rfl, by decide +kernel⟩

end TaskApi
