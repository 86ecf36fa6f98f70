/-
# The task routes as an interleaved system

The shared state is Redis, the `tasks` table and a clock. A call takes effect in
one step (`State.serve`): Redis commands and commits are atomic, what the
generators and the database pick (tokens, jitter, new ids) is arbitrary within
their contracts (`Pick`). A Redis call may also fail, where `fails` allows it,
before or after it took effect (`step`). Between steps time passes and entries
may disappear (`Passes`, `Evicts`).

Key definitions: `State`, `State.serve`, `step`, `taskSystem`.
Key theorems: `step_db`, `step_redis`, `step_error`, `step_redisSet`,
`step_redisDelete`, `step_commitUpdate`.
-/
import TaskApi.Lib.Interleave
import TaskApi.TaskRoutes

namespace TaskApi

open Conc

/-- The shared state. -/
structure State where
  now : ℚ
  redis : Redis
  db : TaskTable

/-- A new database and an empty Redis. -/
def State.new : State := ⟨0, fun _ => none, .empty⟩

/-- What is not determined by the state: the generators' values and the id the
database gives to a new row, which no row has. -/
structure Pick where
  uuid4 : String
  randint : ℤ → ℤ → ℤ
  newId : TaskTable → ℤ
  randint_mem : ∀ lo hi, lo ≤ hi → lo ≤ randint lo hi ∧ randint lo hi ≤ hi
  newId_free : ∀ db : TaskTable, db.get (newId db) = none

/-- The first number no row has as its id. -/
def TaskTable.freshId (db : TaskTable) : ℤ := (db.rows.map (·.id)).foldr max 0 + 1

theorem TaskTable.freshId_free (db : TaskTable) : db.get db.freshId = none := by
  refine List.find?_eq_none.mpr fun r hr h => ?_
  have hle := le_foldr_max (db.rows.map (·.id)) r.id (List.mem_map.mpr ⟨r, hr, rfl⟩)
  rw [of_decide_eq_true h] at hle
  exact absurd hle (not_le.mpr (lt_add_one _))

/-- One choice of all of them. -/
def Pick.first : Pick where
  uuid4 := "token"
  randint lo _ := lo
  newId := TaskTable.freshId
  randint_mem _ _ h := ⟨le_rfl, h⟩
  newId_free := TaskTable.freshId_free

/-- The effect of a call that does not fail at the connection. -/
def State.serve (pick : Pick) : (c : Call) → State → calls.Out c × State
  | .redisGet key, s => (.ok (s.redis.get s.now key), s)
  | .redisSet key value ex, s => (.ok (), { s with redis := s.redis.set s.now key value ex })
  | .redisSetNx key value ex, s =>
    (.ok (s.redis.setNx s.now key value ex).1,
      { s with redis := (s.redis.setNx s.now key value ex).2 })
  | .redisDelete key, s => (.ok (), { s with redis := s.redis.delete key })
  | .redisEvalReleaseLock key token, s =>
    (.ok (s.redis.releaseLockScript s.now key token).1,
      { s with redis := (s.redis.releaseLockScript s.now key token).2 })
  | .uuid4, s => (.ok pick.uuid4, s)
  | .randint lo hi, s => (.ok (pick.randint lo hi), s)
  | .sleep _, s => (.ok (), s)
  | .findOwnedTask taskId ownerId, s => (.ok (s.db.findOwnedTask taskId ownerId), s)
  | .commitInsert body ownerId, s =>
    (.ok (pick.newId s.db),
      { s with db := s.db.insert body ownerId (pick.newId s.db) (pick.newId_free s.db) })
  | .commitUpdate id changes, s =>
    -- a session without changes issues no `UPDATE`
    if changes = {} then (.ok (), s)
    else if s.db.get id = none then (.error .staleDataError, s)
    else (.ok (), { s with db := s.db.update id changes })
  | .commitDelete id, s => (.ok (), { s with db := s.db.delete id })
  | .refresh id, s =>
    match s.db.get id with
    | none => (.error .invalidRequestError, s)
    | some row => (.ok row, s)

/-- One atomic step. A Redis call that `fails` allows to fail raises a
`RedisError`, and has taken effect or not. -/
def step (fails : Call → Prop) (c : Call) (s : State) (v : calls.Out c) (s' : State) : Prop :=
  (∃ pick, s.serve pick c = (v, s')) ∨
  (c.isRedis ∧ fails c ∧ v = .error .redisError ∧ (s' = s ∨ ∃ pick, s' = (s.serve pick c).2))

theorem step_serve (fails : Call → Prop) (pick : Pick) (c : Call) (s : State) :
    step fails c s (s.serve pick c).1 (s.serve pick c).2 := .inl ⟨pick, rfl⟩

/-- Time passes. -/
def Passes (s s' : State) : Prop := ∃ t, s.now ≤ t ∧ s' = { s with now := t }

/-- An entry disappears. -/
def Evicts (s s' : State) : Prop := ∃ key, s' = { s with redis := s.redis.delete key }

/-- The task routes over one Redis and one database. -/
abbrev taskSystem (J : TaskJson) (settings : Settings) (fails : Call → Prop)
    (env : State → State → Prop) : System calls where
  State := State
  step := step fails
  env := env
  Req := Request
  Res := Option TaskResponse
  body := Request.body J settings

/-! ### What a step can do

Each call is inverted once; the invariants below never unfold `step`. -/

/-- The calls that commit to the database. -/
def Call.isCommit : Call → Bool
  | .commitInsert .. | .commitUpdate .. | .commitDelete _ => true
  | _ => false

/-- The key a call may write. -/
def Call.writes : Call → Option String
  | .redisSet key _ _ | .redisSetNx key _ _ | .redisDelete key | .redisEvalReleaseLock key _ => some key
  | _ => none

variable {fails : Call → Prop} {s s' : State}

/-- Only a commit changes the table. -/
theorem step_db {c : Call} {v : calls.Out c} (hc : c.isCommit = false) (h : step fails c s v s') :
    s'.db = s.db := by
  have served : ∀ pick, (s.serve pick c).2.db = s.db := fun pick => by
    cases c with
    | refresh id => simp only [State.serve]; split <;> rfl
    | commitInsert _ _ | commitUpdate _ _ | commitDelete _ => cases hc
    | _ => rfl
  rcases h with ⟨pick, h⟩ | ⟨-, -, -, rfl | ⟨pick, rfl⟩⟩
  · rw [← served pick, h]
  · rfl
  · exact served pick

/-- A call changes the entry of no key but the one it writes. -/
theorem step_redis {c : Call} {v : calls.Out c} {key : String} (hc : c.writes ≠ some key)
    (h : step fails c s v s') : s'.redis key = s.redis key := by
  have served : ∀ pick, (s.serve pick c).2.redis key = s.redis key := fun pick => by
    cases c with
    | redisSet k value ex => exact s.redis.set_ne _ _ _ fun h => hc (by rw [h]; rfl)
    | redisSetNx k value ex => exact s.redis.setNx_ne _ _ _ fun h => hc (by rw [h]; rfl)
    | redisDelete k => exact s.redis.delete_ne fun h => hc (by rw [h]; rfl)
    | redisEvalReleaseLock k t => exact s.redis.releaseLockScript_ne _ _ fun h => hc (by rw [h]; rfl)
    | commitUpdate id u => simp only [State.serve]; split_ifs <;> rfl
    | refresh id => simp only [State.serve]; split <;> rfl
    | _ => rfl
  rcases h with ⟨pick, h⟩ | ⟨-, -, -, rfl | ⟨pick, rfl⟩⟩
  · rw [← served pick, h]
  · rfl
  · exact served pick

theorem step_now {c : Call} {v : calls.Out c} (h : step fails c s v s') : s'.now = s.now := by
  have served : ∀ pick, (s.serve pick c).2.now = s.now := fun pick => by
    cases c with
    | commitUpdate id u => simp only [State.serve]; split_ifs <;> rfl
    | refresh id => simp only [State.serve]; split <;> rfl
    | _ => rfl
  rcases h with ⟨pick, h⟩ | ⟨-, -, -, rfl | ⟨pick, rfl⟩⟩
  · rw [← served pick, h]
  · rfl
  · exact served pick

/-- A call that is not one of Redis's never raises `RedisError`. -/
theorem step_error {c : Call} {v : calls.Out c} (h : step fails c s v s')
    (hv : v = .error .redisError) : c.isRedis ∧ fails c := by
  rcases h with ⟨pick, h⟩ | ⟨h1, h2, -⟩
  · have h := (Prod.ext_iff.mp h).1.trans hv
    exfalso
    cases c with
    | commitUpdate id u => simp only [State.serve] at h; split_ifs at h; cases h
    | refresh id => simp only [State.serve] at h; split at h <;> cases h
    | _ => cases h
  · exact ⟨h1, h2⟩

/-- Redis's calls raise nothing else. -/
theorem step_redis_error {c : Call} {e : Exn} (hc : c.isRedis) (h : step fails c s (.error e) s') :
    e = .redisError := by
  rcases h with ⟨pick, h⟩ | ⟨-, -, h, -⟩
  · have h := (Prod.ext_iff.mp h).1
    cases c <;> cases hc <;> cases h
  · cases h
    rfl

theorem step_redisGet {key : String} {v : Except Exn (Option String)}
    (h : step fails (.redisGet key) s v s') :
    s' = s ∧ (v = .ok (s.redis.get s.now key) ∨ v = .error .redisError) := by
  rcases h with ⟨pick, h⟩ | ⟨-, -, hv, h⟩
  · cases h
    exact ⟨rfl, .inl rfl⟩
  · refine ⟨?_, .inr hv⟩
    rcases h with h | ⟨pick, h⟩
    · exact h
    · exact h

theorem step_redisSet {key value : String} {ex : ℤ} {v : Except Exn Unit}
    (h : step fails (.redisSet key value ex) s v s') :
    (s' = s ∧ v = .error .redisError) ∨
    (s' = { s with redis := s.redis.set s.now key value ex } ∧ (v = .ok () ∨ v = .error .redisError)) := by
  rcases h with ⟨pick, h⟩ | ⟨-, -, hv, rfl | ⟨pick, h⟩⟩
  · cases h
    exact .inr ⟨rfl, .inl rfl⟩
  · exact .inl ⟨rfl, hv⟩
  · exact .inr ⟨h, .inr hv⟩

theorem step_redisDelete {key : String} {v : Except Exn Unit}
    (h : step fails (.redisDelete key) s v s') :
    s' = { s with redis := s.redis.delete key } ∨ (s' = s ∧ v = .error .redisError) := by
  rcases h with ⟨pick, h⟩ | ⟨-, -, hv, rfl | ⟨pick, h⟩⟩
  · cases h
    exact .inl rfl
  · exact .inr ⟨rfl, hv⟩
  · exact .inl h

theorem step_randint {lo hi : ℤ} {v : Except Exn ℤ} (h : step fails (.randint lo hi) s v s') :
    ∃ n, v = .ok n ∧ (lo ≤ hi → lo ≤ n ∧ n ≤ hi) := by
  rcases h with ⟨pick, h⟩ | ⟨hr, -⟩
  · cases h
    exact ⟨_, rfl, pick.randint_mem lo hi⟩
  · cases hr

theorem step_uuid4 {v : Except Exn String} (h : step fails .uuid4 s v s') : ∃ token, v = .ok token := by
  rcases h with ⟨pick, h⟩ | ⟨hr, -⟩
  · cases h
    exact ⟨_, rfl⟩
  · cases hr

theorem step_sleep {seconds : ℚ} {v : Except Exn Unit} (h : step fails (.sleep seconds) s v s') :
    v = .ok () := by
  rcases h with ⟨pick, h⟩ | ⟨hr, -⟩
  · cases h
    rfl
  · cases hr

theorem step_findOwnedTask {taskId ownerId : ℤ} {v : Except Exn (Option TaskRecord)}
    (h : step fails (.findOwnedTask taskId ownerId) s v s') :
    v = .ok (s.db.findOwnedTask taskId ownerId) := by
  rcases h with ⟨pick, h⟩ | ⟨hr, -⟩
  · cases h
    rfl
  · cases hr

theorem step_commitInsert {body : TaskCreate} {ownerId : ℤ} {v : Except Exn ℤ}
    (h : step fails (.commitInsert body ownerId) s v s') :
    ∃ id hid, v = .ok id ∧ s' = { s with db := s.db.insert body ownerId id hid } := by
  rcases h with ⟨pick, h⟩ | ⟨hr, -⟩
  · cases h
    exact ⟨_, _, rfl, rfl⟩
  · cases hr

theorem step_commitUpdate {id : ℤ} {u : TaskUpdate} {v : Except Exn Unit}
    (h : step fails (.commitUpdate id u) s v s') :
    s' = s ∨ (v = .ok () ∧ s' = { s with db := s.db.update id u }) := by
  rcases h with ⟨pick, h⟩ | ⟨hr, -⟩
  · simp only [State.serve] at h
    split_ifs at h <;> cases h
    · exact .inl rfl
    · exact .inl rfl
    · exact .inr ⟨rfl, rfl⟩
  · cases hr

theorem step_commitUpdate_error {id : ℤ} {u : TaskUpdate} {e : Exn}
    (h : step fails (.commitUpdate id u) s (.error e) s') : e = .staleDataError := by
  rcases h with ⟨pick, h⟩ | ⟨hr, -⟩
  · simp only [State.serve] at h
    split_ifs at h <;> cases h
    rfl
  · cases hr

theorem step_commitDelete {id : ℤ} {v : Except Exn Unit} (h : step fails (.commitDelete id) s v s') :
    v = .ok () ∧ s' = { s with db := s.db.delete id } := by
  rcases h with ⟨pick, h⟩ | ⟨hr, -⟩
  · cases h
    exact ⟨rfl, rfl⟩
  · cases hr

theorem step_refresh {id : ℤ} {v : Except Exn TaskRecord} (h : step fails (.refresh id) s v s') :
    s' = s ∧ ((v = .error .invalidRequestError ∧ s.db.get id = none) ∨
      ∃ row, v = .ok row ∧ s.db.get id = some row) := by
  rcases h with ⟨pick, h⟩ | ⟨hr, -⟩
  · simp only [State.serve] at h
    split at h <;> cases h
    · exact ⟨rfl, .inl ⟨rfl, ‹_›⟩⟩
    · exact ⟨rfl, .inr ⟨_, rfl, ‹_›⟩⟩
  · cases hr

end TaskApi
