/-
# Racing registrations

`register_user` of `routers/auth.py` over one `users` table: any number of requests, for
any usernames, each of whose calls is one step. A duplicate is found in two places, by the
select or, if another request commits in between, by the unique index at commit; both
answer the same 409. Every row that was not there at first was inserted by one request,
and the index lets one in for each username (`run_rows`). So of the requests for a new
username exactly one is answered 201 (`registration_race`).

Key definitions: `UsersTable`, `registerUser`, `getSession`, `registrationSystem`,
`inserts`.
Key theorems: `run_rows`, `inserts_unique`, `ended_cases`, `taken_unchanged`,
`new_username_race`, `registration_race`, `registered_found`.
-/
import TaskApi.WebSocketTickets

namespace TaskApi

open Conc

/-! ### The table and the endpoint -/

/-- A row of `users`, with all its columns. -/
structure UserRow extends UserRecord where
  username : String
  hashedPassword : String
deriving DecidableEq

/-- The `users` table; `id` is its primary key, and `username` has a unique index. -/
@[ext] structure UsersTable where
  rows : List UserRow
  nodup_id : (rows.map (·.id)).Nodup
  nodup_username : (rows.map (·.username)).Nodup

namespace UsersTable

def usernames (users : UsersTable) : List String := users.rows.map (·.username)

/-- `select(UserRecord).where(UserRecord.username == username)` -/
def select (users : UsersTable) (username : String) : Option UserRow :=
  users.rows.find? fun row => row.username = username

/-- `select(UserRecord)` by primary key. -/
def get (users : UsersTable) (userId : ℤ) : Option UserRow := users.rows.find? fun row => row.id = userId

theorem select_some {users : UsersTable} {username : String} {row : UserRow} (h : users.select username = some row) :
    username ∈ users.usernames := by
  have hname := List.find?_some h
  exact List.mem_map.mpr ⟨row, List.mem_of_find?_eq_some h, of_decide_eq_true hname⟩

/-- The primary key finds each of its rows. -/
theorem get_eq_some {users : UsersTable} {row : UserRow} {userId : ℤ} :
    users.get userId = some row ↔ row ∈ users.rows ∧ row.id = userId := by
  have hfound : ∀ {row}, users.get userId = some row → row ∈ users.rows ∧ row.id = userId := by
    intro row h
    have hid := List.find?_some h
    exact ⟨List.mem_of_find?_eq_some h, of_decide_eq_true hid⟩
  refine ⟨hfound, fun ⟨hmem, hid⟩ => ?_⟩
  cases hget : users.get userId with
  | none => exact absurd hid (by simpa using List.find?_eq_none.mp hget row hmem)
  | some row' =>
    obtain ⟨hmem', hid'⟩ := hfound hget
    rw [List.inj_on_of_nodup_map users.nodup_id hmem' hmem (hid'.trans hid.symm)]

theorem nodup_records (users : UsersTable) : ((users.rows.map (·.toUserRecord)).map (·.id)).Nodup := by
  rw [List.map_map]
  exact users.nodup_id

/-- What the tickets read of the table. -/
def records (users : UsersTable) : UserTable := ⟨users.rows.map (·.toUserRecord), users.nodup_records⟩

theorem records_get (users : UsersTable) (userId : ℤ) :
    users.records.get userId = (users.get userId).map (·.toUserRecord) :=
  List.find?_map ..

end UsersTable

structure UserCreate where
  username : String
  password : String
  username_length : 3 ≤ username.length ∧ username.length ≤ 50
  password_length : 8 ≤ password.length ∧ password.length ≤ 128
deriving DecidableEq

structure UserResponse where
  id : ℤ
  username : String
  isActive : Bool
deriving DecidableEq

/-- `UserResponse.model_validate(user_record)` -/
def UserRow.response (row : UserRow) : UserResponse := ⟨row.id, row.username, row.isActive⟩

/-- What a request asks of its session and of the password hasher. `session.add` only
keeps the record for the commit that follows, which inserts it and returns its id. -/
inductive RegistrationCall where
  | scalarSelect (username : String)
  | hashPassword (plainPassword : String)
  | commit (username hashedPassword : String) (isActive : Bool)
  | rollback
  | refresh (userId : ℤ)
  | close
deriving DecidableEq

abbrev RegistrationCall.Val : RegistrationCall → Type
  | .scalarSelect _ => Option UserRow
  | .hashPassword _ => String
  | .commit .. => ℤ
  | .rollback => Unit
  | .refresh _ => UserRow
  | .close => Unit

inductive RegistrationExn where
  | integrityError
  | invalidRequestError
  | httpException (statusCode : ℕ) (detail : String)
deriving DecidableEq

abbrev registrationCalls : Interface := ⟨RegistrationCall, RegistrationCall.Val, RegistrationExn⟩

abbrev RegistrationAct (α : Type) := Prog registrationCalls α

abbrev RegistrationCall.perform (c : RegistrationCall) : RegistrationAct c.Val := @Prog.perform registrationCalls c

/-- `get_session`, around the endpoint that uses the session. -/
def getSession {α : Type} (endpoint : RegistrationAct α) : RegistrationAct α :=
  (endpoint.tryCatch fun error => do
    RegistrationCall.rollback.perform
    Prog.raise error).tryFinally RegistrationCall.close.perform

/-- Both places that find a duplicate raise this. -/
def usernameTaken : RegistrationExn := .httpException 409 "Username already registered"

def registerUser (userCreate : UserCreate) : RegistrationAct UserResponse := do
  let existingUser ← (RegistrationCall.scalarSelect userCreate.username).perform
  if existingUser.isSome then
    Prog.raise usernameTaken
  else
    let hashedPassword ← (RegistrationCall.hashPassword userCreate.password).perform
    let userId ← (RegistrationCall.commit userCreate.username hashedPassword true).perform.tryCatch fun
      | .integrityError => do
        RegistrationCall.rollback.perform
        Prog.raise usernameTaken
      | error => Prog.raise error
    let userRecord ← (RegistrationCall.refresh userId).perform
    pure userRecord.response

/-- The status of the answer: what the endpoint returns is answered 201, and an error that
nothing handles 500. -/
def statusCode : Except RegistrationExn UserResponse → ℕ
  | .ok _ => 201
  | .error (.httpException statusCode _) => statusCode
  | .error _ => 500

/-! ### The interleaved system -/

/-- `PasswordHash.recommended().hash`: what it may return, salted, for a password. -/
structure PasswordHash where
  hashes : String → Set String
  nonempty : ∀ plainPassword, (hashes plainPassword).Nonempty

/-- One atomic step of a call. A commit inserts its row under some new id; only the unique
index can be against it. -/
def UsersTable.step (H : PasswordHash) :
    (c : RegistrationCall) → UsersTable → registrationCalls.Out c → UsersTable → Prop
  | .scalarSelect username, users, v, users' => v = .ok (users.select username) ∧ users' = users
  | .hashPassword plainPassword, users, v, users' =>
    (∃ hashed ∈ H.hashes plainPassword, v = .ok hashed) ∧ users' = users
  | .commit username hashedPassword isActive, users, v, users' =>
    if username ∈ users.usernames then v = .error .integrityError ∧ users' = users
    else ∃ userId, v = .ok userId ∧ users'.rows = users.rows ++ [⟨⟨userId, isActive⟩, username, hashedPassword⟩]
  | .rollback, users, v, users' => v = .ok () ∧ users' = users
  | .refresh userId, users, v, users' =>
    v = (match users.get userId with
      | some row => .ok row
      | none => .error .invalidRequestError) ∧ users' = users
  | .close, users, v, users' => v = .ok () ∧ users' = users

/-- Only registrations write the table. -/
abbrev registrationSystem (H : PasswordHash) : System registrationCalls where
  State := UsersTable
  step := UsersTable.step H
  env _ _ := False
  Req := UserCreate
  Res := UserResponse
  body userCreate := getSession (registerUser userCreate)

/-! ### What a request does, call by call -/

/-- How a request's select, commit and refresh have ended. -/
structure RegistrationPhase where
  existing : Option (Except RegistrationExn (Option UserRow)) := none
  committed : Option (Except RegistrationExn ℤ) := none
  refreshed : Option (Except RegistrationExn UserRow) := none

def RegistrationPhase.next (q : RegistrationPhase) :
    (c : RegistrationCall) → registrationCalls.Out c → RegistrationPhase
  | .scalarSelect _, v => { q with existing := some v }
  | .commit .., v => { q with committed := q.committed.or (some v) }
  | .refresh _, v => { q with refreshed := some v }
  | _, _ => q

abbrev registrationAutomaton : Automaton registrationCalls := ⟨RegistrationPhase, {}, RegistrationPhase.next⟩

namespace UserCreate

/-- The calls a request may make in a phase. -/
def Allows (userCreate : UserCreate) (q : RegistrationPhase) : RegistrationCall → Prop
  | .scalarSelect username => username = userCreate.username
  | .hashPassword plainPassword => plainPassword = userCreate.password
  | .commit username _ isActive => username = userCreate.username ∧ isActive = true ∧ q.committed = none
  | .refresh userId => q.committed = some (.ok userId)
  | .rollback => True
  | .close => True

/-- A request that found its username taken: by the select, or at commit. -/
def FoundTaken (q : RegistrationPhase) : Prop :=
  (∃ row, q.existing = some (.ok (some row))) ∧ q.committed = none ∨ q.committed = some (.error .integrityError)

/-- How a request ends. -/
def Ends (q : RegistrationPhase) : Except RegistrationExn UserResponse → Prop
  | .ok response =>
    ∃ userId row, q.committed = some (.ok userId) ∧ q.refreshed = some (.ok row) ∧ response = row.response
  | .error error => error = usernameTaken ∧ FoundTaken q ∨ ∃ e, q.refreshed = some (.error e)

/-- The protocol of a request. -/
abbrev protocol (userCreate : UserCreate) : Protocol registrationCalls where
  toAutomaton := registrationAutomaton
  allows := userCreate.Allows

end UserCreate

/-! ### What a step can do -/

/-- A commit and a refresh can raise. -/
def RegistrationCall.MayRaise : RegistrationCall → Prop
  | .commit .. => True
  | .refresh _ => True
  | _ => False

namespace UsersTable

variable {H : PasswordHash} {users users' : UsersTable} {x : RegistrationCall}

theorem step_commit {username hashed : String} {isActive : Bool} {v : Except RegistrationExn ℤ}
    (h : step H (.commit username hashed isActive) users v users') :
    (username ∈ users.usernames ∧ v = .error .integrityError ∧ users' = users) ∨
      ∃ userId, v = .ok userId ∧ users'.rows = users.rows ++ [⟨⟨userId, isActive⟩, username, hashed⟩] := by
  by_cases hmem : username ∈ users.usernames
  · rw [step, if_pos hmem] at h
    exact .inl ⟨hmem, h⟩
  · rw [step, if_neg hmem] at h
    exact .inr h

/-- The row that a call has inserted. -/
def insertedRow : (c : RegistrationCall) → registrationCalls.Out c → Option UserRow
  | .commit username hashedPassword isActive, .ok userId =>
    some ⟨⟨userId, isActive⟩, username, hashedPassword⟩
  | _, _ => none

/-- A step inserts its row, and changes nothing else. -/
theorem step_rows {v : registrationCalls.Out x} (h : step H x users v users') :
    users'.rows = users.rows ++ (insertedRow x v).toList := by
  cases x with
  | commit username hashed isActive =>
    rcases step_commit h with ⟨-, rfl, rfl⟩ | ⟨userId, rfl, hrows⟩
    · simp [insertedRow]
    · exact hrows
  | _ =>
    obtain ⟨-, rfl⟩ := h
    simp [insertedRow]

theorem insertedRow_some {v : registrationCalls.Out x} {row : UserRow} (h : insertedRow x v = some row) :
    ∃ hashed isActive, x = .commit row.username hashed isActive ∧
      ∀ q : RegistrationPhase, (q.next x v).committed = q.committed.or (some (.ok row.id)) := by
  cases x with
  | commit username hashed isActive =>
    cases v with
    | ok userId =>
      obtain rfl := Option.some.inj h
      exact ⟨hashed, isActive, rfl, fun q => rfl⟩
    | error e => cases h
  | _ => cases h

theorem can_error {e : RegistrationExn} (h : (registrationSystem H).Can x (.error e)) : x.MayRaise := by
  obtain ⟨users, users', hs⟩ := h
  cases x with
  | commit username hashed isActive => trivial
  | refresh userId => trivial
  | hashPassword plainPassword =>
    obtain ⟨⟨hashed, -, hok⟩, -⟩ := hs
    cases hok
  | _ =>
    obtain ⟨hok, -⟩ := hs
    cases hok

theorem commit_error {e : RegistrationExn} {username hashed : String} {isActive : Bool}
    (h : (registrationSystem H).Can (.commit username hashed isActive) (.error e)) : e = .integrityError := by
  obtain ⟨users, users', hs⟩ := h
  rcases step_commit (H := H) hs with ⟨-, herror, -⟩ | ⟨userId, hok, -⟩
  · exact Except.error.inj herror
  · cases hok

end UsersTable

/-! ### A database

One way to answer the calls: an inserted row gets the id after the largest. -/

namespace UsersTable

def nextId (users : UsersTable) : ℤ := (users.rows.map (·.id)).foldr max 0 + 1

theorem le_foldr_max : ∀ {ids : List ℤ} {id : ℤ}, id ∈ ids → id ≤ ids.foldr max 0
  | id' :: ids, id, h => by
    rcases List.mem_cons.mp h with rfl | h
    · exact le_max_left ..
    · exact (le_foldr_max h).trans (le_max_right ..)

theorem nodup_concat_id (users : UsersTable) {row : UserRow} (hid : row.id = users.nextId) :
    ((users.rows ++ [row]).map (·.id)).Nodup := by
  rw [List.map_append, List.map_singleton, List.nodup_append_comm, List.singleton_append, List.nodup_cons]
  refine ⟨fun hmem => ?_, users.nodup_id⟩
  have hle := le_foldr_max hmem
  rw [hid] at hle
  unfold nextId at hle
  omega

theorem nodup_concat_username (users : UsersTable) {row : UserRow} (hname : row.username ∉ users.usernames) :
    ((users.rows ++ [row]).map (·.username)).Nodup := by
  rw [List.map_append, List.map_singleton, List.nodup_append_comm, List.singleton_append, List.nodup_cons]
  exact ⟨hname, users.nodup_username⟩

def insert (users : UsersTable) (username hashedPassword : String) (isActive : Bool)
    (hname : username ∉ users.usernames) : UsersTable where
  rows := users.rows ++ [⟨⟨users.nextId, isActive⟩, username, hashedPassword⟩]
  nodup_id := users.nodup_concat_id rfl
  nodup_username := users.nodup_concat_username hname

def serve (hash : String → String) : (c : RegistrationCall) → UsersTable → registrationCalls.Out c × UsersTable
  | .scalarSelect username, users => (.ok (users.select username), users)
  | .hashPassword plainPassword, users => (.ok (hash plainPassword), users)
  | .commit username hashedPassword isActive, users =>
    if hmem : username ∈ users.usernames then (.error .integrityError, users)
    else (.ok users.nextId, users.insert username hashedPassword isActive hmem)
  | .rollback, users => (.ok (), users)
  | .refresh userId, users =>
    match users.get userId with
    | some row => (.ok row, users)
    | none => (.error .invalidRequestError, users)
  | .close, users => (.ok (), users)

theorem step_serve {H : PasswordHash} {hash : String → String}
    (hhash : ∀ plainPassword, hash plainPassword ∈ H.hashes plainPassword) (x : RegistrationCall)
    (users : UsersTable) : step H x users (serve hash x users).1 (serve hash x users).2 := by
  cases x with
  | hashPassword plainPassword => exact ⟨⟨_, hhash plainPassword, rfl⟩, rfl⟩
  | commit username hashedPassword isActive =>
    by_cases hmem : username ∈ users.usernames
    · simp [step, serve, hmem]
    · simp [step, serve, hmem, insert]
  | refresh userId =>
    unfold step serve
    cases hget : users.get userId <;> simp [hget]
  | _ => exact ⟨rfl, rfl⟩

/-- Every call can take its step. -/
theorem exists_step (H : PasswordHash) (x : RegistrationCall) (users : UsersTable) :
    ∃ v users', step H x users v users' := by
  choose hash hhash using H.nonempty
  exact ⟨_, _, step_serve hhash x users⟩

end UsersTable

/-! ### The endpoint follows its protocol -/

section

variable {H : PasswordHash} {userCreate : UserCreate} {q : RegistrationPhase}

/-- A call that cannot raise goes on with its value. -/
theorem perform_follows {x : RegistrationCall} {Q : RegistrationPhase → Except RegistrationExn x.Val → Prop}
    (hx : ¬ x.MayRaise) (hallows : userCreate.Allows q x) (h : ∀ a, Q (q.next x (.ok a)) (.ok a)) :
    x.perform.Follows userCreate.protocol (registrationSystem H).Can Q q := by
  refine Prog.follows_perform.mpr ⟨hallows, fun v hv => ?_⟩
  cases v with
  | ok a => exact h a
  | error e => exact absurd (UsersTable.can_error hv) hx

/-- The session's cleanup leaves everything as the endpoint ended. -/
theorem getSession_follows {α : Type} {endpoint : RegistrationAct α}
    {Q : RegistrationPhase → Except RegistrationExn α → Prop}
    (h : endpoint.Follows userCreate.protocol (registrationSystem H).Can Q q) :
    (getSession endpoint).Follows userCreate.protocol (registrationSystem H).Can Q q := by
  have hclose : ∀ q x, Q q x → (RegistrationCall.close.perform).Follows userCreate.protocol (registrationSystem H).Can
      (Prog.ends (fun q _ => Q q x) fun q e => Q q (.error e)) q :=
    fun q x hQ => perform_follows id trivial fun _ => hQ
  refine Prog.follows_tryFinally.mpr (Prog.follows_tryCatch.mpr (h.mono fun q x hQ => ?_))
  cases x with
  | ok a => exact hclose q _ hQ
  | error error => exact Prog.follows_bind.mpr (perform_follows id trivial fun _ => hclose q _ hQ)

theorem registerUser_follows :
    (registerUser userCreate).Follows userCreate.protocol (registrationSystem H).Can UserCreate.Ends {} := by
  unfold registerUser
  refine Prog.follows_bind.mpr (perform_follows id rfl fun existingUser => ?_)
  cases existingUser with
  | some row => exact .inl ⟨rfl, .inl ⟨⟨row, rfl⟩, rfl⟩⟩
  | none =>
    refine Prog.follows_bind.mpr (perform_follows id rfl fun hashedPassword => ?_)
    refine Prog.follows_bind.mpr (Prog.follows_tryCatch.mpr
      (Prog.follows_perform.mpr ⟨⟨rfl, rfl, rfl⟩, fun v hv => ?_⟩))
    cases v with
    | error e =>
      -- another request has inserted the username since the select
      obtain rfl := UsersTable.commit_error hv
      exact Prog.follows_bind.mpr (perform_follows id trivial fun _ => .inl ⟨rfl, .inr rfl⟩)
    | ok userId =>
      refine Prog.follows_bind.mpr (Prog.follows_perform.mpr ⟨rfl, fun v hv => ?_⟩)
      cases v with
      | error e => exact .inr ⟨e, rfl⟩
      | ok userRecord => exact ⟨userId, userRecord, rfl, rfl, rfl⟩

end

/-- Every registration follows its protocol. -/
def registrationDiscipline (H : PasswordHash) : Discipline (registrationSystem H) where
  protocol userCreate := userCreate.protocol
  final _ := UserCreate.Ends
  follows _ := getSession_follows registerUser_follows

/-! ### Who inserted what -/

section

variable {H : PasswordHash}

/-- The rows that the calls of a run have inserted, oldest first, each with its thread. -/
def inserts : List (Event (registrationSystem H)) → List (ℕ × UserRow)
  | [] => []
  | ⟨_, _, .start _ _⟩ :: tr => inserts tr
  | ⟨_, _, .call t c v⟩ :: tr => inserts tr ++ ((UsersTable.insertedRow c v).map (t, ·)).toList

theorem inserts_append (u tr : List (Event (registrationSystem H))) : inserts tr <+: inserts (u ++ tr) := by
  induction u with
  | nil => exact List.prefix_refl _
  | cons e u ih =>
    obtain ⟨s, s', act⟩ := e
    cases act with
    | start t r => exact ih
    | call t x v => exact ih.trans (List.prefix_append ..)

/-- Where an inserted row is from. -/
theorem mem_inserts {tr : List (Event (registrationSystem H))} {t : ℕ} {row : UserRow} (h : (t, row) ∈ inserts tr) :
    ∃ u s s' x v tr', tr = u ++ ⟨s, s', .call t x v⟩ :: tr' ∧ UsersTable.insertedRow x v = some row := by
  induction tr with
  | nil => cases h
  | cons e tr ih =>
    by_cases hold : (t, row) ∈ inserts tr
    · obtain ⟨u, s, s', x, v, tr', rfl, hrow⟩ := ih hold
      exact ⟨e :: u, s, s', x, v, tr', rfl, hrow⟩
    · obtain ⟨s, s', act⟩ := e
      cases act with
      | start t' r => exact absurd h hold
      | call t' x v =>
        have hnew := (List.mem_append.mp h).resolve_left hold
        simp only [Option.mem_toList, Option.map_eq_some_iff, Prod.mk.injEq] at hnew
        obtain ⟨row', hrow, rfl, rfl⟩ := hnew
        exact ⟨[], s, s', x, v, tr, rfl, hrow⟩

variable {users : UsersTable} {c : Config (registrationSystem H)}

/-- **The table of a run** has the rows it had at first, and then those inserted since. -/
theorem run_rows (h : Interleaved (.init users) c) : c.state.rows = users.rows ++ (inserts c.trace).map (·.2) := by
  refine @Run.invariant _ _ _ users (registrationDiscipline H)
    (fun s tr => s.rows = users.rows ++ (inserts tr).map (·.2)) ?_ ?_ ?_ ?_ c h
  · simp [inserts]
  · exact fun b _ ih t r _ => ih
  · intro b _ ih t r x v s' _ _ _ hs
    have hrows := UsersTable.step_rows hs
    rw [hrows, ih, inserts, List.map_append, List.append_assoc]
    cases UsersTable.insertedRow x v <;> rfl
  · exact fun b _ _ s' henv => henv.elim

/-- One row is inserted for a username, by one thread, and none for one that was there. -/
theorem inserts_unique (h : Interleaved (.init users) c) :
    (∀ p ∈ inserts c.trace, p.2.username ∉ users.usernames) ∧
      ∀ p ∈ inserts c.trace, ∀ p' ∈ inserts c.trace, p.2.username = p'.2.username → p = p' := by
  have hnodup := c.state.nodup_username
  rw [run_rows h, List.map_append, List.map_map] at hnodup
  obtain ⟨-, hinserted, hapart⟩ := List.nodup_append.mp hnodup
  refine ⟨fun p hp hmem => ?_, fun p hp p' hp' heq => List.inj_on_of_nodup_map hinserted hp hp' heq⟩
  exact hapart _ hmem _ (List.mem_map_of_mem hp) rfl

/-! ### What the requests see -/

variable {t : ℕ} {r : UserCreate}

/-- The call that made the phase of a thread so, at a moment of the run. -/
theorem made_of_phase (h : Interleaved (.init users) c) (hr : Requested t r c.trace) {P : RegistrationPhase → Prop}
    (h0 : ¬ P {}) (hP : P (phase registrationAutomaton t c.trace)) :
    ∃ (b : Config (registrationSystem H)) (x : RegistrationCall) (v : registrationCalls.Out x) (users' : UsersTable),
      Interleaved (.init users) b ∧ Requested t r b.trace ∧ ¬ P (phase registrationAutomaton t b.trace) ∧
      P ((phase registrationAutomaton t b.trace).next x v) ∧ r.Allows (phase registrationAutomaton t b.trace) x ∧
      UsersTable.step H x b.state v users' ∧
      inserts b.trace ++ ((UsersTable.insertedRow x v).map (t, ·)).toList <+: inserts c.trace := by
  obtain ⟨b, u, x, v, s', hb, hrb, he, hnot, hnext, hallows, hs⟩ :=
    Run.phase_made (registrationDiscipline H) h hr h0 hP
  refine ⟨b, x, v, s', hb, hrb, hnot, hnext, hallows, hs, ?_⟩
  rw [he]
  exact inserts_append u (⟨b.state, s', .call t x v⟩ :: b.trace)

/-- A username found taken is in the table, then and from then on. -/
theorem taken_username (h : Interleaved (.init users) c) (hr : Requested t r c.trace)
    (htaken : UserCreate.FoundTaken (phase registrationAutomaton t c.trace)) : r.username ∈ c.state.usernames := by
  have hlater : ∀ {b : Config (registrationSystem H)}, Interleaved (.init users) b →
      inserts b.trace <+: inserts c.trace → r.username ∈ b.state.usernames → r.username ∈ c.state.usernames := by
    intro b hb hprefix hmem
    unfold UsersTable.usernames at hmem ⊢
    rw [run_rows hb] at hmem
    rw [run_rows h]
    obtain ⟨later, hlater⟩ := hprefix
    rw [← hlater]
    simp only [List.map_append, List.mem_append] at hmem ⊢
    tauto
  rcases htaken with ⟨hexisting, -⟩ | hcommitted
  · obtain ⟨b, x, v, users', hb, -, hnot, hnext, hallows, hs, hprefix⟩ :=
      made_of_phase h hr (P := fun q => ∃ row, q.existing = some (.ok (some row))) (by simp) hexisting
    refine hlater hb ((List.prefix_append ..).trans hprefix) ?_
    cases x with
    | scalarSelect username =>
      obtain ⟨rfl, -⟩ := hs
      obtain rfl : username = r.username := hallows
      obtain ⟨row, hrow⟩ := hnext
      exact UsersTable.select_some (Except.ok.inj (Option.some.inj hrow))
    | _ => exact absurd hnext hnot
  · obtain ⟨b, x, v, users', hb, -, hnot, hnext, hallows, hs, hprefix⟩ :=
      made_of_phase h hr (P := fun q => q.committed = some (.error .integrityError)) (by simp) hcommitted
    refine hlater hb ((List.prefix_append ..).trans hprefix) ?_
    cases x with
    | commit username hashed isActive =>
      obtain ⟨rfl, -, hfirst⟩ := hallows
      rcases UsersTable.step_commit hs with ⟨hmem, -, -⟩ | ⟨userId, rfl, -⟩
      · exact hmem
      · simp [RegistrationPhase.next, hfirst] at hnext
    | _ => exact absurd hnext hnot

/-- Whose commit has succeeded, has inserted a row of the username requested. -/
theorem committed_inserted (h : Interleaved (.init users) c) (hr : Requested t r c.trace) {userId : ℤ}
    (hcommitted : (phase registrationAutomaton t c.trace).committed = some (.ok userId)) :
    ∃ row, (t, row) ∈ inserts c.trace ∧ row.id = userId ∧ row.username = r.username := by
  obtain ⟨b, x, v, users', hb, -, hnot, hnext, hallows, hs, hprefix⟩ :=
    made_of_phase h hr (P := fun q => q.committed = some (.ok userId)) (by simp) hcommitted
  cases x with
  | commit username hashed isActive =>
    obtain ⟨rfl, -, hfirst⟩ := hallows
    rcases UsersTable.step_commit hs with ⟨-, rfl, -⟩ | ⟨userId', rfl, -⟩
    · simp [RegistrationPhase.next, hfirst] at hnext
    · obtain rfl : userId' = userId := by simpa [RegistrationPhase.next, hfirst] using hnext
      refine ⟨⟨⟨userId', isActive⟩, r.username, hashed⟩, hprefix.subset (List.mem_append_right _ ?_), rfl, rfl⟩
      simp [UsersTable.insertedRow]
  | _ => exact absurd hnext hnot

/-- `refresh` finds the row that its own request has inserted. -/
theorem refreshed_inserted (h : Interleaved (.init users) c) (hr : Requested t r c.trace)
    {v : Except RegistrationExn UserRow} (hrefreshed : (phase registrationAutomaton t c.trace).refreshed = some v) :
    ∃ row, v = .ok row ∧ (t, row) ∈ inserts c.trace ∧ row.username = r.username := by
  obtain ⟨b, x, w, users', hb, hrb, hnot, hnext, hallows, hs, hprefix⟩ :=
    made_of_phase h hr (P := fun q => q.refreshed = some v) (by simp) hrefreshed
  cases x with
  | refresh userId =>
    obtain ⟨row, hmem, hid, hname⟩ := committed_inserted hb hrb hallows
    have hrow : row ∈ b.state.rows := by
      rw [run_rows hb]
      exact List.mem_append_right _ (List.mem_map_of_mem hmem)
    have hget : b.state.get userId = some row := UsersTable.get_eq_some.mpr ⟨hrow, hid⟩
    obtain ⟨hw, -⟩ := hs
    rw [hget] at hw
    refine ⟨row, ?_, hprefix.subset (List.mem_append_left _ hmem), hname⟩
    exact (Option.some.inj hnext).symm.trans hw
  | _ => exact absurd hnext hnot

/-- A request answered 201 has inserted its row, and the answer shows it. -/
theorem created_inserted (h : Interleaved (.init users) c) (hr : Requested t r c.trace) {response : UserResponse}
    (hx : c.result t = some (.ok response)) :
    ∃ row, (t, row) ∈ inserts c.trace ∧ row.username = r.username ∧ response = row.response := by
  obtain ⟨userId, row, -, hrefreshed, rfl⟩ := Run.final (registrationDiscipline H) h hr hx
  obtain ⟨row', hrow, hmem, hname⟩ := refreshed_inserted h hr hrefreshed
  obtain rfl := Except.ok.inj hrow
  exact ⟨row, hmem, hname, rfl⟩

/-- A request that raises has found its username taken. -/
theorem raised_taken (h : Interleaved (.init users) c) (hr : Requested t r c.trace) {error : RegistrationExn}
    (hx : c.result t = some (.error error)) :
    error = usernameTaken ∧ UserCreate.FoundTaken (phase registrationAutomaton t c.trace) := by
  rcases Run.final (registrationDiscipline H) h hr hx with htaken | ⟨e, hrefreshed⟩
  · exact htaken
  · obtain ⟨row, hrow, -⟩ := refreshed_inserted h hr hrefreshed
    cases hrow

/-- Who has inserted a row was asked to, and does not find the username taken. -/
theorem inserted_committed (h : Interleaved (.init users) c) {row : UserRow} (hmem : (t, row) ∈ inserts c.trace) :
    ∃ r, Requested t r c.trace ∧ r.username = row.username ∧
      (phase registrationAutomaton t c.trace).committed = some (.ok row.id) := by
  obtain ⟨u, s, s', x, v, tr, he, hrow⟩ := mem_inserts hmem
  obtain ⟨b, r, hb, rfl, rfl, -, hrb, -, hallows, hs⟩ := Run.made (registrationDiscipline H) h he
  obtain ⟨hashed, isActive, rfl, hnext⟩ := UsersTable.insertedRow_some hrow
  obtain ⟨hname, -, hfirst⟩ := hallows
  refine ⟨r, he ▸ (hrb.cons _).append u, hname.symm, ?_⟩
  rw [he]
  refine phase_stable (A := registrationAutomaton) (P := fun q => q.committed = some (.ok row.id)) ?_ ?_ u
  · intro q x v hq
    cases x with
    | commit username hashed isActive => simp [RegistrationPhase.next, hq]
    | _ => exact hq
  · rw [phase_call_self]
    show RegistrationPhase.committed _ = _
    rw [hnext, show (phase registrationAutomaton t b.trace).committed = none from hfirst, Option.none_or]

/-- So it ends with 201. -/
theorem inserted_created (h : Interleaved (.init users) c) {row : UserRow} (hmem : (t, row) ∈ inserts c.trace)
    (hended : ¬ c.Running t) : c.result t = some (.ok row.response) := by
  obtain ⟨r, hr, hname, hcommitted⟩ := inserted_committed h hmem
  obtain ⟨x, hx⟩ := h.ended hr hended
  cases x with
  | ok response =>
    obtain ⟨row', hmem', hname', rfl⟩ := created_inserted h hr hx
    have hsame := (inserts_unique h).2 _ hmem' _ hmem (hname'.trans hname)
    obtain rfl := congrArg Prod.snd hsame
    exact hx
  | error error =>
    obtain ⟨-, ⟨-, hnone⟩ | herror⟩ := raised_taken h hr hx
    · rw [hcommitted] at hnone
      cases hnone
    · rw [hcommitted] at herror
      cases herror

/-- A request answered 409 leaves the table as it is, in every call it makes. -/
theorem taken_unchanged (h : Interleaved (.init users) c) {error : RegistrationExn}
    (hx : c.result t = some (.error error)) {e : Event (registrationSystem H)} (he : e ∈ c.trace)
    (ht : e.act.thread = t) : e.after = e.before := by
  obtain ⟨u, tr, htr⟩ := List.append_of_mem he
  obtain ⟨s, s', act⟩ := e
  cases act with
  | start t' r => exact h.started htr
  | call t' x v =>
    obtain rfl : t' = t := ht
    obtain ⟨b, r, -, rfl, rfl, -, -, -, -, hs⟩ := Run.made (registrationDiscipline H) h htr
    have hrows := UsersTable.step_rows hs
    cases hrow : UsersTable.insertedRow x v with
    | none =>
      rw [hrow] at hrows
      exact UsersTable.ext (hrows.trans (List.append_nil _))
    | some row =>
      -- it would have been answered 201
      have hmem : (t', row) ∈ inserts c.trace := by
        rw [htr]
        exact (inserts_append u _).subset (List.mem_append_right _ (by simp [hrow]))
      have hended : ¬ c.Running t' := fun hrun => by
        rw [hrun.2] at hx
        cases hx
      rw [inserted_created h hmem hended] at hx
      cases hx

/-! ### The race -/

/-- Thread `t` has asked for the username. -/
def AsksFor (c : Config (registrationSystem H)) (t : ℕ) (username : String) : Prop :=
  ∃ r, Requested t r c.trace ∧ r.username = username

/-- Every request for the username has ended. -/
def AllEnded (c : Config (registrationSystem H)) (username : String) : Prop :=
  ∀ t, AsksFor c t username → ¬ c.Running t

variable {username : String}

/-- A new username in the table was inserted. -/
theorem username_inserted (h : Interleaved (.init users) c) (hmem : username ∈ c.state.usernames)
    (hnew : username ∉ users.usernames) : ∃ t row, (t, row) ∈ inserts c.trace ∧ row.username = username := by
  unfold UsersTable.usernames at hmem
  rw [run_rows h, List.map_append, List.mem_append] at hmem
  obtain ⟨row, hrow, hname⟩ := List.mem_map.mp (hmem.resolve_left hnew)
  obtain ⟨⟨t, row⟩, hinserted, rfl⟩ := List.mem_map.mp hrow
  exact ⟨t, row, hinserted, hname⟩

theorem inserted_mem (h : Interleaved (.init users) c) {row : UserRow} (hmem : (t, row) ∈ inserts c.trace) :
    row ∈ c.state.rows := by
  rw [run_rows h]
  exact List.mem_append_right _ (List.mem_map_of_mem hmem)

/-- A request that has ended has inserted its row, or found its username taken. -/
theorem ended_cases (h : Interleaved (.init users) c) (hasks : AsksFor c t username) (hended : ¬ c.Running t) :
    (∃ row, (t, row) ∈ inserts c.trace ∧ row.username = username ∧ c.result t = some (.ok row.response)) ∨
      (c.result t = some (.error usernameTaken) ∧ username ∈ c.state.usernames) := by
  obtain ⟨r, hr, rfl⟩ := hasks
  obtain ⟨x, hx⟩ := h.ended hr hended
  cases x with
  | ok response =>
    obtain ⟨row, hmem, hname, rfl⟩ := created_inserted h hr hx
    exact .inl ⟨row, hmem, hname, hx⟩
  | error error =>
    obtain ⟨rfl, htaken⟩ := raised_taken h hr hx
    exact .inr ⟨hx, taken_username h hr htaken⟩

/-- Once all requests for a username have ended, it has a row. -/
theorem ended_username (h : Interleaved (.init users) c) (hasks : AsksFor c t username) (hended : ¬ c.Running t) :
    username ∈ c.state.usernames := by
  rcases ended_cases h hasks hended with ⟨row, hmem, hname, -⟩ | ⟨-, hmem⟩
  · exact List.mem_map.mpr ⟨row, inserted_mem h hmem, hname⟩
  · exact hmem

/-- The requests for a new username: one wins. -/
theorem new_username_race (h : Interleaved (.init users) c) (hnew : username ∉ users.usernames)
    (hasks : ∃ t, AsksFor c t username) (hended : AllEnded c username) :
    ∃ t₀, AsksFor c t₀ username ∧
      (∃ row ∈ c.state.rows, row.username = username ∧ c.result t₀ = some (.ok row.response)) ∧
      ∀ t, AsksFor c t username → t ≠ t₀ → c.result t = some (.error usernameTaken) := by
  obtain ⟨t, ht⟩ := hasks
  have hmem := ended_username h ht (hended t ht)
  obtain ⟨t₀, row, hinserted, hname⟩ := username_inserted h hmem hnew
  obtain ⟨r, hr, hrname, -⟩ := inserted_committed h hinserted
  have ht₀ : AsksFor c t₀ username := ⟨r, hr, hrname.trans hname⟩
  have hcreated := inserted_created h hinserted (hended t₀ ht₀)
  refine ⟨t₀, ht₀, ⟨row, inserted_mem h hinserted, hname, hcreated⟩, fun t' ht' hne => ?_⟩
  rcases ended_cases h ht' (hended t' ht') with ⟨row', hinserted', hname', -⟩ | ⟨htaken, -⟩
  · have hsame := (inserts_unique h).2 _ hinserted' _ hinserted (hname'.trans hname.symm)
    exact absurd (congrArg Prod.fst hsame) hne
  · exact htaken

/-- Of a username that was there, nobody gets a row. -/
theorem old_username_taken (h : Interleaved (.init users) c) (hold : username ∈ users.usernames)
    (hasks : AsksFor c t username) (hended : ¬ c.Running t) : c.result t = some (.error usernameTaken) := by
  rcases ended_cases h hasks hended with ⟨row, hinserted, hname, -⟩ | ⟨htaken, -⟩
  · exact absurd (hname ▸ hold) ((inserts_unique h).1 _ hinserted)
  · exact htaken

/-- **Racing registrations.** From any table, in every interleaving of any number of
requests: each can be brought to its end, and ends with 201 or with the 409 of a username
that is taken; one that ends so leaves the table as it was in each of its calls. Once the
requests for a username have ended, it has exactly one row, if there were any; and if it
was new, exactly one of them was answered 201, with that row. -/
theorem registration_race (H : PasswordHash) {users : UsersTable} {c : Config (registrationSystem H)}
    (h : Interleaved (.init users) c) :
    (∃ c', Interleaved c c' ∧ starts c'.trace = starts c.trace ∧ c'.Quiet) ∧
    (∀ t x, c.result t = some x →
      (∃ response, x = .ok response) ∧ statusCode x = 201 ∨ x = .error usernameTaken ∧ statusCode x = 409) ∧
    (∀ t, c.result t = some (.error usernameTaken) → ∀ e ∈ c.trace, e.act.thread = t → e.after = e.before) ∧
    (∀ username ∈ c.state.usernames, username ∈ users.usernames ∨ ∃ t, AsksFor c t username) ∧
    ∀ username, (∃ t, AsksFor c t username) → AllEnded c username →
      c.state.usernames.count username = 1 ∧
      (username ∉ users.usernames → ∃ t₀, AsksFor c t₀ username ∧
        (∃ row ∈ c.state.rows, row.username = username ∧ c.result t₀ = some (.ok row.response)) ∧
        ∀ t, AsksFor c t username → t ≠ t₀ → c.result t = some (.error usernameTaken)) ∧
      (username ∈ users.usernames → ∀ t, AsksFor c t username → c.result t = some (.error usernameTaken)) := by
  refine ⟨Run.exists_quiet (UsersTable.exists_step H) h, fun t x hx => ?_,
    fun t hx e he ht => taken_unchanged h hx he ht, fun username hmem => ?_,
    fun username hasks hended => ⟨?_, fun hnew => new_username_race h hnew hasks hended,
      fun hold t ht => old_username_taken h hold ht (hended t ht)⟩⟩
  · cases x with
    | ok response => exact .inl ⟨⟨response, rfl⟩, rfl⟩
    | error error =>
      obtain ⟨r, hr⟩ := h.ended_requested hx
      obtain ⟨rfl, -⟩ := raised_taken h hr hx
      exact .inr ⟨rfl, rfl⟩
  · by_cases hold : username ∈ users.usernames
    · exact .inl hold
    · obtain ⟨t, row, hinserted, rfl⟩ := username_inserted h hmem hold
      obtain ⟨r, hr, hname, -⟩ := inserted_committed h hinserted
      exact .inr ⟨t, r, hr, hname⟩
  · obtain ⟨t, ht⟩ := hasks
    exact List.count_eq_one_of_mem c.state.nodup_username (ended_username h ht (hended t ht))

/-- **Registered users can be found.** Every row stays under its id; and a user whose request
was answered 201 is found, with the id of the answer, by everything that looks users up. -/
theorem registered_found (h : Interleaved (.init users) c) :
    (∀ userId row, users.get userId = some row → c.state.get userId = some row) ∧
      ∀ t response, c.result t = some (.ok response) →
        c.state.records.get response.id = some ⟨response.id, response.isActive⟩ := by
  constructor
  · intro userId row hget
    obtain ⟨hmem, hid⟩ := UsersTable.get_eq_some.mp hget
    refine UsersTable.get_eq_some.mpr ⟨?_, hid⟩
    rw [run_rows h]
    exact List.mem_append_left _ hmem
  · intro t response hx
    obtain ⟨r, hr⟩ := h.ended_requested hx
    obtain ⟨row, hinserted, -, rfl⟩ := created_inserted h hr hx
    have hget : c.state.get row.id = some row := UsersTable.get_eq_some.mpr ⟨inserted_mem h hinserted, rfl⟩
    show c.state.records.get row.id = some row.toUserRecord
    rw [UsersTable.records_get, hget, Option.map_some]

end

/-! ### Two requests for one username -/

theorem alice_length : 3 ≤ "alice".length ∧ "alice".length ≤ 50 := by decide

theorem secure_password_length : 8 ≤ "secure-password".length ∧ "secure-password".length ≤ 128 := by decide

def alice : UserCreate := ⟨"alice", "secure-password", alice_length, secure_password_length⟩

def UsersTable.empty : UsersTable := ⟨[], List.nodup_nil, List.nodup_nil⟩

def exampleHash (_ : String) : String := "$argon2id$v=19$m=65536,t=3,p=4$c29tZXNhbHQ$aGFzaA"

/-- A hasher whose salt is always the same. -/
def examplePasswordHash : PasswordHash where
  hashes plainPassword := {exampleHash plainPassword}
  nonempty plainPassword := Set.singleton_nonempty (exampleHash plainPassword)

/-- Both requests select before either commits; request 1 commits first. -/
def exampleRace : Config (registrationSystem examplePasswordHash) :=
  (Config.init UsersTable.empty).schedule (UsersTable.serve exampleHash)
    [.start 0 alice, .start 1 alice, .call 0, .call 1, .call 0, .call 1, .call 1, .call 0, .call 0, .call 0,
      .call 0, .call 1, .call 1]

theorem exampleRace_interleaved : Interleaved (.init UsersTable.empty) exampleRace :=
  Interleaved.schedule (UsersTable.step_serve fun _ => Set.mem_singleton _) _ _

theorem registration_race_alice : exampleRace.state.usernames.count "alice" = 1 ∧
    ∃ t₀, AsksFor exampleRace t₀ "alice" ∧
      (∃ row ∈ exampleRace.state.rows, row.username = "alice" ∧ exampleRace.result t₀ = some (.ok row.response)) ∧
      ∀ t, AsksFor exampleRace t "alice" → t ≠ t₀ → exampleRace.result t = some (.error usernameTaken) := by
  have hended : AllEnded exampleRace "alice" := by
    rintro t ⟨r, hr, -⟩
    have hthreads : ∀ p ∈ starts exampleRace.trace, ¬ exampleRace.Running p.1 := by decide +kernel
    exact hthreads _ hr.mem_starts
  have hasks : ∃ t, AsksFor exampleRace t "alice" :=
    ⟨0, alice, exampleRace_interleaved.requested (by decide +kernel), rfl⟩
  have hnew : "alice" ∉ UsersTable.empty.usernames := by decide
  have hrace := (registration_race examplePasswordHash exampleRace_interleaved).2.2.2.2 "alice" hasks hended
  exact ⟨hrace.1, hrace.2.1 hnew⟩

/-- There the select of request 0 found nobody, and its commit did. -/
example : exampleRace.result 0 = some (.error usernameTaken) ∧
    exampleRace.result 1 = some (.ok ⟨1, "alice", true⟩) := by decide +kernel

end TaskApi
