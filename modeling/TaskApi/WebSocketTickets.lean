/-
# WebSocket tickets

`websocket_tickets.py` and `websocket_authentication.py`: a logged-in client is
issued a ticket, which is stored under its own key with the user's id, and a
WebSocket connection presents it once. Any number of clients issue, consume and
connect at the same time; the generator may repeat values, entries may expire
at any time, and a Redis call may fail before or after it took effect.

Every stored ticket belongs to an issue that no one has consumed yet, and taking
it matches the two for good (`Matching`).

Key definitions: `WebSocketTicketStore.issue`, `WebSocketTicketStore.consume`,
`getWebsocketCurrentUser`, `ticketSystem`, `Matching`.
Key theorems: `ticketRequest_follows`, `Matching.store`, `Matching.take`,
`tickets_single_use`.
-/
import TaskApi.Lib.Interleave
import TaskApi.Redis

namespace TaskApi

open Conc

/-! ### The store and the dependencies -/

/-- A row of `users`, as far as the tickets read it. -/
structure UserRecord where
  id : ℤ
  isActive : Bool
deriving DecidableEq

/-- The `users` table; `id` is its primary key. -/
structure UserTable where
  rows : List UserRecord
  nodup_id : (rows.map (·.id)).Nodup

/-- `session.get(UserRecord, user_id)` -/
def UserTable.get (users : UserTable) (userId : ℤ) : Option UserRecord :=
  users.rows.find? fun r => r.id = userId

theorem UserTable.get_some {users : UserTable} {userId : ℤ} {r : UserRecord} (h : users.get userId = some r) :
    r ∈ users.rows ∧ r.id = userId := by
  have hid := List.find?_some h
  exact ⟨List.mem_of_find?_eq_some h, of_decide_eq_true hid⟩

/-- What the tickets ask of the generator, Redis and the database session. -/
inductive TicketCall where
  | ticketGenerator
  | redisSetNx (key value : String) (ex : ℤ)
  | redisGetDel (key : String)
  | getUserRecord (userId : ℤ)
deriving DecidableEq

abbrev TicketCall.Val : TicketCall → Type
  | .ticketGenerator => String
  | .redisSetNx .. => Bool
  | .redisGetDel _ => Option String
  | .getUserRecord _ => Option UserRecord

inductive TicketExn where
  | redisError
  | runtimeError (message : String)
  | valueError (message : String)
  | webSocketException (code : ℕ) (reason : String)
  /-- FastAPI: the query parameter fails its check. -/
  | webSocketRequestValidationError
deriving DecidableEq

abbrev ticketCalls : Interface := ⟨TicketCall, TicketCall.Val, TicketExn⟩

abbrev TicketAct (α : Type) := Prog ticketCalls α

abbrev TicketCall.perform (c : TicketCall) : TicketAct c.Val := @Prog.perform ticketCalls c

structure WebSocketTicketStore where
  ttlSeconds : ℤ
  one_le_ttl : 1 ≤ ttlSeconds

namespace WebSocketTicketStore

theorem one_le_of_not_lt {ttlSeconds : ℤ} (h : ¬ ttlSeconds < 1) : 1 ≤ ttlSeconds := not_lt.mp h

/-- `__init__` -/
def init (ttlSeconds : ℤ) : Except TicketExn WebSocketTicketStore :=
  if h : ttlSeconds < 1 then .error (.valueError "ttl_seconds must be at least 1")
  else .ok ⟨ttlSeconds, one_le_of_not_lt h⟩

/-- `_build_key` -/
def buildKey (ticket : String) : String := s!"websocket-ticket:{ticket}"

def issue (store : WebSocketTicketStore) (userId : ℤ) : TicketAct String := do
  let ticket ← TicketCall.ticketGenerator.perform
  let stored ← (TicketCall.redisSetNx (buildKey ticket) (toString userId) store.ttlSeconds).perform
  if !stored then
    Prog.raise (.runtimeError "Could not issue WebSocket ticket")
  else
    pure ticket

def consume (P : PyInt) (ticket : String) : TicketAct (Option ℤ) := do
  let storedUserId ← (TicketCall.redisGetDel (buildKey ticket)).perform
  match storedUserId with
  | none => pure none
  | some value =>
    match P.int value with
    | .error message => Prog.raise (.valueError message)
    | .ok userId => pure (some userId)

theorem buildKey_inj {ticket ticket' : String} : buildKey ticket = buildKey ticket' ↔ ticket = ticket' :=
  String.append_right_inj "websocket-ticket:"

end WebSocketTicketStore

/-- The policy violation both dependencies close with. -/
def couldNotValidate : TicketExn := .webSocketException 1008 "Could not validate credentials"

def consumeWebsocketTicket (P : PyInt) (ticket : String) : TicketAct ℤ := do
  let userId ← (WebSocketTicketStore.consume P ticket).tryCatch fun
    | .redisError => Prog.raise (.webSocketException 1013 "Authentication service unavailable")
    | e => Prog.raise e
  match userId with
  | none => Prog.raise couldNotValidate
  | some userId => pure userId

def getWebsocketCurrentUser (userId : ℤ) : TicketAct UserRecord := do
  let userRecord ← (TicketCall.getUserRecord userId).perform
  match userRecord with
  | none => Prog.raise couldNotValidate
  | some userRecord => if !userRecord.isActive then Prog.raise couldNotValidate else pure userRecord

/-- The dependencies of a WebSocket endpoint, in the order they are resolved in;
`ticket` is declared with `Query(min_length=1)`. -/
def websocketDependencies (P : PyInt) (ticket : String) : TicketAct UserRecord := do
  if ticket.length < 1 then
    Prog.raise .webSocketRequestValidationError
  else
    let userId ← consumeWebsocketTicket P ticket
    getWebsocketCurrentUser userId

/-! ### The interleaved system -/

inductive TicketRequest where
  | issue (userId : ℤ)
  | consume (ticket : String)
  | connect (ticket : String)
deriving DecidableEq

/-- What a request returns. -/
inductive TicketAnswer where
  | issued (ticket : String)
  | consumed (userId : Option ℤ)
  | connected (userRecord : UserRecord)
deriving DecidableEq

def TicketRequest.body (P : PyInt) (store : WebSocketTicketStore) : TicketRequest → TicketAct TicketAnswer
  | .issue userId => do return .issued (← store.issue userId)
  | .consume ticket => do return .consumed (← WebSocketTicketStore.consume P ticket)
  | .connect ticket => do return .connected (← websocketDependencies P ticket)

/-- The shared state. -/
structure TicketState where
  now : ℚ
  redis : Redis
  users : UserTable

namespace TicketState

/-- The effect of a call; `generated` is what the generator yields. -/
def serve (generated : String) : (c : TicketCall) → TicketState → ticketCalls.Out c × TicketState
  | .ticketGenerator, s => (.ok generated, s)
  | .redisSetNx key value ex, s =>
    (.ok (s.redis.setNx s.now key value ex).1, { s with redis := (s.redis.setNx s.now key value ex).2 })
  | .redisGetDel key, s =>
    (.ok (s.redis.getDel s.now key).1, { s with redis := (s.redis.getDel s.now key).2 })
  | .getUserRecord userId, s => (.ok (s.users.get userId), s)

/-- One atomic step. A Redis command may fail, and has taken effect or not. -/
def step (c : TicketCall) (s : TicketState) (v : ticketCalls.Out c) (s' : TicketState) : Prop :=
  (∃ generated, s.serve generated c = (v, s')) ∨
  (((∃ key value ex, c = .redisSetNx key value ex) ∨ ∃ key, c = .redisGetDel key) ∧ v = .error .redisError ∧
    (s' = s ∨ ∃ generated, s' = (s.serve generated c).2))

/-- Time passes, tickets disappear, and the users and the other keys change. -/
def Elapses (s s' : TicketState) : Prop :=
  s.now ≤ s'.now ∧ ∀ ticket, s'.redis (WebSocketTicketStore.buildKey ticket) = none ∨
    s'.redis (WebSocketTicketStore.buildKey ticket) = s.redis (WebSocketTicketStore.buildKey ticket)

theorem step_serve (generated : String) (c : TicketCall) (s : TicketState) :
    step c s (s.serve generated c).1 (s.serve generated c).2 := .inl ⟨generated, rfl⟩

end TicketState

/-- The ticket store over one Redis and one database. -/
abbrev ticketSystem (P : PyInt) (store : WebSocketTicketStore) : System ticketCalls where
  State := TicketState
  step := TicketState.step
  env := TicketState.Elapses
  Req := TicketRequest
  Res := TicketAnswer
  body := TicketRequest.body P store

/-! ### What a request does, call by call -/

/-- What a request has done so far. -/
structure TicketPhase where
  ticket : Option String := none
  /-- How its first `SET NX` came back. -/
  stored : Option (Except TicketExn Bool) := none
  /-- How its `GETDEL` came back. -/
  taken : Option (Except TicketExn (Option String)) := none
  /-- What the session returned. -/
  userRecord : Option (Option UserRecord) := none

def TicketPhase.next (q : TicketPhase) : (c : TicketCall) → ticketCalls.Out c → TicketPhase
  | .ticketGenerator, .ok ticket => { q with ticket := some ticket }
  | .ticketGenerator, .error _ => q
  | .redisSetNx .., v => { q with stored := q.stored.or (some v) }
  | .redisGetDel _, v => { q with taken := some v }
  | .getUserRecord _, .ok r => { q with userRecord := some r }
  | .getUserRecord _, .error _ => q

namespace TicketRequest

variable (P : PyInt) (store : WebSocketTicketStore)

/-- The calls a request may make in a phase. -/
def Allows : TicketRequest → TicketPhase → TicketCall → Prop
  | .issue _, q, .ticketGenerator => q.stored = none
  | .issue userId, q, .redisSetNx key value ex =>
    q.stored = none ∧ value = toString userId ∧ ex = store.ttlSeconds ∧
      ∃ ticket, q.ticket = some ticket ∧ key = WebSocketTicketStore.buildKey ticket
  | .consume ticket, q, .redisGetDel key => q.taken = none ∧ key = WebSocketTicketStore.buildKey ticket
  | .connect ticket, q, .redisGetDel key => q.taken = none ∧ key = WebSocketTicketStore.buildKey ticket
  | .connect _, q, .getUserRecord userId =>
    ∃ value, q.taken = some (.ok (some value)) ∧ P.int value = .ok userId
  | _, _, _ => False

/-- How a request that returns may end. -/
def Ends : TicketRequest → TicketPhase → Except TicketExn TicketAnswer → Prop
  | _, _, .error _ => True
  | .issue _, q, .ok x => ∃ ticket, x = .issued ticket ∧ q.ticket = some ticket ∧ q.stored = some (.ok true)
  | .consume _, q, .ok x =>
    (x = .consumed none ∧ q.taken = some (.ok none)) ∨
    ∃ value userId, x = .consumed (some userId) ∧ q.taken = some (.ok (some value)) ∧ P.int value = .ok userId
  | .connect _, q, .ok x => ∃ r, x = .connected r ∧ q.userRecord = some (some r) ∧ r.isActive = true

/-- The protocol of a request. -/
abbrev protocol (r : TicketRequest) : Protocol ticketCalls where
  Phase := TicketPhase
  init := {}
  next := TicketPhase.next
  allows := r.Allows P store

end TicketRequest

section Protocol

variable {P : PyInt} {store : WebSocketTicketStore} {can : (c : TicketCall) → ticketCalls.Out c → Prop}
  {q : TicketPhase}

theorem issue_follows {userId : ℤ} (hq : q.stored = none) :
    (store.issue userId).Follows (TicketRequest.protocol P store (.issue userId)) can
      (fun q r => ∀ ticket, r = .ok ticket → q.ticket = some ticket ∧ q.stored = some (.ok true)) q := by
  unfold WebSocketTicketStore.issue
  refine Prog.follows_bind.mpr (Prog.follows_perform.mpr ⟨hq, fun v _ => ?_⟩)
  rcases v with e | ticket
  · exact fun _ h => by cases h
  refine Prog.follows_bind.mpr (Prog.follows_perform.mpr ⟨⟨hq, rfl, rfl, ticket, rfl, rfl⟩, fun v _ => ?_⟩)
  rcases v with e | _ | _
  · exact fun _ h => by cases h
  · exact fun _ h => by cases h
  · rintro _ ⟨⟩
    exact ⟨rfl, by simp [TicketPhase.next, hq]⟩

/-- What `consume` does in the protocol of any request that may take the ticket. -/
theorem consume_follows {r : TicketRequest} {ticket : String}
    {Q : TicketPhase → Except TicketExn (Option ℤ) → Prop}
    (hr : r.Allows P store q (.redisGetDel (WebSocketTicketStore.buildKey ticket)))
    (herr : ∀ q e, Q q (.error e)) (hnone : Q { q with taken := some (.ok none) } (.ok none))
    (hsome : ∀ value userId, P.int value = .ok userId →
      Q { q with taken := some (.ok (some value)) } (.ok (some userId))) :
    (WebSocketTicketStore.consume P ticket).Follows (TicketRequest.protocol P store r) can Q q := by
  unfold WebSocketTicketStore.consume
  refine Prog.follows_bind.mpr (Prog.follows_perform.mpr ⟨hr, fun v _ => ?_⟩)
  rcases v with e | _ | value
  · exact herr _ e
  · exact hnone
  · simp only [Prog.ends_ok, TicketPhase.next]
    cases hint : P.int value with
    | error message => exact herr _ _
    | ok userId => exact hsome value userId hint

theorem websocketDependencies_follows {ticket : String} (hq : q.taken = none) :
    (websocketDependencies P ticket).Follows (TicketRequest.protocol P store (.connect ticket)) can
      (fun q x => ∀ r, x = .ok r → q.userRecord = some (some r) ∧ r.isActive = true) q := by
  unfold websocketDependencies
  split
  · exact fun _ h => by cases h
  unfold consumeWebsocketTicket
  refine Prog.follows_bind.mpr (Prog.follows_bind.mpr (Prog.follows_tryCatch.mpr
    (consume_follows ⟨hq, rfl⟩ (fun q e => ?_) ?_ fun value userId hint => ?_)))
  · cases e <;> exact fun _ h => by cases h
  · exact fun _ h => by cases h
  · refine Prog.follows_bind.mpr (Prog.follows_perform.mpr ⟨⟨value, rfl, hint⟩, fun v _ => ?_⟩)
    rcases v with e | _ | r
    · exact fun _ h => by cases h
    · exact fun _ h => by cases h
    · simp only [Prog.ends_ok, TicketPhase.next]
      cases hactive : r.isActive with
      | false => exact fun _ h => by cases h
      | true =>
        rintro _ ⟨⟩
        exact ⟨rfl, hactive⟩

theorem ticketRequest_follows (r : TicketRequest) :
    (r.body P store).Follows (r.protocol P store) can (r.Ends P) {} := by
  cases r with
  | issue userId =>
    refine Prog.follows_bind.mpr ((issue_follows rfl).mono fun q x h => ?_)
    cases x with
    | ok ticket => exact ⟨ticket, rfl, (h ticket rfl).1, (h ticket rfl).2⟩
    | error e => trivial
  | consume ticket =>
    refine Prog.follows_bind.mpr (consume_follows ⟨rfl, rfl⟩ (fun _ _ => trivial) ?_ fun value userId hint => ?_)
    · exact .inl ⟨rfl, rfl⟩
    · exact .inr ⟨value, userId, rfl, rfl, hint⟩
  | connect ticket =>
    refine Prog.follows_bind.mpr ((websocketDependencies_follows rfl).mono fun q x h => ?_)
    cases x with
    | ok r => exact ⟨r, rfl, (h r rfl).1, (h r rfl).2⟩
    | error e => trivial

end Protocol

/-- Every request of the ticket system follows its protocol. -/
def ticketDiscipline (P : PyInt) (store : WebSocketTicketStore) : Discipline (ticketSystem P store) where
  protocol r := r.protocol P store
  final r := r.Ends P
  follows r := ticketRequest_follows r

/-! ### What a step can do -/

namespace TicketState

variable {s s' : TicketState}

theorem step_redisSetNx {key value : String} {ex : ℤ} {v : Except TicketExn Bool}
    (h : step (.redisSetNx key value ex) s v s') :
    (s.redis.get s.now key = none ∧ s' = { s with redis := s.redis.set s.now key value ex }) ∨
    (s' = s ∧ v ≠ .ok true) := by
  cases hget : s.redis.get s.now key with
  | none =>
    rcases h with ⟨generated, h⟩ | ⟨-, rfl, rfl | ⟨generated, rfl⟩⟩
    · simp only [serve, Redis.setNx_of_none _ _ _ _ hget, Prod.mk.injEq] at h
      exact .inl ⟨rfl, h.2.symm⟩
    · exact .inr ⟨rfl, by simp⟩
    · simp only [serve, Redis.setNx_of_none _ _ _ _ hget]
      exact .inl ⟨trivial, trivial⟩
  | some x =>
    refine .inr ?_
    rcases h with ⟨generated, h⟩ | ⟨-, rfl, rfl | ⟨generated, rfl⟩⟩
    · simp only [serve, Redis.setNx_of_some _ _ _ _ hget, Prod.mk.injEq] at h
      exact ⟨h.2.symm, by simp [← h.1]⟩
    · exact ⟨rfl, by simp⟩
    · simp only [serve, Redis.setNx_of_some _ _ _ _ hget]
      exact ⟨trivial, by simp⟩

theorem step_redisGetDel {key : String} {v : Except TicketExn (Option String)}
    (h : step (.redisGetDel key) s v s') :
    (v = .ok (s.redis.get s.now key) ∧ s' = { s with redis := s.redis.delete key }) ∨
    (v = .error .redisError ∧ (s' = s ∨ s' = { s with redis := s.redis.delete key })) := by
  rcases h with ⟨generated, h⟩ | ⟨-, rfl, rfl | ⟨generated, rfl⟩⟩
  · cases h
    exact .inl ⟨rfl, rfl⟩
  · exact .inr ⟨rfl, .inl rfl⟩
  · exact .inr ⟨rfl, .inr rfl⟩

theorem step_ticketGenerator {v : Except TicketExn String} (h : step .ticketGenerator s v s') : s' = s := by
  rcases h with ⟨generated, h⟩ | ⟨⟨key, value, ex, h⟩ | ⟨key, h⟩, -⟩
  · cases h
    rfl
  · cases h
  · cases h

theorem step_getUserRecord {userId : ℤ} {v : Except TicketExn (Option UserRecord)}
    (h : step (.getUserRecord userId) s v s') : s' = s ∧ v = .ok (s.users.get userId) := by
  rcases h with ⟨generated, h⟩ | ⟨⟨key, value, ex, h⟩ | ⟨key, h⟩, -⟩
  · cases h
    exact ⟨rfl, rfl⟩
  · cases h
  · cases h

end TicketState

/-! ### Stored tickets and their issues

`holder` names the issue that every stored ticket is from, `issuer` the one that
every taken ticket was from. No issue is named twice. -/

structure Matching {κ : Type} (stored : Set κ) (takers : Set ℕ) (holder : κ → ℕ) (issuer : ℕ → ℕ) : Prop where
  holder_injOn : Set.InjOn holder stored
  issuer_injOn : Set.InjOn issuer takers
  apart : ∀ k ∈ stored, ∀ t ∈ takers, holder k ≠ issuer t

namespace Matching

variable {κ : Type} {stored stored' : Set κ} {takers : Set ℕ} {holder : κ → ℕ} {issuer : ℕ → ℕ} {k : κ} {t : ℕ}

theorem mono (h : Matching stored takers holder issuer) (hs : stored' ⊆ stored) :
    Matching stored' takers holder issuer :=
  ⟨h.holder_injOn.mono hs, h.issuer_injOn, fun k hk => h.apart k (hs hk)⟩

/-- A new issue stores `k`. -/
theorem store [DecidableEq κ] (h : Matching stored takers holder issuer) (hk : k ∉ stored)
    (hholder : ∀ k ∈ stored, holder k ≠ t) (hissuer : ∀ t' ∈ takers, issuer t' ≠ t) :
    Matching (insert k stored) takers (Function.update holder k t) issuer := by
  have old : ∀ k' ∈ stored, Function.update holder k t k' = holder k' := fun k' hk' =>
    Function.update_of_ne (ne_of_mem_of_not_mem hk' hk) _ _
  refine ⟨?_, h.issuer_injOn, ?_⟩
  · rintro k₁ (rfl | h₁) k₂ (rfl | h₂) heq
    · rfl
    · rw [Function.update_self, old _ h₂] at heq
      exact absurd heq.symm (hholder k₂ h₂)
    · rw [Function.update_self, old _ h₁] at heq
      exact absurd heq (hholder k₁ h₁)
    · rw [old _ h₁, old _ h₂] at heq
      exact h.holder_injOn h₁ h₂ heq
  · rintro k' (rfl | hk') t' ht'
    · rw [Function.update_self]
      exact (hissuer t' ht').symm
    · rw [old _ hk']
      exact h.apart k' hk' t' ht'

/-- A new taker takes `k`. -/
theorem take (h : Matching stored takers holder issuer) (hk : k ∈ stored) (ht : t ∉ takers) :
    Matching (stored \ {k}) (insert t takers) holder (Function.update issuer t (holder k)) := by
  have old : ∀ t' ∈ takers, Function.update issuer t (holder k) t' = issuer t' := fun t' ht' =>
    Function.update_of_ne (ne_of_mem_of_not_mem ht' ht) _ _
  refine ⟨h.holder_injOn.mono Set.sdiff_subset, ?_, ?_⟩
  · rintro t₁ (rfl | h₁) t₂ (rfl | h₂) heq
    · rfl
    · rw [Function.update_self, old _ h₂] at heq
      exact absurd heq (h.apart k hk t₂ h₂)
    · rw [Function.update_self, old _ h₁] at heq
      exact absurd heq.symm (h.apart k hk t₁ h₁)
    · rw [old _ h₁, old _ h₂] at heq
      exact h.issuer_injOn h₁ h₂ heq
  · rintro k' ⟨hk', hne⟩ t' (rfl | ht')
    · rw [Function.update_self]
      exact fun heq => hne (h.holder_injOn hk' hk heq)
    · rw [old _ ht']
      exact h.apart k' hk' t' ht'

end Matching

/-! ### The invariant -/

section Invariant

variable {P : PyInt} {store : WebSocketTicketStore}

/-- The event is thread `t` storing `ticket` for the user. -/
def StoresTicket (e : Event (ticketSystem P store)) (t : ℕ) (ticket : String) (userId : ℤ) : Prop :=
  (∃ v, e.act = .call t (.redisSetNx (WebSocketTicketStore.buildKey ticket) (toString userId) store.ttlSeconds) v) ∧
  e.before.redis.get e.before.now (WebSocketTicketStore.buildKey ticket) = none ∧
  e.after.redis (WebSocketTicketStore.buildKey ticket) = some ⟨toString userId, e.before.now + store.ttlSeconds⟩

/-- The event is thread `t` taking `ticket`, with the value stored for it. -/
def TakesTicket (e : Event (ticketSystem P store)) (t : ℕ) (ticket value : String) : Prop :=
  e.act = .call t (.redisGetDel (WebSocketTicketStore.buildKey ticket)) (.ok (some value))

theorem takesTicket_getDel {s s' : TicketState} {t t' : ℕ} {key ticket value : String}
    {v : Except TicketExn (Option String)} :
    TakesTicket (⟨s, s', .call t (.redisGetDel key) v⟩ : Event (ticketSystem P store)) t' ticket value ↔
      t = t' ∧ key = WebSocketTicketStore.buildKey ticket ∧ v = .ok (some value) := by
  simp [TakesTicket]

/-- The threads that have taken a ticket. -/
def ticketTakers (tr : List (Event (ticketSystem P store))) : Set ℕ :=
  {t | ∃ e ∈ tr, ∃ ticket value, TakesTicket e t ticket value}

/-- Which tickets are stored, whether or not their time has come. -/
def TicketState.tickets (s : TicketState) : Set String :=
  {ticket | s.redis (WebSocketTicketStore.buildKey ticket) ≠ none}

structure TicketInv (s : TicketState) (tr : List (Event (ticketSystem P store))) (holder : String → ℕ)
    (issuer : ℕ → ℕ) : Prop where
  matching : Matching s.tickets (ticketTakers tr) holder issuer
  stored : ∀ ticket entry, s.redis (WebSocketTicketStore.buildKey ticket) = some entry → ∃ e ∈ tr, ∃ userId,
    StoresTicket e (holder ticket) ticket userId ∧ entry = ⟨toString userId, e.before.now + store.ttlSeconds⟩
  taken : ∀ u e tr' t ticket value, tr = u ++ e :: tr' → TakesTicket e t ticket value → ∃ e' ∈ tr', ∃ userId,
    StoresTicket e' (issuer t) ticket userId ∧ value = toString userId ∧
      e.before.now < e'.before.now + store.ttlSeconds

namespace TicketInv

variable {s s' : TicketState} {tr : List (Event (ticketSystem P store))} {e : Event (ticketSystem P store)}
  {holder : String → ℕ} {issuer : ℕ → ℕ} {t : ℕ} {ticket value : String}

theorem takers_cons (tr : List (Event (ticketSystem P store)))
    (h : ∀ t ticket value, ¬ TakesTicket e t ticket value) : ticketTakers (e :: tr) =
    ticketTakers tr := by
  ext t
  constructor
  · rintro ⟨e', he, ticket, value, ht⟩
    rcases List.mem_cons.mp he with rfl | he
    · exact absurd ht (h t ticket value)
    · exact ⟨e', he, ticket, value, ht⟩
  · rintro ⟨e', he, ht⟩
    exact ⟨e', List.mem_cons_of_mem _ he, ht⟩

theorem takers_cons_take (h : TakesTicket e t ticket value) :
    ticketTakers (e :: tr) = insert t (ticketTakers tr) := by
  ext t'
  constructor
  · rintro ⟨e', he, ticket', value', ht⟩
    rcases List.mem_cons.mp he with rfl | he
    · left
      have := congrArg Act.thread (ht.symm.trans h)
      exact this
    · exact .inr ⟨e', he, ticket', value', ht⟩
  · rintro (rfl | ⟨e', he, ht⟩)
    · exact ⟨e, List.mem_cons_self, ticket, value, h⟩
    · exact ⟨e', List.mem_cons_of_mem _ he, ht⟩

/-- Tickets may disappear. -/
theorem elapse (h : TicketInv s tr holder issuer)
    (hs : ∀ ticket, s'.redis (WebSocketTicketStore.buildKey ticket) = none ∨
      s'.redis (WebSocketTicketStore.buildKey ticket) = s.redis (WebSocketTicketStore.buildKey ticket)) :
    TicketInv s' tr holder issuer := by
  refine ⟨h.matching.mono fun ticket hticket => ?_, fun ticket entry hentry => ?_, h.taken⟩
  · rcases hs ticket with hs | hs
    · exact absurd hs hticket
    · exact fun hnone => hticket (hs.trans hnone)
  · rcases hs ticket with hs | hs
    · rw [hs] at hentry
      cases hentry
    · exact h.stored ticket entry (hs ▸ hentry)

/-- An event that takes no ticket. -/
theorem cons (h : TicketInv s tr holder issuer) (he : ∀ t ticket value, ¬ TakesTicket e t ticket value) :
    TicketInv s (e :: tr) holder issuer := by
  refine ⟨(takers_cons tr he).symm ▸ h.matching, fun ticket entry hentry => ?_, ?_⟩
  · obtain ⟨e', he', hstored⟩ := h.stored ticket entry hentry
    exact ⟨e', List.mem_cons_of_mem _ he', hstored⟩
  · intro u e' tr' t ticket value heq htakes
    cases u with
    | nil =>
      rw [List.nil_append, List.cons.injEq] at heq
      exact absurd (heq.1 ▸ htakes) (he t ticket value)
    | cons b u =>
      rw [List.cons_append, List.cons.injEq] at heq
      exact h.taken u e' tr' t ticket value heq.2 htakes

/-- A thread that has stored no ticket stores one. -/
theorem cons_store {userId : ℤ} (h : TicketInv e.before tr holder issuer)
    (hstores : StoresTicket e t ticket userId)
    (hother : ∀ key, key ≠ WebSocketTicketStore.buildKey ticket → e.after.redis key = e.before.redis key)
    (hfresh : ∀ e ∈ tr, ∀ ticket userId, ¬ StoresTicket e t ticket userId) :
    ∃ holder', TicketInv e.after (e :: tr) holder' issuer := by
  have hkey : ∀ {ticket' : String}, ticket' ≠ ticket →
      e.after.redis (WebSocketTicketStore.buildKey ticket') =
        e.before.redis (WebSocketTicketStore.buildKey ticket') := fun hne =>
    hother _ fun heq => hne (WebSocketTicketStore.buildKey_inj.mp heq)
  have hquiet : ∀ t ticket value, ¬ TakesTicket e t ticket value := fun t' ticket' value' htakes => by
    obtain ⟨⟨v, hact⟩, -⟩ := hstores
    cases hact.symm.trans htakes
  have htakers := takers_cons tr hquiet
  refine ⟨Function.update holder ticket t, ?_, fun ticket' entry hentry => ?_, (h.cons hquiet).taken⟩
  · rw [htakers]
    refine (Matching.store (h.matching.mono (Set.sdiff_subset : e.before.tickets \ {ticket} ⊆ _))
      (fun hmem => hmem.2 rfl) (fun ticket' hmem heq => ?_) fun t' ht' heq => ?_).mono ?_
    · -- what another ticket is from is in the past
      obtain ⟨entry, hentry⟩ := Option.ne_none_iff_exists'.mp hmem.1
      obtain ⟨e', he', userId', hstores', -⟩ := h.stored ticket' entry hentry
      exact hfresh e' he' _ _ (heq ▸ hstores')
    · obtain ⟨e', he', ticket', value', htakes⟩ := ht'
      obtain ⟨u, tr', rfl⟩ := List.append_of_mem he'
      obtain ⟨e'', he'', userId', hstores', -⟩ := h.taken u e' tr' t' ticket' value' rfl htakes
      exact hfresh e'' (by simp [he'']) _ _ (heq ▸ hstores')
    · intro ticket' hmem
      by_cases heq : ticket' = ticket
      · exact .inl heq
      · exact .inr ⟨fun hnone => hmem ((hkey heq).trans hnone), heq⟩
  · by_cases heq : ticket' = ticket
    · subst heq
      rw [Function.update_self]
      refine ⟨e, List.mem_cons_self, userId, hstores, ?_⟩
      exact Option.some.inj (hentry.symm.trans hstores.2.2)
    · rw [hkey heq] at hentry
      rw [Function.update_of_ne heq]
      obtain ⟨e', he', hstored⟩ := h.stored ticket' entry hentry
      exact ⟨e', List.mem_cons_of_mem _ he', hstored⟩

/-- A thread that has taken no ticket takes one. -/
theorem cons_take (h : TicketInv e.before tr holder issuer) (htakes : TakesTicket e t ticket value)
    (hget : e.before.redis.get e.before.now (WebSocketTicketStore.buildKey ticket) = some value)
    (hdel : e.after.redis = e.before.redis.delete (WebSocketTicketStore.buildKey ticket))
    (hfresh : t ∉ ticketTakers tr) : ∃ issuer', TicketInv e.after (e :: tr) holder issuer' := by
  obtain ⟨entry, hentry, hlive, rfl⟩ := (Redis.get_eq_some _ _).mp hget
  have hkey : ∀ {ticket' : String}, ticket' ≠ ticket →
      e.after.redis (WebSocketTicketStore.buildKey ticket') =
        e.before.redis (WebSocketTicketStore.buildKey ticket') := fun hne => by
    rw [hdel]
    exact Redis.delete_ne _ fun heq => hne (WebSocketTicketStore.buildKey_inj.mp heq)
  have hgone : e.after.redis (WebSocketTicketStore.buildKey ticket) = none := by
    rw [hdel, Redis.delete_self]
  refine ⟨Function.update issuer t (holder ticket), ?_, fun ticket' entry' hentry' => ?_, ?_⟩
  · rw [takers_cons_take htakes]
    refine (h.matching.take (show ticket ∈ e.before.tickets by simp [TicketState.tickets, hentry]) hfresh).mono ?_
    intro ticket' hmem
    by_cases heq : ticket' = ticket
    · exact absurd (heq ▸ hgone) hmem
    · exact ⟨fun hnone => hmem ((hkey heq).trans hnone), heq⟩
  · by_cases heq : ticket' = ticket
    · rw [heq, hgone] at hentry'
      cases hentry'
    · rw [hkey heq] at hentry'
      obtain ⟨e', he', hstored⟩ := h.stored ticket' entry' hentry'
      exact ⟨e', List.mem_cons_of_mem _ he', hstored⟩
  · intro u e' tr' t' ticket' value' heq htakes'
    cases u with
    | nil =>
      rw [List.nil_append, List.cons.injEq] at heq
      obtain ⟨rfl, rfl⟩ := heq
      have hact := htakes.symm.trans htakes'
      simp only [Act.call.injEq, TicketCall.redisGetDel.injEq, WebSocketTicketStore.buildKey_inj] at hact
      obtain ⟨rfl, rfl, hvalue⟩ := hact
      cases hvalue
      rw [Function.update_self]
      obtain ⟨e'', he'', userId, hstores, rfl⟩ := h.stored ticket entry hentry
      exact ⟨e'', he'', userId, hstores, rfl, hlive⟩
    | cons b u =>
      rw [List.cons_append, List.cons.injEq] at heq
      obtain ⟨-, rfl⟩ := heq
      have hne : t' ≠ t := fun heq => hfresh (heq ▸ ⟨e', by simp, ticket', value', htakes'⟩)
      rw [Function.update_of_ne hne]
      exact h.taken u e' tr' t' ticket' value' rfl htakes'

end TicketInv

/-! ### Every run -/

/-- The automaton all ticket requests share. -/
abbrev ticketAutomaton : Automaton ticketCalls := ⟨TicketPhase, {}, TicketPhase.next⟩

theorem TicketPhase.next_stored {q : TicketPhase} (c : TicketCall) (v : ticketCalls.Out c)
    (h : q.stored ≠ none) : (q.next c v).stored ≠ none := by
  cases c <;> rcases v with e | v <;> simp_all [TicketPhase.next]

theorem TicketPhase.next_taken {q : TicketPhase} (c : TicketCall) (v : ticketCalls.Out c)
    (h : q.taken ≠ none) : (q.next c v).taken ≠ none := by
  cases c <;> rcases v with e | v <;> simp_all [TicketPhase.next]

/-- Who may take a ticket names it, and has taken none. -/
theorem TicketRequest.allows_getDel {r : TicketRequest} {q : TicketPhase} {key : String}
    (h : r.Allows P store q (.redisGetDel key)) :
    q.taken = none ∧ ∃ ticket, key = WebSocketTicketStore.buildKey ticket := by
  cases r with
  | issue userId => exact h.elim
  | consume ticket => exact ⟨h.1, ticket, h.2⟩
  | connect ticket => exact ⟨h.1, ticket, h.2⟩

theorem notMem_takers {t : ℕ} {tr : List (Event (ticketSystem P store))}
    (h : (phase ticketAutomaton t tr).taken = none) : t ∉ ticketTakers tr := by
  rintro ⟨e, he, ticket, value, hact⟩
  exact phase_of_call (A := ticketAutomaton) (P := fun q => q.taken ≠ none)
    (fun q c v => TicketPhase.next_taken c v) he hact (fun q => by simp [TicketPhase.next]) h

variable {s₀ : TicketState} {c : Config (ticketSystem P store)}

theorem TicketInv.init (hs₀ : s₀.tickets = ∅) :
    TicketInv s₀ ([] : List (Event (ticketSystem P store))) (fun _ => 0) fun _ => 0 where
  matching := ⟨by simp [hs₀], by simp [ticketTakers], by simp [hs₀]⟩
  stored ticket entry hentry := by
    have hticket : ticket ∈ s₀.tickets := by simp [TicketState.tickets, hentry]
    rw [hs₀] at hticket
    cases hticket
  taken u e tr' t ticket value heq := by simp at heq

/-- `GETDEL` leaves all other tickets. -/
theorem delete_ticket (r : Redis) (ticket ticket' : String) :
    (r.delete (WebSocketTicketStore.buildKey ticket)) (WebSocketTicketStore.buildKey ticket') = none ∨
      (r.delete (WebSocketTicketStore.buildKey ticket)) (WebSocketTicketStore.buildKey ticket') =
        r (WebSocketTicketStore.buildKey ticket') := by
  by_cases heq : ticket' = ticket
  · exact .inl (heq ▸ Redis.delete_self _)
  · exact .inr (Redis.delete_ne _ fun hkey => heq (WebSocketTicketStore.buildKey_inj.mp hkey))

theorem ticketInv (hs₀ : s₀.tickets = ∅) (h : Interleaved (.init s₀) c) :
    ∃ holder issuer, TicketInv c.state c.trace holder issuer := by
  refine @Run.invariant _ _ _ s₀ (ticketDiscipline P store)
    (fun s tr => ∃ holder issuer, TicketInv s tr holder issuer) ⟨_, _, .init hs₀⟩ ?_ ?_ ?_ c h
  · rintro b hb ⟨holder, issuer, ih⟩ t r hn
    exact ⟨holder, issuer, ih.cons fun t ticket value htakes => by cases htakes⟩
  · rintro b hb ⟨holder, issuer, ih⟩ t r x v s' hrun hr ha hs
    cases x with
    | ticketGenerator =>
      obtain rfl := TicketState.step_ticketGenerator hs
      exact ⟨holder, issuer, ih.cons fun t ticket value htakes => by cases htakes⟩
    | getUserRecord userId =>
      obtain ⟨rfl, -⟩ := TicketState.step_getUserRecord hs
      exact ⟨holder, issuer, ih.cons fun t ticket value htakes => by cases htakes⟩
    | redisSetNx key value ex =>
      rcases TicketState.step_redisSetNx hs with ⟨hget, hs'⟩ | ⟨rfl, -⟩
      · cases r with
        | issue userId =>
          obtain ⟨hstored, rfl, rfl, ticket, -, rfl⟩ := ha
          have hredis : s'.redis = b.state.redis.set b.state.now _ _ _ := congrArg TicketState.redis hs'
          obtain ⟨holder', h'⟩ := TicketInv.cons_store (e := ⟨b.state, s', .call t _ v⟩) ih
            ⟨⟨v, rfl⟩, hget, hredis ▸ Redis.set_self _ _ _ _⟩
            (fun key hne => hredis ▸ Redis.set_ne _ _ _ _ hne) fun e he ticket userId hstores => by
              obtain ⟨⟨v', hact⟩, -⟩ := hstores
              exact phase_of_call (A := ticketAutomaton) (P := fun q => q.stored ≠ none)
                (fun q c v => TicketPhase.next_stored c v) he hact (fun q => by simp [TicketPhase.next]) hstored
          exact ⟨holder', issuer, h'⟩
        | consume ticket => exact ha.elim
        | connect ticket => exact ha.elim
      · exact ⟨holder, issuer, ih.cons fun t ticket value htakes => by cases htakes⟩
    | redisGetDel key =>
      obtain ⟨htaken, ticket, rfl⟩ := TicketRequest.allows_getDel ha
      have hgone := delete_ticket b.state.redis ticket
      rcases TicketState.step_redisGetDel hs with ⟨hv, hs'⟩ | ⟨rfl, rfl | rfl⟩
      · cases hget : b.state.redis.get b.state.now (WebSocketTicketStore.buildKey ticket) with
        | none =>
          rw [hget] at hv
          subst hv hs'
          exact ⟨holder, issuer, (ih.elapse hgone).cons fun t ticket value htakes => by
            cases (takesTicket_getDel.mp htakes).2.2⟩
        | some value =>
          rw [hget] at hv
          obtain ⟨issuer', h'⟩ := TicketInv.cons_take (e := ⟨b.state, s', .call t _ v⟩) ih
            (takesTicket_getDel.mpr ⟨rfl, rfl, hv⟩) hget (by rw [hs']) (notMem_takers htaken)
          exact ⟨holder, issuer', h'⟩
      · exact ⟨holder, issuer, ih.cons fun t ticket value htakes => by
          cases (takesTicket_getDel.mp htakes).2.2⟩
      · exact ⟨holder, issuer, (ih.elapse hgone).cons fun t ticket value htakes => by
          cases (takesTicket_getDel.mp htakes).2.2⟩
  · rintro b hb ⟨holder, issuer, ih⟩ s' he
    exact ⟨holder, issuer, ih.elapse he.2⟩

/-- Where a taken ticket in the phase of a thread came from. -/
theorem taken_event (h : Interleaved (.init s₀) c) {t : ℕ} {r : TicketRequest} {ticket value : String}
    (hr : Requested t r c.trace) (hticket : r = .consume ticket ∨ r = .connect ticket)
    (htaken : (phase ticketAutomaton t c.trace).taken = some (.ok (some value))) :
    ∃ e ∈ c.trace, TakesTicket e t ticket value := by
  obtain ⟨b, u, x, v, s', -, -, he, hnot, hnext, ha, -⟩ := Run.phase_made (ticketDiscipline P store) h hr
    (P := fun q : TicketPhase => q.taken = some (.ok (some value))) (by rintro ⟨⟩) htaken
  cases x with
  | redisGetDel key =>
    have hkey : key = WebSocketTicketStore.buildKey ticket := by
      rcases hticket with rfl | rfl <;> exact ha.2
    have hv : some v = some (.ok (some value)) := hnext
    exact ⟨⟨b.state, s', _⟩, he ▸ List.mem_append_right _ List.mem_cons_self,
      takesTicket_getDel.mpr ⟨rfl, hkey, Option.some.inj hv⟩⟩
  | ticketGenerator => rcases v with e | v <;> exact absurd hnext hnot
  | redisSetNx key value' ex => exact absurd hnext hnot
  | getUserRecord userId => rcases v with e | v <;> exact absurd hnext hnot

/-- A thread takes one ticket. -/
theorem takes_once (h : Interleaved (.init s₀) c) {u tr : List (Event (ticketSystem P store))}
    {e : Event (ticketSystem P store)} {t : ℕ} {ticket value : String} (he : c.trace = u ++ e :: tr)
    (htakes : TakesTicket e t ticket value) : t ∉ ticketTakers tr := by
  rcases e with ⟨s, s', act⟩
  obtain rfl : act = _ := htakes
  obtain ⟨b, r, -, -, rfl, -, -, -, ha, -⟩ := Run.made (ticketDiscipline P store) h he
  exact notMem_takers (TicketRequest.allows_getDel ha).1

/-- Who stores a ticket for a user was asked to. -/
theorem stores_requested (h : Interleaved (.init s₀) c) {u tr : List (Event (ticketSystem P store))}
    {e : Event (ticketSystem P store)} {t : ℕ} {ticket : String} {userId : ℤ} (he : c.trace = u ++ e :: tr)
    (hstores : StoresTicket e t ticket userId) : Requested t (TicketRequest.issue userId) c.trace := by
  rcases e with ⟨s, s', act⟩
  obtain ⟨⟨v, hact⟩, -⟩ := hstores
  subst hact
  obtain ⟨b, r, -, -, rfl, -, hr, -, ha, -⟩ := Run.made (ticketDiscipline P store) h he
  cases r with
  | issue userId' =>
    obtain ⟨-, hvalue, -⟩ := ha
    have hint := P.int_str userId
    rw [hvalue, P.int_str] at hint
    cases hint
    exact he ▸ (hr.cons _).append u
  | consume ticket' => exact ha.elim
  | connect ticket' => exact ha.elim

/-- A consume that returns a user id took the ticket, and read the id off it. -/
theorem consumed_takes (h : Interleaved (.init s₀) c) {t : ℕ} {ticket : String} {userId : ℤ}
    (hr : Requested t (TicketRequest.consume ticket) c.trace)
    (hx : c.result t = some (.ok (.consumed (some userId)))) :
    ∃ e ∈ c.trace, ∃ value, TakesTicket e t ticket value ∧ P.int value = .ok userId := by
  rcases Run.final (ticketDiscipline P store) h hr hx with ⟨hnone, -⟩ | ⟨value, userId', heq, htaken, hint⟩
  · cases hnone
  · cases heq
    obtain ⟨e, he, htakes⟩ := taken_event h hr (.inl rfl) htaken
    exact ⟨e, he, value, htakes, hint⟩

/-- Whom a connection is let through for. -/
theorem connected_takes (h : Interleaved (.init s₀) c) {t : ℕ} {ticket : String} {r : UserRecord}
    (hr : Requested t (TicketRequest.connect ticket) c.trace) (hx : c.result t = some (.ok (.connected r))) :
    ∃ u e tr, c.trace = u ++ e :: tr ∧ e.act = .call t (.getUserRecord r.id) (.ok (some r)) ∧
      e.before.users.get r.id = some r ∧ r.isActive = true ∧
      ∃ e' ∈ tr, ∃ value, TakesTicket e' t ticket value ∧ P.int value = .ok r.id := by
  obtain ⟨r', heq, huser, hactive⟩ := Run.final (ticketDiscipline P store) h hr hx
  cases heq
  obtain ⟨b, u, x, v, s', hb, hr', he, hnot, hnext, ha, hs⟩ := Run.phase_made (ticketDiscipline P store) h hr
    (P := fun q : TicketPhase => q.userRecord = some (some r)) (by rintro ⟨⟩) huser
  cases x with
  | getUserRecord userId =>
    obtain ⟨rfl, rfl⟩ := TicketState.step_getUserRecord hs
    have hget : b.state.users.get userId = some r := Option.some.inj hnext
    obtain ⟨-, rfl⟩ := UserTable.get_some hget
    obtain ⟨value, htaken, hint⟩ := ha
    obtain ⟨e, he', htakes⟩ := taken_event hb hr' (.inr rfl) htaken
    exact ⟨u, _, _, he, by rw [hget], hget, hactive, e, he', value, htakes, hint⟩
  | ticketGenerator => rcases v with e | v <;> exact absurd hnext hnot
  | redisSetNx key value' ex => exact absurd hnext hnot
  | redisGetDel key => exact absurd hnext hnot

/-- An issue whose ticket is still stored leaves it, and raises. -/
theorem issue_refused (h : Interleaved (.init s₀) c) {u tr : List (Event (ticketSystem P store))}
    {s s' : TicketState} {t : ℕ} {key value x : String} {ex : ℤ} {v : Except TicketExn Bool}
    (he : c.trace = u ++ ⟨s, s', .call t (.redisSetNx key value ex) v⟩ :: tr)
    (hget : s.redis.get s.now key = some x) :
    s' = s ∧ ∀ y, c.result t = some y → ∃ err, y = .error err := by
  obtain ⟨b, r, hb, rfl, rfl, -, hr, -, ha, hs⟩ := Run.made (ticketDiscipline P store) h he
  rcases TicketState.step_redisSetNx hs with ⟨hnone, -⟩ | ⟨rfl, hv⟩
  · rw [hget] at hnone
    cases hnone
  refine ⟨rfl, fun y hy => ?_⟩
  have hr' : Requested t r c.trace := he ▸ (hr.cons _).append u
  cases r with
  | issue userId =>
    -- the refusal is remembered to the end
    have hstored : (phase ticketAutomaton t c.trace).stored ≠ some (.ok true) ∧
        (phase ticketAutomaton t c.trace).stored ≠ none := by
      rw [he]
      refine phase_stable (P := fun q : ticketAutomaton.Phase => q.stored ≠ some (.ok true) ∧ q.stored ≠ none) ?_ ?_ u
      · rintro q c v ⟨h1, h2⟩
        obtain ⟨w, hw⟩ := Option.ne_none_iff_exists'.mp h2
        cases c <;> rcases v with e | v <;> simp_all [TicketPhase.next]
      · have hfirst : (phase ticketAutomaton t b.trace).stored = none := ha.1
        rw [phase_call_self]
        simp [TicketPhase.next, hfirst, hv]
    cases y with
    | error err => exact ⟨err, rfl⟩
    | ok a =>
      obtain ⟨ticket, -, -, htrue⟩ := Run.final (ticketDiscipline P store) h hr' hy
      exact absurd htrue hstored.1
  | consume ticket => exact ha.elim
  | connect ticket => exact ha.elim

/-- **Tickets are single-use and bound to their user.** Each ticket that is taken
was stored before by an issue for the user that the taker reads off it, no two
takers have the same issue, and the ticket had not expired then. An issue of a ticket
that is still stored changes nothing and raises. A connection is let through
only for the user of the ticket it took, who exists and is active then. -/
theorem tickets_single_use (hs₀ : s₀.tickets = ∅) (h : Interleaved (.init s₀) c) :
    (∃ issuer : ℕ → ℕ, Set.InjOn issuer (ticketTakers c.trace) ∧
      ∀ u e tr t ticket value, c.trace = u ++ e :: tr → TakesTicket e t ticket value →
        t ∉ ticketTakers tr ∧ ∃ e' ∈ tr, ∃ userId, StoresTicket e' (issuer t) ticket userId ∧
          Requested (issuer t) (TicketRequest.issue userId) c.trace ∧ P.int value = .ok userId ∧
          e.before.now < e'.before.now + store.ttlSeconds) ∧
    (∀ t ticket userId, Requested t (TicketRequest.consume ticket) c.trace →
      c.result t = some (.ok (.consumed (some userId))) →
      ∃ e ∈ c.trace, ∃ value, TakesTicket e t ticket value ∧ P.int value = .ok userId) ∧
    (∀ u s s' tr t ticket value ex v x,
      c.trace = u ++ ⟨s, s', .call t (.redisSetNx (WebSocketTicketStore.buildKey ticket) value ex) v⟩ :: tr →
      s.redis.get s.now (WebSocketTicketStore.buildKey ticket) = some x →
      s'.redis.get s'.now (WebSocketTicketStore.buildKey ticket) = some x ∧
        ∀ y, c.result t = some y → ∃ err, y = .error err) ∧
    ∀ t ticket r, Requested t (TicketRequest.connect ticket) c.trace →
      c.result t = some (.ok (.connected r)) →
      ∃ u e tr, c.trace = u ++ e :: tr ∧ e.act = .call t (.getUserRecord r.id) (.ok (some r)) ∧
        e.before.users.get r.id = some r ∧ r.isActive = true ∧
        ∃ e' ∈ tr, ∃ value, TakesTicket e' t ticket value ∧ P.int value = .ok r.id := by
  refine ⟨?_, fun t ticket userId => consumed_takes h, fun u s s' tr t ticket value ex v x he hget => ?_,
    fun t ticket r => connected_takes h⟩
  · obtain ⟨holder, issuer, hinv⟩ := ticketInv hs₀ h
    refine ⟨issuer, hinv.matching.issuer_injOn, fun u e tr t ticket value he htakes => ?_⟩
    obtain ⟨e', he', userId, hstores, rfl, hlive⟩ := hinv.taken u e tr t ticket value he htakes
    refine ⟨takes_once h he htakes, e', he', userId, hstores, ?_, P.int_str userId, hlive⟩
    obtain ⟨u', tr', rfl⟩ := List.append_of_mem he'
    exact stores_requested h (by rw [he, ← List.cons_append, ← List.append_assoc]) hstores
  · obtain ⟨rfl, hraises⟩ := issue_refused h he hget
    exact ⟨hget, hraises⟩

end Invariant

/-- User 7 is the only user, and active. -/
def exampleUsers : TicketState := ⟨0, fun _ => none, ⟨[⟨7, true⟩], List.nodup_singleton _⟩⟩

def exampleTicketStore : WebSocketTicketStore := ⟨60, by decide⟩

/-- User 7 is issued a ticket, and the ticket is consumed. -/
def consumedRun : Config (ticketSystem .decimal exampleTicketStore) :=
  Config.schedule (S := ticketSystem .decimal exampleTicketStore) (TicketState.serve "a") (.init exampleUsers)
    [.start 0 (.issue 7), .call 0, .call 0, .start 1 (.consume "a"), .call 1]

theorem tickets_single_use_consumed :
    ∃ t, ∃ e ∈ consumedRun.trace, StoresTicket e t "a" 7 ∧
      Requested t (TicketRequest.issue 7) consumedRun.trace := by
  have h : Interleaved (.init exampleUsers) consumedRun :=
    Interleaved.schedule (TicketState.step_serve "a") _ _
  obtain ⟨⟨issuer, -, hissuer⟩, -⟩ :=
    tickets_single_use (Set.eq_empty_of_forall_notMem fun ticket hticket => hticket rfl) h
  obtain ⟨-, e, he, userId, hstores, hrequested, hint, -⟩ :=
    hissuer [] _ _ 1 "a" (toString (7 : ℤ)) rfl (takesTicket_getDel.mpr ⟨rfl, rfl, by decide +kernel⟩)
  rw [PyInt.int_str] at hint
  cases hint
  exact ⟨issuer 1, e, List.mem_cons_of_mem _ he, hstores, hrequested⟩

end TaskApi
