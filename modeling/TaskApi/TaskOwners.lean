/-
# Whose tasks a token gets

Seen through the task routes, a run of the application is a run of their own system: the
requests of its users, once their tokens have told who they are. The tickets are in the same
Redis, and are left out of the view. So users are apart in the application as they are there,
and a user is who has logged in.

Key definitions: `Redis.restrict`, `taskPart`, `taskHosts`, `appInsertions`.
Key theorems: `step_restrict`, `taskHosting_follows`, `token_tasks`.
-/
import TaskApi.ConcurrentTenants
import TaskApi.Connections

namespace TaskApi

open Conc

variable {pkg : Packages} {settings : AppSettings pkg}

/-! ### A part of Redis -/

section Restrict

variable {P : String → Prop}

open Classical in
/-- The entries under the given keys. -/
noncomputable def Redis.restrict (P : String → Prop) (r : Redis) : Redis := fun key => if P key then r key else none

theorem Redis.restrict_of {r : Redis} {key : String} (h : P key) : r.restrict P key = r key := if_pos h

theorem Redis.restrict_update {r : Redis} {key : String} (h : P key) (entry : Option RedisEntry) :
    Redis.restrict P (Function.update r key entry) = Function.update (r.restrict P) key entry := by
  funext key'
  by_cases hkey : key' = key
  · subst hkey
    rw [Redis.restrict_of h, Function.update_self, Function.update_self]
  · rw [Function.update_of_ne hkey, Redis.restrict, Redis.restrict, Function.update_of_ne hkey]

theorem Redis.restrict_delete (r : Redis) (key : String) : (r.delete key).restrict P = (r.restrict P).delete key := by
  by_cases h : P key
  · exact Redis.restrict_update h none
  · funext key'
    by_cases hkey : key' = key
    · subst hkey
      rw [Redis.delete_self, Redis.restrict, if_neg h]
    · rw [Redis.delete_ne _ hkey, Redis.restrict, Redis.restrict, Redis.delete_ne _ hkey]

theorem Redis.restrict_congr {r r' : Redis} (h : ∀ key, P key → r' key = r key) : r'.restrict P = r.restrict P := by
  funext key
  unfold Redis.restrict
  split_ifs with hP
  · exact h key hP
  · rfl

theorem Redis.get_restrict {r : Redis} {now : ℚ} {key : String} (h : P key) :
    (r.restrict P).get now key = r.get now key := Redis.get_congr (Redis.restrict_of h)

/-- The key a call reads or writes. -/
def Call.key : Call → Option String
  | .redisGet key => some key
  | c => c.writes

noncomputable def State.restrict (P : String → Prop) (s : State) : State := { s with redis := s.redis.restrict P }

/-- A call under one of the keys does there what it does. -/
theorem serve_restrict (pick : Pick) {c : Call} {s : State} (hkey : ∀ key, c.key = some key → P key) :
    (s.restrict P).serve pick c = ((s.serve pick c).1, (s.serve pick c).2.restrict P) := by
  cases c with
  | redisGet key => simp only [State.serve, State.restrict, Redis.get_restrict (hkey key rfl)]
  | redisSet key value ex =>
    simp only [State.serve, State.restrict, Redis.set, Redis.restrict_update (hkey key rfl)]
  | redisSetNx key value ex =>
    have hP := hkey key rfl
    unfold State.serve State.restrict
    dsimp only
    unfold Redis.setNx
    rw [Redis.get_restrict hP]
    split_ifs
    · rfl
    · simp only [Redis.set, Redis.restrict_update hP]
  | redisDelete key => simp only [State.serve, State.restrict, Redis.restrict_delete]
  | redisEvalReleaseLock key token =>
    unfold State.serve State.restrict
    dsimp only
    unfold Redis.releaseLockScript
    rw [Redis.get_restrict (hkey key rfl)]
    split_ifs
    · simp only [Redis.restrict_delete]
    · rfl
  | commitUpdate id changes =>
    unfold State.serve State.restrict
    dsimp only
    split_ifs <;> rfl
  | refresh id =>
    unfold State.serve State.restrict
    dsimp only
    cases s.db.get id <;> rfl
  | _ => rfl

theorem step_restrict {fails : Call → Prop} {c : Call} {s s' : State} {v : calls.Out c}
    (hkey : ∀ key, c.key = some key → P key) (h : step fails c s v s') :
    step fails c (s.restrict P) v (s'.restrict P) := by
  rcases h with ⟨pick, h⟩ | ⟨hredis, hfails, hv, rfl | ⟨pick, rfl⟩⟩
  · refine .inl ⟨pick, ?_⟩
    rw [serve_restrict pick hkey, h]
  · exact .inr ⟨hredis, hfails, hv, .inl rfl⟩
  · refine .inr ⟨hredis, hfails, hv, .inr ⟨pick, ?_⟩⟩
    rw [serve_restrict pick hkey]

end Restrict

/-! ### The task routes in the application -/

/-- The key of a ticket call. -/
def TicketCall.key : TicketCall → Option String
  | .redisSetNx key _ _ | .redisGetDel key => some key
  | _ => none

/-- A ticket call changes the entry of no other key. -/
theorem TicketState.step_redis {c : TicketCall} {s s' : TicketState} {v : ticketCalls.Out c} (h : step c s v s')
    {key : String} (hkey : c.key ≠ some key) : s'.redis key = s.redis key := by
  have hserve : ∀ generated, (s.serve generated c).2.redis key = s.redis key := by
    intro generated
    cases c with
    | redisSetNx key' value ex => exact s.redis.setNx_ne _ _ _ fun heq => hkey (congrArg some heq.symm)
    | redisGetDel key' => exact s.redis.delete_ne fun heq => hkey (congrArg some heq.symm)
    | _ => rfl
  rcases h with ⟨generated, h⟩ | ⟨-, -, rfl | ⟨generated, rfl⟩⟩
  · have hserved := hserve generated
    rwa [h] at hserved
  · rfl
  · exact hserve generated

/-- A ticket call's key is a ticket's. -/
def AppCall.KeepsToTickets (d : AppCall) : Prop := ∀ c, d = .tickets c → ∀ key, c.key = some key → ¬ NoTicket key

theorem AppCall.IsRoute.keepsToTickets {d : AppCall} (h : d.IsRoute) : d.KeepsToTickets := by
  rintro c rfl
  exact h.elim

/-- The task routes' system, on the keys that are no tickets'. -/
abbrev ownTaskSystem (pkg : Packages) (settings : AppSettings pkg) : System calls :=
  taskSystem pkg.taskJson settings.tasks (fun _ => True) Environment

theorem ownerProtocol_key {r : Request} {q : Option ℤ} {c : Call} (h : (ownerProtocol r).allows q c) {key : String}
    (hkey : c.key = some key) : NoTicket key := by
  have hown : OwnKey r.userId key := by
    cases c <;> cases hkey <;> exact h
  exact hown.noTicket

/-- Entries disappear one by one. -/
theorem evicts_foldl (keys : List String) : ∀ s : State,
    Relation.ReflTransGen Environment s { s with redis := keys.foldl Redis.delete s.redis } := by
  induction keys with
  | nil => exact fun s => .refl
  | cons key keys ih => exact fun s => .head (.inr ⟨key, rfl⟩) (ih { s with redis := s.redis.delete key })

theorem Redis.restrict_foldl {P : String → Prop} (keys : List String) : ∀ r : Redis,
    (keys.foldl Redis.delete r).restrict P = keys.foldl Redis.delete (r.restrict P) := by
  induction keys with
  | nil => exact fun r => rfl
  | cons key keys ih =>
    intro r
    rw [List.foldl_cons, ih, Redis.restrict_delete, List.foldl_cons]

/-- The task routes as a part of the application. -/
noncomputable def taskPart (pkg : Packages) (settings : AppSettings pkg) :
    Part taskEmbedding (ownTaskSystem pkg settings) (appSystem pkg settings) where
  view s := s.tasks.restrict NoTicket
  makes c := ∀ key, c.key = some key → NoTicket key
  makes_call ha hp key hkey :=
    ownerProtocol_key (Run.follows (ownerDiscipline pkg.taskJson settings.tasks (fun _ => True) Environment) ha hp).1 hkey
  apart := AppCall.KeepsToTickets
  own := by
    rintro c s v s' hkey ⟨w, x, hs, rfl, rfl⟩
    refine ⟨w, AppExn.hear_mapError AppExn.ofTasks .tasks (fun _ => rfl) w, ?_⟩
    have hview : (AppState.tasks { s with redis := x.redis, db := x.db }) = x := by
      show State.mk s.tasks.now x.redis x.db = x
      rw [← step_now hs]
    rw [hview]
    exact step_restrict hkey hs
  other := by
    intro d s v s' hd hapart hs
    have hview : s'.tasks.restrict NoTicket = s.tasks.restrict NoTicket := by
      cases d with
      | tasks c => exact absurd rfl (hd c)
      | tickets c =>
        obtain ⟨w, x, hs, rfl, rfl⟩ := hs
        have hredis : x.redis.restrict NoTicket = s.redis.restrict NoTicket :=
          Redis.restrict_congr fun key hkey =>
            TicketState.step_redis hs fun heq => hapart c rfl key heq hkey
        exact congrArg (fun redis => State.mk s.now redis s.db) hredis
      | limiter c | registration c =>
        obtain ⟨w, x, -, -, rfl⟩ := hs
        rfl
      | _ =>
        obtain ⟨-, rfl⟩ := hs
        rfl
    rw [hview]
  env := by
    intro s s' he
    obtain ⟨keys, hredis⟩ := he.redis
    have hview : s'.tasks.restrict NoTicket =
        { now := s'.now, redis := keys.foldl Redis.delete (s.redis.restrict NoTicket), db := s.db } := by
      rw [State.restrict, AppState.tasks, hredis, he.db, Redis.restrict_foldl]
    rw [hview]
    exact .head (.inl ⟨s'.now, he.now, rfl⟩) (evicts_foldl keys _)

theorem task_own (q : AccountPhase) (c : Call) (v : appCalls.Out (.tasks c)) : q.next (.tasks c) v = q := rfl

/-- A task is asked for on behalf of the caller. -/
def taskHosting (pkg : Packages) (settings : AppSettings pkg) :
    AppRequest → Hosting taskEmbedding (ownTaskSystem pkg settings)
  | .task _ operation => callerHosting taskEmbedding (ownTaskSystem pkg settings)
    (fun row => operation.request row.id) AppCall.KeepsToTickets task_own
  | _ => .idle taskEmbedding (ownTaskSystem pkg settings) AppCall.KeepsToTickets

/-- What the task routes' thread has come to when a request is answered. -/
def taskFinalPhase (pkg : Packages) (settings : AppSettings pkg) :
    (r : AppRequest) → (taskHosting pkg settings r).protocol.Phase → Except AppExn AppAnswer → Prop
  | .task _ operation, q, x => ∀ task, x = .ok (.task task) →
    ∃ row : UserRow, q.2 = some (operation.request row.id, .ret task)
  | _, _, _ => True

theorem can_taskRoutes (c : Call) (v : Except AppExn c.Val) (h : (appSystem pkg settings).Can (.tasks c) v) :
    ∃ w, taskEmbedding.hears c v = .ok w := by
  obtain ⟨w, hw, -⟩ := AppState.can_tasks h
  exact ⟨w, hw⟩

theorem AppCall.IsRoute.foreign_tasks {d : AppCall} (h : d.IsRoute) : taskEmbedding.Foreign d := by
  rintro c rfl
  exact h

theorem task_hosted (token : String) (operation : TaskOperation) :
    ((AppRequest.task token operation).body pkg settings).Follows
      (taskHosting pkg settings (.task token operation)).protocol (appSystem pkg settings).Can
      (taskFinalPhase pkg settings (.task token operation))
      (taskHosting pkg settings (.task token operation)).protocol.init := by
  have hbearer : (AppRequest.task token operation).bearer = some token := rfl
  refine bearer_hosted hbearer (fun d hd => ⟨hd.foreign_tasks, hd.keepsToTickets⟩) (fun q e task h => by cases h)
    fun q row hrow => ?_
  refine Prog.follows_bind.mpr (Hosting.follows_body can_taskRoutes (fun task => ?_) fun e => ?_)
  · refine ⟨rfl, fun task' h => ?_⟩
    cases h
    exact ⟨row, rfl⟩
  · exact ⟨rfl, fun task h => by cases h⟩

/-- The calls of the ticket store's programs are under the keys of tickets. -/
theorem ticketProtocol_keeps {r : TicketRequest} {q : TicketPhase} {c : TicketCall}
    (h : (r.protocol pkg.int settings.ticketStore).allows q c) : (AppCall.tickets c).KeepsToTickets := by
  intro c' hc key hkey hnot
  cases hc
  cases c with
  | redisSetNx key' value ex =>
    cases hkey
    cases r with
    | issue userId =>
      obtain ⟨-, -, -, ticket, -, rfl⟩ := h
      exact hnot ticket rfl
    | consume ticket => exact h.elim
    | connect ticket => exact h.elim
  | redisGetDel key' =>
    cases hkey
    obtain ⟨-, ticket, rfl⟩ := TicketRequest.allows_getDel h
    exact hnot ticket rfl
  | _ => cases hkey

theorem foreign_tasks {d : AppCall} (h : ∀ c, d ≠ .tasks c) : taskEmbedding.Foreign d := h

/-- A program of the ticket store, where no task is asked for. -/
theorem ticketProgram_idle {α : Type} {r : TicketRequest} {p : TicketAct α} {Q : TicketPhase → Except TicketExn α → Prop}
    (hp : p.Follows (r.protocol pkg.int settings.ticketStore) (ticketSystem pkg.int settings.ticketStore).Can Q {}) :
    (p.lift ticketEmbedding).Follows
      (Hosting.idle taskEmbedding (ownTaskSystem pkg settings) AppCall.KeepsToTickets).protocol
      (appSystem pkg settings).Can
      (fun q _ => q = (Hosting.idle taskEmbedding (ownTaskSystem pkg settings) AppCall.KeepsToTickets).protocol.init)
      (Hosting.idle taskEmbedding (ownTaskSystem pkg settings) AppCall.KeepsToTickets).protocol.init :=
  Hosting.follows_lift_idle (fun q c hc => ⟨foreign_tasks (by simp [ticketEmbedding]), ticketProtocol_keeps hc⟩)
    (fun c v hv => AppState.can_tickets hv) hp

theorem taskHosting_follows (r : AppRequest) : (r.body pkg settings).Follows
    (taskHosting pkg settings r).protocol (appSystem pkg settings).Can (taskFinalPhase pkg settings r)
    (taskHosting pkg settings r).protocol.init := by
  have hroute : ∀ d : AppCall, d.IsRoute → taskEmbedding.Foreign d ∧ d.KeepsToTickets := fun d hd =>
    ⟨hd.foreign_tasks, hd.keepsToTickets⟩
  have hother : ∀ d : AppCall, (∀ c, d ≠ .tasks c) → (∀ c, d ≠ .tickets c) →
      taskEmbedding.Foreign d ∧ d.KeepsToTickets := fun d h h' => ⟨h, fun c hc => absurd hc (h' c)⟩
  cases r with
  | task token operation => exact task_hosted token operation
  | websocketTicket token =>
    refine (bearer_idle hroute fun row => Prog.follows_bind.mpr (Prog.follows_bind.mpr (Prog.follows_tryCatch.mpr
      ((ticketProgram_idle (@issue_follows _ _ _ _ row.id rfl)).mono fun q x hq => ?_)))).mono fun _ _ _ => trivial
    subst hq
    cases x with
    | error e =>
      cases e with
      | tickets e => cases e <;> rfl
      | _ => rfl
    | ok ticket =>
      simp only [Prog.ends_ok]
      split_ifs <;> rfl
  | websocket ticket =>
    refine Prog.follows_bind.mpr ((ticketProgram_idle (@websocketDependencies_follows _ _ _ _ ticket rfl)).mono
      fun q x hq => ?_)
    cases x <;> trivial
  | _ =>
    exact Hosting.follows_idle (AppRequest.body_makes hroute _ (fun _ _ _ c _ => hother _ (by simp) (by simp))
      (fun _ c _ => hother _ (by simp) (by simp)) (fun _ c h => by simp at h) fun _ _ c h => by cases h)

/-- How every request uses the task routes. -/
noncomputable def taskHosts (pkg : Packages) (settings : AppSettings pkg) : Hosts (taskPart pkg settings) where
  hosting := taskHosting pkg settings
  final := taskFinalPhase pkg settings
  follows := taskHosting_follows
  apart {r q x d} hd h := by
    cases r <;> exact h

/-! ### Every run -/

variable {s₀ : AppState} {c : Config (appSystem pkg settings)} {t : ℕ}

/-- The id of the row that an event of the application inserts into `tasks`, and the user it is
for. -/
def appInsertion : AppEvent pkg settings → Option (ℤ × ℤ)
  | ⟨_, _, .call _ (.tasks (.commitInsert _ userId)) (.ok id)⟩ => some (id, userId)
  | _ => none

def appInsertions (tr : List (AppEvent pkg settings)) : List (ℤ × ℤ) := tr.filterMap appInsertion

theorem appInsertion_foreign {s s' : AppState} {t : ℕ} {d : AppCall} {v : appCalls.Out d} (h : taskEmbedding.Foreign d) :
    appInsertion (⟨s, s', .call t d v⟩ : AppEvent pkg settings) = none := by
  cases d with
  | tasks c => exact absurd rfl (h c)
  | _ => rfl

theorem appInsertion_own {s s' : AppState} {x x' : State} {t : ℕ} {d : Call} {v : appCalls.Out (.tasks d)}
    {w : calls.Out d} (h : taskEmbedding.hears d v = .ok w) :
    appInsertion (⟨s, s', .call t (taskEmbedding.call d) v⟩ : AppEvent pkg settings) =
      insertion (⟨x, x', .call t d w⟩ : Event (ownTaskSystem pkg settings)) := by
  cases w with
  | ok a =>
    obtain rfl := AppExn.hear_ok.mp h
    cases d <;> rfl
  | error e =>
    have hv : ∀ a, v ≠ .ok a := by
      rintro a rfl
      cases h
    cases d with
    | commitInsert body userId =>
      cases v with
      | ok id => exact absurd rfl (hv id)
      | error e => rfl
    | _ => rfl

/-- The task routes see the rows that are inserted. -/
theorem insertions_seen {b : List (AppEvent pkg settings)} {a : List (Event (ownTaskSystem pkg settings))}
    (h : Projects taskEmbedding (taskPart pkg settings).view b a) : insertions a = appInsertions b := by
  induction h with
  | nil => rfl
  | start s s' t r h ih => exact ih
  | spawn s t r h ih => exact ih
  | own s s' t hw h ih =>
    unfold insertions appInsertions at ih ⊢
    rw [List.filterMap_cons, List.filterMap_cons, appInsertion_own hw, ih]
  | other s s' t v hd h ih =>
    unfold insertions appInsertions at ih ⊢
    rw [List.filterMap_cons, appInsertion_foreign hd, ih]

/-- No task id is given out twice. A SQLite table without `AUTOINCREMENT` gives the id of a
deleted newest task out again, and users are not apart then (`patch_crosses`). -/
structure AppIdsNew (s₀ : AppState) (tr : List (AppEvent pkg settings)) : Prop where
  nodup : ((appInsertions tr).map (·.1)).Nodup
  free : ∀ p ∈ appInsertions tr, s₀.db.get p.1 = none

/-- What the task routes run in a thread, a user who has logged in has asked for. -/
theorem taskRequest_seen {l : Config (ownTaskSystem pkg settings)}
    (hl : Interleaved (.init ((taskPart pkg settings).view s₀)) l) (hseen : Seen (taskHosts pkg settings) c l)
    {token : String} {operation : TaskOperation} (hr : Requested t (AppRequest.task token operation) c.trace)
    {request : Request} (hr' : Requested t request l.trace) :
    ∃ user, (accountPhase t c.trace).Authorised user ∧ request = operation.request user.id := by
  obtain ⟨p, hp⟩ := (Run.pool_trace hl).2.1 t _ hr'
  have hthread : (taskHosts pkg settings).thread (.task token operation) t c.trace = some (request, p) :=
    (hseen.pool t _ hr).symm.trans hp
  have hspawn := Hosting.spawned callerHosting_settled hthread
  obtain ⟨user, huser, heq⟩ := Option.map_eq_some_iff.mp hspawn
  exact ⟨user, AccountPhase.caller_eq_some.mp huser, heq.symm⟩

/-- A call of the task routes is one of the request that the thread runs there. -/
theorem taskCall_seen {l : Config (ownTaskSystem pkg settings)}
    (hl : Interleaved (.init ((taskPart pkg settings).view s₀)) l) (hseen : Seen (taskHosts pkg settings) c l)
    {e : AppEvent pkg settings} (he : e ∈ c.trace) {x : Call} {v : appCalls.Out (.tasks x)}
    (hact : e.act = .call t (.tasks x) v) :
    ∃ ul w trl request, l.trace = ul ++ ⟨(taskPart pkg settings).view e.before, (taskPart pkg settings).view e.after,
      .call t x w⟩ :: trl ∧ Requested t request l.trace := by
  obtain ⟨s, s', act⟩ := e
  obtain rfl : act = _ := hact
  obtain ⟨u, tr, hu⟩ := List.append_of_mem he
  obtain ⟨ul, w, trl, hel, -⟩ := hseen.trace.split_own hu
  obtain ⟨request, hr'⟩ := Run.acted hl (show _ ∈ l.trace by rw [hel]; exact List.mem_append_right _ List.mem_cons_self)
  exact ⟨ul, w, trl, request, hel, hr'⟩

/-- A request is answered with what the task routes answer. -/
theorem taskAnswer_seen (h : Interleaved (.init s₀) c) {l : Config (ownTaskSystem pkg settings)}
    (hl : Interleaved (.init ((taskPart pkg settings).view s₀)) l) (hseen : Seen (taskHosts pkg settings) c l)
    {token : String} {operation : TaskOperation} (hr : Requested t (AppRequest.task token operation) c.trace)
    {task : Option TaskResponse} (hx : c.result t = some (.ok (.task task))) :
    ∃ request, Requested t request l.trace ∧ l.result t = some (.ok task) := by
  have hpool : (taskHosts pkg settings).thread (.task token operation) t c.trace = _ :=
    (Run.final (taskHosts pkg settings).discipline h hr hx task rfl).choose_spec
  have hl' := (hseen.pool t _ hr).trans hpool
  exact ⟨_, (Run.pool_trace hl).1 t _ _ hl', by rw [Config.result, hl']; rfl⟩

theorem TaskOperation.request_userId (operation : TaskOperation) (userId : ℤ) :
    (operation.request userId).userId = userId := by
  cases operation <;> rfl

/-- **A token is good for its user's tasks.** If the cache is empty at first, no task id is given
out twice and clients make up no tokens, a request for a task with a token does nothing to the
tasks, or it is made by one user, who has logged in and whose account was on. Then, whatever else
is going on, each of its calls leaves the tasks of all other users as they were, and a task it is
answered with has been a row of the user in the run. -/
theorem token_tasks (hempty : ∀ o i, s₀.redis (TaskCache.buildKey o i) = none) (hnew : AppIdsNew s₀ c.trace)
    (h : Interleaved (.init s₀) c) (hunforged : Unforged c.trace) {token : String} {operation : TaskOperation}
    (hr : Requested t (AppRequest.task token operation) c.trace) :
    ((∀ e ∈ c.trace, ∀ x v, e.act ≠ .call t (.tasks x) v) ∧ ∀ task, c.result t ≠ some (.ok (.task task))) ∨
    ∃ user, BackedByLogin c t (.task token operation) user ∧ LookedUp c.trace t user ∧
      (∀ e ∈ c.trace, ∀ x v, e.act = .call t (.tasks x) v → e.after.db.others user.id = e.before.db.others user.id) ∧
      ∀ task, c.result t = some (.ok (.task (some task))) →
        ∃ e ∈ c.trace, ∃ row ∈ e.before.db.rows, row.ownerId = user.id ∧ task.Represents row := by
  obtain ⟨l, hl, hseen⟩ := Run.part (taskHosts pkg settings) h
  have hnew' : IdsNew ((taskPart pkg settings).view s₀) l.trace := by
    obtain ⟨hnodup, hfree⟩ := hnew
    rw [← insertions_seen hseen.trace] at hnodup hfree
    exact ⟨hnodup, hfree⟩
  have hempty' : ∀ o i, ((taskPart pkg settings).view s₀).redis (TaskCache.buildKey o i) = none := fun o i =>
    (Redis.restrict_of (@OwnKey.noTicket o _ ⟨i, .inl rfl⟩)).trans (hempty o i)
  by_cases hnone : ∀ user, ¬ (accountPhase t c.trace).Authorised user
  · refine .inl ⟨fun e he x v hact => ?_, fun task hx => ?_⟩
    · obtain ⟨ul, w, trl, request, -, hr'⟩ := taskCall_seen hl hseen he hact
      obtain ⟨user, huser, -⟩ := taskRequest_seen hl hseen hr hr'
      exact hnone user huser
    · obtain ⟨request, hr', -⟩ := taskAnswer_seen h hl hseen hr hx
      obtain ⟨user, huser, -⟩ := taskRequest_seen hl hseen hr hr'
      exact hnone user huser
  obtain ⟨user, huser⟩ := not_forall_not.mp hnone
  -- there is one user, whom the thread is let through for
  have hone : ∀ request, Requested t request l.trace → request.userId = user.id := by
    intro request hr'
    obtain ⟨user', huser', rfl⟩ := taskRequest_seen hl hseen hr hr'
    obtain rfl : user = user' := Option.some.inj (Option.some.inj (huser.1.symm.trans huser'.1))
    exact operation.request_userId user.id
  obtain ⟨horigin, hlooked⟩ := authorised_origin h hunforged hr rfl huser
  refine .inr ⟨user, horigin, hlooked, fun e he x v hact => ?_, fun task hx => ?_⟩
  · obtain ⟨ul, w, trl, request, hel, hr'⟩ := taskCall_seen hl hseen he hact
    obtain ⟨q, hs, ha, howned⟩ := call_owned hnew' hl hel hr'
    have hothers := (step_frame hs ha howned).1
    rw [hone request hr'] at hothers
    exact hothers
  · obtain ⟨request, hr', htask⟩ := taskAnswer_seen h hl hseen hr hx
    obtain ⟨x, x', t', d, w, he, row, hrow, howner, htask⟩ := answered_row hempty' hnew' hl hr' htask
    obtain ⟨s, s', v, hmem, rfl, -, -⟩ := hseen.trace.of_mem he
    rw [hone request hr'] at howner
    exact ⟨_, hmem, row, hrow, howner, htask⟩

/-- Alice makes a task. -/
noncomputable def alicePosts : Config (appSystem examplePackages exampleSettings) :=
  withToken (.task aliceToken (.create exampleBody)) (List.replicate 7 (.call 2))

theorem token_tasks_alice : ∃ user, BackedByLogin alicePosts 2 (.task aliceToken (.create exampleBody)) user ∧
    ∃ e ∈ alicePosts.trace, ∃ row ∈ e.before.db.rows, row.ownerId = user.id ∧ exampleTask.Represents row := by
  have hx : alicePosts.result 2 = some (.ok (.task (some exampleTask))) := by decide +kernel
  have h : Interleaved (.init AppState.new) alicePosts := withToken_interleaved _ _
  have hunforged : Unforged alicePosts.trace := unforged_withToken rfl (by decide +kernel)
  have hr : Requested 2 (AppRequest.task aliceToken (.create exampleBody)) alicePosts.trace := withToken_requested _ _
  have hnew : AppIdsNew AppState.new alicePosts.trace := ⟨by decide +kernel, fun p _ => rfl⟩
  rcases token_tasks (fun o i => rfl) hnew h hunforged hr with hidle | ⟨user, hbacked, -, -, htask⟩
  · exact absurd hx (hidle.2 _)
  · exact ⟨user, hbacked, htask _ hx⟩

end TaskApi
