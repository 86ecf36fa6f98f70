/-
# Who is connected

Seen through the ticket store, a run of the application is a run of its own system: a request
for a ticket is an issue for the account of its token, once that is known, and a WebSocket
connection presents its ticket. The task routes use the same Redis, under other keys. So what
the ticket store guarantees holds of the application, and a connection leads back to the ticket
it took, to the request that was given the ticket, and to the login behind that.

Key definitions: `ticketPart`, `ticketHosts`, `Connected`, `StoresFor`.
Key theorems: `ticketHosting_follows`, `connection_origin`.
-/
import TaskApi.Accounts
import TaskApi.TenantIsolation

namespace TaskApi

open Conc

variable {pkg : Packages} {settings : AppSettings pkg}

/-! ### The ticket store in the application -/

/-- The key is not one of the ticket store's. -/
def NoTicket (key : String) : Prop := ∀ ticket, key ≠ WebSocketTicketStore.buildKey ticket

/-- The keys of the task routes are not. -/
theorem OwnKey.noTicket {userId : ℤ} {key : String} (h : OwnKey userId key) : NoTicket key := by
  rintro ticket rfl
  exact @StoreKey.not_ownKey .defaults (.ticket ticket) _ (by simp [StoreKey.owner]) h

/-- The call writes no ticket's key for the task routes. -/
def AppCall.SparesTickets (d : AppCall) : Prop := ∀ c, d = .tasks c → ∀ key, c.writes = some key → NoTicket key

theorem AppCall.IsRoute.sparesTickets {d : AppCall} (h : d.IsRoute) : d.SparesTickets := by
  rintro c rfl
  exact h.elim

theorem Redis.foldl_delete (keys : List String) : ∀ (r : Redis) (key : String),
    keys.foldl Redis.delete r key = none ∨ keys.foldl Redis.delete r key = r key := by
  induction keys with
  | nil => exact fun r key => .inr rfl
  | cons k keys ih =>
    intro r key
    rw [List.foldl_cons]
    rcases ih (r.delete k) key with h | h
    · exact .inl h
    · rw [h]
      by_cases hk : key = k
      · exact .inl (hk ▸ r.delete_self)
      · exact .inr (r.delete_ne hk)

/-- A ticket call leaves the clock and the users as they are. -/
theorem TicketState.step_frame {c : TicketCall} {s s' : TicketState} {v : ticketCalls.Out c} (h : step c s v s') :
    s'.now = s.now ∧ s'.users = s.users := by
  have hserve : ∀ generated, (s.serve generated c).2.now = s.now ∧ (s.serve generated c).2.users = s.users := by
    intro generated
    cases c <;> exact ⟨rfl, rfl⟩
  rcases h with ⟨generated, h⟩ | ⟨-, -, rfl | ⟨generated, rfl⟩⟩
  · have hserved := hserve generated
    rwa [h] at hserved
  · exact ⟨rfl, rfl⟩
  · exact hserve generated

/-- The ticket store as a part of the application. -/
def ticketPart (pkg : Packages) (settings : AppSettings pkg) :
    Part ticketEmbedding (ticketSystem pkg.int settings.ticketStore) (appSystem pkg settings) where
  view := AppState.tickets
  makes _ := True
  makes_call _ _ := trivial
  apart := AppCall.SparesTickets
  own := by
    rintro c s v s' - ⟨w, x, hs, rfl, rfl⟩
    refine ⟨w, AppExn.hear_mapError AppExn.ofTickets .tickets (fun _ => rfl) w, ?_⟩
    obtain ⟨hnow, husers⟩ := TicketState.step_frame hs
    have hview : AppState.tickets { s with redis := x.redis } = x := by
      show TicketState.mk s.tickets.now x.redis s.tickets.users = x
      rw [← hnow, ← husers]
    rw [hview]
    exact hs
  other := by
    intro d s v s' hd hapart hs
    refine .single ?_
    cases d with
    | tickets c => exact absurd rfl (hd c)
    | tasks c =>
      obtain ⟨w, x, hs, rfl, rfl⟩ := hs
      exact ⟨le_rfl, fun ticket => .inr (step_redis (fun hkey => hapart c rfl _ hkey ticket rfl) hs)⟩
    | limiter c | registration c =>
      obtain ⟨w, x, -, -, rfl⟩ := hs
      exact ⟨le_rfl, fun ticket => .inr rfl⟩
    | _ =>
      obtain ⟨-, rfl⟩ := hs
      exact ⟨le_rfl, fun ticket => .inr rfl⟩
  env := by
    intro s s' he
    obtain ⟨keys, hredis⟩ := he.redis
    refine .single ⟨he.now, fun ticket => ?_⟩
    show s'.redis _ = none ∨ s'.redis _ = s.redis _
    rw [hredis]
    exact Redis.foldl_delete keys s.redis _

theorem ticket_own (q : AccountPhase) (c : TicketCall) (v : appCalls.Out (.tickets c)) : q.next (.tickets c) v = q := rfl

/-- A ticket is issued for the caller, and a connection presents one. -/
def ticketHosting (pkg : Packages) (settings : AppSettings pkg) :
    AppRequest → Hosting ticketEmbedding (ticketSystem pkg.int settings.ticketStore)
  | .websocketTicket _ => callerHosting ticketEmbedding (ticketSystem pkg.int settings.ticketStore)
    (fun row => .issue row.id) AppCall.SparesTickets ticket_own
  | .websocket ticket => {
    automaton := ⟨Unit, (), fun _ _ _ => ()⟩
    spawn := fun _ => some (.connect ticket)
    allows := fun _ _ d => d.SparesTickets
    next_own := fun _ _ _ => rfl }
  | _ => .idle ticketEmbedding (ticketSystem pkg.int settings.ticketStore) AppCall.SparesTickets

/-- What the ticket store's thread has come to when a request is answered. -/
def ticketFinal (pkg : Packages) (settings : AppSettings pkg) :
    (r : AppRequest) → (ticketHosting pkg settings r).protocol.Phase → Except AppExn AppAnswer → Prop
  | .websocketTicket _, q, x => ∀ response, x = .ok (.ticket response) →
    ∃ row, q.1.Authorised row ∧ q.2 = some (.issue row.id, .ret (.issued response.ticket))
  | .websocket ticket, q, x => ∀ record, x = .ok (.connected record) →
    q.2 = some (.connect ticket, .ret (.connected record))
  | _, _, _ => True

theorem foreign_tickets {d : AppCall} (h : ∀ c, d ≠ .tickets c) : ticketEmbedding.Foreign d := h

theorem AppCall.IsRoute.foreign_tickets {d : AppCall} (h : d.IsRoute) : ticketEmbedding.Foreign d := by
  rintro c rfl
  exact h

theorem can_ticketStore (c : TicketCall) (v : Except AppExn c.Val) (h : (appSystem pkg settings).Can (.tickets c) v) :
    ∃ w, ticketEmbedding.hears c v = .ok w := by
  obtain ⟨w, hw, -⟩ := AppState.can_tickets h
  exact ⟨w, hw⟩

theorem websocketTicket_hosted (token : String) : ((AppRequest.websocketTicket token).body pkg settings).Follows
    (ticketHosting pkg settings (.websocketTicket token)).protocol (appSystem pkg settings).Can
    (ticketFinal pkg settings (.websocketTicket token))
    (ticketHosting pkg settings (.websocketTicket token)).protocol.init := by
  have hbearer : (AppRequest.websocketTicket token).bearer = some token := rfl
  refine bearer_hosted hbearer (fun d hd => ⟨hd.foreign_tickets, hd.sparesTickets⟩) (fun q e response h => by cases h)
    fun q row hrow => ?_
  refine Prog.follows_bind.mpr (Prog.follows_bind.mpr (Prog.follows_tryCatch.mpr ?_))
  refine Hosting.follows_lift can_ticketStore (fun ticket => ?_) (fun e => ?_) _
  · simp only [Prog.ends_ok]
    split_ifs
    · exact ⟨rfl, fun response h => by cases h⟩
    · refine ⟨rfl, fun response h => ?_⟩
      cases h
      exact ⟨row, hrow, rfl⟩
  · cases e <;> exact ⟨rfl, fun response h => by cases h⟩

theorem websocket_hosted (ticket : String) : ((AppRequest.websocket ticket).body pkg settings).Follows
    (ticketHosting pkg settings (.websocket ticket)).protocol (appSystem pkg settings).Can
    (ticketFinal pkg settings (.websocket ticket))
    (ticketHosting pkg settings (.websocket ticket)).protocol.init := by
  refine Prog.follows_bind.mpr (Hosting.follows_lift can_ticketStore (fun record => ?_) (fun e => ?_) _)
  · intro record' h
    cases h
    rfl
  · exact fun record h => by cases h

theorem ownerProtocol_spares {r : Request} {q : Option ℤ} {c : Call} (h : (ownerProtocol r).allows q c) :
    (AppCall.tasks c).SparesTickets := by
  intro c' hc key hkey
  cases hc
  have hown : OwnKey r.userId key := by
    cases c <;> cases hkey <;> exact h
  exact hown.noTicket

theorem task_spares (token : String) (operation : TaskOperation) :
    ((AppRequest.task token operation).body pkg settings).Follows
      (ticketHosting pkg settings (.task token operation)).protocol (appSystem pkg settings).Can
      (fun q _ => q = (ticketHosting pkg settings (.task token operation)).protocol.init)
      (ticketHosting pkg settings (.task token operation)).protocol.init := by
  refine bearer_idle (fun d hd => ⟨hd.foreign_tickets, hd.sparesTickets⟩) fun row => Prog.follows_bind.mpr ?_
  have hroute := body_follows_owner pkg.taskJson settings.tasks (fun _ => True) (operation.request row.id)
  refine (Hosting.follows_lift_idle (fun q c hc => ⟨foreign_tickets (by simp [taskEmbedding]), ownerProtocol_spares hc⟩)
    (fun c v hv => AppState.can_tasks hv) hroute).mono fun q x hq => ?_
  cases x <;> exact hq

theorem ticketHosting_follows (r : AppRequest) : (r.body pkg settings).Follows
    (ticketHosting pkg settings r).protocol (appSystem pkg settings).Can (ticketFinal pkg settings r)
    (ticketHosting pkg settings r).protocol.init := by
  have hroute : ∀ d : AppCall, d.IsRoute → ticketEmbedding.Foreign d ∧ d.SparesTickets := fun d hd =>
    ⟨hd.foreign_tickets, hd.sparesTickets⟩
  have hother : ∀ d : AppCall, (∀ c, d ≠ .tickets c) → (∀ c, d ≠ .tasks c) →
      ticketEmbedding.Foreign d ∧ d.SparesTickets := fun d h h' => ⟨h, fun c hc => absurd hc (h' c)⟩
  cases r with
  | websocketTicket token => exact websocketTicket_hosted token
  | websocket ticket => exact websocket_hosted ticket
  | task token operation => exact (task_spares token operation).mono fun _ _ _ => trivial
  | _ =>
    exact Hosting.follows_idle (AppRequest.body_makes hroute _ (fun _ _ _ c _ => hother _ (by simp) (by simp))
      (fun _ c _ => hother _ (by simp) (by simp)) (fun _ c h => by simp at h) fun _ _ c h => by cases h)

/-- How every request uses the ticket store. -/
def ticketHosts (pkg : Packages) (settings : AppSettings pkg) : Hosts (ticketPart pkg settings) where
  hosting := ticketHosting pkg settings
  final := ticketFinal pkg settings
  follows := ticketHosting_follows
  apart {r q x d} hd h := by
    cases r with
    | websocketTicket token => exact h
    | websocket ticket => exact h
    | _ => exact h

/-! ### Connections -/

variable {s₀ : AppState} {c : Config (appSystem pkg settings)} {t : ℕ}

/-- Thread `t` is a connection that was let through with the ticket, as the user. -/
def Connected (c : Config (appSystem pkg settings)) (t : ℕ) (ticket : String) (record : UserRecord) : Prop :=
  Requested t (AppRequest.websocket ticket) c.trace ∧ c.result t = some (.ok (.connected record))

section Seen

variable {l : Config (ticketSystem pkg.int settings.ticketStore)} {ticket : String} {record : UserRecord}

/-- The store sees a connection as its own. -/
theorem Connected.seen (h : Interleaved (.init s₀) c) (hl : Interleaved (.init s₀.tickets) l)
    (hseen : Seen (ticketHosts pkg settings) c l) (hc : Connected c t ticket record) :
    Requested t (TicketRequest.connect ticket) l.trace ∧ l.result t = some (.ok (.connected record)) := by
  obtain ⟨hr, hx⟩ := hc
  have hthread := Run.final (ticketHosts pkg settings).discipline h hr hx record rfl
  have hpool : l.pool t = some (.connect ticket, .ret (.connected record)) := (hseen.pool t _ hr).trans hthread
  refine ⟨(Run.pool_trace hl).1 t _ _ hpool, ?_⟩
  rw [Config.result, hpool]
  rfl

/-- An issue that the store sees is a request of the user for a ticket. -/
theorem issue_seen (h : Interleaved (.init s₀) c) (hl : Interleaved (.init s₀.tickets) l)
    (hseen : Seen (ticketHosts pkg settings) c l) {userId : ℤ} (hr : Requested t (TicketRequest.issue userId) l.trace) :
    ∃ token user, Requested t (AppRequest.websocketTicket token) c.trace ∧
      (accountPhase t c.trace).Authorised user ∧ user.id = userId := by
  obtain ⟨p, hp⟩ := (Run.pool_trace hl).2.1 t _ hr
  obtain ⟨⟨r, q⟩, hpool⟩ : ∃ x, c.pool t = some x := by
    refine Option.ne_none_iff_exists'.mp fun hnone => ?_
    rw [hseen.fresh t hnone] at hp
    cases hp
  have hr' := (Run.pool_trace h).1 t r q hpool
  have hthread : (ticketHosts pkg settings).thread r t c.trace = some (TicketRequest.issue userId, p) :=
    (hseen.pool t r hr').symm.trans hp
  cases r with
  | websocketTicket token =>
    have hspawn := Hosting.spawned callerHosting_settled hthread
    obtain ⟨user, huser, hissue⟩ := Option.map_eq_some_iff.mp hspawn
    cases hissue
    exact ⟨token, user, hr', AccountPhase.caller_eq_some.mp huser, rfl⟩
  | websocket ticket =>
    have hspawn := Hosting.spawned (fun _ _ _ _ h => h) hthread
    cases hspawn
  | _ =>
    have hspawn := Hosting.spawned (fun _ _ _ _ h => h) hthread
    cases hspawn

end Seen

/-- The event is thread `t` storing the ticket for the user, under a key that was free. -/
def StoresFor (e : AppEvent pkg settings) (t : ℕ) (ticket : String) (userId : ℤ) : Prop :=
  (∃ v, e.act = .call t (.tickets (.redisSetNx (WebSocketTicketStore.buildKey ticket) (toString userId)
    settings.ticketStore.ttlSeconds)) v) ∧
  e.before.redis.get e.before.now (WebSocketTicketStore.buildKey ticket) = none ∧
  e.after.redis (WebSocketTicketStore.buildKey ticket) =
    some ⟨toString userId, e.before.now + settings.ticketStore.ttlSeconds⟩

/-- A request that uses the ticket store has been let through before. -/
theorem looked_up_before (h : Interleaved (.init s₀) c) (hunforged : Unforged c.trace) {token : String}
    (hr : Requested t (AppRequest.websocketTicket token) c.trace) {user : UserRow}
    (huser : (accountPhase t c.trace).Authorised user) {u tr : List (AppEvent pkg settings)} {s s' : AppState}
    {x : TicketCall} {v : appCalls.Out (.tickets x)} (he : c.trace = u ++ ⟨s, s', .call t (.tickets x) v⟩ :: tr) :
    LookedUp tr t user := by
  obtain ⟨b, r, hb, -, rfl, -, hrb, hone, hallows, -⟩ := Run.made (ticketHosts pkg settings).discipline h he
  obtain rfl := hone _ hr
  obtain ⟨request, k, hthread⟩ := hallows.1 x rfl
  obtain ⟨user', hcaller, -⟩ := Option.map_eq_some_iff.mp (Hosting.spawned callerHosting_settled hthread)
  have huser' : (accountPhase t b.trace).Authorised user' := AccountPhase.caller_eq_some.mp hcaller
  -- it is the user it was let through for in the end
  have hlater : (accountPhase t c.trace).Authorised user' := by
    rw [accountPhase, he, ← List.singleton_append, ← List.append_assoc]
    exact phase_stable (A := accountAutomaton) (P := fun q : AccountPhase => q.Authorised user')
      (fun q c v => AccountPhase.next_authorised c v) huser' _
  obtain rfl : user = user' := Option.some.inj (Option.some.inj (huser.1.symm.trans hlater.1))
  have hunforged' : Unforged b.trace := by
    rw [he, ← List.singleton_append, ← List.append_assoc] at hunforged
    exact hunforged.of_append
  exact (authorised_origin hb hunforged' hrb rfl huser').2

/-- **Behind every connection is a login.** If no tickets are stored at first, and clients make
up no tokens, every connection that is let through took its ticket before it expired. The
ticket was stored by a request of the same user, who had shown a token that a login for that
user had made, and whose account had been looked up and was on; no two connections go back to
one such request. The account is on again when the connection is let through. -/
theorem connection_origin (hs₀ : s₀.tickets.tickets = ∅) (h : Interleaved (.init s₀) c) (hunforged : Unforged c.trace) :
    ∃ issuer : ℕ → ℕ, Set.InjOn issuer {t | ∃ ticket record, Connected c t ticket record} ∧
      ∀ t ticket record, Connected c t ticket record → ∃ token user,
        Requested (issuer t) (AppRequest.websocketTicket token) c.trace ∧ user.id = record.id ∧
        BackedByLogin c (issuer t) (.websocketTicket token) user ∧
        (∃ u e tr, c.trace = u ++ e :: tr ∧
          e.act = .call t (.tickets (.redisGetDel (WebSocketTicketStore.buildKey ticket)))
            (.ok (some (toString record.id))) ∧
          ∃ u' e' tr', tr = u' ++ e' :: tr' ∧ StoresFor e' (issuer t) ticket record.id ∧
            e.before.now < e'.before.now + (settings.ticketStore.ttlSeconds : ℚ) ∧ LookedUp tr' (issuer t) user) ∧
        ∃ e ∈ c.trace, e.act = .call t (.tickets (.getUserRecord record.id)) (.ok (some record)) ∧
          e.before.users.records.get record.id = some record ∧ record.isActive = true := by
  obtain ⟨l, hl, hseen⟩ := Run.part (ticketHosts pkg settings) h
  have hl : Interleaved (.init s₀.tickets) l := hl
  obtain ⟨holder, issuer, hinv⟩ := ticketInv hs₀ hl
  refine ⟨issuer, hinv.matching.issuer_injOn.mono ?_, ?_⟩
  · rintro t ⟨ticket, record, hc⟩
    obtain ⟨hr, hx⟩ := hc.seen h hl hseen
    obtain ⟨u, e, tr, he, -, -, -, e', he', value, htakes, -⟩ := connected_takes hl hr hx
    exact ⟨e', by rw [he]; exact List.mem_append_right _ (List.mem_cons_of_mem _ he'), ticket, value, htakes⟩
  · intro t ticket record hc
    obtain ⟨hr, hx⟩ := hc.seen h hl hseen
    obtain ⟨u, ⟨x, x', act⟩, tr, he, hact, hget, hactive, ⟨x₁, x₁', act₁⟩, he', value, htakes, hint⟩ :=
      connected_takes hl hr hx
    obtain rfl : act = _ := hact
    obtain rfl : act₁ = _ := htakes
    -- the ticket was stored by the issue that it is matched with
    obtain ⟨u₁, tr₁, he₁⟩ := List.append_of_mem (List.mem_append_right u (List.mem_cons_of_mem _ he'))
    rw [← he] at he₁
    obtain ⟨e₂, he₂, userId, hstores, rfl, hlive⟩ := hinv.taken u₁ _ tr₁ t ticket value he₁ rfl
    rw [pkg.int.int_str] at hint
    cases hint
    have hissue : Requested (issuer t) (TicketRequest.issue record.id) l.trace := by
      obtain ⟨u₂, tr₂, rfl⟩ := List.append_of_mem he₂
      exact stores_requested hl (by rw [he₁, ← List.cons_append, ← List.append_assoc]) hstores
    obtain ⟨token, user, hr', huser, hid⟩ := issue_seen h hl hseen hissue
    have hbacked := (authorised_origin h hunforged hr' rfl huser).1
    -- and all of it can be seen in the application
    obtain ⟨ub, s, s', v, trb, hb, rfl, rfl, hears, -, htr⟩ := hseen.trace.split he₁
    obtain rfl := AppExn.hear_ok.mp hears
    obtain ⟨x₂, x₂', act₂⟩ := e₂
    obtain ⟨⟨w, hact₂⟩, hfree, hstored⟩ := hstores
    subst hact₂
    obtain ⟨u₂, tr₂, he₂⟩ := List.append_of_mem he₂
    obtain ⟨ub₂, s₂, s₂', v₂, trb₂, htrb, rfl, rfl, -⟩ := htr.split he₂
    have hlooked : LookedUp trb₂ (issuer t) user := by
      rw [htrb, ← List.cons_append, ← List.append_assoc] at hb
      exact looked_up_before h hunforged hr' huser hb
    obtain ⟨s₃, s₃', v₃, hmem₃, rfl, -, hears₃⟩ := hseen.trace.of_mem
      (he ▸ List.mem_append_right u List.mem_cons_self)
    obtain rfl := AppExn.hear_ok.mp hears₃
    exact ⟨token, user, hr', hid, hbacked, ⟨ub, _, trb, hb, rfl, ub₂, _, trb₂, htrb, ⟨⟨v₂, rfl⟩, hfree, hstored⟩, hlive,
      hlooked⟩, _, hmem₃, rfl, hget, hactive⟩

/-- Alice connects with a ticket that she was issued. -/
noncomputable def aliceConnects : Config (appSystem examplePackages exampleSettings) :=
  withToken (.websocketTicket aliceToken) (List.replicate 5 (.call 2) ++ .start 3 (.websocket "a") ::
    List.replicate 4 (.call 3))

theorem connection_origin_alice : ∃ t token user, Requested t (AppRequest.websocketTicket token) aliceConnects.trace ∧
    user.id = 1 ∧ BackedByLogin aliceConnects t (.websocketTicket token) user := by
  have h : Interleaved (.init AppState.new) aliceConnects := withToken_interleaved _ _
  have hunforged : Unforged aliceConnects.trace := unforged_withToken rfl (by decide +kernel)
  have hempty : AppState.new.tickets.tickets = ∅ := Set.eq_empty_of_forall_notMem fun ticket hticket => hticket rfl
  have hpool : (aliceConnects.pool 3).map (·.1) = some (.websocket "a") := by decide +kernel
  have hconnected : Connected aliceConnects 3 "a" ⟨1, true⟩ := ⟨Run.requested h hpool, by decide +kernel⟩
  obtain ⟨issuer, -, horigin⟩ := connection_origin hempty h hunforged
  obtain ⟨token, user, hr, hid, hbacked, -⟩ := horigin 3 "a" ⟨1, true⟩ hconnected
  exact ⟨_, token, user, hr, hid, hbacked⟩

end TaskApi
