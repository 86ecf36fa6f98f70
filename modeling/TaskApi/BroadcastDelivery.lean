/-
# Who receives what is broadcast

Between a session that publishes and a connection that receives stand the channel, the inbox of
a subscription and the sends of a broadcast. What a connection has received, the sends to it
that are under way and the messages for its user in the inbox of its process are, in this order,
what there is of the messages for it (`RealtimeProcess.flow`). A step of the process moves a
message on in this list or loses some, and only a `PUBLISH` adds one, at its end.

So a connection receives nothing but what was published for its user, in the order of the
channel and each message once (`broadcasts_in_order`); and as long as the subscription of its
process stands and it stays registered, it loses nothing (`broadcasts_delivered`).

Key definitions: `publications`, `messagesFor`, `RealtimeProcess.flow`, `ProcessInv`, `Delivers`,
`RealtimeProcess.Intact`, `Closes`.
Key theorems: `Step.flow`, `processInv`, `broadcasts_in_order`, `broadcasts_delivered`, `session_ends`.
-/
import TaskApi.Broadcasting

namespace TaskApi

open Conc

/-! ### The registry -/

namespace Registry

variable {r : Registry} {userId u : ℤ} {websocket w : WebSocket}

theorem mem_get_connect : w ∈ (r.connect userId websocket).get u ↔
    w ∈ r.get u ∨ (userId = u ∧ websocket = w) := by
  by_cases hu : u = userId
  · subst hu
    simp [get, connect_self, eq_comm]
  · have hne : ¬ userId = u := fun h => hu h.symm
    simp [get, connect_ne hu, hne]

theorem get_connect_self : (r.connect userId websocket).get userId = r.get userId ++ [websocket] := by
  simp [get, connect_self]

theorem get_connect_ne (h : u ≠ userId) : (r.connect userId websocket).get u = r.get u := by
  simp [get, connect_ne h]

theorem get_disconnect_self : (r.disconnect userId websocket).get userId = (r.get userId).erase websocket := by
  by_cases hmem : websocket ∈ r.get userId
  · obtain ⟨userConnections, hlist⟩ : ∃ l, r userId = some l := by
      cases hlist : r userId with
      | none => simp [get, hlist] at hmem
      | some l => exact ⟨l, rfl⟩
    have hmem' : websocket ∈ userConnections := by simpa [get, hlist] using hmem
    unfold disconnect
    simp only [hlist, hmem', not_true_eq_false, if_false]
    split_ifs with hnil
    · simp [get, hlist, hnil]
    · simp [get, hlist]
  · rw [disconnect_of_not_mem hmem, List.erase_of_not_mem hmem]

theorem get_disconnect_ne (h : u ≠ userId) : (r.disconnect userId websocket).get u = r.get u := by
  simp [get, disconnect_ne h]

theorem nodup_get_disconnect (h : ∀ u, (r.get u).Nodup) (u : ℤ) : ((r.disconnect userId websocket).get u).Nodup := by
  by_cases hu : u = userId
  · subst hu
    rw [get_disconnect_self]
    exact (h u).erase websocket
  · rw [get_disconnect_ne hu]
    exact h u

theorem mem_get_disconnect (h : ∀ u, (r.get u).Nodup) : w ∈ (r.disconnect userId websocket).get u ↔
    w ∈ r.get u ∧ ¬ (userId = u ∧ websocket = w) := by
  by_cases hu : u = userId
  · subst hu
    rw [get_disconnect_self, (h u).mem_erase_iff]
    have hcomm : w ≠ websocket ↔ ¬ (u = u ∧ websocket = w) := by simp [eq_comm]
    rw [← hcomm, and_comm]
  · have hne : ¬ userId = u := fun h => hu h.symm
    rw [get_disconnect_ne hu]
    simp [hne]

end Registry

/-! ### Messages on their way -/

/-- What there is for a user among the events, as it is sent. -/
def messagesFor (J : RealtimeJson) (userId : ℤ) (envelopes : List UserRealtimeEventEnvelope) : List String :=
  (envelopes.filter (·.userId = userId)).map (J.modelDumpJson ·.event)

theorem messagesFor_append (J : RealtimeJson) (userId : ℤ) (l l' : List UserRealtimeEventEnvelope) :
    messagesFor J userId (l ++ l') = messagesFor J userId l ++ messagesFor J userId l' := by
  simp [messagesFor]

namespace RealtimeProcess

/-- The messages that are being sent to a connection. -/
def sendingTo (p : RealtimeProcess) (websocket : WebSocket) : List String :=
  (p.broadcast.sending.filter (·.connection = websocket)).map (·.message)

/-- The messages for a user that the subscriber has not read. -/
def unread (J : RealtimeJson) (p : RealtimeProcess) (userId : ℤ) : List String :=
  messagesFor J userId (p.inbox.filterMap (envelopeOf J p.subscriber.channel))

/-- What there is for a user's connection, in its order. -/
def flow (J : RealtimeJson) (p : RealtimeProcess) (userId : ℤ) (websocket : WebSocket) : List String :=
  p.broadcast.received websocket ++ (p.sendingTo websocket ++ p.unread J userId)

variable {J : RealtimeJson} {p p' : RealtimeProcess} {userId : ℤ} {websocket : WebSocket} {m : PubSubMessage}

/-! ### A step of a process -/

/-- What reading an item does, by the envelope it carries. -/
theorem readItem_none (h : envelopeOf J p.subscriber.channel m = none) :
    (readItem J m p).broadcast = p.broadcast ∧ (readItem J m p).inbox = p.inbox ∧
      (readItem J m p).subscribed = p.subscribed := by
  unfold readItem
  unfold envelopeOf at h
  split_ifs at h ⊢
  · exact ⟨rfl, rfl, rfl⟩
  · exact ⟨rfl, rfl, rfl⟩
  · rw [h]
    exact ⟨rfl, rfl, rfl⟩

/-- The sends of an event to connections. -/
def sendsOf (J : RealtimeJson) (envelope : UserRealtimeEventEnvelope) (connections : List WebSocket) : List SendTask :=
  connections.map (⟨envelope.userId, ·, J.modelDumpJson envelope.event⟩)

theorem readItem_some {envelope : UserRealtimeEventEnvelope} (h : envelopeOf J p.subscriber.channel m = some envelope) :
    readItem J m p = { p with broadcast := { p.broadcast with
      sending := sendsOf J envelope (p.broadcast.registry.get envelope.userId) } } := by
  unfold readItem
  unfold envelopeOf at h
  split_ifs at h ⊢
  rw [h]
  rfl

@[simp] theorem readItem_channel : (readItem J m p).subscriber.channel = p.subscriber.channel := by
  unfold readItem
  split_ifs
  · rfl
  · rfl
  · split <;> rfl

@[simp] theorem endSession_broadcast {error : Option ListenError} {jitter : ℚ → ℚ → ℚ} :
    (endSession error jitter p).broadcast = p.broadcast := rfl

@[simp] theorem endSession_inbox {error : Option ListenError} {jitter : ℚ → ℚ → ℚ} :
    (endSession error jitter p).inbox = [] := rfl

@[simp] theorem endSession_subscribed {error : Option ListenError} {jitter : ℚ → ℚ → ℚ} :
    (endSession error jitter p).subscribed = false := rfl

@[simp] theorem endSession_channel {error : Option ListenError} {jitter : ℚ → ℚ → ℚ} :
    (endSession error jitter p).subscriber.channel = p.subscriber.channel := by
  unfold endSession ListenerState.endSession
  simp only
  split <;> rfl

theorem endSession_generation {error : Option ListenError} {jitter : ℚ → ℚ → ℚ} :
    (endSession error jitter p).subscriber.subscriptionGeneration = p.subscriber.subscriptionGeneration := by
  unfold endSession ListenerState.endSession
  simp only
  split <;> rfl

/-! ### Sends -/

theorem sendsTo_sendsOf {connections : List WebSocket} (hnodup : connections.Nodup)
    (envelope : UserRealtimeEventEnvelope) (websocket : WebSocket) :
    ((sendsOf J envelope connections).filter (·.connection = websocket)).map (·.message) =
      if websocket ∈ connections then [J.modelDumpJson envelope.event] else [] := by
  have hfilter : (sendsOf J envelope connections).filter (·.connection = websocket) =
      (connections.filter (· = websocket)).map (⟨envelope.userId, ·, J.modelDumpJson envelope.event⟩) := by
    rw [sendsOf, List.filter_map]
    rfl
  rw [hfilter, List.filter_eq]
  by_cases hmem : websocket ∈ connections
  · rw [List.count_eq_one_of_mem hnodup hmem, if_pos hmem]
    rfl
  · rw [List.count_eq_zero_of_not_mem hmem, if_neg hmem]
    rfl

section Sends

variable {tasks : List SendTask} {task : SendTask}

theorem sendsTo_self (hnodup : (tasks.map (·.connection)).Nodup) (hmem : task ∈ tasks) :
    tasks.filter (·.connection = task.connection) = [task] := by
  have honly : tasks.filter (·.connection = task.connection) = tasks.filter (· = task) := by
    refine List.filter_congr fun x hx => ?_
    have hiff : x.connection = task.connection ↔ x = task :=
      ⟨fun h => List.inj_on_of_nodup_map hnodup hx hmem h, fun h => by rw [h]⟩
    simp [hiff]
  rw [honly, List.filter_eq, List.count_eq_one_of_mem hnodup.of_map hmem]
  rfl

theorem sendsTo_erase_self (hnodup : (tasks.map (·.connection)).Nodup) (hmem : task ∈ tasks) :
    (tasks.erase task).filter (·.connection = task.connection) = [] := by
  refine List.filter_eq_nil_iff.mpr fun x hx hconnection => ?_
  have hx := (hnodup.of_map.mem_erase_iff).mp hx
  exact hx.1 (List.inj_on_of_nodup_map hnodup hx.2 hmem (of_decide_eq_true hconnection))

theorem sendsTo_erase_ne (hnodup : (tasks.map (·.connection)).Nodup) {websocket : WebSocket}
    (hne : websocket ≠ task.connection) :
    (tasks.erase task).filter (·.connection = websocket) = tasks.filter (·.connection = websocket) := by
  rw [hnodup.of_map.erase_eq_filter, List.filter_filter]
  refine List.filter_congr fun x _ => ?_
  by_cases hx : x.connection = websocket
  · have hother : x ≠ task := by
      rintro rfl
      exact hne hx.symm
    simp [hx, hother]
  · simp [hx]

end Sends

/-- The connections of a process and the sends under way are as the code has them, and the
websocket is used for one user only. -/
structure Orderly (p : RealtimeProcess) (userId : ℤ) (websocket : WebSocket) : Prop where
  nodup : ∀ u, (p.broadcast.registry.get u).Nodup
  once : (p.broadcast.sending.map (·.connection)).Nodup
  registered : ∀ u, websocket ∈ p.broadcast.registry.get u → u = userId
  sending : ∀ task ∈ p.broadcast.sending, task.connection = websocket → task.userId = userId

theorem flow_kept (h : p'.flow J userId websocket = p.flow J userId websocket) :
    (p'.flow J userId websocket).Sublist (p.flow J userId websocket) ∧
      (p'.subscribed = true → websocket ∈ p'.broadcast.registry.get userId →
        p'.flow J userId websocket = p.flow J userId websocket) :=
  ⟨h ▸ List.Sublist.refl _, fun _ _ => h⟩

/-- A step moves the messages for a connection on, and loses none while the subscription stands
and the connection is registered. -/
theorem Step.flow (hs : Step J p p') (h : Orderly p userId websocket) :
    (p'.flow J userId websocket).Sublist (p.flow J userId websocket) ∧
      (p'.subscribed = true → websocket ∈ p'.broadcast.registry.get userId →
        p'.flow J userId websocket = p.flow J userId websocket) := by
  cases hs with
  | subscribes hcontrol hnot =>
    have hconfirmation : envelopeOf J p.subscriber.channel (confirmation p.subscriber.channel) = none := by
      simp [envelopeOf, PubSubMessage.isConfirmation, confirmation, PubSubValue.isText]
    refine flow_kept ?_
    simp [RealtimeProcess.flow, sendingTo, unread, hconfirmation]
  | breaks read =>
    refine ⟨List.Sublist.append_left (List.Sublist.append_left ?_ _) _, fun h => by cases h⟩
    exact (((List.take_sublist read p.inbox).filterMap _).filter _).map _
  | @reads m rest hcontrol hidle hinbox =>
    cases henvelope : envelopeOf J p.subscriber.channel m with
    | none =>
      obtain ⟨hbroadcast, hrest, -⟩ := @readItem_none J { p with inbox := rest } m henvelope
      refine flow_kept ?_
      simp [RealtimeProcess.flow, sendingTo, unread, hbroadcast, hrest, hinbox, henvelope]
    | some envelope =>
      rw [@readItem_some J { p with inbox := rest } m envelope henvelope]
      have hsends := @sendsTo_sendsOf J _ (h.nodup envelope.userId) envelope websocket
      by_cases huser : envelope.userId = userId
      · subst huser
        by_cases hmem : websocket ∈ p.broadcast.registry.get envelope.userId
        · rw [if_pos hmem] at hsends
          refine flow_kept ?_
          simp [RealtimeProcess.flow, sendingTo, unread, hidle, hinbox, henvelope, hsends, messagesFor]
        · rw [if_neg hmem] at hsends
          refine ⟨?_, fun _ h => absurd h hmem⟩
          simp [RealtimeProcess.flow, sendingTo, unread, hidle, hinbox, henvelope, hsends, messagesFor]
      · -- what is for other users is sent to others
        have hmem : websocket ∉ p.broadcast.registry.get envelope.userId := fun hmem => huser (h.registered _ hmem)
        rw [if_neg hmem] at hsends
        refine flow_kept ?_
        simp [RealtimeProcess.flow, sendingTo, unread, hidle, hinbox, henvelope, hsends, messagesFor, huser]
  | @sendCompletes task outcome broadcast hends hstep =>
    obtain ⟨hmem, rfl⟩ := BroadcastState.step_sendCompletes.mp hstep
    by_cases hconnection : websocket = task.connection
    · subst hconnection
      have hself := sendsTo_self h.once hmem
      have herase := sendsTo_erase_self h.once hmem
      cases outcome with
      | success =>
        refine flow_kept ?_
        simp [RealtimeProcess.flow, sendingTo, unread, BroadcastState.sendToConnection, hself, herase]
      | webSocketDisconnect =>
        have hgone : task.connection ∉ (p.broadcast.registry.disconnect task.userId task.connection).get userId := by
          rw [Registry.mem_get_disconnect h.nodup, h.sending task hmem rfl]
          simp
        refine ⟨?_, fun _ hregistered => absurd hregistered hgone⟩
        simp [RealtimeProcess.flow, sendingTo, unread, BroadcastState.sendToConnection, hself, herase]
      | raised error => cases hends
    · have herase := sendsTo_erase_ne h.once hconnection
      refine flow_kept ?_
      cases outcome with
      | success =>
        simp [RealtimeProcess.flow, sendingTo, unread, BroadcastState.sendToConnection, herase,
          Function.update_of_ne hconnection]
      | webSocketDisconnect =>
        simp [RealtimeProcess.flow, sendingTo, unread, BroadcastState.sendToConnection, herase]
      | raised error => cases hends
  | sendRaises hmem =>
    refine ⟨?_, fun h => by cases h⟩
    simp [RealtimeProcess.flow, sendingTo, unread, messagesFor]
  | sessionEnds hcontrol hidle =>
    refine ⟨?_, fun h => by cases h⟩
    simp [RealtimeProcess.flow, sendingTo, unread, messagesFor]
  | slept hcontrol => exact flow_kept rfl

/-- A step registers nobody. -/
theorem Step.registry (hs : Step J p p') : p'.broadcast.registry = p.broadcast.registry ∨
    ∃ userId websocket, p'.broadcast.registry = p.broadcast.registry.disconnect userId websocket := by
  cases hs with
  | @reads m rest hcontrol hidle hinbox =>
    cases henvelope : envelopeOf J p.subscriber.channel m with
    | none => exact .inl (congrArg _ (@readItem_none J { p with inbox := rest } m henvelope).1)
    | some envelope => exact .inl (by rw [@readItem_some J { p with inbox := rest } m envelope henvelope])
  | @sendCompletes task outcome broadcast hends hstep =>
    obtain ⟨-, rfl⟩ := BroadcastState.step_sendCompletes.mp hstep
    cases outcome with
    | webSocketDisconnect => exact .inr ⟨_, _, rfl⟩
    | _ => exact .inl rfl
  | _ => exact .inl rfl

/-- A step ends sends, or starts those of one event. -/
theorem Step.sending (hs : Step J p p') : p'.broadcast.sending.Sublist p.broadcast.sending ∨
    ∃ envelope, p'.broadcast.sending = sendsOf J envelope (p.broadcast.registry.get envelope.userId) := by
  cases hs with
  | @reads m rest hcontrol hidle hinbox =>
    cases henvelope : envelopeOf J p.subscriber.channel m with
    | none =>
      refine .inl ?_
      rw [(@readItem_none J { p with inbox := rest } m henvelope).1]
    | some envelope => exact .inr ⟨envelope, by rw [@readItem_some J { p with inbox := rest } m envelope henvelope]⟩
  | @sendCompletes task outcome broadcast hends hstep =>
    obtain ⟨-, rfl⟩ := BroadcastState.step_sendCompletes.mp hstep
    refine .inl ?_
    rw [BroadcastState.sendToConnection_sending]
    exact List.erase_sublist
  | sendRaises hmem => exact .inl (List.nil_sublist _)
  | _ => exact .inl (.refl _)

theorem Step.channel (hs : Step J p p') : p'.subscriber.channel = p.subscriber.channel := by
  cases hs with
  | reads hcontrol hidle hinbox => exact readItem_channel
  | sendRaises hmem => exact endSession_channel
  | sessionEnds hcontrol hidle => exact endSession_channel
  | _ => rfl

theorem Step.mem_registry (hs : Step J p p') (hnodup : ∀ u, (p.broadcast.registry.get u).Nodup) {u : ℤ}
    {w : WebSocket} (h : w ∈ p'.broadcast.registry.get u) : w ∈ p.broadcast.registry.get u := by
  rcases hs.registry with heq | ⟨userId, websocket, heq⟩
  · rwa [heq] at h
  · rw [heq, Registry.mem_get_disconnect hnodup] at h
    exact h.1

/-! ### A message comes in -/

theorem push_broadcast (channel message : String) : (p.push channel message).broadcast = p.broadcast := by
  unfold push
  split_ifs <;> rfl

theorem push_subscriber (channel message : String) : (p.push channel message).subscriber = p.subscriber := by
  unfold push
  split_ifs <;> rfl

theorem envelopeOf_messageItem (channel message : String) :
    envelopeOf J channel (messageItem channel message) = J.modelValidateJson message := by
  have htype : ("message" : String) ≠ "subscribe" := by decide
  have hbytes : ∀ b, PubSubValue.str "message" ≠ .bytes b := fun b h => by cases h
  simp [envelopeOf, PubSubMessage.isConfirmation, messageItem, PubSubValue.isText, PubSubValue.text, htype, hbytes]

/-- A message is added at the end of what there is, if there is a subscription. -/
theorem flow_push (hchannel : p.subscriber.channel = realtimeEventsChannel) (message : String) :
    (p.push realtimeEventsChannel message).flow J userId websocket = p.flow J userId websocket ++
      if p.subscribed then messagesFor J userId (J.modelValidateJson message).toList else [] := by
  have henvelope := @envelopeOf_messageItem J realtimeEventsChannel message
  cases hsubscribed : p.subscribed with
  | false => simp [push, hsubscribed]
  | true =>
    simp only [push, hsubscribed, hchannel, and_self, if_true, flow, sendingTo, unread, List.filterMap_append]
    rw [messagesFor_append, List.filterMap_cons, henvelope]
    cases J.modelValidateJson message <;> simp

/-! ### Subscriptions -/

/-- The subscription that Redis has for the process is the one confirmed as this generation. -/
structure Intact (p : RealtimeProcess) (generation : ℕ) : Prop where
  subscribed : p.subscribed = true
  generation : p.subscriber.subscriptionGeneration = generation
  confirmed : ∀ m ∈ p.inbox, m.isConfirmation p.subscriber.channel = false

theorem readItem_generation : (readItem J m p).subscriber.subscriptionGeneration =
    if m.isConfirmation p.subscriber.channel then p.subscriber.subscriptionGeneration + 1
    else p.subscriber.subscriptionGeneration := by
  unfold readItem
  split_ifs
  · rfl
  · rfl
  · split <;> rfl

theorem readItem_stands : (readItem J m p).subscribed = p.subscribed ∧ (readItem J m p).inbox = p.inbox := by
  cases henvelope : envelopeOf J p.subscriber.channel m with
  | none => exact ⟨(readItem_none henvelope).2.2, (readItem_none henvelope).2.1⟩
  | some envelope =>
    rw [readItem_some henvelope]
    exact ⟨rfl, rfl⟩

theorem Step.generation_le (hs : Step J p p') :
    p.subscriber.subscriptionGeneration ≤ p'.subscriber.subscriptionGeneration := by
  cases hs with
  | reads hcontrol hidle hinbox =>
    rw [readItem_generation]
    split_ifs <;> simp
  | sendRaises hmem => exact endSession_generation.ge
  | sessionEnds hcontrol hidle => exact endSession_generation.ge
  | _ => exact le_rfl

/-- A subscription that was given up does not come back as the same generation. -/
theorem Step.intact (hs : Step J p p') {generation : ℕ} (hle : generation ≤ p.subscriber.subscriptionGeneration)
    (h : p'.Intact generation) : p.Intact generation := by
  obtain ⟨hsubscribed, hgeneration, hconfirmed⟩ := h
  cases hs with
  | subscribes hcontrol hnot =>
    have hconfirmation := hconfirmed (confirmation p.subscriber.channel) (by simp)
    simp [confirmation, PubSubMessage.isConfirmation, PubSubValue.isText] at hconfirmation
  | breaks read => cases hsubscribed
  | @reads m rest hcontrol hidle hinbox =>
    obtain ⟨hstands, hrest⟩ := @readItem_stands J { p with inbox := rest } m
    rw [readItem_generation] at hgeneration
    rw [hstands] at hsubscribed
    rw [hrest, readItem_channel] at hconfirmed
    have hnot : m.isConfirmation p.subscriber.channel = false := by
      by_contra hm
      rw [if_pos (by simpa using hm)] at hgeneration
      have hgeneration : p.subscriber.subscriptionGeneration + 1 = generation := hgeneration
      omega
    refine ⟨hsubscribed, ?_, fun m' hm' => ?_⟩
    · rwa [if_neg (by simp [hnot])] at hgeneration
    · rw [hinbox] at hm'
      rcases List.mem_cons.mp hm' with rfl | hm'
      · exact hnot
      · exact hconfirmed m' hm'
  | sendRaises hmem => cases hsubscribed
  | sessionEnds hcontrol hidle => cases hsubscribed
  | _ => exact ⟨hsubscribed, hgeneration, hconfirmed⟩

theorem Intact.of_push {channel message : String} {generation : ℕ} (h : (p.push channel message).Intact generation) :
    p.Intact generation := by
  obtain ⟨hsubscribed, hgeneration, hconfirmed⟩ := h
  rw [push_subscriber] at hgeneration hconfirmed
  unfold push at hsubscribed hconfirmed
  split_ifs at hsubscribed hconfirmed
  · exact ⟨hsubscribed, hgeneration, fun m hm => hconfirmed m (List.mem_append_left _ hm)⟩
  · exact ⟨hsubscribed, hgeneration, hconfirmed⟩

end RealtimeProcess

/-! ### Runs -/

section Runs

variable {J : EnvelopeJson} {s₀ : RealtimeService} {c : Config (broadcastSystem J)}

abbrev BroadcastEvent (J : EnvelopeJson) := Event (broadcastSystem J)

/-- What has been published, oldest first, with its thread; of what a failed `PUBLISH` was to
publish nobody knows whether it was. -/
def publications : List (BroadcastEvent J) → List (ℕ × UserRealtimeEventEnvelope)
  | [] => []
  | ⟨_, _, .call t (.publish _ message) _⟩ :: tr => publications tr ++ (J.modelValidateJson message).toList.map (t, ·)
  | _ :: tr => publications tr

/-- What thread `t` has published. -/
def publishedBy (t : ℕ) (tr : List (BroadcastEvent J)) : List UserRealtimeEventEnvelope :=
  ((publications tr).filter (·.1 = t)).map (·.2)

/-- The messages that the client of thread `t` has sent, oldest first. -/
def sentBy (t : ℕ) : List (BroadcastEvent J) → List String
  | [] => []
  | ⟨_, _, .call t' (.receiveJson _) (.ok payload)⟩ :: tr =>
    if t' = t then sentBy t tr ++ ((ClientBroadcastMessage.modelValidate payload).map (·.content)).toList
    else sentBy t tr
  | _ :: tr => sentBy t tr

/-- What has been published for sure. -/
def acknowledged : List (BroadcastEvent J) → List UserRealtimeEventEnvelope
  | [] => []
  | ⟨_, _, .call _ (.publish _ message) (.ok _)⟩ :: tr => acknowledged tr ++ (J.modelValidateJson message).toList
  | _ :: tr => acknowledged tr

/-- The automaton of all sessions. -/
abbrev sessionAutomaton : Automaton broadcastCalls := ⟨SessionPhase, {}, SessionPhase.next⟩

/-- Where thread `t` is. -/
def sessionPhase (t : ℕ) (tr : List (BroadcastEvent J)) : SessionPhase := phase sessionAutomaton t tr

/-- The session's connection, as it is registered. -/
def BroadcastRequest.Connects (r : BroadcastRequest) (process : ℕ) (userId : ℤ) (websocket : WebSocket) : Prop :=
  r.process = process ∧ r.currentUser.id = userId ∧ r.websocket = websocket

/-- Each session has a websocket of its own. -/
def OwnWebsockets (tr : List (BroadcastEvent J)) : Prop :=
  ∀ t r t' r', Requested t r tr → Requested t' r' tr → r.websocket = r'.websocket → t = t'

theorem OwnWebsockets.of_starts {tr : List (BroadcastEvent J)}
    (h : ∀ p ∈ starts tr, ∀ p' ∈ starts tr, p.2.websocket = p'.2.websocket → p.1 = p'.1) : OwnWebsockets tr :=
  fun _ _ _ _ hr hr' hwebsocket => h _ hr.mem_starts _ hr'.mem_starts hwebsocket

/-- What holds of a process. -/
structure ProcessInv (tr : List (BroadcastEvent J)) (process : ℕ) (p : RealtimeProcess) : Prop where
  channel : p.subscriber.channel = realtimeEventsChannel
  nodup : ∀ u, (p.broadcast.registry.get u).Nodup
  once : (p.broadcast.sending.map (·.connection)).Nodup
  registered : ∀ u w, w ∈ p.broadcast.registry.get u → ∃ t r, Requested t r tr ∧ r.Connects process u w ∧
    (sessionPhase t tr).stage = .registered
  sending : ∀ task ∈ p.broadcast.sending, ∃ t r, Requested t r tr ∧ r.Connects process task.userId task.connection

/-- Nobody is connected, and nothing is on its way. -/
structure RealtimeService.Quiet (s : RealtimeService) : Prop where
  channel : ∀ process, (s process).subscriber.channel = realtimeEventsChannel
  registry : ∀ process, (s process).broadcast.registry = fun _ => none
  sending : ∀ process, (s process).broadcast.sending = []
  received : ∀ process, (s process).broadcast.received = fun _ => []
  inbox : ∀ process, (s process).inbox = []

namespace ProcessInv

variable {tr : List (BroadcastEvent J)} {process : ℕ} {p p' : RealtimeProcess}

theorem orderly (h : ProcessInv tr process p) {userId : ℤ} {websocket : WebSocket}
    (hown : ∀ t r, Requested t r tr → r.process = process → r.websocket = websocket → r.currentUser.id = userId) :
    p.Orderly userId websocket where
  nodup := h.nodup
  once := h.once
  registered u hmem := by
    obtain ⟨t, r, hr, ⟨hprocess, huser, hwebsocket⟩, -⟩ := h.registered u websocket hmem
    exact huser.symm.trans (hown t r hr hprocess hwebsocket)
  sending task hmem hconnection := by
    obtain ⟨t, r, hr, hprocess, huser, hwebsocket⟩ := h.sending task hmem
    exact huser.symm.trans (hown t r hr hprocess (hwebsocket.trans hconnection))

theorem init (hs₀ : s₀.Quiet) (process : ℕ) : ProcessInv ([] : List (BroadcastEvent J)) process (s₀ process) where
  channel := hs₀.channel process
  nodup u := by
    rw [hs₀.registry]
    exact List.nodup_nil
  once := by
    rw [hs₀.sending]
    exact List.nodup_nil
  registered u w hmem := by
    rw [hs₀.registry] at hmem
    cases hmem
  sending task hmem := by
    rw [hs₀.sending] at hmem
    cases hmem

theorem step (h : ProcessInv tr process p) (hs : RealtimeProcess.Step J.toRealtimeJson p p') :
    ProcessInv tr process p' where
  channel := hs.channel.trans h.channel
  nodup := by
    rcases hs.registry with heq | ⟨userId, websocket, heq⟩
    · rw [heq]
      exact h.nodup
    · rw [heq]
      exact Registry.nodup_get_disconnect h.nodup
  once := by
    rcases hs.sending with hsub | ⟨envelope, heq⟩
    · exact h.once.sublist (hsub.map _)
    · rw [heq, RealtimeProcess.sendsOf, List.map_map]
      have hid : ((·.connection) ∘ fun w =>
          (⟨envelope.userId, w, J.modelDumpJson envelope.event⟩ : SendTask)) = id := rfl
      rw [hid, List.map_id]
      exact h.nodup _
  registered u w hmem := h.registered u w (hs.mem_registry h.nodup hmem)
  sending task hmem := by
    rcases hs.sending with hsub | ⟨envelope, heq⟩
    · exact h.sending task (hsub.subset hmem)
    · rw [heq] at hmem
      obtain ⟨w, hw, rfl⟩ := List.mem_map.mp hmem
      obtain ⟨t, r, hr, hconnects, -⟩ := h.registered envelope.userId w hw
      exact ⟨t, r, hr, hconnects⟩

/-- The process's sessions that are registered stay so. -/
theorem cons {e : BroadcastEvent J} (h : ProcessInv tr process p)
    (hstage : ∀ t r, Requested t r tr → r.process = process → (sessionPhase t tr).stage = .registered →
      (sessionPhase t (e :: tr)).stage = .registered) : ProcessInv (e :: tr) process p where
  channel := h.channel
  nodup := h.nodup
  once := h.once
  registered u w hmem := by
    obtain ⟨t, r, hr, hconnects, hregistered⟩ := h.registered u w hmem
    exact ⟨t, r, hr.cons e, hconnects, hstage t r hr hconnects.1 hregistered⟩
  sending task hmem := by
    obtain ⟨t, r, hr, hconnects⟩ := h.sending task hmem
    exact ⟨t, r, hr.cons e, hconnects⟩

/-- The session's connection is registered. -/
theorem register (h : ProcessInv tr process p) {t : ℕ} {r : BroadcastRequest} {userId : ℤ} {websocket : WebSocket}
    (hr : Requested t r tr) (hconnects : r.Connects process userId websocket)
    (hstage : (sessionPhase t tr).stage = .registered) (hnew : ∀ u, websocket ∉ p.broadcast.registry.get u) :
    ProcessInv tr process { p with broadcast :=
      { p.broadcast with registry := p.broadcast.registry.connect userId websocket } } where
  channel := h.channel
  nodup u := by
    by_cases hu : u = userId
    · subst hu
      rw [Registry.get_connect_self]
      refine List.nodup_append.mpr ⟨h.nodup u, List.nodup_singleton _, fun a ha b hb => ?_⟩
      rw [List.mem_singleton.mp hb]
      exact fun heq => hnew u (heq ▸ ha)
    · rw [Registry.get_connect_ne hu]
      exact h.nodup u
  once := h.once
  registered u w hmem := by
    rcases Registry.mem_get_connect.mp hmem with hmem | ⟨rfl, rfl⟩
    · exact h.registered u w hmem
    · exact ⟨t, r, hr, hconnects, hstage⟩
  sending := h.sending

/-- The session's connection is disconnected, and all others stay registered. -/
theorem disconnect {e : BroadcastEvent J} (h : ProcessInv tr process p) {userId : ℤ} {websocket : WebSocket}
    (hstage : ∀ t r u w, Requested t r tr → r.Connects process u w → ¬ (userId = u ∧ websocket = w) →
      (sessionPhase t tr).stage = .registered → (sessionPhase t (e :: tr)).stage = .registered) :
    ProcessInv (e :: tr) process { p with broadcast :=
      { p.broadcast with registry := p.broadcast.registry.disconnect userId websocket } } where
  channel := h.channel
  nodup := Registry.nodup_get_disconnect h.nodup
  once := h.once
  registered u w hmem := by
    obtain ⟨hmem, hother⟩ := (Registry.mem_get_disconnect h.nodup).mp hmem
    obtain ⟨t, r, hr, hconnects, hregistered⟩ := h.registered u w hmem
    exact ⟨t, r, hr.cons e, hconnects, hstage t r u w hr hconnects hother hregistered⟩
  sending task hmem := by
    obtain ⟨t, r, hr, hconnects⟩ := h.sending task hmem
    exact ⟨t, r, hr.cons e, hconnects⟩

theorem push (h : ProcessInv tr process p) (channel message : String) :
    ProcessInv tr process (p.push channel message) where
  channel := by
    rw [RealtimeProcess.push_subscriber]
    exact h.channel
  nodup := by
    rw [RealtimeProcess.push_broadcast]
    exact h.nodup
  once := by
    rw [RealtimeProcess.push_broadcast]
    exact h.once
  registered := by
    rw [RealtimeProcess.push_broadcast]
    exact h.registered
  sending := by
    rw [RealtimeProcess.push_broadcast]
    exact h.sending

end ProcessInv

/-- Only registering and disconnecting change the stage. -/
theorem SessionPhase.next_stage (q : SessionPhase) {x : BroadcastCall} (v : broadcastCalls.Out x)
    (hregister : ∀ process userId websocket, x ≠ .register process userId websocket)
    (hdisconnect : ∀ process userId websocket, x ≠ .disconnect process userId websocket) :
    (q.next x v).stage = q.stage := by
  cases x with
  | register process userId websocket => exact absurd rfl (hregister process userId websocket)
  | disconnect process userId websocket => exact absurd rfl (hdisconnect process userId websocket)
  | _ => rfl

theorem sessionPhase_self (t : ℕ) (x : BroadcastCall) (v : broadcastCalls.Out x) (s s' : RealtimeService)
    (tr : List (BroadcastEvent J)) : sessionPhase t ((⟨s, s', .call t x v⟩ : BroadcastEvent J) :: tr) =
      (sessionPhase t tr).next x v := phase_call_self sessionAutomaton t x v s s' tr

theorem sessionPhase_ne {t t' : ℕ} (hne : t ≠ t') (x : BroadcastCall) (v : broadcastCalls.Out x) (s s' : RealtimeService)
    (tr : List (BroadcastEvent J)) : sessionPhase t' ((⟨s, s', .call t x v⟩ : BroadcastEvent J) :: tr) =
      sessionPhase t' tr := phase_call_ne sessionAutomaton hne x v s s' tr

/-- Calls that neither register nor disconnect leave the stages of all sessions as they are. -/
theorem stage_call {t : ℕ} {x : BroadcastCall} (v : broadcastCalls.Out x) (s s' : RealtimeService)
    (tr : List (BroadcastEvent J)) (hregister : ∀ process userId websocket, x ≠ .register process userId websocket)
    (hdisconnect : ∀ process userId websocket, x ≠ .disconnect process userId websocket) (t' : ℕ) :
    (sessionPhase t' ((⟨s, s', .call t x v⟩ : BroadcastEvent J) :: tr)).stage = (sessionPhase t' tr).stage := by
  by_cases ht : t = t'
  · subst ht
    rw [sessionPhase_self]
    exact SessionPhase.next_stage _ v hregister hdisconnect
  · rw [sessionPhase_ne ht]

theorem OwnWebsockets.of_cons {e : BroadcastEvent J} {tr : List (BroadcastEvent J)} (h : OwnWebsockets (e :: tr)) :
    OwnWebsockets tr := fun t r t' r' hr hr' => h t r t' r' (hr.cons e) (hr'.cons e)

theorem setRegistry_self (s : RealtimeService) (process : ℕ) (registry : Registry) :
    s.setRegistry process registry process =
      { s process with broadcast := { (s process).broadcast with registry := registry } } := Function.update_self ..

theorem setRegistry_ne (s : RealtimeService) {process i : ℕ} (h : i ≠ process) (registry : Registry) :
    s.setRegistry process registry i = s i := Function.update_of_ne h ..

/-- A session that is fresh is registered, and so with a websocket that nobody has registered. -/
theorem processInv_register {s b b' : RealtimeService} {t : ℕ} {r : BroadcastRequest} {v : Except BroadcastExn Unit}
    {tr : List (BroadcastEvent J)} (hinv : ∀ i, ProcessInv tr i (s i)) (hown : OwnWebsockets tr) (hr : Requested t r tr)
    (hfresh : (sessionPhase t tr).stage = .fresh) (process : ℕ) :
    ProcessInv (⟨b, b', .call t (.register r.process r.currentUser.id r.websocket) v⟩ :: tr) process
      (s.setRegistry r.process ((s r.process).broadcast.registry.connect r.currentUser.id r.websocket) process) := by
  have hcons : ∀ i,
      ProcessInv (⟨b, b', .call t (.register r.process r.currentUser.id r.websocket) v⟩ :: tr) i (s i) := by
    refine fun i => (hinv i).cons fun t' r' hr' hprocess hstage => ?_
    have ht : t ≠ t' := by
      rintro rfl
      rw [hfresh] at hstage
      cases hstage
    rwa [sessionPhase_ne ht]
  by_cases hi : process = r.process
  · subst hi
    rw [setRegistry_self]
    refine (hcons r.process).register (hr.cons _) ⟨rfl, rfl, rfl⟩ ?_ fun u hmem => ?_
    · rw [sessionPhase_self]
      rfl
    · -- it would be registered for a session that is not fresh
      obtain ⟨t', r', hr', ⟨-, -, hwebsocket⟩, hregistered⟩ := (hinv r.process).registered u _ hmem
      obtain rfl := hown t' r' t r hr' hr hwebsocket
      rw [hfresh] at hregistered
      cases hregistered
  · rw [setRegistry_ne _ hi]
    exact hcons process

/-- A session disconnects its own connection. -/
theorem processInv_disconnect {s b b' : RealtimeService} {t : ℕ} {r : BroadcastRequest} {v : Except BroadcastExn Unit}
    {tr : List (BroadcastEvent J)} (hinv : ∀ i, ProcessInv tr i (s i)) (honly : ∀ r', Requested t r' tr → r = r')
    (process : ℕ) :
    ProcessInv (⟨b, b', .call t (.disconnect r.process r.currentUser.id r.websocket) v⟩ :: tr) process
      (s.setRegistry r.process ((s r.process).broadcast.registry.disconnect r.currentUser.id r.websocket) process) := by
  by_cases hi : process = r.process
  · subst hi
    rw [setRegistry_self]
    refine (hinv r.process).disconnect fun t' r' u w hr' hconnects hother hstage => ?_
    have ht : t ≠ t' := by
      rintro rfl
      obtain rfl := honly r' hr'
      exact hother hconnects.2
    rwa [sessionPhase_ne ht]
  · rw [setRegistry_ne _ hi]
    refine (hinv process).cons fun t' r' hr' hprocess hstage => ?_
    have ht : t ≠ t' := by
      rintro rfl
      obtain rfl := honly r' hr'
      exact hi hprocess.symm
    rwa [sessionPhase_ne ht]

/-- **Connections are registered for their own sessions only**, in every run. -/
theorem processInv (hs₀ : s₀.Quiet) (h : Interleaved (.init s₀) c) :
    OwnWebsockets c.trace → ∀ process, ProcessInv c.trace process (c.state process) := by
  refine @Run.invariant _ _ _ s₀ (broadcastDiscipline J)
    (fun s tr => OwnWebsockets tr → ∀ process, ProcessInv tr process (s process))
    (fun _ process => .init hs₀ process) ?_ ?_ ?_ c h
  · intro b _ hinv t r _ hown process
    exact (hinv hown.of_cons process).cons fun t r _ _ hstage => hstage
  · intro b hb hinv t r x v s' _ hr ha hs hown process
    have hinv := hinv hown.of_cons
    have hkept : (∀ process userId websocket, x ≠ .register process userId websocket) →
        (∀ process userId websocket, x ≠ .disconnect process userId websocket) →
        ProcessInv (⟨b.state, s', .call t x v⟩ :: b.trace) process (b.state process) := fun h₁ h₂ =>
      (hinv process).cons fun t' _ _ _ hstage => (stage_call v _ _ _ h₁ h₂ t').trans hstage
    cases x with
    | register i userId websocket =>
      obtain ⟨hfresh, -, rfl, rfl, rfl⟩ := ha
      obtain ⟨-, rfl⟩ := hs
      exact processInv_register hinv hown.of_cons hr hfresh process
    | disconnect i userId websocket =>
      obtain ⟨-, -, rfl, rfl, rfl⟩ := ha
      obtain ⟨-, rfl⟩ := hs
      exact processInv_disconnect hinv (fun r' hr' => hb.requested_unique hr hr') process
    | publish channel message =>
      have hkept := hkept (by simp) (by simp)
      rcases hs with ⟨rfl, -⟩ | ⟨rfl, -⟩
      · exact hkept.push channel message
      · exact hkept
    | accept websocket =>
      obtain ⟨rfl, -⟩ := hs
      exact hkept (by simp) (by simp)
    | receiveJson websocket =>
      obtain ⟨rfl, -⟩ := hs
      exact hkept (by simp) (by simp)
    | close websocket code reason =>
      obtain ⟨rfl, -⟩ := hs
      exact hkept (by simp) (by simp)
  · rintro b - hinv s' ⟨i, p, hstep, rfl⟩ hown process
    have hinv := hinv hown
    by_cases hi : process = i
    · subst hi
      rw [Function.update_self]
      exact (hinv process).step hstep
    · rw [Function.update_of_ne hi]
      exact hinv process

/-! ### In order -/

theorem publications_publish (s s' : RealtimeService) (t : ℕ) (channel message : String) (v : Except BroadcastExn ℤ)
    (tr : List (BroadcastEvent J)) : publications (⟨s, s', .call t (.publish channel message) v⟩ :: tr) =
      publications tr ++ (J.modelValidateJson message).toList.map (t, ·) := rfl

/-- What publishes nothing changes the flow of no connection. -/
theorem publications_call (s s' : RealtimeService) (t : ℕ) {x : BroadcastCall} (v : broadcastCalls.Out x)
    (tr : List (BroadcastEvent J)) (h : ∀ channel message, x ≠ .publish channel message) :
    publications ((⟨s, s', .call t x v⟩ : BroadcastEvent J) :: tr) = publications tr := by
  cases x with
  | publish channel message => exact absurd rfl (h channel message)
  | _ => rfl

/-- What a call that publishes nothing leaves of a process. -/
theorem process_call {x : BroadcastCall} {s s' : RealtimeService} {v : broadcastCalls.Out x}
    (hs : RealtimeService.step x s v s') (h : ∀ channel message, x ≠ .publish channel message) (process : ℕ) :
    ∃ registry, s' process = { s process with broadcast := { (s process).broadcast with registry := registry } } ∧
      (registry = (s process).broadcast.registry ∨
        (∃ userId websocket, x = .register process userId websocket ∧
          registry = (s process).broadcast.registry.connect userId websocket) ∨
        ∃ userId websocket, registry = (s process).broadcast.registry.disconnect userId websocket) := by
  have hkept : s' = s → ∃ registry, s' process =
      { s process with broadcast := { (s process).broadcast with registry := registry } } ∧
        registry = (s process).broadcast.registry := by
    rintro rfl
    exact ⟨_, rfl, rfl⟩
  have hset : ∀ (i : ℕ) (registry : Registry), i ≠ process → s.setRegistry i registry process =
      { s process with broadcast := { (s process).broadcast with registry := (s process).broadcast.registry } } :=
    fun i registry hi => setRegistry_ne s (Ne.symm hi) registry
  cases x with
  | publish channel message => exact absurd rfl (h channel message)
  | register i u w =>
    obtain ⟨-, rfl⟩ := hs
    by_cases hi : i = process
    · subst hi
      exact ⟨_, setRegistry_self s i _, .inr (.inl ⟨u, w, rfl, rfl⟩)⟩
    · exact ⟨_, hset i _ hi, .inl rfl⟩
  | disconnect i u w =>
    obtain ⟨-, rfl⟩ := hs
    by_cases hi : i = process
    · subst hi
      exact ⟨_, setRegistry_self s i _, .inr (.inr ⟨u, w, rfl⟩)⟩
    · exact ⟨_, hset i _ hi, .inl rfl⟩
  | accept w =>
    obtain ⟨registry, heq, hsame⟩ := hkept hs.1
    exact ⟨registry, heq, .inl hsame⟩
  | receiveJson w =>
    obtain ⟨registry, heq, hsame⟩ := hkept hs.1
    exact ⟨registry, heq, .inl hsame⟩
  | close w code reason =>
    obtain ⟨registry, heq, hsame⟩ := hkept hs.1
    exact ⟨registry, heq, .inl hsame⟩

/-- A call that publishes nothing leaves the flows of all processes as they are. -/
theorem flow_call {x : BroadcastCall} {s s' : RealtimeService} {v : broadcastCalls.Out x}
    (hs : RealtimeService.step x s v s') (h : ∀ channel message, x ≠ .publish channel message) (process : ℕ)
    (userId : ℤ) (websocket : WebSocket) :
    (s' process).flow J.toRealtimeJson userId websocket = (s process).flow J.toRealtimeJson userId websocket := by
  obtain ⟨registry, heq, -⟩ := process_call hs h process
  rw [heq]
  rfl

/-- The connections of a process that use a websocket are of one user. -/
def UsedFor (tr : List (BroadcastEvent J)) (process : ℕ) (userId : ℤ) (websocket : WebSocket) : Prop :=
  ∀ t r, Requested t r tr → r.process = process → r.websocket = websocket → r.currentUser.id = userId

theorem UsedFor.of_cons {e : BroadcastEvent J} {tr : List (BroadcastEvent J)} {process : ℕ} {userId : ℤ}
    {websocket : WebSocket} (h : UsedFor (e :: tr) process userId websocket) : UsedFor tr process userId websocket :=
  fun t r hr => h t r (hr.cons e)

theorem OwnWebsockets.usedFor (hown : OwnWebsockets c.trace) (h : Interleaved (.init s₀) c) {t : ℕ} {r : BroadcastRequest}
    (hr : Requested t r c.trace) : UsedFor c.trace r.process r.currentUser.id r.websocket := by
  intro t' r' hr' _ hwebsocket
  obtain rfl := hown t' r' t r hr' hr hwebsocket
  rw [h.requested_unique hr' hr]

/-- What there is for a connection has been published for its user, in this order. -/
theorem flow_published (hs₀ : s₀.Quiet) (h : Interleaved (.init s₀) c) : OwnWebsockets c.trace →
    ∀ process userId websocket, UsedFor c.trace process userId websocket →
      ((c.state process).flow J.toRealtimeJson userId websocket).Sublist
        (messagesFor J.toRealtimeJson userId ((publications c.trace).map (·.2))) := by
  refine @Run.invariant _ _ _ s₀ (broadcastDiscipline J)
    (fun s tr => OwnWebsockets tr → ∀ process userId websocket, UsedFor tr process userId websocket →
      ((s process).flow J.toRealtimeJson userId websocket).Sublist
        (messagesFor J.toRealtimeJson userId ((publications tr).map (·.2))))
    ?_ ?_ ?_ ?_ c h
  · intro _ process userId websocket _
    simp [RealtimeProcess.flow, RealtimeProcess.sendingTo, RealtimeProcess.unread, hs₀.received, hs₀.sending, hs₀.inbox,
      messagesFor]
  · intro b _ hinv t r _ hown process userId websocket hused
    exact hinv hown.of_cons process userId websocket hused.of_cons
  · intro b hb hinv t r x v s' _ hr ha hs hown process userId websocket hused
    have hinv := hinv hown.of_cons process userId websocket hused.of_cons
    by_cases hpublish : ∃ channel message, x = .publish channel message
    · obtain ⟨channel, message, rfl⟩ := hpublish
      obtain ⟨-, -, rfl, -⟩ := ha
      have hchannel := (processInv hs₀ hb hown.of_cons process).channel
      have htagged : ((J.modelValidateJson message).toList.map (t, ·)).map (·.2) =
          (J.modelValidateJson message).toList := by
        simp
      rw [publications_publish, List.map_append, htagged, messagesFor_append]
      rcases hs with ⟨rfl, -⟩ | ⟨rfl, -⟩
      · show (((b.state process).push realtimeEventsChannel message).flow J.toRealtimeJson userId websocket).Sublist _
        rw [RealtimeProcess.flow_push hchannel]
        split_ifs
        · exact hinv.append (.refl _)
        · exact hinv.append (List.nil_sublist _)
      · exact hinv.trans (List.sublist_append_left _ _)
    · have hnot : ∀ channel message, x ≠ .publish channel message := fun channel message h => hpublish ⟨_, _, h⟩
      rw [publications_call _ _ _ _ _ hnot, flow_call hs hnot]
      exact hinv
  · rintro b hb hinv s' ⟨i, p, hstep, rfl⟩ hown process userId websocket hused
    have hinv := hinv hown process userId websocket hused
    by_cases hi : process = i
    · subst hi
      rw [Function.update_self]
      have horderly := (processInv hs₀ hb hown process).orderly hused
      exact (hstep.flow horderly).1.trans hinv
    · rw [Function.update_of_ne hi]
      exact hinv

/-! ### From one client -/

theorem sentBy_ne {t t' : ℕ} (hne : t' ≠ t) (x : BroadcastCall) (v : broadcastCalls.Out x) (s s' : RealtimeService)
    (tr : List (BroadcastEvent J)) : sentBy t ((⟨s, s', .call t' x v⟩ : BroadcastEvent J) :: tr) = sentBy t tr := by
  cases x with
  | receiveJson websocket => cases v <;> simp [sentBy, hne]
  | _ => rfl

theorem publishedBy_ne {t t' : ℕ} (hne : t' ≠ t) (x : BroadcastCall) (v : broadcastCalls.Out x) (s s' : RealtimeService)
    (tr : List (BroadcastEvent J)) :
    publishedBy t ((⟨s, s', .call t' x v⟩ : BroadcastEvent J) :: tr) = publishedBy t tr := by
  cases x with
  | publish channel message => simp [publishedBy, publications, hne]
  | _ => rfl

theorem publishedBy_self (t : ℕ) (channel message : String) (v : Except BroadcastExn ℤ) (s s' : RealtimeService)
    (tr : List (BroadcastEvent J)) :
    publishedBy t ((⟨s, s', .call t (.publish channel message) v⟩ : BroadcastEvent J) :: tr) =
      publishedBy t tr ++ (J.modelValidateJson message).toList := by
  simp [publishedBy, publications, List.filter_map, Function.comp_def]

/-- A session publishes each message of its client once, in order, and for its own user. -/
theorem published_sent (h : Interleaved (.init s₀) c) : ∀ t,
    (publishedBy t c.trace).map (·.event.content) ++ (sessionPhase t c.trace).content.toList = sentBy t c.trace ∧
      ∀ envelope ∈ publishedBy t c.trace, ∃ r, Requested t r c.trace ∧ envelope.userId = r.currentUser.id := by
  refine @Run.invariant _ _ _ s₀ (broadcastDiscipline J)
    (fun _ tr => ∀ t, (publishedBy t tr).map (·.event.content) ++ (sessionPhase t tr).content.toList = sentBy t tr ∧
      ∀ envelope ∈ publishedBy t tr, ∃ r, Requested t r tr ∧ envelope.userId = r.currentUser.id) ?_ ?_ ?_ ?_ c h
  · exact fun t => ⟨rfl, fun envelope hmem => by cases hmem⟩
  · intro b _ hinv t₁ r₁ _ t
    obtain ⟨hsent, huser⟩ := hinv t
    refine ⟨hsent, fun envelope hmem => ?_⟩
    obtain ⟨r, hr, heq⟩ := huser envelope hmem
    exact ⟨r, hr.cons _, heq⟩
  · intro b _ hinv t₁ r x v s' _ hr ha hs t
    obtain ⟨hsent, huser⟩ := hinv t
    have huser : ∀ envelope ∈ publishedBy t b.trace, ∃ r, Requested t r (⟨b.state, s', .call t₁ x v⟩ :: b.trace) ∧
        envelope.userId = r.currentUser.id := fun envelope hmem => by
      obtain ⟨r, hr, heq⟩ := huser envelope hmem
      exact ⟨r, hr.cons _, heq⟩
    by_cases ht : t₁ = t
    · subst ht
      rw [sessionPhase_self]
      -- of its own calls only a message and its publication matter
      cases x with
      | receiveJson websocket =>
        obtain ⟨-, hcontent, -⟩ := ha
        have hcontent : (sessionPhase t₁ b.trace).content = none := hcontent
        refine ⟨?_, huser⟩
        show (publishedBy t₁ b.trace).map (·.event.content) ++ _ = _
        rw [hcontent, Option.toList_none, List.append_nil] at hsent
        rcases v with e | payload
        · rw [hsent]
          cases e <;> simp [SessionPhase.next, hcontent, sentBy]
        · rw [hsent]
          simp [SessionPhase.next, sentBy]
      | publish channel message =>
        obtain ⟨-, -, -, content, hone, hcontent, rfl⟩ := ha
        have hcontent : (sessionPhase t₁ b.trace).content = some content := hcontent
        rw [publishedBy_self, J.validate_dump]
        refine ⟨?_, fun envelope hmem => ?_⟩
        · have hnone : ((sessionPhase t₁ b.trace).next (.publish channel
              (J.modelDumpEnvelope ⟨r.currentUser.id, ⟨content⟩, hone⟩)) v).content = none := rfl
          rw [hcontent] at hsent
          rw [hnone]
          show _ = sentBy t₁ b.trace
          rw [← hsent]
          simp
        · rcases List.mem_append.mp hmem with hmem | hmem
          · exact huser envelope hmem
          · cases List.mem_singleton.mp hmem
            exact ⟨r, hr.cons _, rfl⟩
      | _ => exact ⟨hsent, huser⟩
    · rw [publishedBy_ne ht, sentBy_ne ht, sessionPhase_ne ht]
      exact ⟨hsent, huser⟩
  · exact fun b _ hinv s' _ => hinv

theorem exampleService_quiet : exampleService.Quiet :=
  ⟨fun _ => rfl, fun _ => rfl, fun _ => rfl, fun _ => rfl, fun _ => rfl⟩

theorem exampleBroadcastRun_own : OwnWebsockets exampleBroadcastRun.trace := .of_starts (by decide +kernel)

/-- **Messages arrive in order, once, and at their own user.** In any run of any number of
processes, what a connection has received was published for its user, in the order of the
channel and each message once. Each session publishes for its own user, and what it publishes
are the valid messages of its client in the order they were sent, of which at most the last
is still to come. -/
theorem broadcasts_in_order (hs₀ : s₀.Quiet) (hown : OwnWebsockets c.trace) (h : Interleaved (.init s₀) c) {t : ℕ}
    {r : BroadcastRequest} (hr : Requested t r c.trace) :
    (c.state.received r.process r.websocket).Sublist
      (messagesFor J.toRealtimeJson r.currentUser.id ((publications c.trace).map (·.2))) ∧
    (∀ p ∈ publications c.trace, ∃ r', Requested p.1 r' c.trace ∧ p.2.userId = r'.currentUser.id) ∧
    (publishedBy t c.trace).map (·.event.content) <+: sentBy t c.trace ∧
    (sentBy t c.trace).length ≤ (publishedBy t c.trace).length + 1 := by
  have hflow := flow_published hs₀ h hown r.process r.currentUser.id r.websocket (hown.usedFor h hr)
  obtain ⟨hsent, -⟩ := published_sent h t
  refine ⟨(List.sublist_append_left _ _).trans hflow, fun p hp => ?_, ⟨_, hsent⟩, ?_⟩
  · have hmem : p.2 ∈ publishedBy p.1 c.trace :=
      List.mem_map.mpr ⟨p, List.mem_filter.mpr ⟨hp, decide_eq_true rfl⟩, rfl⟩
    exact (published_sent h p.1).2 p.2 hmem
  · have hpending : (sessionPhase t c.trace).content.toList.length ≤ 1 := by
      cases (sessionPhase t c.trace).content <;> simp
    have hlength := congrArg List.length hsent
    rw [List.length_append, List.length_map] at hlength
    omega

theorem broadcasts_in_order_example : (["hi"] : List String).Sublist
    (messagesFor exampleEnvelopeJson.toRealtimeJson 1 ((publications exampleBroadcastRun.trace).map (·.2))) := by
  have h := exampleBroadcastRun_interleaved
  have hreceived : exampleBroadcastRun.state.received 1 1 = ["hi"] := by decide +kernel
  obtain ⟨horder, -⟩ := broadcasts_in_order exampleService_quiet exampleBroadcastRun_own h
    ((Run.pool_trace h).1 1 _ _ rfl)
  rw [← hreceived]
  exact horder

/-! ### Without loss -/

theorem acknowledged_publish (s s' : RealtimeService) (t : ℕ) (channel message : String) (count : ℤ)
    (tr : List (BroadcastEvent J)) : acknowledged (⟨s, s', .call t (.publish channel message) (.ok count)⟩ :: tr) =
      acknowledged tr ++ (J.modelValidateJson message).toList := rfl

theorem acknowledged_call (s s' : RealtimeService) (t : ℕ) {x : BroadcastCall} (v : broadcastCalls.Out x)
    (tr : List (BroadcastEvent J)) (h : ∀ channel message, x ≠ .publish channel message) :
    acknowledged ((⟨s, s', .call t x v⟩ : BroadcastEvent J) :: tr) = acknowledged tr := by
  cases x with
  | publish channel message => exact absurd rfl (h channel message)
  | _ => rfl

section Registered

variable {v tr : List (BroadcastEvent J)} {s s' : RealtimeService} {t process : ℕ} {userId : ℤ} {websocket : WebSocket}
  {w : Except BroadcastExn Unit}

/-- Whose the websocket is that was registered. -/
theorem registered_request (h : Interleaved (.init s₀) c)
    (he : c.trace = v ++ ⟨s, s', .call t (.register process userId websocket) w⟩ :: tr) :
    ∃ r, Requested t r c.trace ∧ r.Connects process userId websocket := by
  obtain ⟨b, r, -, -, rfl, -, hr, -, ⟨-, -, rfl, rfl, rfl⟩, -⟩ := Run.made (broadcastDiscipline J) h he
  exact ⟨r, he ▸ (hr.cons _).append v, rfl, rfl, rfl⟩

theorem registered_usedFor (hown : OwnWebsockets c.trace) (h : Interleaved (.init s₀) c)
    (he : c.trace = v ++ ⟨s, s', .call t (.register process userId websocket) w⟩ :: tr) :
    UsedFor c.trace process userId websocket := by
  obtain ⟨r, hr, rfl, rfl, rfl⟩ := registered_request h he
  exact hown.usedFor h hr

/-- A websocket is registered once. -/
theorem registered_once (hown : OwnWebsockets c.trace) (h : Interleaved (.init s₀) c)
    (he : c.trace = v ++ ⟨s, s', .call t (.register process userId websocket) w⟩ :: tr) {t' : ℕ} {r : BroadcastRequest}
    (hr : Requested t' r c.trace) (hfresh : (sessionPhase t' c.trace).stage = .fresh) : r.websocket ≠ websocket := by
  intro heq
  obtain ⟨r', hr', rfl, rfl, rfl⟩ := registered_request h he
  obtain rfl := hown t' r t r' hr hr' heq
  have hstage : (sessionPhase t' c.trace).stage ≠ .fresh := by
    refine @phase_of_call _ _ sessionAutomaton t' (fun q => q.stage ≠ .fresh) (fun q x v hq => ?_) _ _
      (he ▸ List.mem_append_right v List.mem_cons_self) _ _ rfl fun q => by simp [SessionPhase.next]
    by_cases hregister : ∃ i u w, x = .register i u w
    · obtain ⟨i, u, w, rfl⟩ := hregister
      simp [SessionPhase.next]
    by_cases hdisconnect : ∃ i u w, x = .disconnect i u w
    · obtain ⟨i, u, w, rfl⟩ := hdisconnect
      simp [SessionPhase.next]
    have hsame := SessionPhase.next_stage q v (fun i u w h => hregister ⟨i, u, w, h⟩)
      fun i u w h => hdisconnect ⟨i, u, w, h⟩
    show (q.next x v).stage ≠ .fresh
    rw [hsame]
    exact hq
  exact hstage hfresh

end Registered

/-- While a subscription of the process stands and the connection is registered, all of the
messages are there for it. -/
structure Delivers (J : RealtimeJson) (messages : List String) (generation : ℕ) (userId : ℤ) (websocket : WebSocket)
    (p : RealtimeProcess) : Prop where
  generation_le : generation ≤ p.subscriber.subscriptionGeneration
  sublist : p.Intact generation → websocket ∈ p.broadcast.registry.get userId →
    messages.Sublist (p.flow J userId websocket)

namespace Delivers

variable {J : RealtimeJson} {messages : List String} {generation : ℕ} {userId : ℤ} {websocket : WebSocket}
  {p p' : RealtimeProcess}

theorem of_intact (h : p.Intact generation) : Delivers J [] generation userId websocket p where
  generation_le := h.generation.ge
  sublist _ _ := List.nil_sublist _

theorem mono {messages' : List String} (h : Delivers J messages generation userId websocket p)
    (hsub : messages'.Sublist messages) : Delivers J messages' generation userId websocket p where
  generation_le := h.generation_le
  sublist hnow hmem := hsub.trans (h.sublist hnow hmem)

theorem push (h : Delivers J messages generation userId websocket p)
    (hchannel : p.subscriber.channel = realtimeEventsChannel) (message : String) :
    Delivers J (messages ++ messagesFor J userId (J.modelValidateJson message).toList) generation userId websocket
      (p.push realtimeEventsChannel message) where
  generation_le := by
    rw [RealtimeProcess.push_subscriber]
    exact h.generation_le
  sublist hnow hmem := by
    rw [RealtimeProcess.push_broadcast] at hmem
    have hbefore := hnow.of_push
    rw [RealtimeProcess.flow_push hchannel, if_pos hbefore.subscribed]
    exact (h.sublist hbefore hmem).append (.refl _)

/-- A registry in which the connection is new to nobody. -/
theorem setRegistry (h : Delivers J messages generation userId websocket p) {registry : Registry}
    (hregistry : websocket ∈ registry.get userId → websocket ∈ p.broadcast.registry.get userId) :
    Delivers J messages generation userId websocket
      { p with broadcast := { p.broadcast with registry := registry } } where
  generation_le := h.generation_le
  sublist hnow hmem := h.sublist ⟨hnow.subscribed, hnow.generation, hnow.confirmed⟩ (hregistry hmem)

theorem step (h : Delivers J messages generation userId websocket p) (horderly : p.Orderly userId websocket)
    (hstep : RealtimeProcess.Step J p p') : Delivers J messages generation userId websocket p' where
  generation_le := h.generation_le.trans hstep.generation_le
  sublist hnow hmem := by
    rw [(hstep.flow horderly).2 hnow.subscribed hmem]
    exact h.sublist (hstep.intact h.generation_le hnow) (hstep.mem_registry horderly.nodup hmem)

end Delivers

/-- While the subscription that a process had when it registered a connection stands and the
connection is registered, there is all for it that has been published for its user since. -/
def DeliversSince (state : RealtimeService) (trace : List (BroadcastEvent J)) : Prop :=
  ∀ v s s' t process userId websocket w tr,
    trace = v ++ ⟨s, s', .call t (.register process userId websocket) w⟩ :: tr →
    ∀ generation, (s' process).Intact generation →
      Delivers J.toRealtimeJson (messagesFor J.toRealtimeJson userId (acknowledged v)) generation userId websocket
        (state process)

theorem flow_delivers (hs₀ : s₀.Quiet) (h : Interleaved (.init s₀) c) :
    OwnWebsockets c.trace → DeliversSince c.state c.trace := by
  refine @Run.invariant _ _ _ s₀ (broadcastDiscipline J)
    (fun state trace => OwnWebsockets trace → DeliversSince state trace) ?_ ?_ ?_ ?_ c h
  · intro _ v s s' t process userId websocket w tr he
    cases v <;> cases he
  · intro b hb hinv t₁ r _ hown v s s' t process userId websocket w tr he
    cases v with
    | nil => cases he
    | cons e v =>
      obtain ⟨rfl, htail⟩ := List.cons.inj he
      exact hinv hown.of_cons v s s' t process userId websocket w tr htail
  · intro b hb hinv t₁ r x y state _ hr ha hs hown v s s' t process userId websocket w tr he generation hat
    cases v with
    | nil =>
      -- nothing has been published since
      cases he
      exact .of_intact hat
    | cons e v =>
      obtain ⟨rfl, htail⟩ := List.cons.inj he
      have hbefore := hinv hown.of_cons v s s' t process userId websocket w tr htail generation hat
      have hprocess := processInv hs₀ hb hown.of_cons process
      by_cases hpublish : ∃ channel message, x = .publish channel message
      · obtain ⟨channel, message, rfl⟩ := hpublish
        obtain ⟨-, -, rfl, -⟩ := ha
        rcases hs with ⟨rfl, -⟩ | ⟨rfl, e, rfl, -⟩
        · have hpush := hbefore.push hprocess.channel message
          rcases y with e | count
          · exact hpush.mono (List.sublist_append_left _ _)
          · rw [acknowledged_publish, messagesFor_append]
            exact hpush
        · exact hbefore
      · have hnot : ∀ channel message, x ≠ .publish channel message := fun channel message h => hpublish ⟨_, _, h⟩
        rw [acknowledged_call _ _ _ _ _ hnot]
        obtain ⟨registry, heq, hregistry⟩ := process_call hs hnot process
        rw [heq]
        refine hbefore.setRegistry fun hmem => ?_
        -- the connection was registered before
        rcases hregistry with rfl | ⟨u, w', rfl, rfl⟩ | ⟨u, w', rfl⟩
        · exact hmem
        · rcases Registry.mem_get_connect.mp hmem with hmem | ⟨-, rfl⟩
          · exact hmem
          · obtain ⟨hfresh, -, -, -, rfl⟩ := ha
            exact absurd rfl (registered_once hown.of_cons hb htail hr hfresh)
        · exact ((Registry.mem_get_disconnect hprocess.nodup).mp hmem).1
  · rintro b hb hinv state ⟨i, p, hstep, rfl⟩ hown v s s' t process userId websocket w tr he generation hat
    have hbefore := hinv hown v s s' t process userId websocket w tr he generation hat
    by_cases hi : process = i
    · subst hi
      rw [Function.update_self]
      exact hbefore.step ((processInv hs₀ hb hown process).orderly (registered_usedFor hown hb he)) hstep
    · rw [Function.update_of_ne hi]
      exact hbefore

/-- **Nothing is lost while all stands.** If the subscription of its process still is the one
that the process had when it registered the connection, and the connection is registered, then
all that has been published for its user since is, in this order, what the connection has
received, what is being sent to it and what its subscriber has not read. When nothing is on its
way it has received it all. -/
theorem broadcasts_delivered (hs₀ : s₀.Quiet) (hown : OwnWebsockets c.trace) (h : Interleaved (.init s₀) c)
    {v tr : List (BroadcastEvent J)} {s s' : RealtimeService} {t process : ℕ} {userId : ℤ} {websocket : WebSocket}
    {w : Except BroadcastExn Unit}
    (he : c.trace = v ++ ⟨s, s', .call t (.register process userId websocket) w⟩ :: tr) {generation : ℕ}
    (hat : (s' process).Intact generation) (hnow : (c.state process).Intact generation)
    (hregistered : websocket ∈ (c.state process).broadcast.registry.get userId) :
    (messagesFor J.toRealtimeJson userId (acknowledged v)).Sublist
      (c.state.received process websocket ++ ((c.state process).sendingTo websocket ++
        (c.state process).unread J.toRealtimeJson userId)) ∧
    ((c.state process).broadcast.sending = [] → (c.state process).inbox = [] →
      (messagesFor J.toRealtimeJson userId (acknowledged v)).Sublist (c.state.received process websocket)) := by
  have hdelivers := flow_delivers hs₀ h hown v s s' t process userId websocket w tr he generation hat
  have hflow := hdelivers.sublist hnow hregistered
  refine ⟨hflow, fun hsending hinbox => ?_⟩
  have hreceived : (c.state process).flow J.toRealtimeJson userId websocket = c.state.received process websocket := by
    simp [RealtimeProcess.flow, RealtimeProcess.sendingTo, RealtimeProcess.unread, hsending, hinbox, messagesFor,
      RealtimeService.received]
  rwa [hreceived] at hflow

theorem broadcasts_delivered_example : ∃ v : List (BroadcastEvent exampleEnvelopeJson),
    messagesFor exampleEnvelopeJson.toRealtimeJson 1 (acknowledged v) = ["hi"] ∧
      (messagesFor exampleEnvelopeJson.toRealtimeJson 1 (acknowledged v)).Sublist (exampleBroadcastRun.state.received 1 1) := by
  obtain ⟨e₃, e₂, e₁, s, s', w, tr, he, hv, hat⟩ : ∃ e₃ e₂ e₁ s s' w tr, exampleBroadcastRun.trace =
      [e₃, e₂, e₁] ++ ⟨s, s', .call 1 (.register 1 1 1) w⟩ :: tr ∧
      messagesFor exampleEnvelopeJson.toRealtimeJson 1 (acknowledged [e₃, e₂, e₁]) = ["hi"] ∧ (s' 1).Intact 1 :=
    ⟨_, _, _, _, _, _, _, rfl, by decide +kernel, rfl, rfl, by decide +kernel⟩
  have hnow : (exampleBroadcastRun.state 1).Intact 1 := ⟨rfl, rfl, by decide +kernel⟩
  refine ⟨_, hv, (broadcasts_delivered exampleService_quiet exampleBroadcastRun_own exampleBroadcastRun_interleaved
    he hat hnow ?_).2 ?_ ?_⟩
  · decide +kernel
  · decide +kernel
  · decide +kernel

/-! ### The end of a session -/

theorem sessionPhase_closing (t : ℕ) (x : BroadcastCall) (v : broadcastCalls.Out x) (s s' : RealtimeService)
    (tr : List (BroadcastEvent J)) :
    (sessionPhase t ((⟨s, s', .call t x v⟩ : BroadcastEvent J) :: tr)).closing = closesWith x v := by
  rw [sessionPhase_self]
  rfl

/-- A close that is due is so by the latest call of the thread. -/
theorem closing_latest {t : ℕ} {reason : ℕ × String} : ∀ {tr : List (BroadcastEvent J)},
    (sessionPhase t tr).closing = some reason → ∃ u s s' x v tr', tr = u ++ ⟨s, s', .call t x v⟩ :: tr' ∧
      closesWith x v = some reason ∧ ∀ e ∈ u, ∀ y z, e.act ≠ .call t y z
  | ⟨s, s', .start t' r⟩ :: tr, h => by
    obtain ⟨u, s₁, s₂, x, v, tr', rfl, hcloses, hlast⟩ := @closing_latest t reason tr h
    refine ⟨_ :: u, s₁, s₂, x, v, tr', rfl, hcloses, fun e he y z => ?_⟩
    rcases List.mem_cons.mp he with rfl | he
    · simp
    · exact hlast e he y z
  | ⟨s, s', .call t' x v⟩ :: tr, h => by
    by_cases ht : t' = t
    · subst ht
      rw [sessionPhase_closing] at h
      exact ⟨[], s, s', x, v, tr, rfl, h, fun e he => by cases he⟩
    · rw [sessionPhase_ne ht] at h
      obtain ⟨u, s₁, s₂, x', v', tr', rfl, hcloses, hlast⟩ := closing_latest h
      refine ⟨_ :: u, s₁, s₂, x', v', tr', rfl, hcloses, fun e he y z => ?_⟩
      rcases List.mem_cons.mp he with rfl | he
      · exact fun heq => ht (congrArg Act.thread heq)
      · exact hlast e he y z

/-- The thread closes the connection for the reason. -/
def Closes (t : ℕ) (websocket : WebSocket) (reason : ℕ × String) (e : BroadcastEvent J) : Prop :=
  ∃ v, e.act = .call t (.close websocket reason.1 reason.2) v

/-- A close that became due has been made, or is due still. -/
theorem closed_or_due (h : Interleaved (.init s₀) c) : ∀ v s s' t x w tr reason,
    c.trace = v ++ ⟨s, s', .call t x w⟩ :: tr → closesWith x w = some reason →
      (∃ e ∈ v, ∃ websocket, Closes t websocket reason e) ∨ (sessionPhase t c.trace).closing = some reason := by
  refine @Run.invariant _ _ _ s₀ (broadcastDiscipline J)
    (fun _ trace => ∀ v s s' t x w tr reason, trace = v ++ ⟨s, s', .call t x w⟩ :: tr →
      closesWith x w = some reason → (∃ e ∈ v, ∃ websocket, Closes t websocket reason e) ∨
        (sessionPhase t trace).closing = some reason)
    ?_ ?_ ?_ ?_ c h
  · intro v s s' t x w tr reason he
    cases v <;> cases he
  · intro b _ hinv t₁ r _ v s s' t x w tr reason he hcloses
    cases v with
    | nil => cases he
    | cons e v =>
      obtain ⟨rfl, htail⟩ := List.cons.inj he
      rcases hinv v s s' t x w tr reason htail hcloses with ⟨e, hmem, hclose⟩ | hdue
      · exact .inl ⟨e, List.mem_cons_of_mem _ hmem, hclose⟩
      · exact .inr hdue
  · intro b _ hinv t₁ r y z state _ _ ha _ v s s' t x w tr reason he hcloses
    cases v with
    | nil =>
      cases he
      exact .inr ((sessionPhase_closing ..).trans hcloses)
    | cons e v =>
      obtain ⟨rfl, htail⟩ := List.cons.inj he
      rcases hinv v s s' t x w tr reason htail hcloses with ⟨e, hmem, hclose⟩ | hdue
      · exact .inl ⟨e, List.mem_cons_of_mem _ hmem, hclose⟩
      by_cases ht : t₁ = t
      · subst ht
        -- the only call that is allowed is the close
        have hclose : ∃ websocket, y = .close websocket reason.1 reason.2 := by
          have hnone : (sessionPhase t₁ b.trace).closing ≠ none := by simp [hdue]
          cases y with
          | close websocket code text =>
            have heq : (sessionPhase t₁ b.trace).closing = some (code, text) := ha.2.1
            rw [hdue] at heq
            cases heq
            exact ⟨websocket, rfl⟩
          | accept websocket => exact absurd ha.2.1 hnone
          | register i u w => exact absurd ha.2.1 hnone
          | receiveJson websocket => exact absurd ha.2.2.1 hnone
          | publish channel message => exact absurd ha.2.1 hnone
          | disconnect i u w => exact absurd ha.2.1 hnone
        obtain ⟨websocket, rfl⟩ := hclose
        exact .inl ⟨_, List.mem_cons_self, websocket, z, rfl⟩
      · rw [sessionPhase_ne ht]
        exact .inr hdue
  · exact fun b _ hinv s' _ => hinv

/-- A session closes its own connection, and only when that is due. -/
theorem closes_made (h : Interleaved (.init s₀) c) {t : ℕ} {r : BroadcastRequest} (hr : Requested t r c.trace)
    {v tr : List (BroadcastEvent J)} {e : BroadcastEvent J} (he : c.trace = v ++ e :: tr) {websocket : WebSocket}
    {reason : ℕ × String} (hcloses : Closes t websocket reason e) :
    websocket = r.websocket ∧ (sessionPhase t tr).closing = some reason := by
  obtain ⟨s, s', act⟩ := e
  obtain ⟨w, hact⟩ := hcloses
  obtain rfl : act = _ := hact
  obtain ⟨b, r', -, -, rfl, -, -, hunique, ⟨-, hdue, hwebsocket⟩, -⟩ := Run.made (broadcastDiscipline J) h he
  obtain rfl := hunique r hr
  exact ⟨hwebsocket, hdue⟩

/-- **However a session ends.** Its connection is registered nowhere any more. The server has
closed it with 1007 if a message was invalid and with 1013 if Redis failed. A session closes no
connection but its own, and only then, by the outcome of its call just before. -/
theorem session_ends (hs₀ : s₀.Quiet) (hown : OwnWebsockets c.trace) (h : Interleaved (.init s₀) c) {t : ℕ}
    {r : BroadcastRequest} (hr : Requested t r c.trace) {x : Except BroadcastExn Unit} (hx : c.result t = some x) :
    (∀ process userId, r.websocket ∉ (c.state process).broadcast.registry.get userId) ∧
    (∀ v s s' y w tr reason, c.trace = v ++ ⟨s, s', .call t y w⟩ :: tr → closesWith y w = some reason →
      ∃ e ∈ v, Closes t r.websocket reason e) ∧
    ∀ v e tr websocket reason, c.trace = v ++ e :: tr → Closes t websocket reason e →
      websocket = r.websocket ∧ ∃ u s s' y w tr', tr = u ++ ⟨s, s', .call t y w⟩ :: tr' ∧ closesWith y w = some reason ∧
        ∀ e ∈ u, ∀ y w, e.act ≠ .call t y w := by
  have hends : BroadcastRequest.Ends (sessionPhase t c.trace) x := Run.final (broadcastDiscipline J) h hr hx
  refine ⟨fun process userId hmem => ?_, fun v s s' y w tr reason he hcloses => ?_, ?_⟩
  · obtain ⟨t', r', hr', ⟨-, -, hwebsocket⟩, hregistered⟩ := (processInv hs₀ h hown process).registered userId _ hmem
    obtain rfl := hown t' r' t r hr' hr hwebsocket
    rcases hends.2 with hstage | ⟨hstage, -⟩
    · rw [hstage] at hregistered
      cases hregistered
    · rw [hstage] at hregistered
      cases hregistered
  · rcases closed_or_due h v s s' t y w tr reason he hcloses with ⟨e, hmem, websocket, hclose⟩ | hdue
    · obtain ⟨v₁, v₂, rfl⟩ := List.append_of_mem hmem
      obtain ⟨rfl, -⟩ := closes_made h hr (by simpa using he) hclose
      exact ⟨e, hmem, hclose⟩
    · rw [hends.1] at hdue
      cases hdue
  · intro v e tr websocket reason he hcloses
    obtain ⟨hwebsocket, hdue⟩ := closes_made h hr he hcloses
    exact ⟨hwebsocket, closing_latest hdue⟩

/-- Clients send "hi" on connection 0 and no JSON on the others, and Redis takes no message. -/
def RealtimeService.refuse : (c : BroadcastCall) → RealtimeService → broadcastCalls.Out c × RealtimeService
  | .receiveJson 0, s => (.ok (.object [("content", .string "hi")]), s)
  | .receiveJson _, s => (.error .jsonDecodeError, s)
  | .publish .., s => (.error .redisError, s)
  | c, s => s.serve c

theorem RealtimeService.step_refuse (c : BroadcastCall) (s : RealtimeService) :
    step c s (s.refuse c).1 (s.refuse c).2 := by
  cases c with
  | receiveJson websocket =>
    cases websocket with
    | zero => exact ⟨rfl, fun e h => by cases h⟩
    | succ n => exact ⟨rfl, fun e h => .inr (by cases h; rfl)⟩
  | publish channel message => exact .inr ⟨rfl, _, rfl, .inl rfl⟩
  | _ => exact step_serve _ s

/-- A session whose message Redis did not take, and one whose client sent no JSON. -/
def exampleClosed : Config (broadcastSystem exampleEnvelopeJson) :=
  (Config.init exampleService).schedule (fun (c : BroadcastCall) (s : RealtimeService) => s.refuse c)
    [.start 0 ⟨0, ⟨1, true⟩, 0, 1⟩, .call 0, .call 0, .start 1 ⟨1, ⟨2, true⟩, 1, 1⟩, .call 1, .call 1, .call 0, .call 1,
      .call 0, .call 1, .call 0, .call 1, .call 0]

theorem exampleClosed_own : OwnWebsockets exampleClosed.trace := .of_starts (by decide +kernel)

theorem session_ends_example :
    (∃ e ∈ exampleClosed.trace, Closes 0 0 (1013, "Realtime service unavailable") e) ∧
    (∃ e ∈ exampleClosed.trace, Closes 1 1 (1007, "Invalid message payload") e) ∧
    0 ∉ (exampleClosed.state 0).broadcast.registry.get 1 := by
  have h : Interleaved (.init exampleService) exampleClosed := Interleaved.schedule RealtimeService.step_refuse _ _
  have hx₀ : exampleClosed.result 0 = some (.ok ()) := by decide +kernel
  have hx₁ : exampleClosed.result 1 = some (.ok ()) := by decide +kernel
  obtain ⟨hnowhere, hfailed, -⟩ := session_ends exampleService_quiet exampleClosed_own h
    ((Run.pool_trace h).1 0 _ _ rfl) hx₀
  obtain ⟨-, hinvalid, -⟩ := session_ends exampleService_quiet exampleClosed_own h
    ((Run.pool_trace h).1 1 _ _ rfl) hx₁
  obtain ⟨v₀, s₀, s₀', y₀, w₀, tr₀, he₀, hdue₀⟩ : ∃ v s s' y w tr,
      exampleClosed.trace = v ++ ⟨s, s', .call 0 y w⟩ :: tr ∧
        closesWith y w = some (1013, "Realtime service unavailable") :=
    ⟨[_, _, _, _], _, _, _, _, _, rfl, rfl⟩
  obtain ⟨v₁, s₁, s₁', y₁, w₁, tr₁, he₁, hdue₁⟩ : ∃ v s s' y w tr,
      exampleClosed.trace = v ++ ⟨s, s', .call 1 y w⟩ :: tr ∧
        closesWith y w = some (1007, "Invalid message payload") :=
    ⟨[_, _, _, _, _], _, _, _, _, _, rfl, rfl⟩
  obtain ⟨e₀, hmem₀, hclose₀⟩ := hfailed _ _ _ _ _ _ _ he₀ hdue₀
  obtain ⟨e₁, hmem₁, hclose₁⟩ := hinvalid _ _ _ _ _ _ _ he₁ hdue₁
  exact ⟨⟨e₀, he₀ ▸ List.mem_append_left _ hmem₀, hclose₀⟩, ⟨e₁, he₁ ▸ List.mem_append_left _ hmem₁, hclose₁⟩,
    hnowhere 0 1⟩

end Runs

end TaskApi
