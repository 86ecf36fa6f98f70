/-
# What a connection receives

The subscriber and the connections of `ConnectionManager` over a whole history,
in which every send succeeds or meets a closed connection: the loop goes on, and
what a connection has received are the events for its user read while it was
registered, in the order of the channel (`delivered`).

Key definitions: `envelopeOf`, `registered`, `delivered`.
Key theorems: `listenItem_delivers`, `registered_iff`, `events_delivered`.
-/
import TaskApi.RealtimeSubscriber

namespace TaskApi

/-- The envelope that an item of the subscription carries, if it is a message with
a valid one. -/
def envelopeOf (J : RealtimeJson) (channel : String) (m : PubSubMessage) : Option UserRealtimeEventEnvelope :=
  if m.isConfirmation channel then none
  else if !m.type.isText "message" then none
  else m.data.text.bind J.modelValidateJson

section

variable (J : RealtimeJson) (channel : String)

/-- The connection is registered under the user after a history: it has been
connected, and since then neither disconnected nor found closed by a send. -/
def registered (userId : ℤ) (websocket : WebSocket) : List SubscriberEvent → Bool
  | [] => false
  | .item m outcome _ :: h =>
    registered userId websocket h &&
      !decide ((envelopeOf J channel m).map (·.userId) = some userId ∧ outcome websocket = .webSocketDisconnect)
  | .connects userId' websocket' :: h =>
    registered userId websocket h || decide (userId' = userId ∧ websocket' = websocket)
  | .disconnects userId' websocket' :: h =>
    registered userId websocket h && !decide (userId' = userId ∧ websocket' = websocket)
  | _ :: h => registered userId websocket h

/-- The events for the user read while the connection was registered under it, as
they were sent, oldest first. -/
def delivered (userId : ℤ) (websocket : WebSocket) : List SubscriberEvent → List String
  | [] => []
  | .item m outcome _ :: h =>
    match envelopeOf J channel m with
    | some envelope =>
      if envelope.userId = userId ∧ registered J channel userId websocket h ∧ outcome websocket = .success then
        delivered userId websocket h ++ [J.modelDumpJson envelope.event]
      else delivered userId websocket h
    | none => delivered userId websocket h
  | _ :: h => delivered userId websocket h

end

open ListenerState

section

variable {J : RealtimeJson} {channel : String} {s s' : ListenerState} {m : PubSubMessage}
  {outcome : WebSocket → SendOutcome} {completion : CompletionOrder}

theorem handleData_none {data : PubSubValue} {r : RealtimeState} (h : data.text.bind J.modelValidateJson = none) :
    handleData J data outcome completion r = (.ok false, r) := by
  unfold handleData handle
  cases htext : data.text with
  | none => rfl
  | some serializedEvent =>
    rw [htext, Option.bind_some] at h
    simp only [h]

theorem handleData_some {data : PubSubValue} {r : RealtimeState} {envelope : UserRealtimeEventEnvelope}
    (h : data.text.bind J.modelValidateJson = some envelope) :
    handleData J data outcome completion r =
      ((broadcastToUser outcome envelope.userId (J.modelDumpJson envelope.event) completion r).1.map fun _ => true,
        (broadcastToUser outcome envelope.userId (J.modelDumpJson envelope.event) completion r).2) := by
  obtain ⟨serializedEvent, htext, hvalid⟩ := Option.bind_eq_some_iff.mp h
  unfold handleData handle
  simp only [htext, hvalid]

/-- An item without a valid envelope is ignored, and the loop goes on. -/
theorem listenItem_ignored (hchannel : s.subscriber.channel = channel) (henvelope : envelopeOf J channel m = none) :
    (listenItem J m outcome completion s).1 = none ∧
      (listenItem J m outcome completion s).2.realtime = s.realtime := by
  unfold envelopeOf at henvelope
  unfold listenItem
  rw [hchannel]
  split_ifs at henvelope ⊢ with hconfirmation hmessage
  · exact ⟨rfl, rfl⟩
  · exact ⟨rfl, rfl⟩
  · split
    · exact ⟨rfl, rfl⟩
    · exact ⟨rfl, rfl⟩
    · rw [handleData_none henvelope]
      exact ⟨rfl, rfl⟩

/-- An item with a valid envelope is broadcast to its user; the loop goes on if
the broadcast returns. -/
theorem listenItem_delivers (hchannel : s.subscriber.channel = channel) {envelope : UserRealtimeEventEnvelope}
    (henvelope : envelopeOf J channel m = some envelope)
    (hok : (broadcastToUser outcome envelope.userId (J.modelDumpJson envelope.event) completion s.realtime).1 =
      .ok ()) :
    (listenItem J m outcome completion s).1 = none ∧
      (listenItem J m outcome completion s).2.realtime =
        (broadcastToUser outcome envelope.userId (J.modelDumpJson envelope.event) completion s.realtime).2 := by
  unfold envelopeOf at henvelope
  split_ifs at henvelope with hconfirmation hmessage
  unfold listenItem
  rw [hchannel, if_neg hconfirmation, if_neg hmessage]
  split
  · next hdata =>
    rw [hdata] at henvelope
    cases henvelope
  · next hdata =>
    rw [hdata] at henvelope
    cases henvelope
  · rw [handleData_some henvelope, hok]
    exact ⟨rfl, rfl⟩

/-! ### Every run -/

/-- No send raises anything but `WebSocketDisconnect`. -/
def Completes (outcome : WebSocket → SendOutcome) : Prop := ∀ w error, outcome w ≠ .raised error

theorem Completes.returns (h : Completes outcome) (completion : CompletionOrder) (userId : ℤ) (message : String)
    (r : RealtimeState) :
    (broadcastToUser outcome userId message completion r).1 = .ok () := by
  refine broadcastToUser_returns_iff.mpr fun connection _ => ?_
  cases houtcome : outcome connection with
  | raised error => exact absurd houtcome (h connection error)
  | _ => rfl

/-- If the sends complete, the session goes on after an item. -/
theorem step_item_completes (hstep : s.step J (.item m outcome completion) = some s') (hsends : Completes outcome) :
    s'.control = .listening ∧ s' = (listenItem J m outcome completion s).2 := by
  have hnone : (listenItem J m outcome completion s).1 = none := by
    cases henvelope : envelopeOf J s.subscriber.channel m with
    | none => exact (listenItem_ignored rfl henvelope).1
    | some envelope => exact (listenItem_delivers rfl henvelope (hsends.returns _ _ _ _)).1
  obtain ⟨hlistening, ⟨-, rfl⟩ | ⟨error, hraised, -⟩⟩ := step_item hstep
  · exact ⟨(listenItem_subscriber J m outcome completion s).1.trans hlistening, rfl⟩
  · rw [hnone] at hraised
    cases hraised

/-- The end of a session leaves the connections and what they have received. -/
theorem realtime_sessionEnds {error : Option ListenError} {jitter : ℚ → ℚ → ℚ}
    (hstep : s.step J (.sessionEnds error jitter) = some s') : s'.realtime = s.realtime := by
  rw [(step_sessionEnds hstep).2]
  exact (endSession_subscriber s error jitter).2.2.2.2.1

variable {s₀ : ListenerState} {h : List SubscriberEvent}

/-- Every send of the history completes. -/
def AllComplete (h : List SubscriberEvent) : Prop :=
  ∀ m outcome completion, .item m outcome completion ∈ h → Completes outcome

theorem AllComplete.of_cons {event : SubscriberEvent} (hsends : AllComplete (event :: h)) : AllComplete h :=
  fun m outcome completion hmem => hsends m outcome completion (List.mem_cons_of_mem _ hmem)

theorem AllComplete.head (hsends : AllComplete (.item m outcome completion :: h)) : Completes outcome :=
  hsends m outcome completion List.mem_cons_self

/-- The registry holds the connections that are registered after the history. -/
theorem registered_iff (hstart : Starts channel s₀) (hempty : s₀.realtime.manager = .empty) (userId : ℤ)
    (w : WebSocket) :
    ∀ {h : List SubscriberEvent} {s : ListenerState}, s₀.after J h = some s → AllComplete h →
      (w ∈ s.realtime.manager.connections userId ↔ registered J channel userId w h = true)
  | [], s, hs, _ => by
    cases hs
    rw [hempty]
    exact iff_of_false List.not_mem_nil Bool.false_ne_true
  | event :: h, s, hs, hsends => by
    obtain ⟨s', hs', hstep⟩ := Option.bind_eq_some_iff.mp hs
    have hchannel := (generation_eq hstart hs').1
    have ih := registered_iff hstart hempty userId w hs' hsends.of_cons
    cases event with
    | item m outcome completion =>
      obtain ⟨-, rfl⟩ := step_item_completes hstep hsends.head
      cases henvelope : envelopeOf J channel m with
      | none =>
        rw [(listenItem_ignored hchannel henvelope).2, ih]
        simp [registered, henvelope]
      | some envelope =>
        have hok := hsends.head.returns completion envelope.userId
          (J.modelDumpJson envelope.event) s'.realtime
        rw [(listenItem_delivers hchannel henvelope hok).2, mem_broadcastToUser hok, ih]
        simp [registered, henvelope, imp_iff_not_or]
    | sessionEnds error jitter =>
      rw [realtime_sessionEnds hstep, ih]
      rfl
    | slept =>
      rw [(step_slept hstep).2]
      exact ih
    | connects userId' websocket' =>
      obtain ⟨hnew, rfl⟩ := step_connects hstep
      rw [ConnectionManager.mem_connect, ih]
      simp [registered]
    | disconnects userId' websocket' =>
      rw [step_disconnects hstep, ConnectionManager.mem_disconnect, ih]
      simp [registered, imp_iff_not_or]

/-- A connection that was only ever connected under one user is registered under no other. -/
theorem registered_of_connects {userId userId' : ℤ} {w : WebSocket} : ∀ {h : List SubscriberEvent},
    (∀ u, .connects u w ∈ h → u = userId) → registered J channel userId' w h = true → userId' = userId
  | .item m outcome completion :: h, howner, hregistered => by
    simp only [registered, Bool.and_eq_true] at hregistered
    exact registered_of_connects (fun u hu => howner u (List.mem_cons_of_mem _ hu)) hregistered.1
  | .sessionEnds error jitter :: h, howner, hregistered =>
    registered_of_connects (fun u hu => howner u (List.mem_cons_of_mem _ hu)) hregistered
  | .slept :: h, howner, hregistered =>
    registered_of_connects (fun u hu => howner u (List.mem_cons_of_mem _ hu)) hregistered
  | .connects u' w' :: h, howner, hregistered => by
    simp only [registered, Bool.or_eq_true, decide_eq_true_eq] at hregistered
    rcases hregistered with hregistered | ⟨rfl, rfl⟩
    · exact registered_of_connects (fun u hu => howner u (List.mem_cons_of_mem _ hu)) hregistered
    · exact howner _ List.mem_cons_self
  | .disconnects u' w' :: h, howner, hregistered => by
    simp only [registered, Bool.and_eq_true] at hregistered
    exact registered_of_connects (fun u hu => howner u (List.mem_cons_of_mem _ hu)) hregistered.1

/-- What a connection has received: an item's event once, when it is registered
under the user of its envelope and the send succeeds. -/
theorem received_eq (hstart : Starts channel s₀) (hempty : s₀.realtime = ⟨.empty, fun _ => []⟩) {userId : ℤ}
    {w : WebSocket} : ∀ {h : List SubscriberEvent} {s : ListenerState}, s₀.after J h = some s → AllComplete h →
      (∀ u, .connects u w ∈ h → u = userId) → s.realtime.received w = delivered J channel userId w h
  | [], s, hs, _, _ => by
    cases hs
    rw [hempty]
    rfl
  | event :: h, s, hs, hsends, howner => by
    obtain ⟨s', hs', hstep⟩ := Option.bind_eq_some_iff.mp hs
    have hchannel := (generation_eq hstart hs').1
    have howner' : ∀ u, .connects u w ∈ h → u = userId := fun u hu => howner u (List.mem_cons_of_mem _ hu)
    have ih := received_eq hstart hempty hs' hsends.of_cons howner'
    cases event with
    | item m outcome completion =>
      obtain ⟨-, rfl⟩ := step_item_completes hstep hsends.head
      cases henvelope : envelopeOf J channel m with
      | none =>
        rw [(listenItem_ignored hchannel henvelope).2, ih]
        simp [delivered, henvelope]
      | some envelope =>
        have hok := hsends.head.returns completion envelope.userId
          (J.modelDumpJson envelope.event) s'.realtime
        have hmem := registered_iff hstart (congrArg _ hempty) envelope.userId w hs' hsends.of_cons
        rw [(listenItem_delivers hchannel henvelope hok).2, broadcastToUser_received hok, ih]
        simp only [hmem]
        by_cases huser : envelope.userId = userId
        · simp [delivered, henvelope, huser]
        · -- the connection of another user is not registered under this one
          have hnot : ¬ registered J channel envelope.userId w h = true := fun h =>
            huser (registered_of_connects howner' h)
          simp [delivered, henvelope, huser, hnot]
    | sessionEnds error jitter =>
      rw [realtime_sessionEnds hstep, ih]
      rfl
    | slept =>
      rw [(step_slept hstep).2]
      exact ih
    | connects userId' websocket' =>
      obtain ⟨hnew, rfl⟩ := step_connects hstep
      exact ih
    | disconnects userId' websocket' =>
      rw [step_disconnects hstep]
      exact ih

end

/-- **Delivery.** Over every history from the start in which each send succeeds or
meets a closed connection: no item stops the loop, and a connection of one user
has received exactly the events for that user that were read while it was
registered, in their order, each once. -/
theorem events_delivered (J : RealtimeJson) {channel : String}
    {reconnectDelaySeconds maximumReconnectDelaySeconds : ℚ} {subscriber : RedisRealtimeEventSubscriber}
    (hinit : RedisRealtimeEventSubscriber.init channel reconnectDelaySeconds maximumReconnectDelaySeconds =
      .ok subscriber)
    {h : List SubscriberEvent} {s : ListenerState}
    (hs : (⟨subscriber, .listening, ⟨.empty, fun _ => []⟩⟩ : ListenerState).after J h = some s)
    (hsends : ∀ m outcome completion, .item m outcome completion ∈ h →
      ∀ w error, outcome w ≠ SendOutcome.raised error) :
    (∀ m outcome completion v, h = .item m outcome completion :: v → s.control = .listening) ∧
      (∀ userId w, w ∈ s.realtime.manager.connections userId ↔ registered J channel userId w h = true) ∧
      ∀ userId w, (∀ u, .connects u w ∈ h → u = userId) →
        s.realtime.received w = delivered J channel userId w h := by
  have hstart := init_starts hinit ⟨.empty, fun _ => []⟩
  refine ⟨?_, fun userId w => registered_iff hstart rfl userId w hs hsends,
    fun userId w howner => received_eq hstart rfl hs hsends howner⟩
  rintro m outcome completion v rfl
  obtain ⟨s', -, hstep⟩ := Option.bind_eq_some_iff.mp hs
  exact (step_item_completes hstep (hsends m outcome completion List.mem_cons_self)).1

/-- Messages to user 7: one that arrives, an invalid one, and one whose send finds
connection 0 closed. -/
def exampleChannel : List SubscriberEvent :=
  [.item ⟨.str "message", .str realtimeEventsChannel, .str exampleEvent⟩ (fun _ => .webSocketDisconnect) .started,
    .item ⟨.str "message", .str realtimeEventsChannel, .bytes "no event".toUTF8⟩ (fun _ => .success) .started,
    .item ⟨.str "message", .str realtimeEventsChannel, .str exampleEvent⟩ (fun _ => .success) .started,
    .connects 7 0, .item exampleConfirmation (fun _ => .success) .started]

theorem events_delivered_closed :
    ∃ s, (⟨exampleSubscriber, .listening, ⟨.empty, fun _ => []⟩⟩ : ListenerState).after exampleRealtimeJson
        exampleChannel = some s ∧ s.control = .listening ∧
      s.realtime.received 0 = delivered exampleRealtimeJson realtimeEventsChannel 7 0 exampleChannel ∧
      delivered exampleRealtimeJson realtimeEventsChannel 7 0 exampleChannel =
        [exampleRealtimeJson.modelDumpJson ⟨"hi"⟩] := by
  have hpossible : ((⟨exampleSubscriber, .listening, ⟨.empty, fun _ => []⟩⟩ : ListenerState).after
      exampleRealtimeJson exampleChannel).isSome = true := by decide +kernel
  have hdelivered : delivered exampleRealtimeJson realtimeEventsChannel 7 0 exampleChannel =
      [exampleRealtimeJson.modelDumpJson ⟨"hi"⟩] := by decide +kernel
  obtain ⟨s, hs⟩ := Option.isSome_iff_exists.mp hpossible
  have hsends : ∀ m outcome completion, .item m outcome completion ∈ exampleChannel →
      ∀ w error, outcome w ≠ SendOutcome.raised error := fun m outcome completion hmem w error => by
    simp only [exampleChannel, List.mem_cons, SubscriberEvent.item.injEq, List.not_mem_nil, reduceCtorEq,
      or_false, false_or] at hmem
    rcases hmem with ⟨-, rfl, -⟩ | ⟨-, rfl, -⟩ | ⟨-, rfl, -⟩ | ⟨-, rfl, -⟩ <;> simp
  obtain ⟨hlistening, -, hreceived⟩ := events_delivered exampleRealtimeJson exampleSubscriber_init hs hsends
  exact ⟨s, hs, hlistening _ _ _ _ rfl, hreceived 7 0 (by simp [exampleChannel]), hdelivered⟩

end TaskApi
