/-
# The subscriber

`realtime_broker.py` and `reconnect_backoff.py`: `listen` runs one session after
another, each a loop over the items of a subscription, and waits in between. How
a session ends, what a send comes back with and what the jitter draws is decided
outside and comes with the events (`SubscriberEvent`); connections come and go
at any time. A history is what has happened, newest first.

Key definitions: `ReconnectBackoff`, `RedisRealtimeEventSubscriber`, `listenItem`,
`endSession`, `ListenerState.step`, `ListenerState.after`.
Key theorems: `step_cases`, `generation_eq`, `subscribed_iff`, `ended_iff`, `waits_between`,
`subscriber_ready`.
-/
import TaskApi.ConnectionManager

namespace TaskApi

/-! ### The backoff -/

/-- `ReconnectBackoff`; the next delay stays between its bounds. -/
structure ReconnectBackoff where
  initialDelay : ℚ
  maximumDelay : ℚ
  next : ℚ
  initial_pos : 0 < initialDelay
  initial_le_next : initialDelay ≤ next
  next_le_maximum : next ≤ maximumDelay

namespace ReconnectBackoff

theorem initial_le_doubled (b : ReconnectBackoff) : b.initialDelay ≤ min (b.next * 2) b.maximumDelay := by
  have h1 := b.initial_pos
  have h2 := b.initial_le_next
  exact le_min (by linarith) (h2.trans b.next_le_maximum)

theorem doubled_le_maximum (b : ReconnectBackoff) : min (b.next * 2) b.maximumDelay ≤ b.maximumDelay :=
  min_le_right _ _

theorem le_self (delay : ℚ) : delay ≤ delay := le_rfl

theorem initial_le_maximum (b : ReconnectBackoff) : b.initialDelay ≤ b.maximumDelay :=
  b.initial_le_next.trans b.next_le_maximum

/-- `next_delay` -/
def nextDelay (b : ReconnectBackoff) : ℚ × ReconnectBackoff :=
  (b.next, ⟨b.initialDelay, b.maximumDelay, min (b.next * 2) b.maximumDelay, b.initial_pos,
    b.initial_le_doubled, b.doubled_le_maximum⟩)

def reset (b : ReconnectBackoff) : ReconnectBackoff :=
  ⟨b.initialDelay, b.maximumDelay, b.initialDelay, b.initial_pos, le_self b.initialDelay, b.initial_le_maximum⟩

theorem pos_of_not_le {delay : ℚ} (h : ¬ delay ≤ 0) : 0 < delay := lt_of_not_ge h
theorem le_of_not_lt {initialDelay maximumDelay : ℚ} (h : ¬ maximumDelay < initialDelay) :
    initialDelay ≤ maximumDelay := le_of_not_gt h

/-- `__init__`; the error is the message of its `ValueError`. -/
def init (initialDelay maximumDelay : ℚ) : Except String ReconnectBackoff :=
  if hinitial : initialDelay ≤ 0 then .error "initial_delay must be positive"
  else if hmaximum : maximumDelay < initialDelay then .error "maximum_delay must be at least initial_delay"
  else .ok ⟨initialDelay, maximumDelay, initialDelay, pos_of_not_le hinitial, le_self initialDelay,
    le_of_not_lt hmaximum⟩

end ReconnectBackoff

/-! ### Items of a subscription -/

/-- A value in an item: redis-py gives text or bytes, a number, or nothing. -/
inductive PubSubValue where
  | none
  | str (s : String)
  | bytes (b : ByteArray)
  | int (n : ℤ)
deriving DecidableEq

/-- `value in (s, s.encode("utf-8"))` -/
def PubSubValue.isText (value : PubSubValue) (s : String) : Bool :=
  decide (value = .str s ∨ value = .bytes s.toUTF8)

/-- An item of `pubsub.listen()`. -/
structure PubSubMessage where
  type : PubSubValue
  channel : PubSubValue
  data : PubSubValue
deriving DecidableEq

/-- The item confirms the subscription to the channel. -/
def PubSubMessage.isConfirmation (m : PubSubMessage) (channel : String) : Bool :=
  m.type.isText "subscribe" && m.channel.isText channel

/-- The text of a value, if it has one: bytes that are not UTF-8 are not JSON. -/
def PubSubValue.text : PubSubValue → Option String
  | .str s => some s
  | .bytes b => String.fromUTF8? b
  | _ => Option.none

/-- The exceptions that can leave a session: of Redis, of a send to a client, or
any other. -/
inductive ListenError where
  | authenticationError
  | authorizationError
  | connectionError
  | timeoutError
  | exceptionGroup (errors : List SendError)
  | other (description : String)
deriving DecidableEq

/-- An instance of Redis' `ConnectionError`, of which the first two are subclasses. -/
def ListenError.isConnectionError : ListenError → Bool
  | .authenticationError | .authorizationError | .connectionError => true
  | _ => false

/-! ### The subscriber -/

structure RedisRealtimeEventSubscriber where
  channel : String
  backoff : ReconnectBackoff
  isSubscribed : Bool := false
  hasSubscribedOnce : Bool := false
  subscriptionGeneration : ℕ := 0

/-- `__init__`; the error is the message of its `ValueError`. -/
def RedisRealtimeEventSubscriber.init (channel : String) (reconnectDelaySeconds maximumReconnectDelaySeconds : ℚ) :
    Except String RedisRealtimeEventSubscriber :=
  if channel = "" then .error "channel cannot be empty"
  else (ReconnectBackoff.init reconnectDelaySeconds maximumReconnectDelaySeconds).map fun backoff =>
    { channel := channel, backoff := backoff }

/-- Where `listen` is: in a session, in the wait between two, or over. -/
inductive ListenControl where
  | listening
  | waiting (delay : ℚ)
  | ended (error : ListenError)
deriving DecidableEq

/-- The subscriber, `listen`, and the connections its events go to. -/
structure ListenerState where
  subscriber : RedisRealtimeEventSubscriber
  control : ListenControl
  realtime : RealtimeState

/-- What can happen. An item comes with how the sends it leads to end, the end of
a session with what was raised, if anything, and with the jitter. -/
inductive SubscriberEvent where
  | item (message : PubSubMessage) (outcome : WebSocket → SendOutcome) (completion : CompletionOrder)
  | sessionEnds (error : Option ListenError) (jitter : ℚ → ℚ → ℚ)
  | slept
  | connects (userId : ℤ) (websocket : WebSocket)
  | disconnects (userId : ℤ) (websocket : WebSocket)

namespace SubscriberEvent

/-- The event is a confirmation for the channel. -/
def confirms (channel : String) : SubscriberEvent → Bool
  | .item m _ _ => m.isConfirmation channel
  | _ => false

def isSlept : SubscriberEvent → Bool
  | .slept => true
  | _ => false

def endsSession : SubscriberEvent → Bool
  | .sessionEnds .. => true
  | _ => false

end SubscriberEvent

/-- The number of confirmations for the channel in a history. -/
def confirmations (channel : String) (h : List SubscriberEvent) : ℕ := h.countP (·.confirms channel)

theorem confirmations_cons_of_confirms {channel : String} {event : SubscriberEvent} {h : List SubscriberEvent}
    (hevent : event.confirms channel = true) : confirmations channel (event :: h) = confirmations channel h + 1 :=
  List.countP_cons_of_pos hevent

theorem confirmations_cons_of_not {channel : String} {event : SubscriberEvent} {h : List SubscriberEvent}
    (hevent : event.confirms channel = false) : confirmations channel (event :: h) = confirmations channel h :=
  List.countP_cons_of_neg (by simp [hevent])

namespace ListenerState

/-- What leaves the `except` clauses of `listen`. -/
def raises (s : ListenerState) : Option ListenError → Option ListenError
  | none => none
  | some error =>
    if error = .authenticationError ∨ error = .authorizationError then some error
    else if error.isConnectionError ∨ error = .timeoutError then
      if !s.subscriber.hasSubscribedOnce then some error else none
    else some error

/-- How `listen` goes on at a session's end: the `except` clauses, the `finally`
block, and, unless an exception leaves them, the wait. -/
def endSession (s : ListenerState) (error : Option ListenError) (jitter : ℚ → ℚ → ℚ) : ListenerState :=
  let subscriber := { s.subscriber with isSubscribed := false }
  match s.raises error with
  | some error => { s with subscriber := subscriber, control := .ended error }
  | none =>
    let (maximumDelay, backoff) := subscriber.backoff.nextDelay
    { s with subscriber := { subscriber with backoff := backoff }, control := .waiting (jitter 0 maximumDelay) }

/-- `RealtimeEventHandler.handle` on text or bytes. -/
def handleData (J : RealtimeJson) (data : PubSubValue) (outcome : WebSocket → SendOutcome)
    (completion : CompletionOrder) (s : RealtimeState) : Except (List SendError) Bool × RealtimeState :=
  match data.text with
  | none => (.ok false, s)
  | some serializedEvent => handle J outcome completion serializedEvent s

/-- The loop body of `_listen_once`, with what it raises. -/
def listenItem (J : RealtimeJson) (m : PubSubMessage) (outcome : WebSocket → SendOutcome)
    (completion : CompletionOrder) (s : ListenerState) : Option ListenError × ListenerState :=
  if m.isConfirmation s.subscriber.channel then
    (none, { s with subscriber :=
      { s.subscriber with
        backoff := s.subscriber.backoff.reset
        hasSubscribedOnce := true
        subscriptionGeneration := s.subscriber.subscriptionGeneration + 1
        isSubscribed := true } })
  else if !m.type.isText "message" then (none, s)
  else
    match m.data with
    | .none | .int _ => (none, s)
    | data =>
      let (result, realtime) := handleData J data outcome completion s.realtime
      match result with
      | .ok _ => (none, { s with realtime := realtime })
      | .error errors => (some (.exceptionGroup errors), { s with realtime := realtime })

/-- One step, where it is possible. -/
def step (J : RealtimeJson) (s : ListenerState) : SubscriberEvent → Option ListenerState
  | .item m outcome completion =>
    if s.control = .listening then
      match listenItem J m outcome completion s with
      | (none, s') => some s'
      -- an exception group is no error of Redis, and no jitter is drawn for it
      | (some error, s') => some (s'.endSession (some error) fun _ maximumDelay => maximumDelay)
    else none
  | .sessionEnds error jitter => if s.control = .listening then some (s.endSession error jitter) else none
  | .slept =>
    match s.control with
    | .waiting _ => some { s with control := .listening }
    | _ => none
  | .connects userId websocket =>
    if hnew : websocket ∉ s.realtime.manager.connections userId then
      some { s with realtime := { s.realtime with manager := s.realtime.manager.connect userId websocket hnew } }
    else none
  | .disconnects userId websocket =>
    some { s with realtime := { s.realtime with manager := s.realtime.manager.disconnect userId websocket } }

/-- The state after a history, newest event first, if it is possible. -/
def after (J : RealtimeJson) (s : ListenerState) : List SubscriberEvent → Option ListenerState
  | [] => some s
  | e :: h => (s.after J h).bind fun s' => s'.step J e

/-- What an event raises in the session it happens in. -/
def raised (J : RealtimeJson) (s : ListenerState) : SubscriberEvent → Option ListenError
  | .item m outcome completion => (listenItem J m outcome completion s).1
  | .sessionEnds error _ => error
  | _ => none

/-! ### What a step can do -/

variable {J : RealtimeJson} {s s' : ListenerState} {m : PubSubMessage} {outcome : WebSocket → SendOutcome}
  {completion : CompletionOrder} {event : SubscriberEvent}

/-- A session's end clears the flag and counts nothing; the session is over. -/
theorem endSession_subscriber (s : ListenerState) (error : Option ListenError) (jitter : ℚ → ℚ → ℚ) :
    (s.endSession error jitter).subscriber.isSubscribed = false ∧
      (s.endSession error jitter).subscriber.channel = s.subscriber.channel ∧
      (s.endSession error jitter).subscriber.hasSubscribedOnce = s.subscriber.hasSubscribedOnce ∧
      (s.endSession error jitter).subscriber.subscriptionGeneration = s.subscriber.subscriptionGeneration ∧
      (s.endSession error jitter).realtime = s.realtime ∧ (s.endSession error jitter).control ≠ .listening := by
  unfold endSession
  cases s.raises error <;> simp

/-- `listen` is over exactly if an exception leaves its `except` clauses. -/
theorem endSession_ended (s : ListenerState) (error : Option ListenError) (jitter : ℚ → ℚ → ℚ) (e : ListenError) :
    (s.endSession error jitter).control = .ended e ↔ s.raises error = some e := by
  unfold endSession
  cases s.raises error <;> simp

/-- Only an error of a connection or a timeout is caught, and only after a confirmation. -/
theorem raises_eq_some (s : ListenerState) (error : Option ListenError) (e : ListenError) :
    s.raises error = some e ↔
      error = some e ∧ (e = .connectionError ∨ e = .timeoutError → s.subscriber.hasSubscribedOnce = false) := by
  unfold raises
  cases error with
  | none => simp
  | some error =>
    cases error <;> cases s.subscriber.hasSubscribedOnce <;> simp [ListenError.isConnectionError] <;>
      (rintro rfl; simp)

/-- The loop body counts a confirmation, and otherwise leaves the subscriber as it is. -/
theorem listenItem_subscriber (J : RealtimeJson) (m : PubSubMessage) (outcome : WebSocket → SendOutcome)
    (completion : CompletionOrder) (s : ListenerState) :
    (listenItem J m outcome completion s).2.control = s.control ∧
      if m.isConfirmation s.subscriber.channel then
        (listenItem J m outcome completion s).1 = none ∧
          (listenItem J m outcome completion s).2.subscriber =
            { s.subscriber with
              backoff := s.subscriber.backoff.reset
              hasSubscribedOnce := true
              subscriptionGeneration := s.subscriber.subscriptionGeneration + 1
              isSubscribed := true }
      else
        (listenItem J m outcome completion s).2.subscriber = s.subscriber ∧
          ∀ e, (listenItem J m outcome completion s).1 = some e → ∃ errors, e = .exceptionGroup errors := by
  unfold listenItem
  split_ifs with hconfirmation hmessage
  · exact ⟨rfl, rfl, rfl⟩
  · exact ⟨rfl, rfl, fun e h => nomatch h⟩
  · split
    · exact ⟨rfl, rfl, fun e h => nomatch h⟩
    · exact ⟨rfl, rfl, fun e h => nomatch h⟩
    · dsimp only
      split
      · exact ⟨rfl, rfl, fun e h => nomatch h⟩
      · exact ⟨rfl, rfl, fun e h => ⟨_, (Option.some.inj h).symm⟩⟩

/-- An item is read in a session, and the session ends with what the item raises. -/
theorem step_item (h : s.step J (.item m outcome completion) = some s') :
    s.control = .listening ∧
      (((listenItem J m outcome completion s).1 = none ∧ s' = (listenItem J m outcome completion s).2) ∨
        ∃ error, (listenItem J m outcome completion s).1 = some error ∧ s' =
          (listenItem J m outcome completion s).2.endSession (some error) fun _ maximumDelay => maximumDelay) := by
  unfold step at h
  dsimp only at h
  split_ifs at h with hlistening
  refine ⟨hlistening, ?_⟩
  cases hresult : listenItem J m outcome completion s with
  | mk error s₁ =>
    rw [hresult] at h
    cases error with
    | none => exact .inl ⟨rfl, (Option.some.inj h).symm⟩
    | some error => exact .inr ⟨error, rfl, (Option.some.inj h).symm⟩

theorem step_sessionEnds {error : Option ListenError} {jitter : ℚ → ℚ → ℚ}
    (h : s.step J (.sessionEnds error jitter) = some s') :
    s.control = .listening ∧ s' = s.endSession error jitter := by
  unfold step at h
  dsimp only at h
  split_ifs at h with hlistening
  exact ⟨hlistening, (Option.some.inj h).symm⟩

theorem step_slept (h : s.step J .slept = some s') :
    (∃ delay, s.control = .waiting delay) ∧ s' = { s with control := .listening } := by
  unfold step at h
  cases hcontrol : s.control with
  | waiting delay =>
    simp only [hcontrol] at h
    exact ⟨⟨delay, rfl⟩, (Option.some.inj h).symm⟩
  | _ =>
    simp only [hcontrol] at h
    cases h

theorem step_connects {userId : ℤ} {websocket : WebSocket} (h : s.step J (.connects userId websocket) = some s') :
    ∃ hnew, s' = { s with
      realtime := { s.realtime with manager := s.realtime.manager.connect userId websocket hnew } } := by
  unfold step at h
  dsimp only at h
  split_ifs at h with hnew
  exact ⟨hnew, (Option.some.inj h).symm⟩

theorem step_disconnects {userId : ℤ} {websocket : WebSocket}
    (h : s.step J (.disconnects userId websocket) = some s') :
    s' = { s with realtime := { s.realtime with manager := s.realtime.manager.disconnect userId websocket } } :=
  (Option.some.inj h).symm

/-- A step reads an item, ends a session, wakes up, or is none of `listen`'s. -/
theorem step_cases (h : s.step J event = some s') :
    (s.control = .listening ∧ s.raised J event = none ∧
        ∃ m outcome completion, event = .item m outcome completion ∧ s' = (listenItem J m outcome completion s).2) ∨
      (s.control = .listening ∧ event.confirms s.subscriber.channel = false ∧ event.isSlept = false ∧
        (event.endsSession = false → ∃ errors, s.raised J event = some (.exceptionGroup errors)) ∧
        ∃ (s₁ : ListenerState) (jitter : ℚ → ℚ → ℚ), s₁.subscriber = s.subscriber ∧
          s' = s₁.endSession (s.raised J event) jitter) ∨
      (event = .slept ∧ (∃ delay, s.control = .waiting delay) ∧ s' = { s with control := .listening }) ∨
      (event.confirms s.subscriber.channel = false ∧ event.isSlept = false ∧ event.endsSession = false ∧
        s.raised J event = none ∧ ∃ realtime, s' = { s with realtime := realtime }) := by
  cases event with
  | item m outcome completion =>
    obtain ⟨hlistening, ⟨hnone, rfl⟩ | ⟨error, hraised, rfl⟩⟩ := step_item h
    · exact .inl ⟨hlistening, hnone, m, outcome, completion, rfl, rfl⟩
    · have hitem := (listenItem_subscriber J m outcome completion s).2
      by_cases hconfirmation : m.isConfirmation s.subscriber.channel
      · rw [if_pos hconfirmation, hraised] at hitem
        cases hitem.1
      · rw [if_neg hconfirmation] at hitem
        obtain ⟨errors, rfl⟩ := hitem.2 error hraised
        refine .inr (.inl ⟨hlistening, by simpa [SubscriberEvent.confirms] using hconfirmation, rfl,
          fun _ => ⟨errors, hraised⟩, _, fun _ maximumDelay => maximumDelay, hitem.1, ?_⟩)
        rw [raised, hraised]
  | sessionEnds error jitter =>
    obtain ⟨hlistening, rfl⟩ := step_sessionEnds h
    refine .inr (.inl ⟨hlistening, rfl, rfl, fun hends => ?_, s, jitter, rfl, rfl⟩)
    cases hends
  | slept =>
    obtain ⟨hwaiting, rfl⟩ := step_slept h
    exact .inr (.inr (.inl ⟨rfl, hwaiting, rfl⟩))
  | connects userId websocket =>
    obtain ⟨hnew, rfl⟩ := step_connects h
    exact .inr (.inr (.inr ⟨rfl, rfl, rfl, rfl, _, rfl⟩))
  | disconnects userId websocket =>
    obtain rfl := step_disconnects h
    exact .inr (.inr (.inr ⟨rfl, rfl, rfl, rfl, _, rfl⟩))

/-- A step leaves the subscriber ready if it confirms, or if it was ready and the
session goes on. -/
theorem isSubscribed_step (h : s.step J event = some s')
    (hready : s.subscriber.isSubscribed = true → s.control = .listening) :
    s'.subscriber.isSubscribed = true ↔ event.confirms s.subscriber.channel = true ∨
      (s.subscriber.isSubscribed = true ∧ s'.control = .listening) := by
  rcases step_cases h with ⟨hlistening, -, m, outcome, completion, rfl, rfl⟩ |
      ⟨-, hconfirms, -, -, s₁, jitter, -, rfl⟩ | ⟨rfl, -, rfl⟩ | ⟨hconfirms, -, -, -, realtime, rfl⟩
  · obtain ⟨hcontrol, hitem⟩ := listenItem_subscriber J m outcome completion s
    by_cases hconfirmation : m.isConfirmation s.subscriber.channel
    · rw [if_pos hconfirmation] at hitem
      rw [hitem.2]
      exact iff_of_true rfl (.inl hconfirmation)
    · rw [if_neg hconfirmation] at hitem
      simp [hitem.1, hcontrol, hlistening, SubscriberEvent.confirms, hconfirmation]
  · obtain ⟨hsubscribed, -, -, -, -, hover⟩ := endSession_subscriber s₁ (s.raised J event) jitter
    simp [hsubscribed, hconfirms, hover]
  · simp [SubscriberEvent.confirms]
  · simpa [hconfirms] using hready

/-- A step ends `listen` if it raises an error that the `except` clauses do not keep. -/
theorem ended_step (h : s.step J event = some s') (e : ListenError) :
    s'.control = .ended e ↔ s.control = .ended e ∨ (s.raised J event = some e ∧
      (e = .connectionError ∨ e = .timeoutError → s.subscriber.hasSubscribedOnce = false)) := by
  rcases step_cases h with ⟨hlistening, hnone, m, outcome, completion, rfl, rfl⟩ |
      ⟨hlistening, -, -, -, s₁, jitter, hs₁, rfl⟩ | ⟨rfl, ⟨delay, hwaiting⟩, rfl⟩ | ⟨-, -, -, hnone, realtime, rfl⟩
  · rw [(listenItem_subscriber J m outcome completion s).1, hnone]
    simp
  · rw [endSession_ended, raises_eq_some, hs₁, hlistening]
    simp
  · rw [hwaiting]
    simp [raised]
  · rw [hnone]
    simp

/-! ### Every run -/

section

variable {channel : String} {s₀ : ListenerState} {h : List SubscriberEvent}

/-- `listen` has just been called on a new subscriber. -/
def Starts (channel : String) (s₀ : ListenerState) : Prop :=
  s₀.control = .listening ∧ s₀.subscriber.channel = channel ∧ s₀.subscriber.isSubscribed = false ∧
    s₀.subscriber.hasSubscribedOnce = false ∧ s₀.subscriber.subscriptionGeneration = 0

theorem init_starts {reconnectDelaySeconds maximumReconnectDelaySeconds : ℚ}
    {subscriber : RedisRealtimeEventSubscriber}
    (hinit : RedisRealtimeEventSubscriber.init channel reconnectDelaySeconds maximumReconnectDelaySeconds =
      .ok subscriber) (realtime : RealtimeState) : Starts channel ⟨subscriber, .listening, realtime⟩ := by
  unfold RedisRealtimeEventSubscriber.init at hinit
  split_ifs at hinit
  cases hbackoff : ReconnectBackoff.init reconnectDelaySeconds maximumReconnectDelaySeconds with
  | error message =>
    rw [hbackoff] at hinit
    cases hinit
  | ok backoff =>
    rw [hbackoff] at hinit
    cases hinit
    exact ⟨rfl, rfl, rfl, rfl, rfl⟩

/-- What the subscriber has counted, and that it is ready in a session only. -/
theorem generation_eq (hstart : Starts channel s₀) : ∀ {h : List SubscriberEvent} {s : ListenerState},
    s₀.after J h = some s →
      s.subscriber.channel = channel ∧ s.subscriber.subscriptionGeneration = confirmations channel h ∧
      (s.subscriber.hasSubscribedOnce = false ↔ confirmations channel h = 0) ∧
      (s.subscriber.isSubscribed = true → s.control = .listening)
  | [], s, hs => by
    cases hs
    obtain ⟨-, hchannel, hsubscribed, honce, hgeneration⟩ := hstart
    refine ⟨hchannel, hgeneration, ⟨fun _ => rfl, fun _ => honce⟩, fun h => ?_⟩
    rw [hsubscribed] at h
    cases h
  | event :: h, s, hs => by
    obtain ⟨s', hs', hstep⟩ := Option.bind_eq_some_iff.mp hs
    obtain ⟨hchannel, hgeneration, honce, hready⟩ := generation_eq hstart hs'
    rcases step_cases hstep with ⟨hlistening, -, m, outcome, completion, rfl, rfl⟩ |
        ⟨-, hconfirms, -, -, s₁, jitter, hs₁, rfl⟩ | ⟨rfl, ⟨delay, hcontrol⟩, rfl⟩ |
        ⟨hconfirms, -, -, -, realtime, rfl⟩
    · obtain ⟨hcontrol, hitem⟩ := listenItem_subscriber J m outcome completion s'
      by_cases hconfirms : (SubscriberEvent.item m outcome completion).confirms channel
      · rw [if_pos (by rw [hchannel]; exact hconfirms)] at hitem
        rw [hitem.2, confirmations_cons_of_confirms hconfirms]
        refine ⟨hchannel, congrArg (· + 1) hgeneration, by simp, fun _ => ?_⟩
        exact hcontrol.trans hlistening
      · rw [if_neg (by rw [hchannel]; exact hconfirms)] at hitem
        rw [hitem.1, confirmations_cons_of_not (Bool.eq_false_iff.mpr hconfirms)]
        exact ⟨hchannel, hgeneration, honce, fun _ => hcontrol.trans hlistening⟩
    · obtain ⟨hsubscribed, hchannel', honce', hgeneration', -, -⟩ :=
        endSession_subscriber s₁ (s'.raised J event) jitter
      rw [confirmations_cons_of_not (hchannel ▸ hconfirms), hchannel', honce', hgeneration', hs₁]
      refine ⟨hchannel, hgeneration, honce, fun h => ?_⟩
      rw [hsubscribed] at h
      cases h
    · exact ⟨hchannel, hgeneration, honce, fun _ => rfl⟩
    · rw [confirmations_cons_of_not (hchannel ▸ hconfirms)]
      exact ⟨hchannel, hgeneration, honce, hready⟩

/-- The session in which a confirmation was read still runs. -/
def ConfirmedSince (J : RealtimeJson) (channel : String) (s₀ : ListenerState) (h : List SubscriberEvent) : Prop :=
  ∃ u event v, h = u ++ event :: v ∧ event.confirms channel = true ∧
    ∀ w, w <:+ u → ∃ s, s₀.after J (w ++ event :: v) = some s ∧ s.control = .listening

theorem confirmedSince_cons {s : ListenerState} (hs : s₀.after J (event :: h) = some s) :
    ConfirmedSince J channel s₀ (event :: h) ↔
      s.control = .listening ∧ (event.confirms channel = true ∨ ConfirmedSince J channel s₀ h) := by
  constructor
  · rintro ⟨u, confirmation, v, hh, hconfirmation, hlistening⟩
    obtain ⟨s'', hs'', hnow⟩ := hlistening u List.suffix_rfl
    rw [← hh, hs] at hs''
    obtain rfl := Option.some.inj hs''
    refine ⟨hnow, ?_⟩
    cases u with
    | nil =>
      cases hh
      exact .inl hconfirmation
    | cons event' u =>
      cases hh
      exact .inr ⟨u, confirmation, v, rfl, hconfirmation, fun w hw => hlistening w (hw.trans (List.suffix_cons _ _))⟩
  · rintro ⟨hnow, hconfirmation | ⟨u, confirmation, v, rfl, hconfirmation, hlistening⟩⟩
    · refine ⟨[], event, h, rfl, hconfirmation, fun w hw => ⟨s, ?_, hnow⟩⟩
      rw [List.suffix_nil.mp hw]
      exact hs
    · refine ⟨event :: u, confirmation, v, rfl, hconfirmation, fun w hw => ?_⟩
      rcases List.suffix_cons_iff.mp hw with rfl | hw
      · exact ⟨s, hs, hnow⟩
      · exact hlistening w hw

/-- The subscriber is ready exactly from a confirmation to the end of its session. -/
theorem subscribed_iff (hstart : Starts channel s₀) : ∀ {h : List SubscriberEvent} {s : ListenerState},
    s₀.after J h = some s → (s.subscriber.isSubscribed = true ↔ ConfirmedSince J channel s₀ h)
  | [], s, hs => by
    cases hs
    rw [hstart.2.2.1]
    refine iff_of_false Bool.false_ne_true fun ⟨u, event, v, h, _⟩ => ?_
    cases u <;> cases h
  | event :: h, s, hs => by
    obtain ⟨s', hs', hstep⟩ := Option.bind_eq_some_iff.mp hs
    obtain ⟨hchannel, -, -, hready'⟩ := generation_eq hstart hs'
    have hready := (generation_eq hstart hs).2.2.2
    have hnow := isSubscribed_step hstep hready'
    rw [hchannel, subscribed_iff hstart hs'] at hnow
    rw [confirmedSince_cons hs]
    constructor
    · intro hsubscribed
      exact ⟨hready hsubscribed, (hnow.mp hsubscribed).imp_right And.left⟩
    · rintro ⟨hlistening, hconfirms | hbefore⟩
      · exact hnow.mpr (.inl hconfirms)
      · exact hnow.mpr (.inr ⟨hbefore, hlistening⟩)

/-- `listen` is over once a session has raised an error that the `except` clauses
do not keep: any other than a connection's or a timeout's, and also these before
the first confirmation. -/
theorem ended_iff (hstart : Starts channel s₀) : ∀ {h : List SubscriberEvent} {s : ListenerState},
    s₀.after J h = some s → ∀ e, s.control = .ended e ↔
      ∃ u event v s', h = u ++ event :: v ∧ s₀.after J v = some s' ∧ s'.raised J event = some e ∧
        (e = .connectionError ∨ e = .timeoutError → confirmations channel v = 0)
  | [], s, hs, e => by
    cases hs
    rw [hstart.1]
    refine iff_of_false (by simp) fun ⟨u, event, v, s', h, _⟩ => ?_
    cases u <;> cases h
  | event :: h, s, hs, e => by
    obtain ⟨s', hs', hstep⟩ := Option.bind_eq_some_iff.mp hs
    have honce := (generation_eq hstart hs').2.2.1
    rw [ended_step hstep, ended_iff hstart hs' e, honce]
    constructor
    · rintro (⟨u, event', v, s'', rfl, hrest⟩ | ⟨hraised, hfirst⟩)
      · exact ⟨event :: u, event', v, s'', rfl, hrest⟩
      · exact ⟨[], event, h, s', rfl, hs', hraised, hfirst⟩
    · rintro ⟨u, event', v, s'', hh, hs'', hraised, hfirst⟩
      cases u with
      | nil =>
        cases hh
        obtain rfl := Option.some.inj (hs'.symm.trans hs'')
        exact .inr ⟨hraised, hfirst⟩
      | cons event'' u =>
        cases hh
        exact .inl ⟨u, event', v, s'', rfl, hs'', hraised, hfirst⟩

theorem after_append {s : ListenerState} {v : List SubscriberEvent} : ∀ {u : List SubscriberEvent},
    s₀.after J (u ++ v) = some s → ∃ s', s₀.after J v = some s'
  | [], hs => ⟨s, hs⟩
  | _ :: u, hs => by
    obtain ⟨s', hs', -⟩ := Option.bind_eq_some_iff.mp hs
    exact after_append hs'

/-- Since the end of a session `listen` waits, or has waited once and reads, or is over. -/
theorem sleeps_since {s₁ : ListenerState} {v : List SubscriberEvent} (hs₁ : s₀.after J v = some s₁)
    (hover : s₁.control ≠ .listening) : ∀ {u : List SubscriberEvent} {s : ListenerState},
    s₀.after J (u ++ v) = some s → (∀ event ∈ u, event.endsSession = false) →
      (u.countP (·.isSlept) = 0 ∧ ∃ delay, s.control = .waiting delay) ∨
        (u.countP (·.isSlept) = 1 ∧ s.control = .listening) ∨ ∃ e, s.control = .ended e
  | [], s, hs, _ => by
    rw [List.nil_append, hs₁] at hs
    cases hs
    cases hcontrol : s₁.control with
    | listening => exact absurd hcontrol hover
    | waiting delay => exact .inl ⟨rfl, delay, rfl⟩
    | ended e => exact .inr (.inr ⟨e, rfl⟩)
  | event :: u, s, hs, hu => by
    obtain ⟨s', hs', hstep⟩ := Option.bind_eq_some_iff.mp hs
    have ih := sleeps_since hs₁ hover hs' fun event h => hu event (List.mem_cons_of_mem _ h)
    rcases step_cases hstep with ⟨hlistening, -, m, outcome, completion, rfl, rfl⟩ |
        ⟨-, -, -, hends, s₂, jitter, -, rfl⟩ | ⟨rfl, ⟨delay, hwaiting⟩, rfl⟩ | ⟨-, hslept, -, -, realtime, rfl⟩
    · rcases ih with ⟨-, delay, hwaiting⟩ | ⟨hcount, -⟩ | ⟨e, hended⟩
      · rw [hlistening] at hwaiting
        cases hwaiting
      · refine .inr (.inl ⟨hcount, ?_⟩)
        rw [(listenItem_subscriber J m outcome completion s').1, hlistening]
      · rw [hlistening] at hended
        cases hended
    · obtain ⟨errors, hraised⟩ := hends (hu event List.mem_cons_self)
      refine .inr (.inr ⟨.exceptionGroup errors, ?_⟩)
      rw [endSession_ended, raises_eq_some]
      exact ⟨hraised, by simp⟩
    · rcases ih with ⟨hcount, -⟩ | ⟨-, hlistening⟩ | ⟨e, hended⟩
      · refine .inr (.inl ⟨?_, rfl⟩)
        rw [List.countP_cons_of_pos rfl, hcount]
      · rw [hwaiting] at hlistening
        cases hlistening
      · rw [hwaiting] at hended
        cases hended
    · rw [List.countP_cons_of_neg (by simp [hslept])]
      exact ih

/-- Between the ends of two consecutive sessions `listen` has waited once. -/
theorem waits_between {u w v : List SubscriberEvent} {error error' : Option ListenError} {jitter jitter' : ℚ → ℚ → ℚ}
    {s : ListenerState}
    (hs : s₀.after J (u ++ .sessionEnds error' jitter' :: (w ++ .sessionEnds error jitter :: v)) = some s)
    (hw : ∀ event ∈ w, event.endsSession = false) : w.countP (·.isSlept) = 1 := by
  obtain ⟨s₃, hs₃⟩ := after_append hs
  obtain ⟨s₂, hs₂, hstep₂⟩ := Option.bind_eq_some_iff.mp hs₃
  obtain ⟨s₁, hs₁⟩ := after_append hs₂
  obtain ⟨s', hs', hstep₁⟩ := Option.bind_eq_some_iff.mp hs₁
  have hover : s₁.control ≠ .listening := by
    rw [(step_sessionEnds hstep₁).2]
    exact (endSession_subscriber _ _ _).2.2.2.2.2
  have hlistening : s₂.control = .listening := (step_sessionEnds hstep₂).1
  rcases sleeps_since hs₁ hover hs₂ hw with ⟨-, delay, hwaiting⟩ | ⟨hcount, -⟩ | ⟨e, hended⟩
  · rw [hlistening] at hwaiting
    cases hwaiting
  · exact hcount
  · rw [hlistening] at hended
    cases hended

end

end ListenerState

open ListenerState

/-- **Readiness and fail-fast.** Whatever the sessions of `listen` read and however
they end: the subscriber is ready exactly from a confirmation for its channel to
the end of that session, so neither in a wait nor once `listen` is over, and its
generation counts these confirmations; `listen` is over exactly once a session
has raised an error, one of a connection or a timeout only if nothing was
confirmed before; any other end of a session is followed by a wait, and there is
one wait between two sessions. -/
theorem subscriber_ready (J : RealtimeJson) {channel : String}
    {reconnectDelaySeconds maximumReconnectDelaySeconds : ℚ} {subscriber : RedisRealtimeEventSubscriber}
    (hinit : RedisRealtimeEventSubscriber.init channel reconnectDelaySeconds maximumReconnectDelaySeconds =
      .ok subscriber)
    (realtime : RealtimeState) {h : List SubscriberEvent} {s : ListenerState}
    (hs : (⟨subscriber, .listening, realtime⟩ : ListenerState).after J h = some s) :
    (s.subscriber.isSubscribed = true ↔ ConfirmedSince J channel ⟨subscriber, .listening, realtime⟩ h) ∧
      (s.control ≠ .listening → s.subscriber.isSubscribed = false) ∧
      s.subscriber.subscriptionGeneration = confirmations channel h ∧
      (∀ e, s.control = .ended e ↔
        ∃ u event v s', h = u ++ event :: v ∧
          (⟨subscriber, .listening, realtime⟩ : ListenerState).after J v = some s' ∧ s'.raised J event = some e ∧
          (e = .connectionError ∨ e = .timeoutError → confirmations channel v = 0)) ∧
      (∀ error jitter v, h = .sessionEnds error jitter :: v →
        (∃ delay, s.control = .waiting delay) ∨ ∃ e, s.control = .ended e) ∧
      ∀ u w v error error' jitter jitter',
        h = u ++ .sessionEnds error' jitter' :: (w ++ .sessionEnds error jitter :: v) →
        (∀ event ∈ w, event.endsSession = false) → w.countP (·.isSlept) = 1 := by
  have hstart := init_starts hinit realtime
  obtain ⟨-, hgeneration, -, hready⟩ := generation_eq hstart hs
  refine ⟨subscribed_iff hstart hs, fun hcontrol => ?_, hgeneration, ended_iff hstart hs, ?_, ?_⟩
  · by_contra hsubscribed
    exact hcontrol (hready (by simpa using hsubscribed))
  · rintro error jitter v rfl
    obtain ⟨s', -, hstep⟩ := Option.bind_eq_some_iff.mp hs
    obtain ⟨-, rfl⟩ := step_sessionEnds hstep
    have hover := (endSession_subscriber s' error jitter).2.2.2.2.2
    cases hcontrol : (s'.endSession error jitter).control with
    | listening => exact absurd hcontrol hover
    | waiting delay => exact .inl ⟨delay, rfl⟩
    | ended e => exact .inr ⟨e, rfl⟩
  · rintro u w v error error' jitter jitter' rfl hw
    exact waits_between hs hw

/-- `REALTIME_EVENTS_CHANNEL` -/
def realtimeEventsChannel : String := "realtime:user-events"

/-- The confirmation of a client that does not decode. -/
def exampleConfirmation : PubSubMessage :=
  ⟨.bytes "subscribe".toUTF8, .bytes realtimeEventsChannel.toUTF8, .int 1⟩

def exampleBackoff : ReconnectBackoff := ⟨1, 30, 1, by norm_num, le_rfl, by norm_num⟩

def exampleSubscriber : RedisRealtimeEventSubscriber where
  channel := realtimeEventsChannel
  backoff := exampleBackoff

theorem exampleSubscriber_init :
    RedisRealtimeEventSubscriber.init realtimeEventsChannel 1 30 = .ok exampleSubscriber := by
  have hbackoff : ReconnectBackoff.init 1 30 = .ok exampleBackoff := by
    unfold ReconnectBackoff.init
    rw [dif_neg (by norm_num), dif_neg (by norm_num)]
    rfl
  unfold RedisRealtimeEventSubscriber.init
  rw [if_neg (by decide), hbackoff]
  rfl

/-- A confirmation, a lost connection and the wait after it. -/
def exampleReconnect : List SubscriberEvent :=
  [.slept, .sessionEnds (some .connectionError) fun _ maximumDelay => maximumDelay,
    .item exampleConfirmation (fun _ => .success) .started]

theorem subscriber_ready_reconnect :
    ∃ s, (⟨exampleSubscriber, .listening, exampleConnections⟩ : ListenerState).after exampleRealtimeJson
        exampleReconnect = some s ∧
      s.subscriber.subscriptionGeneration = confirmations realtimeEventsChannel exampleReconnect ∧
      ¬ ConfirmedSince exampleRealtimeJson realtimeEventsChannel ⟨exampleSubscriber, .listening, exampleConnections⟩
        exampleReconnect := by
  refine ⟨_, rfl, ?_⟩
  obtain ⟨hsubscribed, -, hgeneration, -⟩ :=
    subscriber_ready exampleRealtimeJson exampleSubscriber_init exampleConnections (h := exampleReconnect) rfl
  exact ⟨hgeneration, fun h => by cases hsubscribed.mpr h⟩

end TaskApi
