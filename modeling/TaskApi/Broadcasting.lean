/-
# The broadcast route

`broadcast_messages` of `routers/realtime.py` and `RedisRealtimeEventPublisher`, in a service
of any number of processes. Each process has its connections and its subscriber; what a session
publishes, Redis sends to every subscription, and each subscriber reads what it was sent one
item after another and waits for the sends of one event before it reads the next.

A session is a program, a process is a state that takes steps of its own between the calls of
the sessions. The route's loop has no end, so a session comes with the number of messages after
which its client is gone. The exceptions of `receive_json` that are no errors of the message,
and a cancelled task, are `BroadcastExn.other`.

Key definitions: `broadcastMessages`, `RealtimeProcess.Step`, `RealtimeService.step`,
`broadcastSystem`, `BroadcastRequest.protocol`.
Key theorems: `broadcastMessages_follows`.
-/
import TaskApi.Application
import TaskApi.ConnectionRegistry
import TaskApi.EventDelivery
import TaskApi.RequestBodies
import TaskApi.WebSocketTickets

namespace TaskApi

open Conc

/-! ### Messages -/

structure ClientBroadcastMessage where
  content : String
  length : 1 ≤ content.length ∧ content.length ≤ 500

/-- The fields of `ClientBroadcastMessage`; it forbids others. -/
def ClientBroadcastMessage.fieldNames : List String := ["content"]

def ClientBroadcastMessage.modelValidate : JsonValue → Option ClientBroadcastMessage
  | .object members =>
    if members.all fun m => m.1 ∈ fieldNames then
      ((member members "content").bind JsonValue.str).bind fun s =>
        if h : 1 ≤ s.length ∧ s.length ≤ 500 then some ⟨s, h⟩ else none
    else none
  | _ => none

/-- `UserRealtimeEventEnvelope.model_dump_json`, which `model_validate_json` reads back. -/
structure EnvelopeJson extends RealtimeJson where
  modelDumpEnvelope : UserRealtimeEventEnvelope → String
  validate_dump (envelope : UserRealtimeEventEnvelope) : modelValidateJson (modelDumpEnvelope envelope) = some envelope

/-! ### The route -/

inductive BroadcastCall where
  | accept (websocket : WebSocket)
  /-- The rest of `ConnectionManager.connect`. -/
  | register (process : ℕ) (userId : ℤ) (websocket : WebSocket)
  | receiveJson (websocket : WebSocket)
  | publish (channel message : String)
  | close (websocket : WebSocket) (code : ℕ) (reason : String)
  | disconnect (process : ℕ) (userId : ℤ) (websocket : WebSocket)

abbrev BroadcastCall.Val : BroadcastCall → Type
  | .receiveJson _ => JsonValue
  | .publish .. => ℤ
  | _ => Unit

inductive BroadcastExn where
  | jsonDecodeError
  | validationError
  | webSocketDisconnect
  | redisError
  | other (description : String)
deriving DecidableEq

abbrev broadcastCalls : Interface := ⟨BroadcastCall, BroadcastCall.Val, BroadcastExn⟩

abbrev BroadcastAct (α : Type) := Prog broadcastCalls α

abbrev BroadcastCall.perform (c : BroadcastCall) : BroadcastAct c.Val := @Prog.perform broadcastCalls c

/-- A request to the route, of a client that sends so many messages, and the process it is for. -/
structure BroadcastRequest where
  process : ℕ
  currentUser : UserRecord
  websocket : WebSocket
  messages : ℕ

/-- `ConnectionManager.connect` -/
def connectWebsocket (r : BroadcastRequest) : BroadcastAct Unit := do
  (BroadcastCall.accept r.websocket).perform
  (BroadcastCall.register r.process r.currentUser.id r.websocket).perform

/-- `RedisRealtimeEventPublisher.publish_to_user` -/
def publishToUser (J : EnvelopeJson) (userId : ℤ) (event : RealtimeMessageEvent) : BroadcastAct ℤ :=
  if h : 1 ≤ userId then
    (BroadcastCall.publish realtimeEventsChannel (J.modelDumpEnvelope ⟨userId, event, h⟩)).perform
  else Prog.raise .validationError

/-- The inner `try`; none if the message is invalid. -/
def receiveMessage (websocket : WebSocket) : BroadcastAct (Option ClientBroadcastMessage) :=
  (do
    let payload ← (BroadcastCall.receiveJson websocket).perform
    match ClientBroadcastMessage.modelValidate payload with
    | none => Prog.raise .validationError
    | some incomingMessage => pure (some incomingMessage)).tryCatch fun
    | .jsonDecodeError | .validationError => pure none
    | e => Prog.raise e

/-- The `try` around `publish_to_user`: whether Redis took the event. -/
def publishMessage (J : EnvelopeJson) (r : BroadcastRequest) (incomingMessage : ClientBroadcastMessage) :
    BroadcastAct Bool :=
  (do
    let _ ← publishToUser J r.currentUser.id ⟨incomingMessage.content⟩
    pure true).tryCatch fun
    | .redisError => pure false
    | e => Prog.raise e

/-- The loop, in which so many messages come before the client is gone. -/
def broadcastLoop (J : EnvelopeJson) (r : BroadcastRequest) : ℕ → BroadcastAct Unit
  | 0 => Prog.raise .webSocketDisconnect
  | messages + 1 => do
    let incomingMessage ← receiveMessage r.websocket
    match incomingMessage with
    | none => (BroadcastCall.close r.websocket 1007 "Invalid message payload").perform
    | some incomingMessage =>
      let published ← publishMessage J r incomingMessage
      if published then broadcastLoop J r messages
      else (BroadcastCall.close r.websocket 1013 "Realtime service unavailable").perform

def broadcastMessages (J : EnvelopeJson) (r : BroadcastRequest) : BroadcastAct Unit := do
  connectWebsocket r
  ((broadcastLoop J r r.messages).tryCatch fun
    | .webSocketDisconnect => pure ()
    | e => Prog.raise e).tryFinally
    (BroadcastCall.disconnect r.process r.currentUser.id r.websocket).perform

/-! ### A process -/

/-- A process of the service, and its connection to Redis. -/
structure RealtimeProcess where
  broadcast : BroadcastState
  subscriber : RedisRealtimeEventSubscriber
  control : ListenControl
  /-- What Redis has sent to the subscription and `pubsub.listen` has not yielded. -/
  inbox : List PubSubMessage
  /-- Redis has the subscription. -/
  subscribed : Bool

namespace RealtimeProcess

/-- The item that confirms the subscription to a channel. -/
def confirmation (channel : String) : PubSubMessage := ⟨.str "subscribe", .str channel, .int 1⟩

/-- The item of a message. -/
def messageItem (channel message : String) : PubSubMessage := ⟨.str "message", .str channel, .str message⟩

/-- The loop body of `_listen_once`, up to where it waits for the sends. -/
def readItem (J : RealtimeJson) (m : PubSubMessage) (p : RealtimeProcess) : RealtimeProcess :=
  if m.isConfirmation p.subscriber.channel then
    { p with subscriber := { p.subscriber with
        backoff := p.subscriber.backoff.reset
        hasSubscribedOnce := true
        subscriptionGeneration := p.subscriber.subscriptionGeneration + 1
        isSubscribed := true } }
  else if !m.type.isText "message" then p
  else
    match m.data.text.bind J.modelValidateJson with
    | none => p
    | some envelope =>
      let connectionsSnapshot := p.broadcast.registry.get envelope.userId
      { p with broadcast := { p.broadcast with
          sending := connectionsSnapshot.map (⟨envelope.userId, ·, J.modelDumpJson envelope.event⟩) } }

/-- The end of a session: its subscription is closed, and `listen`, which looks at no
connection, goes on or ends. -/
def endSession (error : Option ListenError) (jitter : ℚ → ℚ → ℚ) (p : RealtimeProcess) : RealtimeProcess :=
  let listener := ListenerState.endSession ⟨p.subscriber, p.control, ⟨.empty, fun _ => []⟩⟩ error jitter
  { p with subscriber := listener.subscriber, control := listener.control, inbox := [], subscribed := false }

/-- Redis sends a message to the subscription, if there is one. -/
def push (channel message : String) (p : RealtimeProcess) : RealtimeProcess :=
  if p.subscribed ∧ p.subscriber.channel = channel then { p with inbox := p.inbox ++ [messageItem channel message] } else p

/-- What happens in a process between the calls of its sessions. A send that raises ends the
task group it is in, and with it the session. -/
inductive Step (J : RealtimeJson) : RealtimeProcess → RealtimeProcess → Prop
  | subscribes {p : RealtimeProcess} (hcontrol : p.control = .listening) (hnot : p.subscribed = false) :
      Step J p { p with subscribed := true, inbox := p.inbox ++ [confirmation p.subscriber.channel] }
  | breaks {p : RealtimeProcess} (read : ℕ) : Step J p { p with subscribed := false, inbox := p.inbox.take read }
  | reads {p : RealtimeProcess} {m : PubSubMessage} {rest : List PubSubMessage} (hcontrol : p.control = .listening)
      (hidle : p.broadcast.sending = []) (hinbox : p.inbox = m :: rest) :
      Step J p (readItem J m { p with inbox := rest })
  | sendCompletes {p : RealtimeProcess} {task : SendTask} {outcome : SendOutcome} {broadcast : BroadcastState}
      (hends : outcome.error = none) (hstep : p.broadcast.step (.sendCompletes task outcome) = some broadcast) :
      Step J p { p with broadcast := broadcast }
  | sendRaises {p : RealtimeProcess} {task : SendTask} {errors : List SendError} {jitter : ℚ → ℚ → ℚ}
      (hmem : task ∈ p.broadcast.sending) :
      Step J p (endSession (some (.exceptionGroup errors)) jitter
        { p with broadcast := { p.broadcast with sending := [] } })
  | sessionEnds {p : RealtimeProcess} {error : Option ListenError} {jitter : ℚ → ℚ → ℚ}
      (hcontrol : p.control = .listening) (hidle : p.broadcast.sending = []) : Step J p (endSession error jitter p)
  | slept {p : RealtimeProcess} {delay : ℚ} (hcontrol : p.control = .waiting delay) :
      Step J p { p with control := .listening }

end RealtimeProcess

/-! ### The service -/

/-- The processes. -/
abbrev RealtimeService := ℕ → RealtimeProcess

namespace RealtimeService

/-- What a connection has been sent in a process. -/
def received (s : RealtimeService) (process : ℕ) (websocket : WebSocket) : List String :=
  (s process).broadcast.received websocket

/-- `PUBLISH` -/
def publish (s : RealtimeService) (channel message : String) : RealtimeService :=
  fun process => (s process).push channel message

/-- One process with another registry. -/
def setRegistry (s : RealtimeService) (process : ℕ) (registry : Registry) : RealtimeService :=
  Function.update s process { s process with broadcast := { (s process).broadcast with registry := registry } }

/-- The exceptions of a call that waits for the client. -/
def ClientExn (e : BroadcastExn) : Prop := e = .webSocketDisconnect ∨ ∃ description, e = .other description

/-- One atomic step. A `PUBLISH` may fail, and has taken effect or not. -/
def step : (c : BroadcastCall) → RealtimeService → broadcastCalls.Out c → RealtimeService → Prop
  | .accept _, s, v, s' => s' = s ∧ ∀ e, v = .error e → ClientExn e
  | .register process userId websocket, s, v, s' =>
    v = .ok () ∧ s' = s.setRegistry process ((s process).broadcast.registry.connect userId websocket)
  | .receiveJson _, s, v, s' => s' = s ∧ ∀ e, v = .error e → ClientExn e ∨ e = .jsonDecodeError
  | .publish channel message, s, v, s' =>
    s' = s.publish channel message ∧ (∀ e, v = .error e → e = .redisError ∨ ∃ description, e = .other description) ∨
      s' = s ∧ ∃ e, v = .error e ∧ (e = .redisError ∨ ∃ description, e = .other description)
  | .close .., s, v, s' => s' = s ∧ ∀ e, v = .error e → ClientExn e
  | .disconnect process userId websocket, s, v, s' =>
    v = .ok () ∧ s' = s.setRegistry process ((s process).broadcast.registry.disconnect userId websocket)

/-- One process takes a step. -/
def env (J : RealtimeJson) (s s' : RealtimeService) : Prop :=
  ∃ process p, RealtimeProcess.Step J (s process) p ∧ s' = Function.update s process p

end RealtimeService

/-- The sessions of the service, over one Redis. -/
abbrev broadcastSystem (J : EnvelopeJson) : System broadcastCalls where
  State := RealtimeService
  step := RealtimeService.step
  env := RealtimeService.env J.toRealtimeJson
  Req := BroadcastRequest
  Res := Unit
  body := broadcastMessages J

/-! ### What a session does, call by call -/

inductive SessionStage where
  | fresh
  | registered
  | left
deriving DecidableEq

structure SessionPhase where
  stage : SessionStage := .fresh
  /-- The content of the message it has received and not published. -/
  content : Option String := none
  /-- How the connection is to be closed. -/
  closing : Option (ℕ × String) := none

/-- How the outcome of a call wants the connection to be closed. -/
def closesWith : (c : BroadcastCall) → broadcastCalls.Out c → Option (ℕ × String)
  | .receiveJson _, .ok payload =>
    match ClientBroadcastMessage.modelValidate payload with
    | none => some (1007, "Invalid message payload")
    | some _ => none
  | .receiveJson _, .error .jsonDecodeError => some (1007, "Invalid message payload")
  | .publish .., .error .redisError => some (1013, "Realtime service unavailable")
  | _, _ => none

def SessionPhase.next (q : SessionPhase) (c : BroadcastCall) (v : broadcastCalls.Out c) : SessionPhase where
  stage :=
    match c with
    | .register .. => .registered
    | .disconnect .. => .left
    | _ => q.stage
  content :=
    match c, v with
    | .receiveJson _, .ok payload => (ClientBroadcastMessage.modelValidate payload).map (·.content)
    | .publish .., _ => none
    | _, _ => q.content
  closing := closesWith c v

namespace BroadcastRequest

variable (J : EnvelopeJson)

/-- The calls a session may make in a phase. -/
def Allows (r : BroadcastRequest) (q : SessionPhase) : BroadcastCall → Prop
  | .accept websocket => q.stage = .fresh ∧ q.closing = none ∧ websocket = r.websocket
  | .register process userId websocket =>
    q.stage = .fresh ∧ q.closing = none ∧ process = r.process ∧ userId = r.currentUser.id ∧ websocket = r.websocket
  | .receiveJson websocket =>
    q.stage = .registered ∧ q.content = none ∧ q.closing = none ∧ websocket = r.websocket
  | .publish channel message => q.stage = .registered ∧ q.closing = none ∧ channel = realtimeEventsChannel ∧
    ∃ content h, q.content = some content ∧ message = J.modelDumpEnvelope ⟨r.currentUser.id, ⟨content⟩, h⟩
  | .close websocket code reason =>
    q.stage = .registered ∧ q.closing = some (code, reason) ∧ websocket = r.websocket
  | .disconnect process userId websocket => q.stage = .registered ∧ q.closing = none ∧ process = r.process ∧
    userId = r.currentUser.id ∧ websocket = r.websocket

/-- How a session ends: it has never been registered, or it is no longer, and no close is due. -/
def Ends (q : SessionPhase) (x : Except BroadcastExn Unit) : Prop :=
  q.closing = none ∧ (q.stage = .left ∨ q.stage = .fresh ∧ ∃ e, x = .error e)

/-- The protocol of a session. -/
abbrev protocol (r : BroadcastRequest) : Protocol broadcastCalls where
  Phase := SessionPhase
  init := {}
  next := SessionPhase.next
  allows := r.Allows J

end BroadcastRequest

section Protocol

variable {J : EnvelopeJson} {r : BroadcastRequest}

/-- The connection is registered, and nothing is to be done before the next message. -/
def SessionPhase.idle : SessionPhase := { stage := .registered }

theorem receiveMessage_follows : (receiveMessage r.websocket).Follows (r.protocol J) (broadcastSystem J).Can
    (fun q x => (∃ m, x = .ok (some m) ∧ q = { SessionPhase.idle with content := some m.content }) ∨
      (x = .ok none ∧ q = { SessionPhase.idle with closing := some (1007, "Invalid message payload") }) ∨
      q = .idle ∧ ∃ e, x = .error e) .idle := by
  unfold receiveMessage
  refine Prog.follows_tryCatch.mpr (Prog.follows_bind.mpr (Prog.follows_perform.mpr ⟨⟨rfl, rfl, rfl, rfl⟩, ?_⟩))
  intro v hv
  cases v with
  | ok payload =>
    simp only [Prog.ends_ok, SessionPhase.next, closesWith]
    cases ClientBroadcastMessage.modelValidate payload with
    | none => exact .inr (.inl ⟨rfl, rfl⟩)
    | some incomingMessage => exact .inl ⟨incomingMessage, rfl, rfl⟩
  | error e =>
    -- a message that is no JSON is handled here, and what the client did is not
    obtain ⟨s, s', -, hexn⟩ := hv
    rcases hexn e rfl with (rfl | ⟨description, rfl⟩) | rfl
    · exact .inr (.inr ⟨rfl, _, rfl⟩)
    · exact .inr (.inr ⟨rfl, _, rfl⟩)
    · exact .inr (.inl ⟨rfl, rfl⟩)

theorem publishMessage_follows (incomingMessage : ClientBroadcastMessage) :
    (publishMessage J r incomingMessage).Follows (r.protocol J) (broadcastSystem J).Can
      (fun q x => (x = .ok true ∧ q = .idle) ∨
        (x = .ok false ∧ q = { SessionPhase.idle with closing := some (1013, "Realtime service unavailable") }) ∨
        q.stage = .registered ∧ q.closing = none ∧ ∃ e, x = .error e)
      { SessionPhase.idle with content := some incomingMessage.content } := by
  unfold publishMessage publishToUser
  refine Prog.follows_tryCatch.mpr (Prog.follows_bind.mpr ?_)
  split_ifs with huser
  · refine Prog.follows_perform.mpr ⟨⟨rfl, rfl, rfl, _, huser, rfl, rfl⟩, fun v hv => ?_⟩
    cases v with
    | ok count => exact .inl ⟨rfl, rfl⟩
    | error e =>
      have hexn : e = .redisError ∨ ∃ description, e = .other description := by
        obtain ⟨s, s', ⟨-, hexn⟩ | ⟨-, e', heq, hexn⟩⟩ := hv
        · exact hexn e rfl
        · cases heq
          exact hexn
      rcases hexn with rfl | ⟨description, rfl⟩
      · exact .inr (.inl ⟨rfl, rfl⟩)
      · exact .inr (.inr ⟨rfl, rfl, _, rfl⟩)
  · exact .inr (.inr ⟨rfl, rfl, _, rfl⟩)

theorem broadcastLoop_follows : ∀ messages, (broadcastLoop J r messages).Follows (r.protocol J) (broadcastSystem J).Can
    (fun q _ => q.stage = .registered ∧ q.closing = none) .idle
  | 0 => ⟨rfl, rfl⟩
  | messages + 1 => by
    refine Prog.follows_bind.mpr (receiveMessage_follows.mono fun q x hx => ?_)
    rcases hx with ⟨incomingMessage, rfl, rfl⟩ | ⟨rfl, rfl⟩ | ⟨rfl, e, rfl⟩
    · refine Prog.follows_bind.mpr ((publishMessage_follows incomingMessage).mono fun q x hx => ?_)
      rcases hx with ⟨rfl, rfl⟩ | ⟨rfl, rfl⟩ | ⟨hstage, hclosing, e, rfl⟩
      · exact broadcastLoop_follows messages
      · exact Prog.follows_perform.mpr ⟨⟨rfl, rfl, rfl⟩, fun v _ => ⟨rfl, rfl⟩⟩
      · exact ⟨hstage, hclosing⟩
    · exact Prog.follows_perform.mpr ⟨⟨rfl, rfl, rfl⟩, fun v _ => ⟨rfl, rfl⟩⟩
    · exact ⟨rfl, rfl⟩

theorem broadcastMessages_follows (r : BroadcastRequest) : (broadcastMessages J r).Follows (r.protocol J)
    (broadcastSystem J).Can BroadcastRequest.Ends {} := by
  unfold broadcastMessages connectWebsocket
  refine Prog.follows_bind.mpr (Prog.follows_bind.mpr (Prog.follows_perform.mpr ⟨⟨rfl, rfl, rfl⟩, fun v _ => ?_⟩))
  cases v with
  | error e => exact ⟨rfl, .inr ⟨rfl, e, rfl⟩⟩
  | ok =>
    refine Prog.follows_perform.mpr ⟨⟨rfl, rfl, rfl, rfl, rfl⟩, fun v hv => ?_⟩
    obtain ⟨s, s', rfl, -⟩ := hv
    -- the `finally` block comes after each way out of the loop
    have hfinally : ∀ (q : SessionPhase) (x : Except BroadcastExn Unit), q.stage = .registered ∧ q.closing = none →
        (BroadcastCall.disconnect r.process r.currentUser.id r.websocket).perform.Follows (r.protocol J)
          (broadcastSystem J).Can (Prog.ends (fun q _ => BroadcastRequest.Ends q x)
            fun q e => BroadcastRequest.Ends q (.error e)) q := by
      intro q x hq
      refine Prog.follows_perform.mpr ⟨⟨hq.1, hq.2, rfl, rfl, rfl⟩, fun v hv => ?_⟩
      obtain ⟨s, s', rfl, -⟩ := hv
      exact ⟨rfl, .inl rfl⟩
    refine Prog.follows_tryFinally.mpr (Prog.follows_tryCatch.mpr
      ((broadcastLoop_follows r.messages).mono fun q x hq => ?_))
    cases x with
    | ok => exact hfinally q _ hq
    | error e =>
      cases e <;> exact hfinally q _ hq

/-- The protocols of all sessions. -/
def broadcastDiscipline (J : EnvelopeJson) : Discipline (broadcastSystem J) where
  protocol := BroadcastRequest.protocol J
  final _ := BroadcastRequest.Ends
  follows := broadcastMessages_follows

end Protocol

/-! ### A concrete run -/

def exampleValidateEnvelope (s : String) : Option UserRealtimeEventEnvelope :=
  match readInt (untilColon s.toList) with
  | none => none
  | some userId => if h : 1 ≤ userId then some ⟨userId, ⟨String.ofList (afterColon s.toList)⟩, h⟩ else none

/-- An envelope as plain text: its user and its content. -/
def exampleDumpEnvelope (envelope : UserRealtimeEventEnvelope) : String :=
  String.ofList (envelope.userId.repr.toList ++ ':' :: envelope.event.content.toList)

def exampleEnvelopeJson : EnvelopeJson where
  modelValidateJson := exampleValidateEnvelope
  modelDumpJson := RealtimeMessageEvent.content
  modelDumpEnvelope := exampleDumpEnvelope
  validate_dump envelope := by
    unfold exampleValidateEnvelope exampleDumpEnvelope
    simp only [String.toList_ofList, untilColon_append (colon_notMem_repr _), afterColon_append (colon_notMem_repr _),
      String.ofList_toList, readInt_repr]
    exact dif_pos envelope.one_le_userId

/-- Every process has its subscription. -/
def exampleService : RealtimeService :=
  fun _ => ⟨.new, ⟨realtimeEventsChannel, exampleBackoff, true, true, 1⟩, .listening, [], true⟩

/-- Clients send "hi", and nothing fails. -/
def RealtimeService.serve : (c : BroadcastCall) → RealtimeService → broadcastCalls.Out c × RealtimeService
  | .accept _, s => (.ok (), s)
  | .register process userId websocket, s =>
    (.ok (), s.setRegistry process ((s process).broadcast.registry.connect userId websocket))
  | .receiveJson _, s => (.ok (.object [("content", .string "hi")]), s)
  | .publish channel message, s => (.ok 1, s.publish channel message)
  | .close .., s => (.ok (), s)
  | .disconnect process userId websocket, s =>
    (.ok (), s.setRegistry process ((s process).broadcast.registry.disconnect userId websocket))

theorem RealtimeService.step_serve (c : BroadcastCall) (s : RealtimeService) : step c s (s.serve c).1 (s.serve c).2 := by
  cases c with
  | publish channel message => exact .inl ⟨rfl, fun e h => by cases h⟩
  | register process userId websocket => exact ⟨rfl, rfl⟩
  | disconnect process userId websocket => exact ⟨rfl, rfl⟩
  | _ => exact ⟨rfl, fun e h => by cases h⟩

/-- User 1 has a connection in process 0 and one in process 1, and sends a message on the first. -/
def exampleBroadcast : Config (broadcastSystem exampleEnvelopeJson) :=
  (Config.init exampleService).schedule (fun (c : BroadcastCall) (s : RealtimeService) => s.serve c)
    [.start 0 ⟨0, ⟨1, true⟩, 0, 1⟩, .call 0, .call 0, .start 1 ⟨1, ⟨1, true⟩, 1, 1⟩, .call 1, .call 1, .call 0, .call 0, .call 0]

def exampleItem : PubSubMessage := RealtimeProcess.messageItem realtimeEventsChannel "1:hi"

/-- Process 1 has read the message. -/
def exampleReading : RealtimeService :=
  Function.update exampleBroadcast.state 1
    (RealtimeProcess.readItem exampleEnvelopeJson.toRealtimeJson exampleItem { exampleBroadcast.state 1 with inbox := [] })

def exampleReceived : RealtimeService :=
  Function.update exampleReading 1 { exampleReading 1 with
    broadcast := ((exampleReading 1).broadcast.step (.sendCompletes ⟨1, 1, "hi"⟩ .success)).getD .new }

/-- It has been sent to the connection there. -/
def exampleBroadcastRun : Config (broadcastSystem exampleEnvelopeJson) :=
  ⟨exampleReceived, exampleBroadcast.trace, exampleBroadcast.pool⟩

theorem exampleBroadcastRun_interleaved : Interleaved (.init exampleService) exampleBroadcastRun := by
  have h : Interleaved (.init exampleService) exampleBroadcast := Interleaved.schedule RealtimeService.step_serve _ _
  have hinbox : (exampleBroadcast.state 1).inbox = [exampleItem] := by decide +kernel
  have hreads : RealtimeService.env exampleEnvelopeJson.toRealtimeJson exampleBroadcast.state exampleReading :=
    ⟨1, _, .reads rfl rfl hinbox, rfl⟩
  have hstep : (exampleReading 1).broadcast.step (.sendCompletes ⟨1, 1, "hi"⟩ .success) =
      some (((exampleReading 1).broadcast.step (.sendCompletes ⟨1, 1, "hi"⟩ .success)).getD .new) := rfl
  have hsends : RealtimeService.env exampleEnvelopeJson.toRealtimeJson exampleReading exampleReceived :=
    ⟨1, _, .sendCompletes rfl hstep, rfl⟩
  let c : Config (broadcastSystem exampleEnvelopeJson) := ⟨exampleReading, exampleBroadcast.trace, exampleBroadcast.pool⟩
  have hc : Interleaved (.init exampleService) c := 
    h.tail (@Step.env _ _ _ exampleBroadcast exampleReading hreads)
  exact hc.tail (@Step.env _ _ _ c exampleReceived hsends)

end TaskApi
