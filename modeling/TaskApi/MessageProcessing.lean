/-
# Workers that process, retry and archive messages

The functions of `tests/test_message_idempotency.py` that a worker calls for a
delivered message, over one Redis and one database. Any number of workers call
them at the same time; a worker may stop between any two calls, a Redis command
or script may fail before or after it took effect, and pending messages may be
claimed by other workers.

What a program may do next is one protocol for all of them: a message is
acknowledged only after its event was applied, or its dead letter written, by
the same program (`MessageRequest.Allows`).

Key definitions: `writeDeadLetterOnce`, `archiveMessageAndAcknowledge`,
`handleRetryableMessageFailure`, `processCompletionWithFailurePolicy`,
`messageSystem`, `MessageRequest.Allows`.
Key theorems: `messageRequest_follows`, `step_evalWriteDeadLetterOnce`,
`step_applyCompletionOnce`.
-/
import TaskApi.Lib.Interleave
import TaskApi.Lib.Json
import TaskApi.Redis
import TaskApi.RedisStreams

namespace TaskApi

open Conc

/-! ### Messages -/

/-- A `dict[str, str]`. -/
structure Payload where
  items : List (String × String)
  nodup_key : (items.map Prod.fst).Nodup
deriving DecidableEq

/-- `payload[key]` -/
def Payload.get (payload : Payload) (key : String) : Option String := payload.items.lookup key

/-- `json.dumps(payload, ensure_ascii=False)` -/
def Payload.dumps (payload : Payload) : String := JsonText.dumpsObject payload.items

namespace MessageSource

/-- The JSON array of the source, which keeps its three parts apart. -/
def messageIdentity (m : MessageSource) : String :=
  JsonText.dumpsList "," [m.sourceStream, m.sourceGroup, m.sourceMessageId]

def attemptIdentity (m : MessageSource) (attemptId : String) : String :=
  JsonText.dumpsList "," [m.sourceStream, m.sourceGroup, m.sourceMessageId, attemptId]

theorem messageIdentity_inj {m m' : MessageSource} : m.messageIdentity = m'.messageIdentity ↔ m = m' := by
  refine ⟨fun h => ?_, congrArg _⟩
  have hcomma : (",".toList).head? = some ',' := rfl
  have hparts := JsonText.dumpsList_injective hcomma h
  cases m
  cases m'
  simpa using hparts

theorem attemptIdentity_inj {m m' : MessageSource} {attemptId attemptId' : String} :
    m.attemptIdentity attemptId = m'.attemptIdentity attemptId' ↔ m = m' ∧ attemptId = attemptId' := by
  refine ⟨fun h => ?_, by rintro ⟨rfl, rfl⟩; rfl⟩
  have hcomma : (",".toList).head? = some ',' := rfl
  have hparts := JsonText.dumpsList_injective hcomma h
  cases m
  cases m'
  simpa [and_assoc] using hparts

theorem messageIdentity_ne {m m' : MessageSource} {attemptId : String} :
    m.messageIdentity ≠ m'.attemptIdentity attemptId := fun h => by
  have hcomma : (",".toList).head? = some ',' := rfl
  have hparts := JsonText.dumpsList_injective hcomma h
  simp at hparts

end MessageSource

structure StreamMessage extends MessageSource where
  payload : Payload
deriving DecidableEq

/-- The letter that archives the message. -/
def StreamMessage.deadLetter (m : StreamMessage) (reason : String) : DeadLetter :=
  { m.toMessageSource with payload := m.payload.dumps, reason := reason }

/-! ### Calls -/

/-- What a worker asks of the database and of Redis. -/
inductive MessageCall where
  | applyCompletionOnce (eventId : String) (incrementBy : ℤ)
  | xAck (streamKey groupName messageId : String)
  | evalWriteDeadLetterOnce (deadLetterStream deduplicationKey messageIdentity : String) (letter : DeadLetter)
  | evalRecordMessageFailureOnce (failureCountsKey recordedAttemptsKey messageIdentity attemptIdentity : String)
deriving DecidableEq

abbrev MessageCall.Val : MessageCall → Type
  | .applyCompletionOnce .. => Bool
  | .xAck .. => ℤ
  | .evalWriteDeadLetterOnce .. => String
  | .evalRecordMessageFailureOnce .. => ℤ

abbrev messageCalls : Interface := ⟨MessageCall, MessageCall.Val, MessageExn⟩

abbrev MessageAct (α : Type) := Prog messageCalls α

abbrev MessageCall.perform (c : MessageCall) : MessageAct c.Val := @Prog.perform messageCalls c

/-! ### What becomes of a failure -/

def shouldRetryMessage (failedAttempts maxAttempts : ℤ) : Except MessageExn Bool :=
  if maxAttempts < 1 then .error (.valueError "max_attempts must be at least 1")
  else if failedAttempts < 1 then .error (.valueError "failed_attempts must be at least 1")
  else .ok (failedAttempts < maxAttempts)

inductive FailureAction where
  | retry
  | deadLetter
deriving DecidableEq

def decideMessageFailure (error : MessageExn) (failedAttempts maxAttempts : ℤ) : Except MessageExn FailureAction :=
  match error with
  | .eventPayloadConflictError _ => .ok .deadLetter
  | .retryableMessageError _ => do
    if ← shouldRetryMessage failedAttempts maxAttempts then
      return .retry
    else
      return .deadLetter
  | error => .error error

/-- A failure that can be retried is retried until the attempts are used up. -/
theorem decideMessageFailure_retryable {message : String} {failedAttempts maxAttempts : ℤ} {action : FailureAction}
    (h : decideMessageFailure (.retryableMessageError message) failedAttempts maxAttempts = .ok action) :
    1 ≤ maxAttempts ∧ 1 ≤ failedAttempts ∧
      ((failedAttempts < maxAttempts ∧ action = .retry) ∨ (maxAttempts ≤ failedAttempts ∧ action = .deadLetter)) := by
  unfold decideMessageFailure shouldRetryMessage at h
  dsimp only at h
  split_ifs at h with hmax hfailed
  · cases h
  · cases h
  by_cases hlt : failedAttempts < maxAttempts
  · rw [decide_eq_true hlt] at h
    cases h
    exact ⟨not_lt.mp hmax, not_lt.mp hfailed, .inl ⟨hlt, rfl⟩⟩
  · rw [decide_eq_false hlt] at h
    cases h
    exact ⟨not_lt.mp hmax, not_lt.mp hfailed, .inr ⟨not_lt.mp hlt, rfl⟩⟩

/-- `type(error).__name__` -/
def MessageExn.typeName : MessageExn → String
  | .eventPayloadConflictError _ => "EventPayloadConflictError"
  | .retryableMessageError _ => "RetryableMessageError"
  | .runtimeError _ => "RuntimeError"
  | .valueError _ => "ValueError"
  | .keyError _ => "KeyError"
  | .overflowError => "OverflowError"
  | .databaseError => "DatabaseError"
  | .redisError => "RedisError"
  | .other description => description

/-! ### The functions of a worker -/

/-- `deduplication_key` -/
def deduplicationKey (deadLetterStream : String) : String := s!"{deadLetterStream}:dedup"

/-- `recorded_attempts_key` -/
def recordedAttemptsKey (failureCountsKey : String) : String := s!"{failureCountsKey}:attempts"

def writeDeadLetterOnce (deadLetterStream : String) (m : StreamMessage) (reason : String) : MessageAct String :=
  (MessageCall.evalWriteDeadLetterOnce deadLetterStream (deduplicationKey deadLetterStream) m.messageIdentity
    (m.deadLetter reason)).perform

def archiveMessageAndAcknowledge (deadLetterStream : String) (m : StreamMessage) (reason : String) :
    MessageAct (String × ℤ) := do
  let deadLetterId ← writeDeadLetterOnce deadLetterStream m reason
  let acknowledgedCount ← (MessageCall.xAck m.sourceStream m.sourceGroup m.sourceMessageId).perform
  return (deadLetterId, acknowledgedCount)

def handleMessageFailure (deadLetterStream : String) (m : StreamMessage) (error : MessageExn)
    (failedAttempts maxAttempts : ℤ) : MessageAct FailureAction :=
  match decideMessageFailure error failedAttempts maxAttempts with
  | .error e => Prog.raise e
  | .ok .retry => return .retry
  | .ok .deadLetter => do
    let _ ← archiveMessageAndAcknowledge deadLetterStream m error.typeName
    return .deadLetter

def recordMessageFailureOnce (failureCountsKey : String) (m : MessageSource) (attemptId : String) : MessageAct ℤ :=
  (MessageCall.evalRecordMessageFailureOnce failureCountsKey (recordedAttemptsKey failureCountsKey) m.messageIdentity
    (m.attemptIdentity attemptId)).perform

def handleRetryableMessageFailure (deadLetterStream failureCountsKey : String) (m : StreamMessage)
    (error : MessageExn) (attemptId : String) (maxAttempts : ℤ) : MessageAct FailureAction :=
  match error with
  | .retryableMessageError _ =>
    if maxAttempts < 1 then
      Prog.raise (.valueError "max_attempts must be at least 1")
    else do
      let failedAttempts ← recordMessageFailureOnce failureCountsKey m.toMessageSource attemptId
      handleMessageFailure deadLetterStream m error failedAttempts maxAttempts
  | error => Prog.raise error

def processCompletionAndAcknowledge (m : MessageSource) (eventId : String) (incrementBy : ℤ) :
    MessageAct (Bool × ℤ) := do
  let applied ← (MessageCall.applyCompletionOnce eventId incrementBy).perform
  let acknowledgedCount ← (MessageCall.xAck m.sourceStream m.sourceGroup m.sourceMessageId).perform
  return (applied, acknowledgedCount)

/-- The event of a message: `payload["event_id"]` and `int(payload["increment_by"])`. -/
def Payload.event (P : PyInt) (payload : Payload) : Except MessageExn (String × ℤ) :=
  match payload.get "event_id" with
  | none => .error (.keyError "event_id")
  | some eventId =>
    match payload.get "increment_by" with
    | none => .error (.keyError "increment_by")
    | some text =>
      match P.int text with
      | .error message => .error (.valueError message)
      | .ok incrementBy => .ok (eventId, incrementBy)

inductive CompletionAction where
  | applied
  | duplicate
  | failed (action : FailureAction)
deriving DecidableEq

def processCompletionWithFailurePolicy (P : PyInt) (deadLetterStream : String) (m : StreamMessage)
    (failedAttempts maxAttempts : ℤ) : MessageAct CompletionAction :=
  match m.payload.event P with
  | .error e => Prog.raise e
  | .ok (eventId, incrementBy) => do
    let outcome ← (do
      let applied ← (MessageCall.applyCompletionOnce eventId incrementBy).perform
      return .inl applied : MessageAct (Bool ⊕ FailureAction)).tryCatch fun error =>
        match error with
        | .eventPayloadConflictError _ | .retryableMessageError _ => do
          return .inr (← handleMessageFailure deadLetterStream m error failedAttempts maxAttempts)
        | error => Prog.raise error
    match outcome with
    | .inr action => return .failed action
    | .inl applied =>
      -- outside the `try`: what fails here is not classified
      let _ ← (MessageCall.xAck m.sourceStream m.sourceGroup m.sourceMessageId).perform
      return if applied then .applied else .duplicate

/-! ### The interleaved system -/

inductive MessageRequest where
  | writeDeadLetterOnce (m : StreamMessage) (reason : String)
  | archiveMessageAndAcknowledge (m : StreamMessage) (reason : String)
  | processCompletionAndAcknowledge (m : MessageSource) (eventId : String) (incrementBy : ℤ)
  | processCompletionWithFailurePolicy (m : StreamMessage) (failedAttempts maxAttempts : ℤ)
  | recordMessageFailureOnce (failureCountsKey : String) (m : MessageSource) (attemptId : String)
  | handleRetryableMessageFailure (failureCountsKey : String) (m : StreamMessage) (error : MessageExn)
      (attemptId : String) (maxAttempts : ℤ)
deriving DecidableEq

/-- What a request returns. -/
inductive MessageResult where
  | written (deadLetterId : String)
  | archived (deadLetterId : String) (acknowledgedCount : ℤ)
  | processed (applied : Bool) (acknowledgedCount : ℤ)
  | completed (action : CompletionAction)
  | recorded (failureCount : ℤ)
  | handled (action : FailureAction)
deriving DecidableEq

def MessageRequest.body (P : PyInt) (deadLetterStream : String) : MessageRequest → MessageAct MessageResult
  | .writeDeadLetterOnce m reason => do
    return .written (← TaskApi.writeDeadLetterOnce deadLetterStream m reason)
  | .archiveMessageAndAcknowledge m reason => do
    let (deadLetterId, acknowledgedCount) ← TaskApi.archiveMessageAndAcknowledge deadLetterStream m reason
    return .archived deadLetterId acknowledgedCount
  | .processCompletionAndAcknowledge m eventId incrementBy => do
    let (applied, acknowledgedCount) ← TaskApi.processCompletionAndAcknowledge m eventId incrementBy
    return .processed applied acknowledgedCount
  | .processCompletionWithFailurePolicy m failedAttempts maxAttempts => do
    return .completed
      (← TaskApi.processCompletionWithFailurePolicy P deadLetterStream m failedAttempts maxAttempts)
  | .recordMessageFailureOnce failureCountsKey m attemptId => do
    return .recorded (← TaskApi.recordMessageFailureOnce failureCountsKey m attemptId)
  | .handleRetryableMessageFailure failureCountsKey m error attemptId maxAttempts => do
    return .handled
      (← TaskApi.handleRetryableMessageFailure deadLetterStream failureCountsKey m error attemptId maxAttempts)

/-- The shared state. -/
structure MessageState where
  redis : Keyspace
  database : CounterDatabase

/-- The outcome of a Redis command or script. -/
def MessageState.answer {α : Type} (s : MessageState) : Option α × Keyspace → Except MessageExn α × MessageState
  | (none, r) => (.error .redisError, { s with redis := r })
  | (some a, r) => (.ok a, { s with redis := r })

namespace MessageState

/-- The effect of a call; `newId` is what `XADD` yields, and the statements in
`fails` fail. -/
def serve (newId : String) (fails : Statement → Bool) :
    (c : MessageCall) → MessageState → messageCalls.Out c × MessageState
  | .applyCompletionOnce eventId incrementBy, s =>
    let (v, database) := TaskApi.applyCompletionOnce fails eventId incrementBy s.database
    (v, { s with database := database })
  | .xAck streamKey groupName messageId, s =>
    s.answer (match s.redis.xAck streamKey groupName messageId with
      | none => (none, s.redis)
      | some (acknowledgedCount, r) => (some acknowledgedCount, r))
  | .evalWriteDeadLetterOnce deadLetterStream deduplicationKey messageIdentity letter, s =>
    s.answer (s.redis.writeDeadLetterOnceScript newId deadLetterStream deduplicationKey messageIdentity letter)
  | .evalRecordMessageFailureOnce failureCountsKey recordedAttemptsKey messageIdentity attemptIdentity, s =>
    s.answer (s.redis.recordMessageFailureOnceScript failureCountsKey recordedAttemptsKey messageIdentity
      attemptIdentity)

/-- `XADD` gives an id that its stream does not have. -/
def Fresh (newId : String) (s : MessageState) : MessageCall → Prop
  | .evalWriteDeadLetterOnce deadLetterStream .. => newId ∉ (s.redis.entries deadLetterStream).map (·.id)
  | _ => True

/-- One atomic step. A Redis command or script may fail, and has taken effect or
not; applying an event may fail with an error that says it can be retried, and
has not taken effect. -/
def step (c : MessageCall) (s : MessageState) (v : messageCalls.Out c) (s' : MessageState) : Prop :=
  (∃ newId fails, Fresh newId s c ∧ s.serve newId fails c = (v, s')) ∨
  ((∃ eventId incrementBy, c = .applyCompletionOnce eventId incrementBy) ∧
    (∃ message, v = .error (.retryableMessageError message)) ∧ s' = s) ∨
  ((∀ eventId incrementBy, c ≠ .applyCompletionOnce eventId incrementBy) ∧ v = .error .redisError ∧
    (s' = s ∨ ∃ newId fails, Fresh newId s c ∧ s' = (s.serve newId fails c).2))

/-- Messages are sent, delivered and claimed by other consumers, and events are
applied elsewhere; hashes and the entries of the dead-letter stream stay. -/
def Elapses (deadLetterStream : String) (s s' : MessageState) : Prop :=
  (∀ key field, s'.redis.hashValue key field = s.redis.hashValue key field) ∧
  s'.redis.entries deadLetterStream = s.redis.entries deadLetterStream ∧
  (∀ key group id, s.redis.Pending key group id → s'.redis.Pending key group id) ∧
  s.database.processedEvents <+: s'.database.processedEvents

end MessageState

/-- The workers of one dead-letter stream. -/
abbrev messageSystem (P : PyInt) (deadLetterStream : String) : System messageCalls where
  State := MessageState
  step := MessageState.step
  env := MessageState.Elapses deadLetterStream
  Req := MessageRequest
  Res := MessageResult
  body := MessageRequest.body P deadLetterStream

/-! ### What a step can do -/

namespace MessageState

variable {s s' : MessageState}

theorem step_applyCompletionOnce {eventId : String} {incrementBy : ℤ} {v : Except MessageExn Bool}
    (h : step (.applyCompletionOnce eventId incrementBy) s v s') :
    s'.redis = s.redis ∧ s.database.processedEvents <+: s'.database.processedEvents ∧
      ∀ applied, v = .ok applied → s'.database.incrementOf eventId = some incrementBy := by
  rcases h with ⟨newId, fails, -, h⟩ | ⟨-, ⟨message, rfl⟩, rfl⟩ | ⟨hne, -⟩
  · rcases applyCompletionOnce_cases fails eventId incrementBy s.database with
      ⟨e, hcall⟩ | ⟨hcall, hstored⟩ | ⟨hnew, -, count, db', -, hcall, hrows, -⟩
    · rw [serve, hcall] at h
      cases h
      exact ⟨rfl, List.prefix_rfl, fun _ hv => by cases hv⟩
    · rw [serve, hcall] at h
      cases h
      exact ⟨rfl, List.prefix_rfl, fun _ _ => hstored⟩
    · rw [serve, hcall] at h
      cases h
      refine ⟨rfl, hrows ▸ List.prefix_append _ _, fun _ _ => ?_⟩
      rw [CounterDatabase.incrementOf_append hrows, hnew]
      simp
  · exact ⟨rfl, List.prefix_rfl, fun _ hv => by cases hv⟩
  · exact absurd rfl (hne eventId incrementBy)

/-- A Redis command or script takes effect, or it fails without. -/
theorem step_redis {c : MessageCall} (hc : ∀ eventId incrementBy, c ≠ .applyCompletionOnce eventId incrementBy)
    {v : messageCalls.Out c} (h : step c s v s') :
    (s' = s ∧ ∃ e, v = .error e) ∨ ∃ newId fails, Fresh newId s c ∧ s' = (s.serve newId fails c).2 ∧
      ∀ a, v = .ok a → (s.serve newId fails c).1 = .ok a := by
  rcases h with ⟨newId, fails, hfresh, h⟩ | ⟨⟨eventId, incrementBy, rfl⟩, -⟩ |
    ⟨-, rfl, rfl | ⟨newId, fails, hfresh, rfl⟩⟩
  · exact .inr ⟨newId, fails, hfresh, by rw [h], fun a ha => by rw [h, ha]⟩
  · exact absurd rfl (hc eventId incrementBy)
  · exact .inl ⟨rfl, _, rfl⟩
  · exact .inr ⟨newId, fails, hfresh, rfl, fun a ha => by cases ha⟩

theorem answer_eq {α : Type} (s : MessageState) (x : Option α × Keyspace) :
    (s.answer x).2 = { s with redis := x.2 } ∧ ∀ a, (s.answer x).1 = .ok a → x.1 = some a := by
  rcases x with ⟨_ | a, r⟩
  · exact ⟨rfl, fun a ha => by cases ha⟩
  · refine ⟨rfl, fun b hb => ?_⟩
    cases hb
    rfl

theorem step_xAck {streamKey groupName messageId : String} {v : Except MessageExn ℤ}
    (h : step (.xAck streamKey groupName messageId) s v s') :
    s'.database = s.database ∧ (∀ k, s'.redis.entries k = s.redis.entries k) ∧
      (∀ k f, s'.redis.hashValue k f = s.redis.hashValue k f) ∧ ∀ k g m, s.redis.Pending k g m →
        s'.redis.Pending k g m ∨ (k = streamKey ∧ g = groupName ∧ m = messageId) := by
  rcases step_redis (by simp) h with ⟨rfl, -⟩ | ⟨newId, fails, -, rfl, -⟩
  · exact ⟨rfl, fun _ => rfl, fun _ _ => rfl, fun _ _ _ hm => .inl hm⟩
  · rw [serve, (answer_eq s _).1]
    cases hack : s.redis.xAck streamKey groupName messageId with
    | none => exact ⟨rfl, fun _ => rfl, fun _ _ => rfl, fun _ _ _ hm => .inl hm⟩
    | some result =>
      obtain ⟨acknowledgedCount, r'⟩ := result
      exact ⟨rfl, Keyspace.xAck_eq_some hack⟩

/-- The script of a dead letter has run, or nothing has changed. -/
theorem step_evalWriteDeadLetterOnce {deadLetterStream deduplicationKey messageIdentity : String}
    {letter : DeadLetter} {v : Except MessageExn String}
    (h : step (.evalWriteDeadLetterOnce deadLetterStream deduplicationKey messageIdentity letter) s v s') :
    s'.database = s.database ∧ ((s' = s ∧ ∃ e, v = .error e) ∨
      ∃ newId reply, newId ∉ (s.redis.entries deadLetterStream).map (·.id) ∧
        s.redis.writeDeadLetterOnceScript newId deadLetterStream deduplicationKey messageIdentity letter =
          (reply, s'.redis) ∧ ∀ deadLetterId, v = .ok deadLetterId → reply = some deadLetterId) := by
  rcases step_redis (by simp) h with ⟨rfl, hv⟩ | ⟨newId, fails, hfresh, rfl, hv⟩
  · exact ⟨rfl, .inl ⟨rfl, hv⟩⟩
  · have hreply : ∀ deadLetterId, v = .ok deadLetterId →
        (s.redis.writeDeadLetterOnceScript newId deadLetterStream deduplicationKey messageIdentity letter).1 =
          some deadLetterId := fun deadLetterId h => (answer_eq s _).2 deadLetterId (hv deadLetterId h)
    rw [serve, (answer_eq s _).1]
    exact ⟨rfl, .inr ⟨newId, _, hfresh, rfl, hreply⟩⟩

/-- The script of a failed attempt has run, or nothing has changed. -/
theorem step_recordMessageFailureOnceScript {failureCountsKey recordedAttemptsKey messageIdentity
    attemptIdentity : String} {v : Except MessageExn ℤ}
    (h : step (.evalRecordMessageFailureOnce failureCountsKey recordedAttemptsKey messageIdentity attemptIdentity)
      s v s') :
    (s' = s ∧ ∃ e, v = .error e) ∨
      ∃ reply, s.redis.recordMessageFailureOnceScript failureCountsKey recordedAttemptsKey messageIdentity
          attemptIdentity = (reply, s'.redis) ∧ ∀ failureCount, v = .ok failureCount → reply = some failureCount := by
  rcases step_redis (by simp) h with ⟨rfl, hv⟩ | ⟨newId, fails, -, rfl, hv⟩
  · exact .inl ⟨rfl, hv⟩
  · have hreply : ∀ failureCount, v = .ok failureCount →
        (s.redis.recordMessageFailureOnceScript failureCountsKey recordedAttemptsKey messageIdentity
          attemptIdentity).1 = some failureCount := fun failureCount h => (answer_eq s _).2 failureCount (hv _ h)
    rw [serve, (answer_eq s _).1]
    exact .inr ⟨_, rfl, hreply⟩

/-- The script of a failed attempt writes to its own hashes only. -/
theorem step_evalRecordMessageFailureOnce {failureCountsKey recordedAttemptsKey messageIdentity
    attemptIdentity : String} {v : Except MessageExn ℤ}
    (h : step (.evalRecordMessageFailureOnce failureCountsKey recordedAttemptsKey messageIdentity attemptIdentity)
      s v s') :
    s'.database = s.database ∧ s.redis.SameStreams s'.redis ∧
      ∀ k f, k ≠ failureCountsKey → k ≠ recordedAttemptsKey → s'.redis.hashValue k f = s.redis.hashValue k f := by
  rcases step_redis (by simp) h with ⟨rfl, -⟩ | ⟨newId, fails, -, rfl, -⟩
  · exact ⟨rfl, .refl _, fun _ _ _ _ => rfl⟩
  · rw [serve, (answer_eq s _).1]
    exact ⟨rfl, Keyspace.recordMessageFailureOnceScript_keeps rfl⟩

end MessageState

/-! ### What a request does, call by call -/

/-- What a request has seen so far. -/
structure MessagePhase where
  /-- What `apply_completion_once` returned. -/
  applied : Option Bool := none
  deadLetterId : Option String := none
  failureCount : Option ℤ := none

def MessagePhase.next (q : MessagePhase) : (c : MessageCall) → messageCalls.Out c → MessagePhase
  | .applyCompletionOnce .., .ok applied => { q with applied := some applied }
  | .evalWriteDeadLetterOnce .., .ok deadLetterId => { q with deadLetterId := some deadLetterId }
  | .evalRecordMessageFailureOnce .., .ok failureCount => { q with failureCount := some failureCount }
  | _, _ => q

abbrev messageAutomaton : Automaton messageCalls := ⟨MessagePhase, {}, MessagePhase.next⟩

namespace MessageRequest

variable (P : PyInt) (deadLetterStream : String)

/-- The message a request is about. -/
def source : MessageRequest → MessageSource
  | .writeDeadLetterOnce m _ => m.toMessageSource
  | .archiveMessageAndAcknowledge m _ => m.toMessageSource
  | .processCompletionAndAcknowledge m .. => m
  | .processCompletionWithFailurePolicy m .. => m.toMessageSource
  | .recordMessageFailureOnce _ m _ => m
  | .handleRetryableMessageFailure _ m .. => m.toMessageSource

/-- The event a request may apply. -/
def Applies : MessageRequest → String → ℤ → Prop
  | .processCompletionAndAcknowledge _ eventId incrementBy, eventId', incrementBy' =>
    eventId' = eventId ∧ incrementBy' = incrementBy
  | .processCompletionWithFailurePolicy m .., eventId, incrementBy => m.payload.event P = .ok (eventId, incrementBy)
  | _, _, _ => False

/-- The dead letters a request may write. -/
def Writes : MessageRequest → DeadLetter → Prop
  | .writeDeadLetterOnce m reason, letter => letter = m.deadLetter reason
  | .archiveMessageAndAcknowledge m reason, letter => letter = m.deadLetter reason
  | .processCompletionWithFailurePolicy m .., letter => ∃ reason, letter = m.deadLetter reason
  | .handleRetryableMessageFailure _ m .., letter => ∃ reason, letter = m.deadLetter reason
  | _, _ => False

/-- The attempts a request may record, and where. -/
def Records : MessageRequest → String → String → Prop
  | .recordMessageFailureOnce failureCountsKey _ attemptId, failureCountsKey', attemptId' =>
    failureCountsKey' = failureCountsKey ∧ attemptId' = attemptId
  | .handleRetryableMessageFailure failureCountsKey _ _ attemptId _, failureCountsKey', attemptId' =>
    failureCountsKey' = failureCountsKey ∧ attemptId' = attemptId
  | _, _, _ => False

/-- The calls a request may make in a phase. -/
def Allows (r : MessageRequest) (q : MessagePhase) : MessageCall → Prop
  | .applyCompletionOnce eventId incrementBy => r.Applies P eventId incrementBy
  | .xAck streamKey groupName messageId =>
    r.source = ⟨streamKey, groupName, messageId⟩ ∧ (q.applied ≠ none ∨ q.deadLetterId ≠ none)
  | .evalWriteDeadLetterOnce deadLetterStream' key messageIdentity letter =>
    deadLetterStream' = deadLetterStream ∧ key = deduplicationKey deadLetterStream ∧
      messageIdentity = letter.messageIdentity ∧ r.Writes letter
  | .evalRecordMessageFailureOnce failureCountsKey key messageIdentity attemptIdentity =>
    ∃ attemptId, r.Records failureCountsKey attemptId ∧ key = recordedAttemptsKey failureCountsKey ∧
      messageIdentity = r.source.messageIdentity ∧ attemptIdentity = r.source.attemptIdentity attemptId

/-- How a request that returns may end. -/
def Ends : MessageRequest → MessagePhase → Except MessageExn MessageResult → Prop
  | _, _, .error _ => True
  | .writeDeadLetterOnce .., q, .ok x =>
    ∃ deadLetterId, q.deadLetterId = some deadLetterId ∧ x = .written deadLetterId
  | .archiveMessageAndAcknowledge .., q, .ok x =>
    ∃ deadLetterId acknowledgedCount, q.deadLetterId = some deadLetterId ∧
      x = .archived deadLetterId acknowledgedCount
  | .processCompletionAndAcknowledge .., q, .ok x =>
    ∃ applied acknowledgedCount, q.applied = some applied ∧ x = .processed applied acknowledgedCount
  | .processCompletionWithFailurePolicy .., q, .ok x =>
    (∃ applied, q.applied = some applied ∧ x = .completed (if applied then .applied else .duplicate)) ∨
    x = .completed (.failed .retry) ∨ (q.deadLetterId ≠ none ∧ x = .completed (.failed .deadLetter))
  | .recordMessageFailureOnce .., q, .ok x =>
    ∃ failureCount, q.failureCount = some failureCount ∧ x = .recorded failureCount
  | .handleRetryableMessageFailure _ _ _ _ maxAttempts, q, .ok x =>
    ∃ failureCount, q.failureCount = some failureCount ∧ 1 ≤ failureCount ∧
      ((failureCount < maxAttempts ∧ x = .handled .retry) ∨
        (maxAttempts ≤ failureCount ∧ q.deadLetterId ≠ none ∧ x = .handled .deadLetter))

/-- The protocol of a request. -/
abbrev protocol (r : MessageRequest) : Protocol messageCalls where
  toAutomaton := messageAutomaton
  allows := r.Allows P deadLetterStream

end MessageRequest

section Protocol

variable {P : PyInt} {deadLetterStream : String} {can : (c : MessageCall) → messageCalls.Out c → Prop}
  {r : MessageRequest} {q : MessagePhase}

theorem archiveMessageAndAcknowledge_follows {m : StreamMessage} {reason : String}
    (hsource : r.source = m.toMessageSource) (hwrites : r.Writes (m.deadLetter reason)) :
    (archiveMessageAndAcknowledge deadLetterStream m reason).Follows (r.protocol P deadLetterStream) can
      (fun q' x => ∀ result, x = .ok result →
        q'.deadLetterId = some result.1 ∧ q'.failureCount = q.failureCount) q := by
  unfold archiveMessageAndAcknowledge writeDeadLetterOnce
  refine Prog.follows_bind.mpr (Prog.follows_perform.mpr ⟨⟨rfl, rfl, rfl, hwrites⟩, fun v _ => ?_⟩)
  rcases v with e | deadLetterId
  · exact fun _ h => by cases h
  refine Prog.follows_bind.mpr (Prog.follows_perform.mpr ⟨⟨hsource, .inr (Option.some_ne_none _)⟩, fun v _ => ?_⟩)
  rcases v with e | acknowledgedCount
  · exact fun _ h => by cases h
  · rintro _ ⟨⟩
    exact ⟨rfl, rfl⟩

/-- A failure that is handled is left for a retry, or its message is archived. -/
theorem handleMessageFailure_follows {m : StreamMessage} {error : MessageExn} {failedAttempts maxAttempts : ℤ}
    (hsource : r.source = m.toMessageSource) (hwrites : ∀ reason, r.Writes (m.deadLetter reason)) :
    (handleMessageFailure deadLetterStream m error failedAttempts maxAttempts).Follows (r.protocol P deadLetterStream)
      can (fun q' x => ∀ action, x = .ok action → decideMessageFailure error failedAttempts maxAttempts = .ok action ∧
        q'.failureCount = q.failureCount ∧ (action = .deadLetter → q'.deadLetterId ≠ none)) q := by
  unfold handleMessageFailure
  cases hdecide : decideMessageFailure error failedAttempts maxAttempts with
  | error e => exact fun _ h => by cases h
  | ok action =>
    cases action with
    | retry =>
      rintro _ ⟨⟩
      exact ⟨rfl, rfl, fun h => by cases h⟩
    | deadLetter =>
      refine Prog.follows_bind.mpr ((archiveMessageAndAcknowledge_follows hsource (hwrites _)).mono fun q' x hx => ?_)
      rcases x with e | result
      · exact fun _ h => by cases h
      · rintro _ ⟨⟩
        obtain ⟨hid, hcount⟩ := hx result rfl
        exact ⟨rfl, hcount, fun _ => by simp [hid]⟩

theorem processCompletionWithFailurePolicy_follows {m : StreamMessage} {failedAttempts maxAttempts : ℤ} :
    (processCompletionWithFailurePolicy P deadLetterStream m failedAttempts maxAttempts).Follows
      ((MessageRequest.processCompletionWithFailurePolicy m failedAttempts maxAttempts).protocol P deadLetterStream)
      can (fun q' x => ∀ action, x = .ok action →
        (∃ applied, q'.applied = some applied ∧ action = if applied then .applied else .duplicate) ∨
        action = .failed .retry ∨ (q'.deadLetterId ≠ none ∧ action = .failed .deadLetter)) q := by
  unfold processCompletionWithFailurePolicy
  cases hevent : m.payload.event P with
  | error e => exact fun _ h => by cases h
  | ok event =>
    have hwrites : ∀ reason, (MessageRequest.processCompletionWithFailurePolicy m failedAttempts maxAttempts).Writes
        (m.deadLetter reason) := fun reason => ⟨reason, rfl⟩
    refine Prog.follows_bind.mpr (Prog.follows_tryCatch.mpr (Prog.follows_bind.mpr
      (Prog.follows_perform.mpr ⟨hevent, fun v _ => ?_⟩)))
    rcases v with error | applied
    · -- a handled failure is what the function returns
      have handled : ∀ error, (handleMessageFailure deadLetterStream m error failedAttempts maxAttempts).Follows
          ((MessageRequest.processCompletionWithFailurePolicy m failedAttempts maxAttempts).protocol P
            deadLetterStream) can
          (fun q' x => ∀ action, x = .ok action → (action = .deadLetter → q'.deadLetterId ≠ none)) q :=
        fun error => (handleMessageFailure_follows rfl hwrites).mono fun q' x hx action h => (hx action h).2.2
      cases error with
      | eventPayloadConflictError message | retryableMessageError message =>
        refine Prog.follows_bind.mpr ((handled _).mono fun q' x hx => ?_)
        rcases x with e | action
        · exact fun _ h => by cases h
        · rintro _ ⟨⟩
          cases action with
          | retry => exact .inr (.inl rfl)
          | deadLetter => exact .inr (.inr ⟨hx _ rfl rfl, rfl⟩)
      | _ => exact fun _ h => by cases h
    · refine Prog.follows_bind.mpr (Prog.follows_perform.mpr
        ⟨⟨rfl, .inl (Option.some_ne_none _)⟩, fun v _ => ?_⟩)
      rcases v with e | acknowledgedCount
      · exact fun _ h => by cases h
      · rintro _ ⟨⟩
        exact .inl ⟨applied, rfl, rfl⟩

theorem handleRetryableMessageFailure_follows {failureCountsKey : String} {m : StreamMessage} {error : MessageExn}
    {attemptId : String} {maxAttempts : ℤ} :
    (handleRetryableMessageFailure deadLetterStream failureCountsKey m error attemptId maxAttempts).Follows
      ((MessageRequest.handleRetryableMessageFailure failureCountsKey m error attemptId maxAttempts).protocol P
        deadLetterStream) can
      (fun q' x => ∀ action, x = .ok action → ∃ failureCount, q'.failureCount = some failureCount ∧
        1 ≤ failureCount ∧ ((failureCount < maxAttempts ∧ action = .retry) ∨
            (maxAttempts ≤ failureCount ∧ q'.deadLetterId ≠ none ∧ action = .deadLetter))) q := by
  unfold handleRetryableMessageFailure
  cases error with
  | retryableMessageError message =>
    dsimp only
    split
    · exact fun _ h => by cases h
    rename_i hmax
    refine Prog.follows_bind.mpr (Prog.follows_perform.mpr ⟨⟨attemptId, ⟨rfl, rfl⟩, rfl, rfl, rfl⟩, fun v _ => ?_⟩)
    rcases v with e | failureCount
    · exact fun _ h => by cases h
    have hwrites : ∀ reason, (MessageRequest.handleRetryableMessageFailure failureCountsKey m
        (.retryableMessageError message) attemptId maxAttempts).Writes (m.deadLetter reason) :=
      fun reason => ⟨reason, rfl⟩
    refine (handleMessageFailure_follows rfl hwrites).mono fun q' x hx action h => ?_
    obtain ⟨hdecide, hcount, hletter⟩ := hx action h
    obtain ⟨-, hpos, hdecided⟩ := decideMessageFailure_retryable hdecide
    refine ⟨failureCount, hcount, hpos, ?_⟩
    rcases hdecided with ⟨hlt, rfl⟩ | ⟨hle, rfl⟩
    · exact .inl ⟨hlt, rfl⟩
    · exact .inr ⟨hle, hletter rfl, rfl⟩
  | _ => exact fun _ h => by cases h

theorem messageRequest_follows (r : MessageRequest) :
    (r.body P deadLetterStream).Follows (r.protocol P deadLetterStream) can r.Ends {} := by
  cases r with
  | writeDeadLetterOnce m reason =>
    refine Prog.follows_bind.mpr (Prog.follows_perform.mpr ⟨⟨rfl, rfl, rfl, rfl⟩, fun v _ => ?_⟩)
    rcases v with e | deadLetterId
    · trivial
    · exact ⟨deadLetterId, rfl, rfl⟩
  | archiveMessageAndAcknowledge m reason =>
    have hwrites : (MessageRequest.archiveMessageAndAcknowledge m reason).Writes (m.deadLetter reason) := rfl
    refine Prog.follows_bind.mpr ((archiveMessageAndAcknowledge_follows rfl hwrites).mono fun q x hx => ?_)
    rcases x with e | result
    · trivial
    · exact ⟨result.1, result.2, (hx result rfl).1, rfl⟩
  | processCompletionAndAcknowledge m eventId incrementBy =>
    refine Prog.follows_bind.mpr (Prog.follows_bind.mpr (Prog.follows_perform.mpr ⟨⟨rfl, rfl⟩, fun v _ => ?_⟩))
    rcases v with e | applied
    · trivial
    refine Prog.follows_bind.mpr (Prog.follows_perform.mpr ⟨⟨rfl, .inl (Option.some_ne_none _)⟩, fun v _ => ?_⟩)
    rcases v with e | acknowledgedCount
    · trivial
    · exact ⟨applied, acknowledgedCount, rfl, rfl⟩
  | processCompletionWithFailurePolicy m failedAttempts maxAttempts =>
    refine Prog.follows_bind.mpr (processCompletionWithFailurePolicy_follows.mono fun q x hx => ?_)
    rcases x with e | action
    · trivial
    · rcases hx action rfl with ⟨applied, happlied, rfl⟩ | rfl | ⟨hid, rfl⟩
      · exact .inl ⟨applied, happlied, rfl⟩
      · exact .inr (.inl rfl)
      · exact .inr (.inr ⟨hid, rfl⟩)
  | recordMessageFailureOnce failureCountsKey m attemptId =>
    refine Prog.follows_bind.mpr (Prog.follows_perform.mpr ⟨⟨attemptId, ⟨rfl, rfl⟩, rfl, rfl, rfl⟩, fun v _ => ?_⟩)
    rcases v with e | failureCount
    · trivial
    · exact ⟨failureCount, rfl, rfl⟩
  | handleRetryableMessageFailure failureCountsKey m error attemptId maxAttempts =>
    refine Prog.follows_bind.mpr (handleRetryableMessageFailure_follows.mono fun q x hx => ?_)
    rcases x with e | action
    · trivial
    · obtain ⟨failureCount, hcount, hpos, ⟨hlt, rfl⟩ | ⟨hle, hid, rfl⟩⟩ := hx action rfl
      · exact ⟨failureCount, hcount, hpos, .inl ⟨hlt, rfl⟩⟩
      · exact ⟨failureCount, hcount, hpos, .inr ⟨hle, hid, rfl⟩⟩

end Protocol

/-- Every request of the message system follows its protocol. -/
def messageDiscipline (P : PyInt) (deadLetterStream : String) : Discipline (messageSystem P deadLetterStream) where
  protocol r := r.protocol P deadLetterStream
  final r := r.Ends
  follows r := messageRequest_follows r

/-! ### Runs from a schedule -/

namespace MessageState

/-- The id that follows the entries of a stream. -/
def nextId (s : MessageState) : MessageCall → String
  | .evalWriteDeadLetterOnce deadLetterStream .. => s!"{(s.redis.entries deadLetterStream).length}-0"
  | _ => ""

instance (newId : String) (s : MessageState) (c : MessageCall) : Decidable (Fresh newId s c) := by
  cases c <;> unfold Fresh <;> infer_instance

/-- Every call takes effect, under the next id; with `lost` the replies of Redis
are lost. -/
def serveNext (lost : Bool) (c : MessageCall) (s : MessageState) : messageCalls.Out c × MessageState :=
  match c with
  | .applyCompletionOnce eventId incrementBy => s.serve "" (fun _ => false) (.applyCompletionOnce eventId incrementBy)
  | c =>
    if Fresh (s.nextId c) s c then
      if lost then (.error .redisError, (s.serve (s.nextId c) (fun _ => false) c).2)
      else s.serve (s.nextId c) (fun _ => false) c
    else (.error .redisError, s)

theorem step_serveNext (lost : Bool) (c : MessageCall) (s : MessageState) :
    step c s (s.serveNext lost c).1 (s.serveNext lost c).2 := by
  unfold serveNext
  split
  · exact .inl ⟨"", fun _ => false, trivial, rfl⟩
  · rename_i hc
    split_ifs with hfresh
    · exact .inr (.inr ⟨hc, rfl, .inr ⟨_, _, hfresh, rfl⟩⟩)
    · exact .inl ⟨_, _, hfresh, rfl⟩
    · exact .inr (.inr ⟨hc, rfl, .inl rfl⟩)

end MessageState

end TaskApi
