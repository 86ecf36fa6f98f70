/-
# No message is lost

Any number of workers process, retry and archive delivered messages, each with
the message's own source and payload. Every program stores before it
acknowledges, so a message that is not pending any more is accounted for: its
event is recorded with its own increment, or the dead-letter stream has an entry
of it (`no_message_lost`).

That rests on the dedup hash being written by the dead-letter script only. Where
failures are counted under the hash's own key, a count is taken for the id of an
entry, and the message is acknowledged with nothing stored (`message_lost`).

Key definitions: `MessageRequest.Own`, `AccountedFor`.
Key theorems: `MessageState.step_grows`, `applied_recorded`, `accountedFor_of_seen`,
`no_message_lost`.
-/
import TaskApi.DeadLetters

namespace TaskApi

open Conc OnceLog

/-- No step removes anything but an acknowledged message. -/
theorem MessageState.step_grows {c : MessageCall} {s s' : MessageState} {v : messageCalls.Out c} (h : step c s v s')
    (hkeys : ∀ deadLetterStream key identity letter,
      c = .evalWriteDeadLetterOnce deadLetterStream key identity letter → deadLetterStream ≠ key) :
    (∀ k, s.redis.entries k <+: s'.redis.entries k) ∧
      s.database.processedEvents <+: s'.database.processedEvents ∧
      ∀ k g m, s.redis.Pending k g m → s'.redis.Pending k g m ∨ c = .xAck k g m := by
  cases c with
  | applyCompletionOnce eventId incrementBy =>
    obtain ⟨hredis, hrows, -⟩ := step_applyCompletionOnce h
    rw [hredis]
    exact ⟨fun _ => List.prefix_rfl, hrows, fun _ _ _ hm => .inl hm⟩
  | xAck streamKey groupName messageId =>
    obtain ⟨hdatabase, hentries, -, hpending⟩ := step_xAck h
    refine ⟨fun k => by rw [hentries], hdatabase ▸ List.prefix_rfl, fun k g m hm => ?_⟩
    rcases hpending k g m hm with hm | ⟨rfl, rfl, rfl⟩
    · exact .inl hm
    · exact .inr rfl
  | evalWriteDeadLetterOnce deadLetterStream key identity letter =>
    obtain ⟨hdatabase, ⟨rfl, -⟩ | ⟨newId, reply, -, hscript, -⟩⟩ := step_evalWriteDeadLetterOnce h
    · exact ⟨fun _ => List.prefix_rfl, List.prefix_rfl, fun _ _ _ hm => .inl hm⟩
    · rcases Keyspace.writeDeadLetterOnceScript_cases (hkeys _ _ _ _ rfl) hscript with
        ⟨-, hredis⟩ | ⟨-, -, hredis, -⟩ | ⟨-, -, hentries, -, hother, hpending⟩
      · rw [hredis]
        exact ⟨fun _ => List.prefix_rfl, hdatabase ▸ List.prefix_rfl, fun _ _ _ hm => .inl hm⟩
      · rw [hredis]
        exact ⟨fun _ => List.prefix_rfl, hdatabase ▸ List.prefix_rfl, fun _ _ _ hm => .inl hm⟩
      · refine ⟨fun k => ?_, hdatabase ▸ List.prefix_rfl, fun k g m hm => .inl ((hpending k g m).mpr hm)⟩
        by_cases hk : k = deadLetterStream
        · rw [hk, hentries]
          exact List.prefix_append _ _
        · rw [hother k hk]
  | evalRecordMessageFailureOnce failureCountsKey key messageIdentity attemptIdentity =>
    obtain ⟨hdatabase, hsame, -⟩ := step_evalRecordMessageFailureOnce h
    exact ⟨fun k => by rw [(hsame k).1], hdatabase ▸ List.prefix_rfl,
      fun k g m hm => .inl (((hsame k).2 g m).mpr hm)⟩

/-! ### Own messages -/

variable {P : PyInt} {deadLetterStream : String} {payloadOf : String → String → Payload}

/-- The payload of a message. -/
abbrev MessageSource.payload (payloadOf : String → String → Payload) (m : MessageSource) : Payload :=
  payloadOf m.sourceStream m.sourceMessageId

/-- The request is given the payload of its message, or its event. -/
def MessageRequest.Own (P : PyInt) (payloadOf : String → String → Payload) : MessageRequest → Prop
  | .writeDeadLetterOnce m _ => m.payload = m.toMessageSource.payload payloadOf
  | .archiveMessageAndAcknowledge m _ => m.payload = m.toMessageSource.payload payloadOf
  | .processCompletionAndAcknowledge m eventId incrementBy =>
    (m.payload payloadOf).event P = .ok (eventId, incrementBy)
  | .processCompletionWithFailurePolicy m .. => m.payload = m.toMessageSource.payload payloadOf
  | .recordMessageFailureOnce .. => True
  | .handleRetryableMessageFailure _ m .. => m.payload = m.toMessageSource.payload payloadOf

theorem MessageRequest.Own.event {r : MessageRequest} {eventId : String} {incrementBy : ℤ} (h : r.Own P payloadOf)
    (happlies : r.Applies P eventId incrementBy) :
    (r.source.payload payloadOf).event P = .ok (eventId, incrementBy) := by
  cases r with
  | processCompletionAndAcknowledge m eventId' incrementBy' =>
    obtain ⟨rfl, rfl⟩ := happlies
    exact h
  | processCompletionWithFailurePolicy m failedAttempts maxAttempts =>
    have hpayload : m.payload = m.toMessageSource.payload payloadOf := h
    exact hpayload ▸ happlies
  | _ => exact happlies.elim

theorem MessageRequest.Own.letter {r : MessageRequest} {letter : DeadLetter} (h : r.Own P payloadOf)
    (hwrites : r.Writes letter) : letter.payload = (letter.toMessageSource.payload payloadOf).dumps := by
  cases r with
  | writeDeadLetterOnce m reason | archiveMessageAndAcknowledge m reason =>
    obtain rfl := hwrites
    exact congrArg Payload.dumps h
  | processCompletionWithFailurePolicy m failedAttempts maxAttempts =>
    obtain ⟨reason, rfl⟩ := hwrites
    exact congrArg Payload.dumps h
  | handleRetryableMessageFailure failureCountsKey m error attemptId maxAttempts =>
    obtain ⟨reason, rfl⟩ := hwrites
    exact congrArg Payload.dumps h
  | _ => exact hwrites.elim

/-! ### AccountedFor messages -/

/-- The event of the message is recorded with its increment. -/
def Recorded (P : PyInt) (payloadOf : String → String → Payload) (s : MessageState) (m : MessageSource) : Prop :=
  ∃ eventId incrementBy, (m.payload payloadOf).event P = .ok (eventId, incrementBy) ∧
    s.database.incrementOf eventId = some incrementBy

/-- The dead-letter stream has an entry that holds the message's stream, group, id and
payload. -/
def DeadLettered (deadLetterStream : String) (payloadOf : String → String → Payload) (s : MessageState)
    (m : MessageSource) : Prop :=
  ∃ entry ∈ s.redis.entries deadLetterStream, ∃ reason, entry.Holds ⟨m, (m.payload payloadOf).dumps, reason⟩

def AccountedFor (P : PyInt) (deadLetterStream : String) (payloadOf : String → String → Payload) (s : MessageState)
    (m : MessageSource) : Prop := Recorded P payloadOf s m ∨ DeadLettered deadLetterStream payloadOf s m

section

variable {s s' : MessageState} {m : MessageSource}

theorem Recorded.mono (h : Recorded P payloadOf s m)
    (hrows : s.database.processedEvents <+: s'.database.processedEvents) : Recorded P payloadOf s' m := by
  obtain ⟨eventId, incrementBy, hevent, hstored⟩ := h
  exact ⟨eventId, incrementBy, hevent, CounterDatabase.incrementOf_mono hrows hstored⟩

theorem AccountedFor.mono (h : AccountedFor P deadLetterStream payloadOf s m)
    (hentries : s.redis.entries deadLetterStream <+: s'.redis.entries deadLetterStream)
    (hrows : s.database.processedEvents <+: s'.database.processedEvents) :
    AccountedFor P deadLetterStream payloadOf s' m := by
  refine h.imp (·.mono hrows) ?_
  rintro ⟨entry, hmem, hholds⟩
  exact ⟨entry, hentries.subset hmem, hholds⟩

end

/-! ### Over a run -/

section

variable {gate : Config (messageSystem P deadLetterStream) → Prop} {s₀ : MessageState}
  {c c' : Config (messageSystem P deadLetterStream)}

/-- A call that a request may make removes nothing but an acknowledged message. -/
theorem MessageRequest.Allows.grows {r : MessageRequest} {q : MessagePhase} {x : MessageCall} {s s' : MessageState}
    {v : messageCalls.Out x} (ha : r.Allows P deadLetterStream q x) (hs : MessageState.step x s v s') :
    (∀ k, s.redis.entries k <+: s'.redis.entries k) ∧
      s.database.processedEvents <+: s'.database.processedEvents ∧
      ∀ k g m, s.redis.Pending k g m → s'.redis.Pending k g m ∨ x = .xAck k g m := by
  refine MessageState.step_grows hs ?_
  rintro deadLetterStream' key identity letter rfl
  obtain ⟨rfl, rfl, -⟩ := ha
  exact deduplicationKey_ne

/-- An event that a request has seen applied is recorded, with the increment of
the request's message. -/
theorem applied_recorded (h : Run gate (.init s₀) c) (hown : ∀ t r, Requested t r c.trace → r.Own P payloadOf) :
    ∀ t r, Requested t r c.trace → (phase messageAutomaton t c.trace).applied ≠ none →
      Recorded P payloadOf c.state r.source := by
  revert hown
  refine @Run.invariant _ _ gate s₀ (messageDiscipline P deadLetterStream) (fun s tr =>
    (∀ t r, Requested t r tr → r.Own P payloadOf) → ∀ t r, Requested t r tr →
      (phase messageAutomaton t tr).applied ≠ none → Recorded P payloadOf s r.source) ?_ ?_ ?_ ?_ c h
  · rintro - t r ⟨s, hs⟩
    cases hs
  · intro b hb ih t r hn hown t' r' hr' happlied
    rw [phase_start] at happlied
    rcases requested_start.mp hr' with ⟨-, rfl, rfl⟩ | hr'
    · rw [phase_eq_init messageAutomaton (Run.not_acted hb hn)] at happlied
      exact absurd rfl happlied
    · exact ih (fun t r hr => hown t r (hr.cons _)) t' r' hr' happlied
  · intro b hb ih t r x v s' hrun hr ha hs hown t' r' hcall happlied
    have hr' := requested_call.mp hcall
    -- what was recorded stays, so only an event applied in this step is of interest
    have kept := fun hbefore =>
      (ih (fun t r hr => hown t r (hr.cons _)) t' r' hr' hbefore).mono (MessageRequest.Allows.grows ha hs).2.1
    by_cases ht : t = t'
    · subst ht
      rw [phase_call_self] at happlied
      cases x with
      | applyCompletionOnce eventId incrementBy =>
        rcases v with e | applied
        · exact kept happlied
        · rw [hb.requested_unique hr' hr]
          exact ⟨eventId, incrementBy, (hown t r (hr.cons _)).event ha,
            (MessageState.step_applyCompletionOnce hs).2.2 applied rfl⟩
      | _ => cases v <;> exact kept happlied
    · rw [phase_call_ne messageAutomaton ht] at happlied
      exact kept happlied
  · intro b hb ih s' he hown t r hr happlied
    exact (ih hown t r hr happlied).mono he.2.2.2

/-- A request that may acknowledge has accounted for its message. -/
theorem accountedFor_of_seen (hdedup : ∀ f, s₀.redis.hashValue (deduplicationKey deadLetterStream) f = none)
    (h : Run gate (.init s₀) c)
    (hown : ∀ t r, Requested t r c.trace → r.Own P payloadOf ∧ r.KeysApart deadLetterStream) {t : ℕ}
    {r : MessageRequest} (hr : Requested t r c.trace)
    (hseen : (phase messageAutomaton t c.trace).applied ≠ none ∨
      (phase messageAutomaton t c.trace).deadLetterId ≠ none) :
    AccountedFor P deadLetterStream payloadOf c.state r.source := by
  rcases hseen with happlied | hgiven
  · exact .inl (applied_recorded h (fun t r hr => (hown t r hr).1) t r hr happlied)
  · obtain ⟨x, hx⟩ := Option.ne_none_iff_exists'.mp hgiven
    have hinv := deadLetterInv_run hdedup h fun t r hr => (hown t r hr).2
    obtain ⟨letters, hlog⟩ := hinv.log
    obtain ⟨letter, hmem, hsource⟩ := (hlog.once.index_iff r.source x).mp (hinv.given t r x hr hx)
    -- the letter was written by some request, which was given the message's own payload
    obtain ⟨u, e, v, he, hran, -⟩ := (hlog.once.first letter).mp (List.mem_map.mpr ⟨_, hmem, rfl⟩)
    obtain ⟨r', hr', hwrites⟩ := hran.requested h (by rw [he]; simp)
    have hpayload := (hown _ r' hr').1.letter hwrites
    rw [hsource] at hpayload
    refine .inr ⟨⟨x, letter.fields⟩, ?_, letter.reason, ?_⟩
    · rw [hlog.entries]
      exact List.mem_append_right _ (List.mem_map.mpr ⟨_, hmem, rfl⟩)
    · rw [← hpayload, ← hsource]
      exact letter.holds x

/-- A step keeps what is accounted for, and acknowledges only that. -/
theorem accountedFor_step (hdedup : ∀ f, s₀.redis.hashValue (deduplicationKey deadLetterStream) f = none)
    (h : Run gate (.init s₀) c) (hstep : Step gate c c')
    (hown : ∀ t r, Requested t r c.trace → r.Own P payloadOf ∧ r.KeysApart deadLetterStream) (m : MessageSource) :
    (AccountedFor P deadLetterStream payloadOf c.state m → AccountedFor P deadLetterStream payloadOf c'.state m) ∧
      (c.state.redis.Pending m.sourceStream m.sourceGroup m.sourceMessageId →
        c'.state.redis.Pending m.sourceStream m.sourceGroup m.sourceMessageId ∨
          AccountedFor P deadLetterStream payloadOf c'.state m) := by
  cases hstep with
  | start t r hg hn => exact ⟨id, .inl⟩
  | call t r x k v s' hp hs =>
    have ha := (Run.follows (messageDiscipline P deadLetterStream) h hp).1
    obtain ⟨hentries, hrows, hpending⟩ := MessageRequest.Allows.grows ha hs
    refine ⟨(·.mono (hentries _) hrows), fun hm => (hpending _ _ _ hm).imp_right ?_⟩
    rintro rfl
    obtain ⟨hsource, hseen⟩ := ha
    have haccounted := accountedFor_of_seen hdedup h hown (h.pool_trace.1 t r _ hp) hseen
    rw [hsource] at haccounted
    exact haccounted.mono (hentries _) hrows
  | env s' he =>
    obtain ⟨-, hentries, hpending, hrows⟩ := he
    exact ⟨(·.mono (hentries ▸ List.prefix_rfl) hrows), fun hm => .inl (hpending _ _ _ hm)⟩

/-- **No message is lost.** In any interleaving, with replies lost, workers that
stop and messages claimed by others, where requests have the source and payload
of their messages, and failures are counted under another key than that of the
dedup hash: a message that was pending is still pending, or its event is recorded
with its own increment, or the dead-letter stream has an entry that holds its
stream, group, id and payload. -/
theorem no_message_lost (hdedup : ∀ f, s₀.redis.hashValue (deduplicationKey deadLetterStream) f = none)
    (h : Interleaved (.init s₀) c) (h' : Interleaved c c')
    (hown : ∀ t r, Requested t r c'.trace → r.Own P payloadOf ∧ r.KeysApart deadLetterStream) (m : MessageSource)
    (hm : c.state.redis.Pending m.sourceStream m.sourceGroup m.sourceMessageId) :
    c'.state.redis.Pending m.sourceStream m.sourceGroup m.sourceMessageId ∨
      AccountedFor P deadLetterStream payloadOf c'.state m := by
  induction h' with
  | refl => exact .inl hm
  | tail hb hstep ih =>
    obtain ⟨u, hu⟩ := Run.trace_suffix (.single hstep)
    have hown := fun t r (hr : Requested t r _) => hown t r (hu ▸ hr.append u)
    obtain ⟨hkept, hleft⟩ := accountedFor_step hdedup (h.trans hb) hstep hown m
    rcases ih hown with hpending | haccounted
    · exact hleft hpending
    · exact .inr (hkept haccounted)

end

/-! ### The key of the dedup hash -/

/-- The message is delivered to a worker. -/
def exampleDelivered : MessageState where
  redis key :=
    if key = "orders" then
      some (.stream ⟨[⟨"1-0", exampleMessage.payload.items⟩], fun group =>
        if group = "workers" then some [("1-0", "worker-a")] else none⟩)
    else none
  database := initializeCounterDatabase 0

/-- The one attempt that is allowed has failed. -/
def exampleFailure (failureCountsKey : String) : MessageRequest :=
  .handleRetryableMessageFailure failureCountsKey exampleMessage (.retryableMessageError "down") "attempt-1" 1

/-- The worker handles the failure. -/
def failureHandled (failureCountsKey : String) : Config (messageSystem .decimal "dead") :=
  Config.schedule (S := messageSystem .decimal "dead") (MessageState.serveNext false) (.init exampleDelivered)
    [.start 0 (exampleFailure failureCountsKey), .call 0, .call 0, .call 0]

theorem failureHandled_run (failureCountsKey : String) :
    Interleaved (.init exampleDelivered) (failureHandled failureCountsKey) :=
  Interleaved.schedule (MessageState.step_serveNext false) _ _

theorem no_message_lost_archived :
    AccountedFor .decimal "dead" (fun _ _ => exampleMessage.payload) (failureHandled "counts").state
      exampleMessage.toMessageSource := by
  have hstarts : starts (failureHandled "counts").trace = [(0, exampleFailure "counts")] := by decide +kernel
  have hown : ∀ t r, Requested t r (failureHandled "counts").trace →
      r.Own .decimal (fun _ _ => exampleMessage.payload) ∧ r.KeysApart "dead" := by
    intro t r hr
    have hmem := hr.mem_starts
    rw [hstarts, List.mem_singleton] at hmem
    cases hmem
    exact ⟨rfl, by decide +kernel⟩
  refine (no_message_lost (fun _ => rfl) .refl (failureHandled_run "counts") hown exampleMessage.toMessageSource
    (by decide +kernel)).resolve_left ?_
  decide +kernel

/-- Counted under the key of the dedup hash, a failure is taken for the id of a
dead letter. -/
theorem message_lost :
    ¬ ∀ (P : PyInt) (deadLetterStream : String) (payloadOf : String → String → Payload) (s₀ : MessageState)
      (c c' : Config (messageSystem P deadLetterStream)),
      (∀ f, s₀.redis.hashValue (deduplicationKey deadLetterStream) f = none) → Interleaved (.init s₀) c →
      Interleaved c c' → (∀ t r, Requested t r c'.trace → r.Own P payloadOf) → ∀ m : MessageSource,
      c.state.redis.Pending m.sourceStream m.sourceGroup m.sourceMessageId →
      c'.state.redis.Pending m.sourceStream m.sourceGroup m.sourceMessageId ∨
        AccountedFor P deadLetterStream payloadOf c'.state m := by
  intro hall
  have hstarts : starts (failureHandled "dead:dedup").trace = [(0, exampleFailure "dead:dedup")] := by
    decide +kernel
  have hown : ∀ t r, Requested t r (failureHandled "dead:dedup").trace →
      r.Own .decimal fun _ _ => exampleMessage.payload := by
    intro t r hr
    have hmem := hr.mem_starts
    rw [hstarts, List.mem_singleton] at hmem
    cases hmem
    rfl
  have hrows : (failureHandled "dead:dedup").state.database.processedEvents = [] := by decide +kernel
  have hentries : (failureHandled "dead:dedup").state.redis.entries "dead" = [] := by decide +kernel
  rcases hall .decimal "dead" _ exampleDelivered _ _ (fun _ => rfl) .refl (failureHandled_run "dead:dedup") hown
    exampleMessage.toMessageSource (by decide +kernel) with
    hpending | ⟨eventId, incrementBy, -, hstored⟩ | ⟨entry, hmem, -⟩
  · exact absurd hpending (by decide +kernel)
  · have hrow := CounterDatabase.mem_of_incrementOf hstored
    rw [hrows] at hrow
    cases hrow
  · rw [hentries] at hmem
    cases hmem

end TaskApi
