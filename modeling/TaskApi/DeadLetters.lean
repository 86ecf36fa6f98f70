/-
# Dead letters are written once

Any number of workers archive messages, with repeated calls, differing payloads
and reasons and lost replies. Of each message the dead-letter stream holds one
entry, that of the first script that ran for it; the dedup hash maps the
message's identity to the id of that entry, and every call for the message that
returns, returns that id.

The stream and its hash are a log and its index (`OnceLog.WrittenOnce`); the JSON
text of a source is as good a key as the source (`messageIdentity_inj`).

Key definitions: `ScriptRan`, `DeadLetterLog`, `DeadLetterInv`.
Key theorems: `DeadLetterLog.script`, `deadLetterInv_run`, `dead_letters_once`.
-/
import TaskApi.Lib.OnceLog
import TaskApi.MessageProcessing

namespace TaskApi

open Conc OnceLog

variable {P : PyInt} {deadLetterStream : String}

/-- The event is a call whose script ran for the letter. -/
def ScriptRan (e : Event (messageSystem P deadLetterStream)) (letter : DeadLetter) : Prop :=
  ∃ t v newId deadLetterId, e.act = .call t (.evalWriteDeadLetterOnce deadLetterStream
      (deduplicationKey deadLetterStream) letter.messageIdentity letter) v ∧
    e.before.redis.writeDeadLetterOnceScript newId deadLetterStream (deduplicationKey deadLetterStream)
      letter.messageIdentity letter = (some deadLetterId, e.after.redis)

/-- Failures are counted under another key than that of the dedup hash. -/
def MessageRequest.KeysApart (deadLetterStream : String) : MessageRequest → Prop
  | .recordMessageFailureOnce failureCountsKey .. => failureCountsKey ≠ deduplicationKey deadLetterStream
  | .handleRetryableMessageFailure failureCountsKey .. => failureCountsKey ≠ deduplicationKey deadLetterStream
  | _ => True

instance (deadLetterStream : String) (r : MessageRequest) : Decidable (r.KeysApart deadLetterStream) := by
  cases r <;> unfold MessageRequest.KeysApart <;> infer_instance

/-- The id a request returns. -/
def MessageResult.deadLetterId : MessageResult → Option String
  | .written deadLetterId => some deadLetterId
  | .archived deadLetterId _ => some deadLetterId
  | _ => none

/-! ### Keys -/

theorem deduplicationKey_ne : deadLetterStream ≠ deduplicationKey deadLetterStream := fun h => by
  have hlength : deadLetterStream.length = (deadLetterStream ++ ":dedup").length := congrArg String.length h
  simp at hlength

theorem recordedAttemptsKey_ne {failureCountsKey : String} :
    deduplicationKey deadLetterStream ≠ recordedAttemptsKey failureCountsKey := fun h => by
  have hlast : (deadLetterStream ++ ":dedup").toList.getLast? = (failureCountsKey ++ ":attempts").toList.getLast? :=
    congrArg (fun s => s.toList.getLast?) h
  simp at hlast

/-- A letter that a request may write is about its message. -/
theorem MessageRequest.Writes.source {r : MessageRequest} {letter : DeadLetter} (h : r.Writes letter) :
    r.source = letter.toMessageSource := by
  cases r with
  | writeDeadLetterOnce m reason | archiveMessageAndAcknowledge m reason =>
    obtain rfl := h
    rfl
  | processCompletionWithFailurePolicy m failedAttempts maxAttempts =>
    obtain ⟨reason, rfl⟩ := h
    rfl
  | handleRetryableMessageFailure failureCountsKey m error attemptId maxAttempts =>
    obtain ⟨reason, rfl⟩ := h
    rfl
  | _ => exact h.elim

theorem MessageRequest.Records.keysApart {r : MessageRequest} {failureCountsKey attemptId : String}
    (h : r.Records failureCountsKey attemptId) (hr : r.KeysApart deadLetterStream) :
    failureCountsKey ≠ deduplicationKey deadLetterStream := by
  cases r with
  | recordMessageFailureOnce key m attempt => exact h.1 ▸ hr
  | handleRetryableMessageFailure key m error attempt maxAttempts => exact h.1 ▸ hr
  | _ => exact h.elim

/-! ### The stream and its hash -/

/-- A script that changes nothing has found the message's entry. -/
theorem ScriptRan.stored {e : Event (messageSystem P deadLetterStream)} {letter : DeadLetter} (h : ScriptRan e letter)
    (hsame : e.after.redis = e.before.redis) :
    e.before.redis.hashValue (deduplicationKey deadLetterStream) letter.messageIdentity ≠ none := by
  obtain ⟨t, v, newId, x, -, hscript⟩ := h
  rcases Keyspace.writeDeadLetterOnceScript_cases deduplicationKey_ne hscript with
    ⟨hx, -⟩ | ⟨existingId, -, -, hstored⟩ | ⟨-, -, hentries, -⟩
  · cases hx
  · rw [hstored]
    exact Option.some_ne_none _
  · rw [hsame] at hentries
    simp at hentries

/-- After what was there earlier, the stream holds the letters of the history, and
the hash is their index. -/
structure DeadLetterLog (earlier : List StreamEntry) (history : List (Event (messageSystem P deadLetterStream)))
    (r : Keyspace) (letters : List (String × DeadLetter)) : Prop where
  entries : r.entries deadLetterStream = earlier ++ letters.map fun l => ⟨l.1, l.2.fields⟩
  once : WrittenOnce ScriptRan DeadLetter.toMessageSource history letters fun source =>
    r.hashValue (deduplicationKey deadLetterStream) source.messageIdentity
  fields : ∀ field x, r.hashValue (deduplicationKey deadLetterStream) field = some x →
    ∃ source : MessageSource, field = source.messageIdentity

namespace DeadLetterLog

variable {earlier : List StreamEntry} {history : List (Event (messageSystem P deadLetterStream))} {r r' : Keyspace}
  {letters : List (String × DeadLetter)}

theorem congr (h : DeadLetterLog earlier history r letters)
    (hentries : r'.entries deadLetterStream = r.entries deadLetterStream)
    (hhash : ∀ f, r'.hashValue (deduplicationKey deadLetterStream) f =
      r.hashValue (deduplicationKey deadLetterStream) f) : DeadLetterLog earlier history r' letters where
  entries := hentries.trans h.entries
  once := by simpa only [hhash] using h.once
  fields f x hf := h.fields f x (hhash f ▸ hf)

/-- An event whose script found an entry, or that ran none. -/
theorem skip (h : DeadLetterLog earlier history r letters) {e : Event (messageSystem P deadLetterStream)}
    (he : ∀ letter, ScriptRan e letter →
      r.hashValue (deduplicationKey deadLetterStream) letter.messageIdentity ≠ none) :
    DeadLetterLog earlier (e :: history) r letters where
  entries := h.entries
  once := h.once.skip he
  fields := h.fields

/-- An event that changes nothing. -/
theorem unchanged (h : DeadLetterLog earlier history r letters) {e : Event (messageSystem P deadLetterStream)}
    (hbefore : e.before.redis = r) (hafter : e.after.redis = r) : DeadLetterLog earlier (e :: history) r letters :=
  h.skip fun _ hran => hbefore ▸ hran.stored (hafter.trans hbefore.symm)

/-- An event whose script adds its letter. -/
theorem add (h : DeadLetterLog earlier history r letters) {e : Event (messageSystem P deadLetterStream)}
    {letter : DeadLetter} {newId : String} (hwrote : ∀ letter', ScriptRan e letter' ↔ letter' = letter)
    (hfresh : newId ∉ (r.entries deadLetterStream).map (·.id))
    (hnone : r.hashValue (deduplicationKey deadLetterStream) letter.messageIdentity = none)
    (hentries : r'.entries deadLetterStream = r.entries deadLetterStream ++ [⟨newId, letter.fields⟩])
    (hhash : ∀ f, r'.hashValue (deduplicationKey deadLetterStream) f =
      if f = letter.messageIdentity then some newId else r.hashValue (deduplicationKey deadLetterStream) f) :
    DeadLetterLog earlier (e :: history) r' (letters ++ [(newId, letter)]) where
  entries := by simp [hentries, h.entries]
  once := by
    have hindex : (fun source : MessageSource =>
        r'.hashValue (deduplicationKey deadLetterStream) source.messageIdentity) =
        Function.update (fun source : MessageSource =>
          r.hashValue (deduplicationKey deadLetterStream) source.messageIdentity) letter.toMessageSource
            (some newId) := by
      funext source
      rw [hhash, Function.update_apply]
      simp only [MessageSource.messageIdentity_inj]
    have hunused : newId ∉ letters.map Prod.fst := fun hmem => hfresh (by
      obtain ⟨l, hl, rfl⟩ := List.mem_map.mp hmem
      rw [h.entries, List.map_append, List.mem_append, List.map_map]
      exact .inr (List.mem_map.mpr ⟨l, hl, rfl⟩))
    rw [hindex]
    exact h.once.add hwrote hnone hunused
  fields f x hf := by
    rw [hhash] at hf
    split_ifs at hf with heq
    · exact ⟨_, heq⟩
    · exact h.fields f x hf

/-- A script that runs finds the message's entry or adds one; the hash then has
the id it replies. -/
theorem script (h : DeadLetterLog earlier history r letters) {e : Event (messageSystem P deadLetterStream)}
    {t : ℕ} {letter : DeadLetter} {v : Except MessageExn String} {newId : String} {reply : Option String}
    (hact : e.act = .call t (.evalWriteDeadLetterOnce deadLetterStream (deduplicationKey deadLetterStream)
      letter.messageIdentity letter) v) (hbefore : e.before.redis = r)
    (hfresh : newId ∉ (r.entries deadLetterStream).map (·.id))
    (hscript : r.writeDeadLetterOnceScript newId deadLetterStream (deduplicationKey deadLetterStream)
      letter.messageIdentity letter = (reply, e.after.redis)) :
    (∃ letters, DeadLetterLog earlier (e :: history) e.after.redis letters) ∧
      (∀ f x, r.hashValue (deduplicationKey deadLetterStream) f = some x →
        e.after.redis.hashValue (deduplicationKey deadLetterStream) f = some x) ∧
      ∀ x, reply = some x →
        e.after.redis.hashValue (deduplicationKey deadLetterStream) letter.messageIdentity = some x := by
  -- the letter of the event is the one of its call
  have hletter : ∀ letter', ScriptRan e letter' → letter' = letter := by
    rintro letter' ⟨t', v', newId', x', hact', -⟩
    rw [hact] at hact'
    simp only [Act.call.injEq, MessageCall.evalWriteDeadLetterOnce.injEq] at hact'
    exact hact'.2.1.2.2.2.symm
  rcases Keyspace.writeDeadLetterOnceScript_cases deduplicationKey_ne hscript with
    ⟨rfl, hr⟩ | ⟨existingId, rfl, hr, hstored⟩ | ⟨rfl, hnone, hentries, hhash, -⟩
  · rw [hr]
    exact ⟨⟨letters, h.unchanged hbefore hr⟩, fun _ _ hx => hx, fun _ hx => by cases hx⟩
  · rw [hr]
    exact ⟨⟨letters, h.unchanged hbefore hr⟩, fun _ _ hx => hx, fun x hx => hstored.trans hx⟩
  · have hwrote : ∀ letter', ScriptRan e letter' ↔ letter' = letter := by
      refine fun letter' => ⟨hletter letter', ?_⟩
      rintro rfl
      exact ⟨t, v, newId, newId, hact, hbefore ▸ hscript⟩
    refine ⟨⟨_, h.add hwrote hfresh hnone hentries hhash⟩, fun f x hx => ?_, fun x hx => ?_⟩
    · rw [hhash]
      split_ifs with heq
      · rw [heq, hnone] at hx
        cases hx
      · exact hx
    · rw [hhash, if_pos rfl, hx]

end DeadLetterLog

/-! ### Over a run -/

/-- A call other than the script leaves the id of a phase as it is. -/
theorem MessagePhase.next_deadLetterId {q : MessagePhase} {x : MessageCall} {v : messageCalls.Out x}
    (hx : ∀ deadLetterStream key identity letter, x ≠ .evalWriteDeadLetterOnce deadLetterStream key identity letter) :
    (q.next x v).deadLetterId = q.deadLetterId := by
  cases x with
  | evalWriteDeadLetterOnce deadLetterStream key identity letter => exact absurd rfl (hx _ _ _ _)
  | _ => cases v <;> rfl

/-- The stream and its hash are in step, and the hash has every id that a request
has been given. -/
structure DeadLetterInv (earlier : List StreamEntry) (s : MessageState)
    (tr : List (Event (messageSystem P deadLetterStream))) : Prop where
  log : ∃ letters, DeadLetterLog earlier tr s.redis letters
  given : ∀ t r x, Requested t r tr → (phase messageAutomaton t tr).deadLetterId = some x →
    s.redis.hashValue (deduplicationKey deadLetterStream) r.source.messageIdentity = some x

namespace DeadLetterInv

variable {earlier : List StreamEntry} {s s' : MessageState} {tr : List (Event (messageSystem P deadLetterStream))}
  {t : ℕ} {r : MessageRequest}

theorem init (hdedup : ∀ f, s.redis.hashValue (deduplicationKey deadLetterStream) f = none) :
    DeadLetterInv (s.redis.entries deadLetterStream) s ([] : List (Event (messageSystem P deadLetterStream))) where
  log := ⟨[], by simp, by simpa only [hdedup] using WrittenOnce.nil, by simp [hdedup]⟩
  given := by rintro t r x ⟨s, hs⟩; cases hs

theorem start (h : DeadLetterInv earlier s tr) (hfresh : ∀ e ∈ tr, e.act.thread ≠ t) :
    DeadLetterInv earlier s (⟨s, s, .start t r⟩ :: tr) where
  log := h.log.imp fun _ hlog => hlog.unchanged rfl rfl
  given t' r' x hr hx := by
    rw [phase_start] at hx
    rcases requested_start.mp hr with ⟨-, rfl, rfl⟩ | hr
    · rw [phase_eq_init messageAutomaton hfresh] at hx
      cases hx
    · exact h.given t' r' x hr hx

/-- What touches neither the stream nor the hash. -/
theorem congr (h : DeadLetterInv earlier s tr)
    (hentries : s'.redis.entries deadLetterStream = s.redis.entries deadLetterStream)
    (hhash : ∀ f, s'.redis.hashValue (deduplicationKey deadLetterStream) f =
      s.redis.hashValue (deduplicationKey deadLetterStream) f) : DeadLetterInv earlier s' tr where
  log := h.log.imp fun _ hlog => hlog.congr hentries hhash
  given t r x hr hx := (hhash _).trans (h.given t r x hr hx)

/-- A call other than the script. -/
theorem other (h : DeadLetterInv earlier s tr) {x : MessageCall} {v : messageCalls.Out x}
    (hx : ∀ deadLetterStream key identity letter, x ≠ .evalWriteDeadLetterOnce deadLetterStream key identity letter)
    (hentries : s'.redis.entries deadLetterStream = s.redis.entries deadLetterStream)
    (hhash : ∀ f, s'.redis.hashValue (deduplicationKey deadLetterStream) f =
      s.redis.hashValue (deduplicationKey deadLetterStream) f) :
    DeadLetterInv earlier s' (⟨s, s', .call t x v⟩ :: tr) where
  log := by
    refine h.log.imp fun _ hlog => (hlog.skip fun letter hran => ?_).congr hentries hhash
    obtain ⟨t', v', newId, y, hact, -⟩ := hran
    simp only [Act.call.injEq] at hact
    exact absurd hact.2.1 (hx _ _ _ _)
  given t' r y hr hy := by
    rw [hhash]
    refine h.given t' r y (requested_call.mp hr) ?_
    by_cases ht : t = t'
    · subst ht
      rwa [phase_call_self, MessagePhase.next_deadLetterId hx] at hy
    · rwa [phase_call_ne messageAutomaton ht] at hy

/-- The script of a request's own letter. -/
theorem script (h : DeadLetterInv earlier s tr) {letter : DeadLetter} {v : Except MessageExn String}
    (hsource : ∀ r, Requested t r tr → r.source = letter.toMessageSource)
    (hs : MessageState.step (.evalWriteDeadLetterOnce deadLetterStream (deduplicationKey deadLetterStream)
      letter.messageIdentity letter) s v s') :
    DeadLetterInv earlier s' (⟨s, s', .call t (.evalWriteDeadLetterOnce deadLetterStream
      (deduplicationKey deadLetterStream) letter.messageIdentity letter) v⟩ :: tr) := by
  obtain ⟨letters, hlog⟩ := h.log
  rcases (MessageState.step_evalWriteDeadLetterOnce hs).2 with ⟨rfl, e, rfl⟩ | ⟨newId, reply, hfresh, hscript, hv⟩
  · refine ⟨⟨letters, hlog.unchanged rfl rfl⟩, fun t' r x hr hx => h.given t' r x (requested_call.mp hr) ?_⟩
    by_cases ht : t = t'
    · subst ht
      rwa [phase_call_self] at hx
    · rwa [phase_call_ne messageAutomaton ht] at hx
  · obtain ⟨hlog', hkept, hreply⟩ := hlog.script (e := ⟨s, s', .call t (.evalWriteDeadLetterOnce deadLetterStream
      (deduplicationKey deadLetterStream) letter.messageIdentity letter) v⟩) rfl rfl hfresh hscript
    refine ⟨hlog', fun t' r x hcall hx => ?_⟩
    have hr := requested_call.mp hcall
    by_cases ht : t = t'
    · subst ht
      rw [phase_call_self] at hx
      rcases v with e | deadLetterId
      · exact hkept _ _ (h.given t r x hr hx)
      · obtain rfl : deadLetterId = x := Option.some.inj hx
        rw [hsource r hr]
        exact hreply _ (hv _ rfl)
    · rw [phase_call_ne messageAutomaton ht] at hx
      exact hkept _ _ (h.given t' r x hr hx)

end DeadLetterInv

section

variable {gate : Config (messageSystem P deadLetterStream) → Prop} {s₀ : MessageState}
  {c : Config (messageSystem P deadLetterStream)}

theorem deadLetterInv_run (hdedup : ∀ f, s₀.redis.hashValue (deduplicationKey deadLetterStream) f = none)
    (h : Run gate (.init s₀) c) (hkeys : ∀ t r, Requested t r c.trace → r.KeysApart deadLetterStream) :
    DeadLetterInv (s₀.redis.entries deadLetterStream) c.state c.trace := by
  revert hkeys
  refine @Run.invariant _ _ gate s₀ (messageDiscipline P deadLetterStream) (fun s tr =>
    (∀ t r, Requested t r tr → r.KeysApart deadLetterStream) →
      DeadLetterInv (s₀.redis.entries deadLetterStream) s tr) (fun _ => .init hdedup) ?_ ?_ ?_ c h
  · intro b hb ih t r hn hkeys
    exact (ih fun t' r' hr => hkeys t' r' (hr.cons _)).start (Run.not_acted hb hn)
  · intro b hb ih t r x v s' hrun hr ha hs hkeys
    have hinv := ih fun t' r' hr' => hkeys t' r' (hr'.cons _)
    cases x with
    | applyCompletionOnce eventId incrementBy =>
      have hredis := (MessageState.step_applyCompletionOnce hs).1
      exact hinv.other (by simp) (by rw [hredis]) fun f => by rw [hredis]
    | xAck streamKey groupName messageId =>
      obtain ⟨-, hentries, hhash, -⟩ := MessageState.step_xAck hs
      exact hinv.other (by simp) (hentries _) fun f => hhash _ f
    | evalWriteDeadLetterOnce deadLetterStream' key messageIdentity letter =>
      obtain ⟨rfl, rfl, rfl, hwrites⟩ := ha
      refine hinv.script (fun r' hr' => ?_) hs
      rw [hb.requested_unique hr' hr]
      exact hwrites.source
    | evalRecordMessageFailureOnce failureCountsKey key messageIdentity attemptIdentity =>
      obtain ⟨attemptId, hrecords, rfl, -⟩ := ha
      obtain ⟨-, hsame, hhash⟩ := MessageState.step_evalRecordMessageFailureOnce hs
      have hne := hrecords.keysApart (hkeys t r (hr.cons _))
      exact hinv.other (by simp) (hsame _).1 fun f => hhash _ f hne.symm recordedAttemptsKey_ne
  · intro b hb ih s' he hkeys
    exact (ih hkeys).congr he.2.1 fun f => he.1 _ f

/-- A script that ran was that of a request's own letter. -/
theorem ScriptRan.requested (h : Run gate (.init s₀) c) {e : Event (messageSystem P deadLetterStream)}
    (he : e ∈ c.trace) {letter : DeadLetter} (hran : ScriptRan e letter) :
    ∃ r, Requested e.act.thread r c.trace ∧ r.Writes letter := by
  obtain ⟨u, tr, he⟩ := List.append_of_mem he
  rcases e with ⟨s, s', act⟩
  obtain ⟨t, v, newId, deadLetterId, rfl, -⟩ := hran
  obtain ⟨b, r, -, -, -, -, hr, -, ha, -⟩ := Run.made (messageDiscipline P deadLetterStream) h he
  exact ⟨r, he ▸ (hr.cons _).append u, ha.2.2.2⟩

/-- A request that returns an id was given it by the script. -/
theorem deadLetterId_given (h : Run gate (.init s₀) c) {t : ℕ} {r : MessageRequest} {result : MessageResult}
    {x : String} (hr : Requested t r c.trace) (hresult : c.result t = some (.ok result))
    (hx : result.deadLetterId = some x) : (phase messageAutomaton t c.trace).deadLetterId = some x := by
  have hends := Run.final (messageDiscipline P deadLetterStream) h hr hresult
  cases r with
  | writeDeadLetterOnce m reason =>
    obtain ⟨deadLetterId, hphase, rfl⟩ := hends
    exact hphase.trans hx
  | archiveMessageAndAcknowledge m reason =>
    obtain ⟨deadLetterId, acknowledgedCount, hphase, rfl⟩ := hends
    exact hphase.trans hx
  | processCompletionAndAcknowledge m eventId incrementBy =>
    obtain ⟨applied, acknowledgedCount, -, rfl⟩ := hends
    cases hx
  | processCompletionWithFailurePolicy m failedAttempts maxAttempts =>
    rcases hends with ⟨applied, -, rfl⟩ | rfl | ⟨-, rfl⟩ <;> cases hx
  | recordMessageFailureOnce failureCountsKey m attemptId =>
    obtain ⟨failureCount, -, rfl⟩ := hends
    cases hx
  | handleRetryableMessageFailure failureCountsKey m error attemptId maxAttempts =>
    obtain ⟨failureCount, -, -, ⟨-, rfl⟩ | ⟨-, -, rfl⟩⟩ := hends <;> cases hx

/-- **Dead letters are written once.** In any interleaving, from an empty stream
and an empty dedup hash, with replies lost: the entries of the stream are one
letter for each message whose script ever ran, that of the first call whose
script ran, and each entry holds the values of its letter under their names; a
script's letter is its request's; the hash maps exactly the identities of the
letters, to their ids; and a request that returns an id returns that of its
message's letter. Only what counts failures has to keep off the hash. -/
theorem dead_letters_once (hempty : s₀.redis.entries deadLetterStream = [])
    (hdedup : ∀ f, s₀.redis.hashValue (deduplicationKey deadLetterStream) f = none) (h : Interleaved (.init s₀) c)
    (hkeys : ∀ t r, Requested t r c.trace → r.KeysApart deadLetterStream) :
    ∃ letters : List (String × DeadLetter),
      c.state.redis.entries deadLetterStream = letters.map (fun l => ⟨l.1, l.2.fields⟩) ∧
      (∀ l ∈ letters, StreamEntry.Holds ⟨l.1, l.2.fields⟩ l.2) ∧
      (letters.map fun l => l.1).Nodup ∧ (letters.map fun l => l.2.toMessageSource).Nodup ∧
      (∀ letter, letter ∈ letters.map (fun l => l.2) ↔
        FirstWrite ScriptRan DeadLetter.toMessageSource c.trace letter) ∧
      (∀ e ∈ c.trace, ∀ letter, ScriptRan e letter → (∃ r, Requested e.act.thread r c.trace ∧ r.Writes letter) ∧
        letter.toMessageSource ∈ letters.map fun l => l.2.toMessageSource) ∧
      (∀ f x, c.state.redis.hashValue (deduplicationKey deadLetterStream) f = some x ↔
        ∃ l ∈ letters, l.1 = x ∧ l.2.messageIdentity = f) ∧
      ∀ t r result x, Requested t r c.trace → c.result t = some (.ok result) → result.deadLetterId = some x →
        ∃ l ∈ letters, l.1 = x ∧ l.2.toMessageSource = r.source := by
  have hinv := deadLetterInv_run hdedup h hkeys
  obtain ⟨letters, hlog⟩ := hinv.log
  have hindex : ∀ (source : MessageSource) x,
      c.state.redis.hashValue (deduplicationKey deadLetterStream) source.messageIdentity = some x ↔
        ∃ l ∈ letters, l.1 = x ∧ l.2.toMessageSource = source := by
    intro source x
    rw [hlog.once.index_iff source x]
    exact ⟨fun ⟨letter, hmem, hsource⟩ => ⟨_, hmem, rfl, hsource⟩, fun ⟨l, hmem, hx, hsource⟩ =>
      ⟨l.2, hx ▸ hmem, hsource⟩⟩
  refine ⟨letters, ?_, fun l _ => l.2.holds l.1, hlog.once.nodup_id, hlog.once.nodup_key, hlog.once.first,
    fun e he letter hran => ⟨hran.requested h he, ?_⟩, fun f x => ?_, fun t r result x hr hresult hx => ?_⟩
  · rw [hlog.entries, hempty, List.nil_append]
  · obtain ⟨letter', hsource, hfirst⟩ := exists_firstWrite DeadLetter.toMessageSource ⟨e, he, hran⟩
    obtain ⟨l, hl, rfl⟩ := List.mem_map.mp ((hlog.once.first letter').mpr hfirst)
    exact List.mem_map.mpr ⟨l, hl, hsource⟩
  · constructor
    · intro hx
      obtain ⟨source, rfl⟩ := hlog.fields f x hx
      obtain ⟨l, hl, hid, rfl⟩ := (hindex source x).mp hx
      exact ⟨l, hl, hid, rfl⟩
    · rintro ⟨l, hl, hid, rfl⟩
      exact (hindex _ x).mpr ⟨l, hl, hid, rfl⟩
  · exact (hindex r.source x).mp (hinv.given t r x hr (deadLetterId_given h hr hresult hx))

end

/-! ### A lost reply -/

def exampleMessage : StreamMessage where
  sourceStream := "orders"
  sourceGroup := "workers"
  sourceMessageId := "1-0"
  payload := ⟨[("event_id", "event-a"), ("increment_by", "3")], by decide⟩

def exampleMessages : MessageState := ⟨fun _ => none, initializeCounterDatabase 0⟩

/-- The reply of the first script is lost, and the message archived again for
another reason. -/
def archivedTwice : Config (messageSystem .decimal "dead") :=
  Config.schedule (S := messageSystem .decimal "dead") (MessageState.serveNext false)
    (Config.schedule (S := messageSystem .decimal "dead") (MessageState.serveNext true) (.init exampleMessages)
      [.start 0 (.archiveMessageAndAcknowledge exampleMessage "conflict"), .call 0])
    [.start 1 (.archiveMessageAndAcknowledge exampleMessage "late"), .call 1, .call 1]

theorem dead_letters_once_retry : ∃ letters : List (String × DeadLetter),
    archivedTwice.state.redis.entries "dead" = letters.map (fun l => ⟨l.1, l.2.fields⟩) ∧
      (∀ l ∈ letters, StreamEntry.Holds ⟨l.1, l.2.fields⟩ l.2) ∧
      (letters.map fun l => l.2.toMessageSource).Nodup ∧
      ∃ l ∈ letters, l.1 = "0-0" ∧ l.2.toMessageSource = exampleMessage.toMessageSource := by
  have hrun : Interleaved (.init exampleMessages) archivedTwice :=
    (Interleaved.schedule (MessageState.step_serveNext true) _ _).trans
      (Interleaved.schedule (MessageState.step_serveNext false) _ _)
  have hkeys : ∀ p ∈ starts archivedTwice.trace, p.2.KeysApart "dead" := by decide +kernel
  have hresult : archivedTwice.result 1 = some (.ok (.archived "0-0" 0)) := by decide +kernel
  have hrequested : Requested 1 (MessageRequest.archiveMessageAndAcknowledge exampleMessage "late")
      archivedTwice.trace := hrun.requested (by decide +kernel)
  obtain ⟨letters, hentries, hholds, -, hsources, -, -, -, hreturned⟩ :=
    dead_letters_once rfl (fun _ => rfl) hrun fun t r hr => hkeys _ hr.mem_starts
  exact ⟨letters, hentries, hholds, hsources, hreturned 1 _ _ "0-0" hrequested hresult rfl⟩

end TaskApi
