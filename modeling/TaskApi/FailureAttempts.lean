/-
# Failed attempts are numbered as they come

Any number of workers record failed attempts of any messages, again and again and
with replies lost. For each message the script gives its attempts the numbers
one, two, three, … in the order in which they are first recorded, and answers a
repeated call with the number of the first; what happens to other messages does
not touch them.

The count of a message and the numbers of its attempts are two hashes, keyed by
two JSON texts that are never the same; between them they are a numbering
(`Numbering.Numbered`). A number passes through the script as a double and is
replied as an integer of 64 bits, so from 2^53 attempts on two attempts can have
one number (`numbered_twice`).

Key definitions: `FailureRan`, `recordedAttempts`, `AttemptLog`, `Handled`.
Key theorems: `AttemptLog.script`, `attemptLog_run`, `failures_numbered`,
`dead_lettered_answers`.
-/
import TaskApi.DeadLetters
import TaskApi.Lib.Numbering

namespace TaskApi

open Conc Numbering

variable {P : PyInt} {deadLetterStream : String}

/-! ### Keys and numbers -/

theorem failureCountsKey_ne {failureCountsKey : String} :
    failureCountsKey ≠ recordedAttemptsKey failureCountsKey := fun h => by
  have hlength : failureCountsKey.length = (failureCountsKey ++ ":attempts").length := congrArg String.length h
  simp at hlength

theorem recordedAttemptsKey_inj {failureCountsKey failureCountsKey' : String} :
    recordedAttemptsKey failureCountsKey = recordedAttemptsKey failureCountsKey' ↔
      failureCountsKey = failureCountsKey' := String.append_left_inj ":attempts"

/-- The text a number is stored with. -/
def attemptLabel (n : ℕ) : String := toString (toDouble n)

theorem toInt?_of_redisInteger {text : String} {n : ℤ} (h : redisInteger text = some n) : text.toInt? = some n :=
  (Option.mem_filter_iff.mp (Option.mem_def.mpr h)).1

theorem toDouble_toDouble (n : ℕ) : toDouble (toDouble n) = toDouble n := by
  rw [toDouble_natCast, toDouble_natCast, HalfEven.round_round (by norm_num)]

theorem toDouble_of_le {n : ℕ} (h : n ≤ 2 ^ 53) : toDouble n = n := by
  rw [toDouble_natCast, HalfEven.round_of_le (by norm_num) h]

theorem toDouble_mono {n n' : ℕ} (h : n ≤ n') : toDouble n ≤ toDouble n' := by
  rw [toDouble_natCast, toDouble_natCast]
  exact_mod_cast HalfEven.round_mono (by norm_num) h

/-! ### What is stored -/

namespace Keyspace

variable (r : Keyspace) (failureCountsKey : String) (m : MessageSource)

/-- The failures counted for the message; `none` if the value is not a number. -/
def failureCount : Option ℤ := (r.hashValue failureCountsKey m.messageIdentity).elim (some 0) redisInteger

/-- What is stored for an attempt. -/
def attemptText (attemptId : String) : Option String :=
  r.hashValue (recordedAttemptsKey failureCountsKey) (m.attemptIdentity attemptId)

/-- The number recorded for an attempt. -/
def attemptNumber (attemptId : String) : Option ℤ := (r.attemptText failureCountsKey m attemptId).bind String.toInt?

end Keyspace

/-- The event is a call whose script ran for the attempt. -/
def FailureRan (failureCountsKey : String) (m : MessageSource) (e : Event (messageSystem P deadLetterStream))
    (attemptId : String) : Prop :=
  ∃ t v failureCount, e.act = .call t (.evalRecordMessageFailureOnce failureCountsKey
      (recordedAttemptsKey failureCountsKey) m.messageIdentity (m.attemptIdentity attemptId)) v ∧
    e.before.redis.recordMessageFailureOnceScript failureCountsKey (recordedAttemptsKey failureCountsKey)
      m.messageIdentity (m.attemptIdentity attemptId) = (some failureCount, e.after.redis)

/-- The attempts of the message that were recorded. -/
def recordedAttempts (failureCountsKey : String) (m : MessageSource)
    (tr : List (Event (messageSystem P deadLetterStream))) : Set String :=
  {attemptId | ∃ e ∈ tr, FailureRan failureCountsKey m e attemptId}

/-- The attempts of a message, in the order in which they were first recorded. -/
structure AttemptLog (failureCountsKey : String) (m : MessageSource) (attempts : List String) (r : Keyspace)
    (tr : List (Event (messageSystem P deadLetterStream))) : Prop where
  numbered : Numbered (FailureRan failureCountsKey m) attemptLabel tr attempts (r.attemptText failureCountsKey m)
  count : r.failureCount failureCountsKey m = some (attempts.length : ℤ)
  replied : ∀ e ∈ tr, ∀ t attemptId failureCount, e.act = .call t (.evalRecordMessageFailureOnce failureCountsKey
      (recordedAttemptsKey failureCountsKey) m.messageIdentity (m.attemptIdentity attemptId)) (.ok failureCount) →
    ∃ i, attempts[i]? = some attemptId ∧ failureCount = replyInteger (toDouble (i + 1 : ℕ))

namespace AttemptLog

variable {failureCountsKey : String} {m : MessageSource} {attempts : List String} {r r' : Keyspace}
  {tr : List (Event (messageSystem P deadLetterStream))}

theorem nil (hcount : r.hashValue failureCountsKey m.messageIdentity = none)
    (hattempts : ∀ attemptId, r.attemptText failureCountsKey m attemptId = none) :
    AttemptLog failureCountsKey m [] r ([] : List (Event (messageSystem P deadLetterStream))) where
  numbered := by
    have hnone : r.attemptText failureCountsKey m = fun _ => none := funext hattempts
    rw [hnone]
    exact .nil
  count := by simp [Keyspace.failureCount, hcount]
  replied e he := by cases he

/-- What changes none of the message's fields. -/
theorem congr (h : AttemptLog failureCountsKey m attempts r tr)
    (hcount : r'.failureCount failureCountsKey m = r.failureCount failureCountsKey m)
    (hattempts : ∀ attemptId,
      r'.attemptText failureCountsKey m attemptId = r.attemptText failureCountsKey m attemptId) :
    AttemptLog failureCountsKey m attempts r' tr where
  numbered := by
    have hsame : r'.attemptText failureCountsKey m = r.attemptText failureCountsKey m := funext hattempts
    rw [hsame]
    exact h.numbered
  count := hcount.trans h.count
  replied := h.replied

/-- An event that is no call for an attempt of the message. -/
theorem skip (h : AttemptLog failureCountsKey m attempts r tr) {e : Event (messageSystem P deadLetterStream)}
    (he : ∀ t attemptId v, e.act ≠ .call t (.evalRecordMessageFailureOnce failureCountsKey
      (recordedAttemptsKey failureCountsKey) m.messageIdentity (m.attemptIdentity attemptId)) v) :
    AttemptLog failureCountsKey m attempts r (e :: tr) where
  numbered := h.numbered.skip fun attemptId ⟨t, v, _, hact, _⟩ => absurd hact (he t attemptId v)
  count := h.count
  replied e' he' t attemptId failureCount hact := by
    rcases List.mem_cons.mp he' with rfl | he'
    · exact absurd hact (he t attemptId _)
    · exact h.replied e' he' t attemptId failureCount hact

variable {e : Event (messageSystem P deadLetterStream)} {t : ℕ} {attemptId : String} {v : Except MessageExn ℤ}

/-- A call for an attempt whose script found it, or did not run. -/
theorem found (h : AttemptLog failureCountsKey m attempts r tr)
    (hact : e.act = .call t (.evalRecordMessageFailureOnce failureCountsKey
      (recordedAttemptsKey failureCountsKey) m.messageIdentity (m.attemptIdentity attemptId)) v)
    (hran : FailureRan failureCountsKey m e attemptId → attemptId ∈ attempts)
    (hv : ∀ failureCount, v = .ok failureCount →
      ∃ i, attempts[i]? = some attemptId ∧ failureCount = replyInteger (toDouble (i + 1 : ℕ))) :
    AttemptLog failureCountsKey m attempts r (e :: tr) where
  numbered := by
    refine h.numbered.skip fun attemptId' hran' => ?_
    obtain ⟨t', v', n, hact', -⟩ := id hran'
    rw [hact] at hact'
    simp only [Act.call.injEq, MessageCall.evalRecordMessageFailureOnce.injEq] at hact'
    obtain ⟨-, rfl⟩ := MessageSource.attemptIdentity_inj.mp hact'.2.1.2.2.2
    exact hran hran'
  count := h.count
  replied e' he' t' attemptId' failureCount hact' := by
    rcases List.mem_cons.mp he' with rfl | he'
    · rw [hact] at hact'
      simp only [Act.call.injEq, MessageCall.evalRecordMessageFailureOnce.injEq] at hact'
      obtain ⟨-, rfl⟩ := MessageSource.attemptIdentity_inj.mp hact'.2.1.2.2.2
      exact hv failureCount (eq_of_heq hact'.2.2)
    · exact h.replied e' he' t' attemptId' failureCount hact'

/-- A call whose script counts a new attempt. -/
theorem add (h : AttemptLog failureCountsKey m attempts r tr) {failureCount : ℤ}
    (hact : e.act = .call t (.evalRecordMessageFailureOnce failureCountsKey
      (recordedAttemptsKey failureCountsKey) m.messageIdentity (m.attemptIdentity attemptId)) v)
    (hran : FailureRan failureCountsKey m e attemptId)
    (hnone : r.attemptText failureCountsKey m attemptId = none)
    (hcount : r.failureCount failureCountsKey m = some (failureCount - 1)) (hfits : FitsInteger failureCount)
    (hhash : ∀ k f, r'.hashValue k f =
      if k = failureCountsKey ∧ f = m.messageIdentity then some (toString failureCount)
      else if k = recordedAttemptsKey failureCountsKey ∧ f = m.attemptIdentity attemptId then
        some (toString (toDouble failureCount))
      else r.hashValue k f)
    (hv : ∀ n, v = .ok n → n = replyInteger (toDouble failureCount)) :
    AttemptLog failureCountsKey m (attempts ++ [attemptId]) r' (e :: tr) := by
  have hnumber : failureCount = (attempts.length + 1 : ℕ) := by
    have heq := hcount.symm.trans h.count
    simp only [Option.some.injEq] at heq
    push_cast
    omega
  have hevent : ∀ t' attemptId' v', e.act = .call t' (.evalRecordMessageFailureOnce failureCountsKey
      (recordedAttemptsKey failureCountsKey) m.messageIdentity (m.attemptIdentity attemptId')) v' →
      attemptId' = attemptId ∧ HEq v v' := by
    intro t' attemptId' v' hact'
    rw [hact] at hact'
    simp only [Act.call.injEq, MessageCall.evalRecordMessageFailureOnce.injEq] at hact'
    obtain ⟨-, rfl⟩ := MessageSource.attemptIdentity_inj.mp hact'.2.1.2.2.2
    exact ⟨rfl, hact'.2.2⟩
  have htext : r'.attemptText failureCountsKey m =
      Function.update (r.attemptText failureCountsKey m) attemptId (some (attemptLabel (attempts.length + 1))) := by
    funext attemptId'
    rw [Keyspace.attemptText, hhash, if_neg fun hf => failureCountsKey_ne hf.1.symm, Function.update_apply]
    simp only [true_and, MessageSource.attemptIdentity_inj]
    split_ifs
    · rw [hnumber, attemptLabel]
    · rfl
  constructor
  · rw [htext]
    refine h.numbered.add (fun attemptId' => ⟨?_, by rintro rfl; exact hran⟩) (h.numbered.not_mem_of_kept hnone)
    rintro ⟨t', v', n, hact', -⟩
    exact (hevent t' attemptId' v' hact').1
  · rw [Keyspace.failureCount, hhash, if_pos ⟨rfl, rfl⟩, Option.elim_some, redisInteger_toString hfits, hnumber,
      List.length_append, List.length_singleton]
  · intro e' he' t' attemptId' n hact'
    rcases List.mem_cons.mp he' with rfl | he'
    · obtain ⟨rfl, heq⟩ := hevent t' attemptId' (.ok n) hact'
      refine ⟨attempts.length, List.getElem?_concat_length, ?_⟩
      rw [hv n (eq_of_heq heq), hnumber]
    · obtain ⟨i, hi, heq⟩ := h.replied e' he' t' attemptId' n hact'
      exact ⟨i, by rw [List.getElem?_append_left (List.getElem?_eq_some_iff.mp hi).1, hi], heq⟩

/-- A script that runs for an attempt of the message finds it or counts it. -/
theorem script (h : AttemptLog failureCountsKey m attempts r tr) {reply : Option ℤ}
    (hact : e.act = .call t (.evalRecordMessageFailureOnce failureCountsKey
      (recordedAttemptsKey failureCountsKey) m.messageIdentity (m.attemptIdentity attemptId)) v)
    (hbefore : e.before.redis = r)
    (hscript : r.recordMessageFailureOnceScript failureCountsKey (recordedAttemptsKey failureCountsKey)
      m.messageIdentity (m.attemptIdentity attemptId) = (reply, e.after.redis))
    (hv : ∀ failureCount, v = .ok failureCount → reply = some failureCount) :
    ∃ more, AttemptLog failureCountsKey m (attempts ++ more) e.after.redis (e :: tr) := by
  rcases Keyspace.recordMessageFailureOnceScript_cases failureCountsKey_ne hscript with
    ⟨rfl, hr⟩ | ⟨recordedCount, rfl, hr, hstored⟩ | ⟨failureCount, hnone, hcount, hfits, rfl, hhash⟩
  · rw [hr]
    refine ⟨[], ?_⟩
    rw [List.append_nil]
    refine h.found hact ?_ fun n hn => by cases hv n hn
    rintro ⟨t', v', n, -, hran⟩
    rw [hbefore, hscript] at hran
    cases hran
  · obtain ⟨i, hi, rfl⟩ := h.numbered.exists_of_kept hstored
    rw [hr]
    refine ⟨[], ?_⟩
    rw [List.append_nil]
    refine h.found hact (fun _ => List.mem_of_getElem? hi) fun n hn => ⟨i, hi, ?_⟩
    have hread : (attemptLabel (i + 1)).toInt? = some (toDouble (i + 1 : ℕ)) := Int.toInt?_repr (toDouble (i + 1 : ℕ))
    have hreply := hv n hn
    rw [hread, Option.map_some, toDouble_toDouble, Option.some.injEq] at hreply
    exact hreply.symm
  · have hran : FailureRan failureCountsKey m e attemptId := ⟨t, v, _, hact, hbefore ▸ hscript⟩
    exact ⟨_, h.add hact hran hnone hcount hfits hhash fun n hn => (Option.some.inj (hv n hn)).symm⟩

end AttemptLog

/-! ### Counting before archiving -/

/-- Where failures are counted under the key of the dedup hash, only the calls that
count failures are made, and dead letters are written for those counted there. -/
def MessageRequest.CountsUnder (failureCountsKey : String) : MessageRequest → Prop
  | .recordMessageFailureOnce .. => True
  | .handleRetryableMessageFailure failureCountsKey' .. => failureCountsKey' = failureCountsKey
  | _ => False

/-- A failure that is handled is counted before its message is archived. -/
def MessageRequest.CountsFirst : MessageRequest → MessagePhase → MessageCall → Prop
  | .handleRetryableMessageFailure .., q, .evalWriteDeadLetterOnce .. => q.failureCount ≠ none
  | _, _, _ => True

theorem messageRequest_countsFirst {can : (c : MessageCall) → messageCalls.Out c → Prop} (r : MessageRequest) :
    (r.body P deadLetterStream).Follows ⟨messageAutomaton, r.CountsFirst⟩ can (fun _ _ => True) {} := by
  cases r with
  | handleRetryableMessageFailure failureCountsKey m error attemptId maxAttempts =>
    refine Prog.follows_bind.mpr (Prog.Follows.mono (Q := fun _ _ => True) (fun q x _ => ?_) ?_)
    · cases x <;> trivial
    unfold handleRetryableMessageFailure
    cases error with
    | retryableMessageError message =>
      dsimp only
      split_ifs
      · trivial
      refine Prog.follows_bind.mpr (Prog.follows_perform.mpr ⟨trivial, fun v _ => ?_⟩)
      rcases v with e | failureCount
      · trivial
      -- once the failure is counted, every call is allowed
      refine Prog.follows_of_closed (K := fun q : MessagePhase => q.failureCount ≠ none) (fun q c hq => ?_)
        (fun q c v hq => ?_) (Option.some_ne_none _)
      · cases c with
        | evalWriteDeadLetterOnce => exact hq
        | _ => trivial
      · cases c <;> rcases v with e | a <;> first | exact hq | exact Option.some_ne_none _
    | _ => trivial
  | _ =>
    exact Prog.follows_of_closed (K := fun _ => True) (fun _ _ _ => trivial) (fun _ _ _ _ => trivial) trivial

/-- Every request that counts a failure does it first. -/
def countsFirstDiscipline (P : PyInt) (deadLetterStream : String) :
    Discipline (messageSystem P deadLetterStream) where
  protocol r := ⟨messageAutomaton, r.CountsFirst⟩
  final _ _ _ := True
  follows r := messageRequest_countsFirst r

/-- What a request has been told of its failure was the reply to a call. -/
theorem exists_reply {t : ℕ} {tr : List (Event (messageSystem P deadLetterStream))} {n : ℤ}
    (h : (phase messageAutomaton t tr).failureCount = some n) :
    ∃ u s s' F F' i j tr', tr = u ++ ⟨s, s', .call t (.evalRecordMessageFailureOnce F F' i j) (.ok n)⟩ :: tr' := by
  obtain ⟨u, s, s', x, v, tr', rfl, hbefore, hafter⟩ :=
    phase_became (A := messageAutomaton) (P := fun q : MessagePhase => q.failureCount = some n) (by simp) h
  cases x with
  | evalRecordMessageFailureOnce F F' i j =>
    rcases v with e | k
    · exact absurd hafter hbefore
    · obtain rfl : k = n := Option.some.inj hafter
      exact ⟨u, s, s', F, F', i, j, tr', rfl⟩
  | _ => cases v <;> exact absurd hafter hbefore

/-! ### Over a run -/

section

variable {gate : Config (messageSystem P deadLetterStream) → Prop} {s₀ : MessageState}
  {c c' : Config (messageSystem P deadLetterStream)} {failureCountsKey : String} {m : MessageSource}

/-- A request that has been told a number was told it for its own attempt. -/
theorem replied_of_phase (h : Run gate (.init s₀) c) {t : ℕ} {r : MessageRequest} {n : ℤ}
    (hr : Requested t r c.trace) (hn : (phase messageAutomaton t c.trace).failureCount = some n) :
    ∃ failureCountsKey attemptId, r.Records failureCountsKey attemptId ∧ ∃ e ∈ c.trace,
      e.act = .call t (.evalRecordMessageFailureOnce failureCountsKey (recordedAttemptsKey failureCountsKey)
        r.source.messageIdentity (r.source.attemptIdentity attemptId)) (.ok n) := by
  obtain ⟨u, s, s', F, F', i, j, tr', he⟩ := exists_reply hn
  obtain ⟨b, r', -, -, -, -, -, hr', ha, -⟩ := Run.made (messageDiscipline P deadLetterStream) h he
  obtain rfl := hr' r hr
  obtain ⟨attemptId, hrecords, rfl, rfl, rfl⟩ := ha
  exact ⟨F, attemptId, hrecords, _, he ▸ List.mem_append_right _ List.mem_cons_self, rfl⟩

/-- A call leaves the fields of a message alone, unless it is for an attempt of the
message, or archives it under the same key and before it was counted. -/
theorem MessageRequest.Allows.keeps {r : MessageRequest} {q : MessagePhase} {x : MessageCall} {s s' : MessageState}
    {v : messageCalls.Out x} (ha : r.Allows P deadLetterStream q x) (hs : MessageState.step x s v s')
    (hrecord : ∀ attemptId, x ≠ .evalRecordMessageFailureOnce failureCountsKey
      (recordedAttemptsKey failureCountsKey) m.messageIdentity (m.attemptIdentity attemptId))
    (hwrite : failureCountsKey = deduplicationKey deadLetterStream → r.source = m →
      (∃ deadLetterStream' key messageIdentity letter,
        x = .evalWriteDeadLetterOnce deadLetterStream' key messageIdentity letter) →
      s.redis.hashValue failureCountsKey m.messageIdentity ≠ none) :
    s'.redis.failureCount failureCountsKey m = s.redis.failureCount failureCountsKey m ∧
      ∀ attemptId,
        s'.redis.attemptText failureCountsKey m attemptId = s.redis.attemptText failureCountsKey m attemptId := by
  unfold Keyspace.failureCount Keyspace.attemptText
  cases x with
  | applyCompletionOnce eventId incrementBy =>
    rw [(MessageState.step_applyCompletionOnce hs).1]
    exact ⟨rfl, fun _ => rfl⟩
  | xAck streamKey groupName messageId =>
    obtain ⟨-, -, hhash, -⟩ := MessageState.step_xAck hs
    exact ⟨by rw [hhash], fun _ => hhash _ _⟩
  | evalWriteDeadLetterOnce deadLetterStream' key messageIdentity letter =>
    obtain ⟨rfl, rfl, rfl, hwrites⟩ := ha
    rcases (MessageState.step_evalWriteDeadLetterOnce hs).2 with ⟨rfl, -⟩ | ⟨newId, reply, -, hscript, -⟩
    · exact ⟨rfl, fun _ => rfl⟩
    have hhash := fun {k f : String} => Keyspace.writeDeadLetterOnceScript_hashValue (k := k) (f := f)
      deduplicationKey_ne hscript
    refine ⟨?_, fun attemptId => hhash (.inl recordedAttemptsKey_ne.symm)⟩
    rw [hhash]
    by_cases hkey : failureCountsKey = deduplicationKey deadLetterStream'
    · by_cases hsource : r.source = m
      · exact .inr (.inr (hwrite hkey hsource ⟨_, _, _, _, rfl⟩))
      · refine .inr (.inl fun hidentity => hsource ?_)
        rw [hwrites.source, MessageSource.messageIdentity_inj.mp hidentity]
    · exact .inl hkey
  | evalRecordMessageFailureOnce failureCountsKey' key messageIdentity attemptIdentity =>
    obtain ⟨attemptId', hrecords, rfl, rfl, rfl⟩ := ha
    rcases MessageState.step_recordMessageFailureOnceScript hs with ⟨rfl, -⟩ | ⟨reply, hscript, -⟩
    · exact ⟨rfl, fun _ => rfl⟩
    rcases Keyspace.recordMessageFailureOnceScript_cases failureCountsKey_ne hscript with
      ⟨-, hr⟩ | ⟨-, -, hr, -⟩ | ⟨failureCount, -, -, -, -, hhash⟩
    · rw [hr]
      exact ⟨rfl, fun _ => rfl⟩
    · rw [hr]
      exact ⟨rfl, fun _ => rfl⟩
    -- the fields of another message, or of the same one under other keys
    have hother : ¬ (failureCountsKey = failureCountsKey' ∧ m = r.source) := by
      rintro ⟨rfl, rfl⟩
      exact hrecord attemptId' rfl
    refine ⟨?_, fun attemptId => ?_⟩
    · rw [hhash, if_neg, if_neg]
      · exact fun hf => MessageSource.messageIdentity_ne hf.2
      · exact fun hf => hother ⟨hf.1, MessageSource.messageIdentity_inj.mp hf.2⟩
    · rw [hhash, if_neg, if_neg]
      · exact fun hf => hother ⟨recordedAttemptsKey_inj.mp hf.1, (MessageSource.attemptIdentity_inj.mp hf.2).1⟩
      · exact fun hf => MessageSource.messageIdentity_ne hf.2.symm

/-- Under the key of the dedup hash, a message is counted before it is archived. -/
theorem AttemptLog.counted {attempts : List String} (h : Run gate (.init s₀) c)
    (hlog : AttemptLog failureCountsKey m attempts c.state.redis c.trace)
    (hcounts : ∀ t r, Requested t r c.trace → r.CountsUnder failureCountsKey) {t : ℕ} {r : MessageRequest}
    (hr : Requested t r c.trace) (hsource : r.source = m) {deadLetterStream' key messageIdentity : String}
    {letter : DeadLetter} (hwrites : r.Writes letter) (hfirst : r.CountsFirst (phase messageAutomaton t c.trace)
      (.evalWriteDeadLetterOnce deadLetterStream' key messageIdentity letter)) :
    c.state.redis.hashValue failureCountsKey m.messageIdentity ≠ none := by
  cases r with
  | handleRetryableMessageFailure failureCountsKey' m' error attemptId maxAttempts =>
    obtain rfl : failureCountsKey' = failureCountsKey := hcounts t _ hr
    obtain ⟨n, hn⟩ := Option.ne_none_iff_exists'.mp hfirst
    obtain ⟨_, attemptId', ⟨rfl, rfl⟩, e, he, hact⟩ := replied_of_phase h hr hn
    rw [hsource] at hact
    obtain ⟨i, hi, -⟩ := hlog.replied e he t _ n hact
    intro hnone
    have hcount := hlog.count
    rw [Keyspace.failureCount, hnone] at hcount
    simp only [Option.elim_none, Option.some.injEq] at hcount
    have hlt := (List.getElem?_eq_some_iff.mp hi).1
    omega
  | recordMessageFailureOnce => exact hwrites.elim
  | _ => exact (hcounts t _ hr).elim

theorem attemptLog_step {attempts : List String} (h : Run gate (.init s₀) c)
    (hlog : AttemptLog failureCountsKey m attempts c.state.redis c.trace) (hstep : Step gate c c')
    (hcounts : failureCountsKey = deduplicationKey deadLetterStream →
      ∀ t r, Requested t r c.trace → r.CountsUnder failureCountsKey) :
    ∃ more, AttemptLog failureCountsKey m (attempts ++ more) c'.state.redis c'.trace := by
  cases hstep with
  | start t r hg hn =>
    refine ⟨[], ?_⟩
    rw [List.append_nil]
    exact hlog.skip fun t attemptId v hact => by cases hact
  | env s' he =>
    refine ⟨[], ?_⟩
    rw [List.append_nil]
    refine hlog.congr ?_ fun attemptId => he.1 _ _
    rw [Keyspace.failureCount, he.1, Keyspace.failureCount]
  | call t r x k v s' hp hs =>
    have hr := h.pool_trace.1 t r _ hp
    have ha := (Run.follows (messageDiscipline P deadLetterStream) h hp).1
    have hfirst := (Run.follows (countsFirstDiscipline P deadLetterStream) h hp).1
    by_cases hrecord : ∃ attemptId, x = .evalRecordMessageFailureOnce failureCountsKey
        (recordedAttemptsKey failureCountsKey) m.messageIdentity (m.attemptIdentity attemptId)
    · obtain ⟨attemptId, rfl⟩ := hrecord
      rcases MessageState.step_recordMessageFailureOnceScript hs with ⟨rfl, e, rfl⟩ | ⟨reply, hscript, hv⟩
      · -- nothing was done, so if the script ran it had found the attempt
        refine ⟨[], ?_⟩
        rw [List.append_nil]
        refine hlog.found rfl ?_ fun n hn => by cases hn
        rintro ⟨t', v', n, -, hscript⟩
        rcases Keyspace.recordMessageFailureOnceScript_cases failureCountsKey_ne hscript with
          ⟨hn, -⟩ | ⟨recordedCount, -, -, hstored⟩ | ⟨failureCount, hnone, -, -, -, hhash⟩
        · cases hn
        · obtain ⟨i, hi, -⟩ := hlog.numbered.exists_of_kept hstored
          exact List.mem_of_getElem? hi
        · have hstored := hhash (recordedAttemptsKey failureCountsKey) (m.attemptIdentity attemptId)
          rw [if_neg fun hf => failureCountsKey_ne hf.1.symm, if_pos ⟨rfl, rfl⟩, hnone] at hstored
          cases hstored
      · exact hlog.script (e := ⟨c.state, s', .call t _ v⟩) rfl rfl hscript hv
    · have hne : ∀ attemptId, x ≠ .evalRecordMessageFailureOnce failureCountsKey
          (recordedAttemptsKey failureCountsKey) m.messageIdentity (m.attemptIdentity attemptId) :=
        fun attemptId hx => hrecord ⟨attemptId, hx⟩
      obtain ⟨hcount, htext⟩ := ha.keeps hs hne fun hkey hsource ⟨_, _, _, letter, hx⟩ => by
        subst hx
        exact hlog.counted h (hcounts hkey) hr hsource ha.2.2.2 hfirst
      refine ⟨[], ?_⟩
      rw [List.append_nil]
      refine (hlog.skip fun t' attemptId v' hact => ?_).congr hcount htext
      simp only [Act.call.injEq] at hact
      exact hne attemptId hact.2.1

theorem attemptLog_run {attempts : List String} (h : Run gate (.init s₀) c)
    (hlog : AttemptLog failureCountsKey m attempts c.state.redis c.trace) (h' : Run gate c c')
    (hcounts : failureCountsKey = deduplicationKey deadLetterStream →
      ∀ t r, Requested t r c'.trace → r.CountsUnder failureCountsKey) :
    ∃ more, AttemptLog failureCountsKey m (attempts ++ more) c'.state.redis c'.trace := by
  induction h' with
  | refl => exact ⟨[], by rwa [List.append_nil]⟩
  | tail hb hstep ih =>
    obtain ⟨u, hu⟩ := Run.trace_suffix (.single hstep)
    have hcounts := fun hkey t r (hr : Requested t r _) => hcounts hkey t r (hu ▸ hr.append u)
    obtain ⟨more, hmore⟩ := ih hcounts
    obtain ⟨next, hnext⟩ := attemptLog_step (h.trans hb) hmore hstep hcounts
    exact ⟨more ++ next, by rwa [← List.append_assoc]⟩

/-! ### What requests answer -/

/-- A call of `record_message_failure_once` returned the number. -/
def ReturnedCount (failureCountsKey : String) (m : MessageSource) (attemptId : String) (n : ℤ)
    (c : Config (messageSystem P deadLetterStream)) : Prop :=
  ∃ t, Requested t (MessageRequest.recordMessageFailureOnce failureCountsKey m attemptId) c.trace ∧
    c.result t = some (.ok (.recorded n))

/-- A call of `handle_retryable_message_failure` returned the action. -/
def Handled (failureCountsKey : String) (m : MessageSource) (attemptId : String) (maxAttempts : ℤ)
    (action : FailureAction) (c : Config (messageSystem P deadLetterStream)) : Prop :=
  ∃ t, ∃ m' : StreamMessage, ∃ error, m'.toMessageSource = m ∧ Requested t
      (MessageRequest.handleRetryableMessageFailure failureCountsKey m' error attemptId maxAttempts) c.trace ∧
    c.result t = some (.ok (.handled action))

variable {attempts : List String} {attemptId : String} {n maxAttempts : ℤ} {action : FailureAction}

theorem ReturnedCount.place (hn : ReturnedCount failureCountsKey m attemptId n c) (h : Run gate (.init s₀) c)
    (hlog : AttemptLog failureCountsKey m attempts c.state.redis c.trace) :
    ∃ i, attempts[i]? = some attemptId ∧ n = replyInteger (toDouble (i + 1 : ℕ)) := by
  obtain ⟨t, hr, hresult⟩ := hn
  obtain ⟨failureCount, hphase, heq⟩ := Run.final (messageDiscipline P deadLetterStream) h hr hresult
  obtain rfl : n = failureCount := by simpa using heq
  obtain ⟨_, _, ⟨rfl, rfl⟩, e, he, hact⟩ := replied_of_phase h hr hphase
  exact hlog.replied e he t _ n hact

/-- A failure that is handled is retried by the number of its attempt. -/
theorem Handled.place (hhandled : Handled failureCountsKey m attemptId maxAttempts action c)
    (h : Run gate (.init s₀) c) (hlog : AttemptLog failureCountsKey m attempts c.state.redis c.trace) :
    ∃ i, attempts[i]? = some attemptId ∧
      action = if toDouble (i + 1 : ℕ) < maxAttempts then .retry else .deadLetter := by
  obtain ⟨t, m', error, rfl, hr, hresult⟩ := hhandled
  obtain ⟨failureCount, hphase, hpos, hends⟩ := Run.final (messageDiscipline P deadLetterStream) h hr hresult
  obtain ⟨_, _, ⟨rfl, rfl⟩, e, he, hact⟩ := replied_of_phase h hr hphase
  obtain ⟨i, hi, hreply⟩ := hlog.replied e he t _ _ hact
  rw [hreply] at hpos
  rw [hreply, replyInteger_of_pos hpos] at hends
  refine ⟨i, hi, ?_⟩
  rcases hends with ⟨hlt, heq⟩ | ⟨hle, -, heq⟩
  · rw [if_pos hlt]
    simpa using heq
  · rw [if_neg (not_lt.mpr hle)]
    simpa using heq

namespace AttemptLog

variable {r : Keyspace} {tr : List (Event (messageSystem P deadLetterStream))}

theorem attemptNumber_eq (hlog : AttemptLog failureCountsKey m attempts r tr) {i : ℕ}
    (hi : attempts[i]? = some attemptId) :
    r.attemptNumber failureCountsKey m attemptId = some (toDouble (i + 1 : ℕ)) := by
  rw [Keyspace.attemptNumber, hlog.numbered.kept_of_get hi, Option.bind_some]
  exact Int.toInt?_repr (toDouble (i + 1 : ℕ))

theorem attemptNumber_none (hlog : AttemptLog failureCountsKey m attempts r tr) (hnot : attemptId ∉ attempts) :
    r.attemptNumber failureCountsKey m attemptId = none := by
  rw [Keyspace.attemptNumber, hlog.numbered.kept_none _ hnot, Option.bind_none]

/-- Up to 2^53 the numbers are exact. -/
theorem bijOn (hlog : AttemptLog failureCountsKey m attempts r tr) (hle : attempts.length ≤ 2 ^ 53) :
    Set.BijOn (r.attemptNumber failureCountsKey m) (recordedAttempts failureCountsKey m tr)
      ((fun n : ℕ => some (n : ℤ)) '' Set.Icc 1 attempts.length) := by
  have hnumbered : Numbered (FailureRan failureCountsKey m) (fun n : ℕ => toDouble n) tr attempts
      (r.attemptNumber failureCountsKey m) :=
    { nodup := hlog.numbered.nodup
      mem_iff := hlog.numbered.mem_iff
      kept_get := fun i hi => hlog.attemptNumber_eq (List.getElem?_eq_getElem hi)
      kept_none := fun _ hnot => hlog.attemptNumber_none hnot }
  have hexact : ∀ i ∈ Set.Icc 1 attempts.length, toDouble i = i := fun i hi => toDouble_of_le (hi.2.trans hle)
  have himage : (fun n : ℕ => some (n : ℤ)) '' Set.Icc 1 attempts.length =
      (fun n : ℕ => some (toDouble n)) '' Set.Icc 1 attempts.length :=
    Set.image_congr fun i hi => by rw [hexact i hi]
  rw [himage]
  refine hnumbered.bijOn fun i j hi hj heq => ?_
  rw [hexact i hi, hexact j hj] at heq
  exact_mod_cast heq

end AttemptLog

/-- A call returned the number that is recorded for the attempt, as an integer of 64
bits. -/
theorem ReturnedCount.number (hn : ReturnedCount failureCountsKey m attemptId n c) (h : Run gate (.init s₀) c)
    (hlog : AttemptLog failureCountsKey m attempts c.state.redis c.trace) :
    ∃ number, c.state.redis.attemptNumber failureCountsKey m attemptId = some number ∧ n = replyInteger number := by
  obtain ⟨i, hi, hreply⟩ := hn.place h hlog
  exact ⟨_, hlog.attemptNumber_eq hi, hreply⟩

/-- Up to 2^53 that is the number itself. -/
theorem ReturnedCount.exact (hn : ReturnedCount failureCountsKey m attemptId n c) (h : Run gate (.init s₀) c)
    (hlog : AttemptLog failureCountsKey m attempts c.state.redis c.trace) (hle : attempts.length ≤ 2 ^ 53) :
    c.state.redis.attemptNumber failureCountsKey m attemptId = some n := by
  obtain ⟨i, hi, hreply⟩ := hn.place h hlog
  have hlt := (List.getElem?_eq_some_iff.mp hi).1
  have hexact : toDouble (i + 1 : ℕ) = (i + 1 : ℕ) := toDouble_of_le (by omega)
  have hfits : FitsInteger (toDouble (i + 1 : ℕ)) := by
    rw [hexact]
    constructor <;> omega
  rw [hreply, replyInteger_of_fits hfits]
  exact hlog.attemptNumber_eq hi

/-- It was handled by that number. -/
theorem Handled.number (hhandled : Handled failureCountsKey m attemptId maxAttempts action c)
    (h : Run gate (.init s₀) c) (hlog : AttemptLog failureCountsKey m attempts c.state.redis c.trace) :
    ∃ n, c.state.redis.attemptNumber failureCountsKey m attemptId = some n ∧
      action = if n < maxAttempts then .retry else .deadLetter := by
  obtain ⟨i, hi, haction⟩ := hhandled.place h hlog
  exact ⟨_, hlog.attemptNumber_eq hi, haction⟩

/-- The requests of other messages leave the numbers of this one. -/
theorem other_message_keeps (h : Run gate (.init s₀) c) {e : Event (messageSystem P deadLetterStream)}
    (he : e ∈ c.trace) (hother : ∀ r, Requested e.act.thread r c.trace → r.source ≠ m) :
    e.after.redis.failureCount failureCountsKey m = e.before.redis.failureCount failureCountsKey m ∧
      ∀ attemptId, e.after.redis.attemptNumber failureCountsKey m attemptId =
        e.before.redis.attemptNumber failureCountsKey m attemptId := by
  obtain ⟨u, tr, he⟩ := List.append_of_mem he
  rcases e with ⟨s, s', act⟩
  cases act with
  | start t r =>
    obtain rfl := h.started he
    exact ⟨rfl, fun _ => rfl⟩
  | call t x v =>
    obtain ⟨b, r, -, -, -, -, hr, hr', ha, hs⟩ := Run.made (messageDiscipline P deadLetterStream) h he
    have hsource : r.source ≠ m := hother r (he ▸ (hr.cons _).append u)
    have hrecord : ∀ attemptId, x ≠ .evalRecordMessageFailureOnce failureCountsKey
        (recordedAttemptsKey failureCountsKey) m.messageIdentity (m.attemptIdentity attemptId) := by
      rintro attemptId rfl
      obtain ⟨attemptId', -, -, hidentity, -⟩ := ha
      exact hsource (MessageSource.messageIdentity_inj.mp hidentity).symm
    obtain ⟨hsame, htext⟩ := MessageRequest.Allows.keeps ha hs hrecord fun _ hm => absurd hm hsource
    exact ⟨hsame, fun attemptId => by rw [Keyspace.attemptNumber, htext, Keyspace.attemptNumber]⟩

/-- The attempts that are retried are among the first. -/
theorem retried_encard_le (h : Run gate (.init s₀) c)
    (hlog : AttemptLog failureCountsKey m attempts c.state.redis c.trace) (hle : attempts.length ≤ 2 ^ 53)
    (maxAttempts : ℤ) :
    {attemptId | Handled failureCountsKey m attemptId maxAttempts .retry c}.encard ≤ (maxAttempts - 1).toNat := by
  have hsub : {attemptId | Handled failureCountsKey m attemptId maxAttempts .retry c} ⊆
      ((attempts.take (maxAttempts - 1).toNat).toFinset : Set String) := by
    intro attemptId hretry
    obtain ⟨i, hi, haction⟩ := hretry.place h hlog
    obtain ⟨hlt, rfl⟩ := List.getElem?_eq_some_iff.mp hi
    rw [toDouble_of_le (by omega)] at haction
    split_ifs at haction with hretried
    rw [List.coe_toFinset]
    exact List.mem_take_iff_getElem.mpr ⟨i, by push_cast at hretried; omega, rfl⟩
  calc {attemptId | Handled failureCountsKey m attemptId maxAttempts .retry c}.encard
      ≤ ((attempts.take (maxAttempts - 1).toNat).toFinset : Set String).encard := Set.encard_le_encard hsub
    _ = ((attempts.take (maxAttempts - 1).toNat).toFinset.card : ℕ∞) := Set.encard_coe_eq_coe_finsetCard _
    _ ≤ (maxAttempts - 1).toNat := by
      have hcard := List.toFinset_card_le (attempts.take (maxAttempts - 1).toNat)
      have hlength := List.length_take_le (maxAttempts - 1).toNat attempts
      exact_mod_cast hcard.trans hlength

/-- **Failed attempts are numbered as they come.** In any interleaving, with calls
repeated and replies lost, for a message of which nothing was counted at first:
its stored count is the number of its attempts that were recorded, calls for an
attempt return one number, which is the one recorded for it as an integer of 64
bits, other messages' calls leave its numbers alone, and an attempt that is handled
again is handled the same. Up to 2^53 attempts the numbers are one to the count,
calls return them, and fewer than `max_attempts` attempts are retried. -/
theorem failures_numbered (hcount : s₀.redis.hashValue failureCountsKey m.messageIdentity = none)
    (hattempts : ∀ attemptId, s₀.redis.attemptText failureCountsKey m attemptId = none)
    (h : Interleaved (.init s₀) c)
    (hcounts : failureCountsKey = deduplicationKey deadLetterStream →
      ∀ t r, Requested t r c.trace → r.CountsUnder failureCountsKey) :
    ∃ count : ℕ, (recordedAttempts failureCountsKey m c.trace).encard = count ∧
      c.state.redis.failureCount failureCountsKey m = some (count : ℤ) ∧
      (∀ attemptId n n', ReturnedCount failureCountsKey m attemptId n c →
        ReturnedCount failureCountsKey m attemptId n' c → n = n') ∧
      (∀ attemptId n, ReturnedCount failureCountsKey m attemptId n c →
        ∃ number, c.state.redis.attemptNumber failureCountsKey m attemptId = some number ∧
          n = replyInteger number) ∧
      (∀ e ∈ c.trace, (∀ r, Requested e.act.thread r c.trace → r.source ≠ m) →
        e.after.redis.failureCount failureCountsKey m = e.before.redis.failureCount failureCountsKey m ∧
          ∀ attemptId, e.after.redis.attemptNumber failureCountsKey m attemptId =
            e.before.redis.attemptNumber failureCountsKey m attemptId) ∧
      (∀ attemptId maxAttempts action action', Handled failureCountsKey m attemptId maxAttempts action c →
        Handled failureCountsKey m attemptId maxAttempts action' c → action = action') ∧
      (count ≤ 2 ^ 53 →
        Set.BijOn (c.state.redis.attemptNumber failureCountsKey m) (recordedAttempts failureCountsKey m c.trace)
          ((fun n : ℕ => some (n : ℤ)) '' Set.Icc 1 count) ∧
        (∀ attemptId n, ReturnedCount failureCountsKey m attemptId n c →
          c.state.redis.attemptNumber failureCountsKey m attemptId = some n) ∧
        ∀ maxAttempts, {attemptId | Handled failureCountsKey m attemptId maxAttempts .retry c}.encard ≤
          (maxAttempts - 1).toNat) := by
  obtain ⟨attempts, hlog⟩ := attemptLog_run .refl (.nil hcount hattempts) h hcounts
  rw [List.nil_append] at hlog
  refine ⟨attempts.length, hlog.numbered.encard, hlog.count, fun attemptId n n' hn hn' => ?_,
    fun attemptId n hn => hn.number h hlog, fun e he hother => other_message_keeps h he hother,
    fun attemptId maxAttempts action action' ha ha' => ?_,
    fun hle => ⟨hlog.bijOn hle, fun attemptId n hn => hn.exact h hlog hle, retried_encard_le h hlog hle⟩⟩
  · obtain ⟨number, hnumber, hreply⟩ := hn.number h hlog
    obtain ⟨number', hnumber', hreply'⟩ := hn'.number h hlog
    have hsame := hnumber.symm.trans hnumber'
    rw [hreply, hreply', Option.some.inj hsame]
  · obtain ⟨n, hn, rfl⟩ := ha.number h hlog
    obtain ⟨n', hn', rfl⟩ := ha'.number h hlog
    have hsame := hn.symm.trans hn'
    rw [Option.some.inj hsame]

/-- **What a dead-lettered message is answered.** Once a failure of the message was
answered with a dead letter, its failures that are handled are answered so too,
but for replays of attempts that had numbers below `max_attempts` by then: these
are retried again. -/
theorem dead_lettered_answers (hcount : s₀.redis.hashValue failureCountsKey m.messageIdentity = none)
    (hattempts : ∀ attemptId, s₀.redis.attemptText failureCountsKey m attemptId = none)
    (h : Interleaved (.init s₀) c) (h' : Interleaved c c')
    (hcounts : failureCountsKey = deduplicationKey deadLetterStream →
      ∀ t r, Requested t r c'.trace → r.CountsUnder failureCountsKey) {deadLettered : String}
    (hdead : Handled failureCountsKey m deadLettered maxAttempts .deadLetter c)
    (hhandled : Handled failureCountsKey m attemptId maxAttempts action c') :
    action = .retry ↔ attemptId ∈ recordedAttempts failureCountsKey m c.trace ∧
      ∃ n < maxAttempts, c.state.redis.attemptNumber failureCountsKey m attemptId = some n := by
  obtain ⟨u, hu⟩ := h'.trace_suffix
  obtain ⟨attempts, hlog⟩ := attemptLog_run .refl (.nil hcount hattempts) h
    fun hkey t r hr => hcounts hkey t r (hu ▸ hr.append u)
  rw [List.nil_append] at hlog
  obtain ⟨more, hlog'⟩ := attemptLog_run h hlog h' hcounts
  obtain ⟨i, hi, hdead⟩ := hdead.place h hlog
  obtain ⟨j, hj, rfl⟩ := hhandled.place (h.trans h') hlog'
  have hle : maxAttempts ≤ toDouble (i + 1 : ℕ) := by
    by_contra hlt
    rw [if_pos (not_le.mp hlt)] at hdead
    cases hdead
  constructor
  · intro hretry
    have hlt : toDouble (j + 1 : ℕ) < maxAttempts := by
      by_contra hge
      rw [if_neg hge] at hretry
      cases hretry
    -- a later attempt has no smaller number
    have hearlier : j < attempts.length := by
      by_contra hlater
      have hlength := (List.getElem?_eq_some_iff.mp hi).1
      have hmono : toDouble (i + 1 : ℕ) ≤ toDouble (j + 1 : ℕ) := toDouble_mono (by omega)
      omega
    rw [List.getElem?_append_left hearlier] at hj
    exact ⟨(hlog.numbered.mem_iff _).mp (List.mem_of_getElem? hj), _, hlt, hlog.attemptNumber_eq hj⟩
  · rintro ⟨hrecorded, n, hlt, hn⟩
    obtain ⟨k, hk, hkeq⟩ := List.getElem_of_mem ((hlog.numbered.mem_iff _).mpr hrecorded)
    have hget : attempts[k]? = some attemptId := hkeq ▸ List.getElem?_eq_getElem hk
    have hget' : (attempts ++ more)[k]? = some attemptId := (List.getElem?_append_left hk).trans hget
    have hsame := (hlog.attemptNumber_eq hget).symm.trans hn
    have hlater := (hlog'.attemptNumber_eq hj).symm.trans (hlog'.attemptNumber_eq hget')
    rw [Option.some.inj hlater, Option.some.inj hsame, if_pos hlt]

end

/-! ### A replay after the dead letter -/

namespace MessageState

/-- Every call takes effect, as far as the script of a failed attempt finds numbers
that are read by `read`. -/
def serveReading (read : String → Option ℤ) (c : MessageCall) (s : MessageState) :
    messageCalls.Out c × MessageState :=
  match c with
  | .evalRecordMessageFailureOnce failureCountsKey recordedAttemptsKey messageIdentity attemptIdentity =>
    match s.redis.hGet recordedAttemptsKey attemptIdentity, s.redis.hGet failureCountsKey messageIdentity with
    | some (some recordedCount), _ =>
      match read recordedCount with
      | some n => (.ok (replyInteger (toDouble n)), s)
      | none => (.error .redisError, s)
    | some none, some counted =>
      match counted.elim (some 0) read with
      | some n =>
        if FitsInteger (n + 1) then
          match s.redis.hSet failureCountsKey messageIdentity (toString (n + 1)) with
          | some r =>
            match r.hSet recordedAttemptsKey attemptIdentity (toString (toDouble (n + 1))) with
            | some r' => (.ok (replyInteger (toDouble (n + 1))), { s with redis := r' })
            | none => (.error .redisError, s)
          | none => (.error .redisError, s)
        else (.error .redisError, s)
      | none => (.error .redisError, s)
    | _, _ => (.error .redisError, s)
  | c => s.serveNext false c

theorem step_serveReading {read : String → Option ℤ}
    (hread : ∀ text n, read text = some n → redisInteger text = some n) (c : MessageCall) (s : MessageState) :
    step c s (s.serveReading read c).1 (s.serveReading read c).2 := by
  cases c with
  | evalRecordMessageFailureOnce failureCountsKey recordedAttemptsKey messageIdentity attemptIdentity =>
    have failed : step (.evalRecordMessageFailureOnce failureCountsKey recordedAttemptsKey messageIdentity
        attemptIdentity) s (.error .redisError) s := .inr (.inr ⟨by simp, rfl, .inl rfl⟩)
    unfold serveReading
    dsimp only
    cases hget : s.redis.hGet recordedAttemptsKey attemptIdentity with
    | none => exact failed
    | some stored =>
      cases stored with
      | some recordedCount =>
        dsimp only
        cases hn : read recordedCount with
        | none => exact failed
        | some n =>
          refine .inl ⟨"", fun _ => false, trivial, ?_⟩
          rw [serve, Keyspace.recordMessageFailureOnceScript, hget]
          simp only [toInt?_of_redisInteger (hread _ _ hn)]
          rfl
      | none =>
        cases hcounted : s.redis.hGet failureCountsKey messageIdentity with
        | none => exact failed
        | some counted =>
          dsimp only
          cases hn : counted.elim (some 0) read with
          | none => exact failed
          | some n =>
            have hn' : counted.elim (some 0) redisInteger = some n := by
              cases counted with
              | none => exact hn
              | some text => exact hread _ _ hn
            dsimp only
            split_ifs with hfits
            · cases hset : s.redis.hSet failureCountsKey messageIdentity (toString (n + 1)) with
              | none => exact failed
              | some r =>
                dsimp only
                cases hset' : r.hSet recordedAttemptsKey attemptIdentity (toString (toDouble (n + 1))) with
                | none => exact failed
                | some r' =>
                  refine .inl ⟨"", fun _ => false, trivial, ?_⟩
                  rw [serve, Keyspace.recordMessageFailureOnceScript, hget, Keyspace.hIncrBy, hcounted]
                  simp only [hn', if_pos hfits, hset, Option.map_some, hset']
                  rfl
            · exact failed
  | _ => exact step_serveNext false _ s

end MessageState

/-- Reads the number one. -/
def readOne (text : String) : Option ℤ := if text = "1" then some 1 else none

theorem readOne_eq {text : String} {n : ℤ} (h : readOne text = some n) : redisInteger text = some n := by
  unfold readOne at h
  split_ifs at h with htext
  obtain rfl := Option.some.inj h
  have hone := redisInteger_toString (n := 1) (by decide)
  exact htext ▸ hone

/-- A failure of the example message, of two attempts at most. -/
def exampleAttempt (attemptId : String) : MessageRequest :=
  .handleRetryableMessageFailure "counts" exampleMessage (.retryableMessageError "down") attemptId 2

/-- Two attempts fail, and the message is archived. -/
def attemptsFailed : Config (messageSystem .decimal "dead") :=
  Config.schedule (S := messageSystem .decimal "dead") (MessageState.serveReading readOne) (.init exampleMessages)
    [.start 0 (exampleAttempt "a"), .call 0, .start 1 (exampleAttempt "b"), .call 1, .call 1, .call 1]

/-- The first attempt is handled again. -/
def attemptReplayed : Config (messageSystem .decimal "dead") :=
  Config.schedule (S := messageSystem .decimal "dead") (MessageState.serveReading readOne) attemptsFailed
    [.start 2 (exampleAttempt "a"), .call 2]

theorem attemptsFailed_run : Interleaved (.init exampleMessages) attemptsFailed :=
  Interleaved.schedule (MessageState.step_serveReading fun _ _ => readOne_eq) _ _

theorem attemptReplayed_run : Interleaved attemptsFailed attemptReplayed :=
  Interleaved.schedule (MessageState.step_serveReading fun _ _ => readOne_eq) _ _

theorem attemptsFailed_handled : Handled "counts" exampleMessage.toMessageSource "b" 2 .deadLetter attemptsFailed :=
  ⟨1, exampleMessage, .retryableMessageError "down", rfl,
    Run.requested attemptsFailed_run (by decide +kernel), by decide +kernel⟩

theorem attemptReplayed_handled : Handled "counts" exampleMessage.toMessageSource "a" 2 .retry attemptReplayed :=
  ⟨2, exampleMessage, .retryableMessageError "down", rfl,
    Run.requested (attemptsFailed_run.trans attemptReplayed_run) (by decide +kernel), by decide +kernel⟩

theorem failures_numbered_archived : ∃ count : ℕ,
    (recordedAttempts "counts" exampleMessage.toMessageSource attemptReplayed.trace).encard = count ∧
      attemptReplayed.state.redis.failureCount "counts" exampleMessage.toMessageSource = some (count : ℤ) := by
  have hkey : "counts" ≠ deduplicationKey "dead" := by decide
  obtain ⟨count, hcard, hcount, -⟩ := failures_numbered rfl (fun _ => rfl)
    (attemptsFailed_run.trans attemptReplayed_run) fun h => absurd h hkey
  exact ⟨count, hcard, hcount⟩

theorem dead_lettered_answers_replay : "a" ∈ recordedAttempts "counts" exampleMessage.toMessageSource
      attemptsFailed.trace ∧ ∃ n < (2 : ℤ),
        attemptsFailed.state.redis.attemptNumber "counts" exampleMessage.toMessageSource "a" = some n :=
  (dead_lettered_answers rfl (fun _ => rfl) attemptsFailed_run attemptReplayed_run
    (fun h => absurd h (by decide)) attemptsFailed_handled attemptReplayed_handled).mp rfl

/-- A message that was archived is handed back for a retry. -/
theorem retried_after_dead_letter :
    ¬ ∀ (P : PyInt) (deadLetterStream failureCountsKey : String) (m : MessageSource) (maxAttempts : ℤ)
      (s₀ : MessageState) (c c' : Config (messageSystem P deadLetterStream)),
      s₀.redis.hashValue failureCountsKey m.messageIdentity = none →
      (∀ attemptId, s₀.redis.attemptText failureCountsKey m attemptId = none) →
      Interleaved (.init s₀) c → Interleaved c c' →
      (∀ t r, Requested t r c'.trace → ∃ m' error attemptId,
        r = .handleRetryableMessageFailure failureCountsKey m' error attemptId maxAttempts) →
      (∃ attemptId, Handled failureCountsKey m attemptId maxAttempts .deadLetter c) →
      ∀ t, c.pool t = none → ∀ r, Requested t r c'.trace → r.source = m → ∀ action,
        c'.result t = some (.ok (.handled action)) → action = .deadLetter := by
  intro hall
  have hstarts : starts attemptReplayed.trace =
      [(2, exampleAttempt "a"), (1, exampleAttempt "b"), (0, exampleAttempt "a")] := by decide +kernel
  have hrequests : ∀ t r, Requested t r attemptReplayed.trace → ∃ m' error attemptId,
      r = .handleRetryableMessageFailure "counts" m' error attemptId 2 := by
    intro t r hr
    have hmem := hr.mem_starts
    rw [hstarts] at hmem
    simp only [List.mem_cons, Prod.mk.injEq, List.not_mem_nil, or_false] at hmem
    rcases hmem with ⟨-, rfl⟩ | ⟨-, rfl⟩ | ⟨-, rfl⟩ <;> exact ⟨_, _, _, rfl⟩
  have hrequested : Requested 2 (exampleAttempt "a") attemptReplayed.trace :=
    Run.requested (attemptsFailed_run.trans attemptReplayed_run) (by decide +kernel)
  have haction := hall .decimal "dead" "counts" exampleMessage.toMessageSource 2 exampleMessages attemptsFailed
    attemptReplayed rfl (fun _ => rfl) attemptsFailed_run attemptReplayed_run hrequests ⟨_, attemptsFailed_handled⟩
    2 (by rfl) _ hrequested rfl .retry (by decide +kernel)
  cases haction

/-! ### Numbers that a double does not hold -/

/-- Attempts of one message, recorded one after another. -/
structure CountedTo (n : ℕ) (c : Config (messageSystem .decimal "dead")) (attempts : List String) : Prop where
  run : Interleaved (.init exampleMessages) c
  log : AttemptLog "counts" exampleMessage.toMessageSource attempts c.state.redis c.trace
  length : attempts.length = n
  unused : ∀ i, n ≤ i → toString i ∉ attempts ∧ c.pool i = none
  requests : ∀ t r, Requested t r c.trace →
    ∃ attemptId, r = .recordMessageFailureOnce "counts" exampleMessage.toMessageSource attemptId
  hashes : (∀ x, c.state.redis "counts" ≠ some (.stream x)) ∧
    ∀ x, c.state.redis (recordedAttemptsKey "counts") ≠ some (.stream x)

theorem CountedTo.succ {n : ℕ} {c : Config (messageSystem .decimal "dead")} {attempts : List String}
    (h : CountedTo n c attempts) (hn : n < 2 ^ 54) : ∃ c', CountedTo (n + 1) c' (attempts ++ [toString n]) := by
  obtain ⟨hnot, hpool⟩ := h.unused n le_rfl
  have hnone := h.log.numbered.kept_none _ hnot
  have hcount := h.log.count
  rw [h.length] at hcount
  have hfits : FitsInteger ((n : ℤ) + 1) := by
    constructor <;> omega
  obtain ⟨r', hscript, hhashes⟩ := Keyspace.exists_recordMessageFailureOnceScript failureCountsKey_ne h.hashes.1
    h.hashes.2 hnone hcount hfits
  -- thread `n` starts, and its script runs
  let request : MessageRequest := .recordMessageFailureOnce "counts" exampleMessage.toMessageSource (toString n)
  let call : MessageCall := .evalRecordMessageFailureOnce "counts" (recordedAttemptsKey "counts")
    exampleMessage.messageIdentity (exampleMessage.attemptIdentity (toString n))
  let reply : messageCalls.Out call := .ok (replyInteger (toDouble ((n : ℤ) + 1)))
  have hstep : MessageState.step call c.state reply { c.state with redis := r' } := by
    refine .inl ⟨"", fun _ => false, trivial, ?_⟩
    rw [MessageState.serve, hscript]
    rfl
  obtain ⟨k, hk⟩ : ∃ k, request.body .decimal "dead" = .call call k := ⟨_, rfl⟩
  let started : Config (messageSystem .decimal "dead") := ⟨c.state, ⟨c.state, c.state, .start n request⟩ :: c.trace,
    Function.update c.pool n (some (request, request.body .decimal "dead"))⟩
  let recorded : Config (messageSystem .decimal "dead") := ⟨{ c.state with redis := r' },
    ⟨c.state, { c.state with redis := r' }, .call n call reply⟩ :: started.trace,
    Function.update started.pool n (some (request, k reply))⟩
  have hstart : Step (fun _ => True) c started := Step.start n request trivial hpool
  have hpool' : started.pool n = some (request, .call call k) := by
    simp only [started, Function.update_self, hk]
  have hcall : Step (fun _ => True) started recorded :=
    Step.call (S := messageSystem .decimal "dead") (c := started) n request call k reply _ hpool' hstep
  have hskip := h.log.skip (e := ⟨c.state, c.state, .start n request⟩) fun t attemptId v hact => by cases hact
  refine ⟨recorded, (h.run.tail hstart).tail hcall, ?_, ?_, fun i hi => ⟨?_, ?_⟩, fun t r hr => ?_, hhashes⟩
  · rcases Keyspace.recordMessageFailureOnceScript_cases failureCountsKey_ne hscript with
      ⟨hreply, -⟩ | ⟨recordedCount, -, -, hstored⟩ | ⟨failureCount, -, hcount', hfits', hreply, hhash⟩
    · cases hreply
    · have hnone' : some recordedCount = none := hstored.symm.trans hnone
      cases hnone'
    · refine hskip.add rfl ⟨n, reply, _, rfl, hscript⟩ hnone hcount' hfits' hhash fun k hk => ?_
      obtain rfl : replyInteger (toDouble ((n : ℤ) + 1)) = k := Except.ok.inj hk
      exact Option.some.inj hreply
  · rw [List.length_append, h.length, List.length_singleton]
  · rw [List.mem_append, List.mem_singleton, not_or]
    refine ⟨(h.unused i (by omega)).1, fun heq => ?_⟩
    have hrepr : i = n := Nat.repr_inj.mp heq
    omega
  · have hne : i ≠ n := by omega
    calc recorded.pool i = started.pool i := Function.update_of_ne hne _ _
      _ = c.pool i := Function.update_of_ne hne _ _
      _ = none := (h.unused i (by omega)).2
  · rcases requested_start.mp (requested_call.mp hr) with ⟨-, rfl, rfl⟩ | hr
    · exact ⟨_, rfl⟩
    · exact h.requests t r hr

/-- From 2^53 failures on, two attempts can have one number. -/
theorem numbered_twice :
    ¬ ∀ (P : PyInt) (deadLetterStream failureCountsKey : String) (m : MessageSource) (s₀ : MessageState)
      (c : Config (messageSystem P deadLetterStream)),
      s₀.redis.hashValue failureCountsKey m.messageIdentity = none →
      (∀ attemptId, s₀.redis.attemptText failureCountsKey m attemptId = none) → Interleaved (.init s₀) c →
      (∀ t r, Requested t r c.trace → ∃ attemptId, r = .recordMessageFailureOnce failureCountsKey m attemptId) →
      ∃ count : ℕ, (recordedAttempts failureCountsKey m c.trace).encard = count ∧
        Set.BijOn (c.state.redis.attemptNumber failureCountsKey m) (recordedAttempts failureCountsKey m c.trace)
          ((fun n : ℕ => some (n : ℤ)) '' Set.Icc 1 count) := by
  intro hall
  have hempty : CountedTo 0 (.init exampleMessages) [] :=
    { run := .refl, log := .nil rfl fun _ => rfl, length := rfl
      unused := fun i _ => ⟨List.not_mem_nil, rfl⟩
      requests := by rintro t r ⟨s, hs⟩; cases hs
      hashes := ⟨fun x => by simp [Config.init, exampleMessages], fun x => by simp [Config.init, exampleMessages]⟩ }
  have hcounted : ∀ n ≤ 2 ^ 54, ∃ c attempts, CountedTo n c attempts := by
    intro n hn
    induction n with
    | zero => exact ⟨_, _, hempty⟩
    | succ n ih =>
      obtain ⟨c, attempts, h⟩ := ih (by omega)
      obtain ⟨c', h'⟩ := h.succ (by omega)
      exact ⟨c', _, h'⟩
  obtain ⟨c, attempts, h⟩ := hcounted (2 ^ 53 + 1) (by norm_num)
  obtain ⟨count, -, -, hinj, -⟩ := hall _ _ _ _ _ c rfl (fun _ => rfl) h.run h.requests
  -- the last two attempts have the number 2^53
  have hlt : 2 ^ 53 < attempts.length := by rw [h.length]; norm_num
  have hlast := h.log.attemptNumber_eq (List.getElem?_eq_getElem hlt)
  have hfirst := h.log.attemptNumber_eq (List.getElem?_eq_getElem (show 2 ^ 53 - 1 < attempts.length by omega))
  have hsame : toDouble ((2 ^ 53 + 1 : ℕ) : ℤ) = toDouble ((2 ^ 53 - 1 + 1 : ℕ) : ℤ) := by decide +kernel
  rw [hsame] at hlast
  have hmem := fun {i : ℕ} (hi : i < attempts.length) => (h.log.numbered.mem_iff _).mp (List.getElem_mem hi)
  have heq := hinj (hmem hlt) (hmem (by omega)) (hlast.trans hfirst.symm)
  have hplace := h.log.numbered.nodup.getElem_inj_iff.mp heq
  norm_num at hplace

end TaskApi
