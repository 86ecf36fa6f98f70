/-
# Redis streams and hashes, as far as the message functions use them

A key holds a stream, with the pending messages of each of its groups, or a hash;
a command for the other kind is answered with an error (`none`), and so is one
that finds a field it cannot count with. The scripts of
`tests/test_message_idempotency.py` take effect at once.

Key definitions: `RedisStream`, `Keyspace`, `Keyspace.writeDeadLetterOnceScript`,
`Keyspace.recordMessageFailureOnceScript`.
Key theorems: `xAck_eq_some`, `writeDeadLetterOnceScript_cases`,
`recordMessageFailureOnceScript_keeps`.
-/
import TaskApi.Completion

namespace TaskApi

/-- An entry of a stream. -/
structure StreamEntry where
  id : String
  fields : List (String × String)
deriving DecidableEq

/-- A stream, and for each of its groups the messages delivered and not yet
acknowledged, with the consumers that hold them. -/
structure RedisStream where
  entries : List StreamEntry
  pending : String → Option (List (String × String))

/-- The stream that `XADD` creates. -/
def RedisStream.empty : RedisStream := ⟨[], fun _ => none⟩

/-- Where a message was delivered. -/
structure MessageSource where
  sourceStream : String
  sourceGroup : String
  sourceMessageId : String
deriving DecidableEq

structure DeadLetter extends MessageSource where
  payload : String
  reason : String
deriving DecidableEq

/-- The fields a dead letter is stored with. -/
def DeadLetter.fields (letter : DeadLetter) : List (String × String) :=
  [("source_stream", letter.sourceStream), ("source_group", letter.sourceGroup),
    ("source_message_id", letter.sourceMessageId), ("payload", letter.payload), ("reason", letter.reason)]

/-- The value an entry has under a name. -/
def StreamEntry.value (entry : StreamEntry) (name : String) : Option String := entry.fields.lookup name

/-- Who reads the entry finds the letter, each of its values under its name. -/
structure StreamEntry.Holds (entry : StreamEntry) (letter : DeadLetter) : Prop where
  sourceStream : entry.value "source_stream" = some letter.sourceStream
  sourceGroup : entry.value "source_group" = some letter.sourceGroup
  sourceMessageId : entry.value "source_message_id" = some letter.sourceMessageId
  payload : entry.value "payload" = some letter.payload
  reason : entry.value "reason" = some letter.reason

theorem DeadLetter.holds (id : String) (letter : DeadLetter) : StreamEntry.Holds ⟨id, letter.fields⟩ letter :=
  ⟨rfl, rfl, rfl, rfl, rfl⟩

inductive StoredValue where
  | stream (x : RedisStream)
  | hash (fields : String → Option String)

/-- What is stored under each key. -/
abbrev Keyspace := String → Option StoredValue

/-- A decimal number as Redis reads it: just as it would be written. -/
def redisInteger (s : String) : Option ℤ := s.toInt?.filter fun n => toString n = s ∧ FitsInteger n

/-- The integer that a number of a script is replied as. The cast to 64 bits makes the
least of what they do not hold. -/
def replyInteger (n : ℤ) : ℤ := if FitsInteger n then n else -2 ^ 63

theorem replyInteger_of_fits {n : ℤ} (h : FitsInteger n) : replyInteger n = n := if_pos h

/-- A positive reply is the number itself. -/
theorem replyInteger_of_pos {n : ℤ} (h : 1 ≤ replyInteger n) : replyInteger n = n := by
  unfold replyInteger at h ⊢
  split_ifs at h ⊢
  · rfl
  · norm_num at h

theorem redisInteger_toString {n : ℤ} (h : FitsInteger n) : redisInteger (toString n) = some n := by
  have hread : (toString n).toInt? = some n := Int.toInt?_repr n
  rw [redisInteger, hread]
  simp [h]

namespace Keyspace

variable (r : Keyspace)

/-- `HGET key field` -/
def hGet (key field : String) : Option (Option String) :=
  match r key with
  | none => some none
  | some (.hash fields) => some (fields field)
  | some (.stream _) => none

/-- `HSET key field value` -/
def hSet (key field value : String) : Option Keyspace :=
  match r key with
  | none => some (Function.update r key (some (.hash (Function.update (fun _ => none) field (some value)))))
  | some (.hash fields) => some (Function.update r key (some (.hash (Function.update fields field (some value)))))
  | some (.stream _) => none

/-- `HINCRBY key field increment` -/
def hIncrBy (key field : String) (increment : ℤ) : Option (ℤ × Keyspace) :=
  match r.hGet key field with
  | none => none
  | some value =>
    match value.elim (some 0) redisInteger with
    | none => none
    | some n =>
      if FitsInteger (n + increment) then
        (r.hSet key field (toString (n + increment))).map fun r' => (n + increment, r')
      else none

/-- `XADD key * …`, with the id it is given. -/
def xAdd (key id : String) (fields : List (String × String)) : Option Keyspace :=
  match r key with
  | none => some (Function.update r key (some (.stream { RedisStream.empty with entries := [⟨id, fields⟩] })))
  | some (.stream x) =>
    some (Function.update r key (some (.stream { x with entries := x.entries ++ [⟨id, fields⟩] })))
  | some (.hash _) => none

/-- `XACK key group id`: the number of messages acknowledged. The id is the text
that the message was delivered with. -/
def xAck (key group id : String) : Option (ℤ × Keyspace) :=
  match r key with
  | none => some (0, r)
  | some (.hash _) => none
  | some (.stream x) =>
    match x.pending group with
    | none => some (0, r)
    | some messages =>
      if id ∈ messages.map Prod.fst then
        some (1, Function.update r key (some (.stream { x with
          pending := Function.update x.pending group (some (messages.filter fun m => m.1 ≠ id)) })))
      else some (0, r)

/-- `WRITE_DEAD_LETTER_ONCE_SCRIPT`; `newId` is the id that `XADD` gives. A script
stops at the command that fails, and what it did before stays. -/
def writeDeadLetterOnceScript (newId deadLetterStream deduplicationKey messageIdentity : String)
    (letter : DeadLetter) : Option String × Keyspace :=
  match r.hGet deduplicationKey messageIdentity with
  | none => (none, r)
  | some (some existingId) => (some existingId, r)
  | some none =>
    match r.xAdd deadLetterStream newId letter.fields with
    | none => (none, r)
    | some r' =>
      match r'.hSet deduplicationKey messageIdentity newId with
      | none => (none, r')
      | some r'' => (some newId, r'')

/-- `RECORD_MESSAGE_FAILURE_ONCE_SCRIPT`; a number in the script is a double, stored as
its text (with all its digits, where Redis may use an exponent). -/
def recordMessageFailureOnceScript (failureCountsKey recordedAttemptsKey messageIdentity attemptIdentity : String) :
    Option ℤ × Keyspace :=
  match r.hGet recordedAttemptsKey attemptIdentity with
  | none => (none, r)
  | some (some recordedCount) => (recordedCount.toInt?.map fun n => replyInteger (toDouble n), r)
  | some none =>
    match r.hIncrBy failureCountsKey messageIdentity 1 with
    | none => (none, r)
    | some (failureCount, r') =>
      match r'.hSet recordedAttemptsKey attemptIdentity (toString (toDouble failureCount)) with
      | none => (none, r')
      | some r'' => (some (replyInteger (toDouble failureCount)), r'')

/-! ### What is read -/

/-- The entries of a stream. -/
def entries (key : String) : List StreamEntry :=
  match r key with
  | some (.stream x) => x.entries
  | _ => []

/-- The value of a field of a hash. -/
def hashValue (key field : String) : Option String :=
  match r key with
  | some (.hash fields) => fields field
  | _ => none

/-- The ids of the messages pending in a group. -/
def pendingIds (key group : String) : List String :=
  match r key with
  | some (.stream x) => ((x.pending group).getD []).map Prod.fst
  | _ => []

/-- The message is pending in the group. -/
def Pending (key group id : String) : Prop := id ∈ r.pendingIds key group

instance (key group id : String) : Decidable (r.Pending key group id) := inferInstanceAs (Decidable (_ ∈ _))

section

variable {r} {r' : Keyspace} {key key' field value : String}

theorem entries_congr (h : r' key = r key) : r'.entries key = r.entries key := by
  unfold entries
  rw [h]

theorem hashValue_congr (h : r' key = r key) : r'.hashValue key field = r.hashValue key field := by
  unfold hashValue
  rw [h]

theorem pending_congr {group id : String} (h : r' key = r key) :
    r'.Pending key group id ↔ r.Pending key group id := by
  unfold Pending pendingIds
  rw [h]

theorem hGet_eq_some {x : Option String} (h : r.hGet key field = some x) : r.hashValue key field = x := by
  unfold hGet at h
  unfold hashValue
  cases hkey : r key with
  | none =>
    rw [hkey] at h
    exact Option.some.inj h
  | some stored =>
    rw [hkey] at h
    cases stored with
    | hash fields => exact Option.some.inj h
    | stream x => cases h

theorem hGet_congr (h : r' key = r key) : r'.hGet key field = r.hGet key field := by
  unfold hGet
  rw [h]

theorem hGet_of_ne_stream (field : String) (h : ∀ x, r key ≠ some (.stream x)) :
    r.hGet key field = some (r.hashValue key field) := by
  unfold hGet hashValue
  cases hkey : r key with
  | none => rfl
  | some stored =>
    cases stored with
    | hash fields => rfl
    | stream x => exact absurd hkey (h x)

/-- Where `HGET` is answered, `HSET` is done. -/
theorem exists_hSet {x : Option String} (h : r.hGet key field = some x) (field' value : String) :
    ∃ r', r.hSet key field' value = some r' := by
  unfold hGet at h
  unfold hSet
  cases hkey : r key with
  | none => exact ⟨_, rfl⟩
  | some stored =>
    rw [hkey] at h
    cases stored with
    | hash fields => exact ⟨_, rfl⟩
    | stream x => cases h

/-- `HSET` sets its field, and nothing else; it fails on streams. -/
theorem hSet_eq_some (h : r.hSet key field value = some r') :
    (∀ k, k ≠ key → r' k = r k) ∧
      (∀ f, r'.hashValue key f = if f = field then some value else r.hashValue key f) ∧
      (∃ fields, r' key = some (.hash fields)) ∧ ∀ x, r key ≠ some (.stream x) := by
  unfold hSet at h
  cases hkey : r key with
  | none =>
    rw [hkey] at h
    obtain rfl := Option.some.inj h
    refine ⟨fun k hk => Function.update_of_ne hk _ _, fun f => ?_, ⟨_, Function.update_self ..⟩, by simp⟩
    simp [hashValue, hkey, Function.update_apply]
  | some stored =>
    rw [hkey] at h
    cases stored with
    | stream x => cases h
    | hash fields =>
      obtain rfl := Option.some.inj h
      refine ⟨fun k hk => Function.update_of_ne hk _ _, fun f => ?_, ⟨_, Function.update_self ..⟩, by simp⟩
      simp [hashValue, hkey, Function.update_apply]

/-- `XADD` appends its entry, and nothing else; it fails on hashes. -/
theorem xAdd_eq_some {id : String} {fields : List (String × String)} (h : r.xAdd key id fields = some r') :
    (∀ k, k ≠ key → r' k = r k) ∧ r'.entries key = r.entries key ++ [⟨id, fields⟩] ∧
      (∀ group m, r'.Pending key group m ↔ r.Pending key group m) ∧ ∀ f, r'.hashValue key f = r.hashValue key f := by
  unfold xAdd at h
  cases hkey : r key with
  | none =>
    rw [hkey] at h
    obtain rfl := Option.some.inj h
    refine ⟨fun k hk => Function.update_of_ne hk _ _, ?_, fun group m => ?_, fun f => ?_⟩
    · simp [entries, hkey]
    · simp [Pending, pendingIds, hkey, RedisStream.empty]
    · simp [hashValue, hkey]
  | some stored =>
    rw [hkey] at h
    cases stored with
    | hash fields => cases h
    | stream x =>
      obtain rfl := Option.some.inj h
      refine ⟨fun k hk => Function.update_of_ne hk _ _, ?_, fun group m => ?_, fun f => ?_⟩
      · simp [entries, hkey]
      · simp [Pending, pendingIds, hkey]
      · simp [hashValue, hkey]

/-! ### What is kept -/

/-- The same entries and the same pending messages. -/
def SameStreams (r r' : Keyspace) : Prop :=
  ∀ key, r'.entries key = r.entries key ∧ ∀ group id, r'.Pending key group id ↔ r.Pending key group id

theorem SameStreams.refl (r : Keyspace) : r.SameStreams r := fun _ => ⟨rfl, fun _ _ => Iff.rfl⟩

theorem SameStreams.trans {r'' : Keyspace} (h : r.SameStreams r') (h' : r'.SameStreams r'') : r.SameStreams r'' :=
  fun key => ⟨(h' key).1.trans (h key).1, fun group id => ((h' key).2 group id).trans ((h key).2 group id)⟩

theorem hSet_sameStreams (h : r.hSet key field value = some r') : r.SameStreams r' := by
  obtain ⟨hne, -, ⟨fields, hhash⟩, hstream⟩ := hSet_eq_some h
  intro k
  by_cases hk : k = key
  · subst hk
    unfold entries Pending pendingIds
    cases hkey : r k with
    | none => simp [hhash]
    | some stored =>
      cases stored with
      | hash fields => simp [hhash]
      | stream x => exact absurd hkey (hstream x)
  · exact ⟨entries_congr (hne k hk), fun group id => pending_congr (hne k hk)⟩

theorem hIncrBy_eq_some {increment n : ℤ} (h : r.hIncrBy key field increment = some (n, r')) :
    r.hSet key field (toString n) = some r' := by
  unfold hIncrBy at h
  cases hget : r.hGet key field with
  | none =>
    rw [hget] at h
    cases h
  | some stored =>
    rw [hget] at h
    cases hcount : stored.elim (some 0) redisInteger with
    | none =>
      simp only [hcount] at h
      cases h
    | some m =>
      simp only [hcount] at h
      split_ifs at h
      obtain ⟨r₁, hr₁, heq⟩ := Option.map_eq_some_iff.mp h
      obtain ⟨rfl, rfl⟩ := Prod.mk.inj heq
      exact hr₁

/-- What `HINCRBY` counts on from. -/
theorem hIncrBy_counts {increment n : ℤ} (h : r.hIncrBy key field increment = some (n, r')) :
    (r.hashValue key field).elim (some 0) redisInteger = some (n - increment) ∧ FitsInteger n := by
  unfold hIncrBy at h
  cases hget : r.hGet key field with
  | none =>
    rw [hget] at h
    cases h
  | some stored =>
    rw [hget] at h
    rw [hGet_eq_some hget]
    cases hcount : stored.elim (some 0) redisInteger with
    | none =>
      simp only [hcount] at h
      cases h
    | some m =>
      simp only [hcount] at h
      split_ifs at h with hfits
      obtain ⟨r₁, -, heq⟩ := Option.map_eq_some_iff.mp h
      obtain ⟨rfl, rfl⟩ := Prod.mk.inj heq
      exact ⟨by rw [add_sub_cancel_right], hfits⟩

/-- What changes with the pending messages of a stream. -/
theorem update_pending {x : RedisStream} {pending : String → Option (List (String × String))}
    (hkey : r key = some (.stream x))
    (h : Function.update r key (some (.stream { x with pending := pending })) = r') :
    (∀ k, r'.entries k = r.entries k) ∧ (∀ k f, r'.hashValue k f = r.hashValue k f) ∧
      ∀ k g, r'.pendingIds k g = if k = key then ((pending g).getD []).map Prod.fst else r.pendingIds k g := by
  have hsame : ∀ k, k ≠ key → r' k = r k := fun k hk => h ▸ Function.update_of_ne hk _ _
  have hself : r' key = some (.stream { x with pending := pending }) := h ▸ Function.update_self ..
  refine ⟨fun k => ?_, fun k f => ?_, fun k g => ?_⟩ <;> by_cases hk : k = key
  · subst hk
    simp [entries, hkey, hself]
  · exact entries_congr (hsame k hk)
  · subst hk
    simp [hashValue, hkey, hself]
  · exact hashValue_congr (hsame k hk)
  · subst hk
    simp [pendingIds, hself]
  · simp [pendingIds, hsame k hk, hk]

/-- `XACK` takes its message from the pending ones, and nothing else. -/
theorem xAck_eq_some {group id : String} {n : ℤ} (h : r.xAck key group id = some (n, r')) :
    (∀ k, r'.entries k = r.entries k) ∧ (∀ k f, r'.hashValue k f = r.hashValue k f) ∧
      ∀ k g m, r.Pending k g m → r'.Pending k g m ∨ (k = key ∧ g = group ∧ m = id) := by
  have same : r' = r → (∀ k, r'.entries k = r.entries k) ∧ (∀ k f, r'.hashValue k f = r.hashValue k f) ∧
      ∀ k g m, r.Pending k g m → r'.Pending k g m ∨ (k = key ∧ g = group ∧ m = id) := by
    rintro rfl
    exact ⟨fun _ => rfl, fun _ _ => rfl, fun _ _ _ hm => .inl hm⟩
  unfold xAck at h
  cases hkey : r key with
  | none =>
    rw [hkey] at h
    exact same (Prod.mk.inj (Option.some.inj h)).2.symm
  | some stored =>
    rw [hkey] at h
    cases stored with
    | hash fields => cases h
    | stream x =>
      cases hgroup : x.pending group with
      | none =>
        simp only [hgroup] at h
        exact same (Prod.mk.inj (Option.some.inj h)).2.symm
      | some messages =>
        simp only [hgroup] at h
        split_ifs at h with hmem
        · obtain ⟨hentries, hvalue, hids⟩ := update_pending hkey (Prod.mk.inj (Option.some.inj h)).2
          refine ⟨hentries, hvalue, fun k g m hm => ?_⟩
          rw [Pending, hids]
          split_ifs with hk
          · subst hk
            have hm : m ∈ ((x.pending g).getD []).map Prod.fst := by simpa [Pending, pendingIds, hkey] using hm
            by_cases hg : g = group
            · subst hg
              by_cases hid : m = id
              · exact .inr ⟨rfl, rfl, hid⟩
              · rw [hgroup] at hm
                obtain ⟨message, hmessage, rfl⟩ := List.mem_map.mp hm
                exact .inl (by simpa [hid] using ⟨message.2, hmessage⟩)
            · rw [Function.update_of_ne hg]
              exact .inl hm
          · exact .inl hm
        · exact same (Prod.mk.inj (Option.some.inj h)).2.symm

/-! ### What a script does -/

section

variable {newId deadLetterStream deduplicationKey messageIdentity failureCountsKey recordedAttemptsKey
  attemptIdentity : String} {letter : DeadLetter}

/-- The script finds the id of the message's entry, or it adds the entry and
stores its id. -/
theorem writeDeadLetterOnceScript_cases (hkeys : deadLetterStream ≠ deduplicationKey) {reply : Option String}
    (h : r.writeDeadLetterOnceScript newId deadLetterStream deduplicationKey messageIdentity letter = (reply, r')) :
    (reply = none ∧ r' = r) ∨
    (∃ existingId, reply = some existingId ∧ r' = r ∧
      r.hashValue deduplicationKey messageIdentity = some existingId) ∨
    (reply = some newId ∧ r.hashValue deduplicationKey messageIdentity = none ∧
      r'.entries deadLetterStream = r.entries deadLetterStream ++ [⟨newId, letter.fields⟩] ∧
      (∀ f, r'.hashValue deduplicationKey f =
        if f = messageIdentity then some newId else r.hashValue deduplicationKey f) ∧
      (∀ k, k ≠ deadLetterStream → r'.entries k = r.entries k) ∧
      ∀ k g m, r'.Pending k g m ↔ r.Pending k g m) := by
  unfold writeDeadLetterOnceScript at h
  cases hget : r.hGet deduplicationKey messageIdentity with
  | none =>
    rw [hget] at h
    obtain ⟨rfl, rfl⟩ := Prod.mk.inj h
    exact .inl ⟨rfl, rfl⟩
  | some stored =>
    rw [hget] at h
    cases stored with
    | some existingId =>
      obtain ⟨rfl, rfl⟩ := Prod.mk.inj h
      exact .inr (.inl ⟨existingId, rfl, rfl, hGet_eq_some hget⟩)
    | none =>
      cases hadd : r.xAdd deadLetterStream newId letter.fields with
      | none =>
        simp only [hadd] at h
        obtain ⟨rfl, rfl⟩ := Prod.mk.inj h
        exact .inl ⟨rfl, rfl⟩
      | some r₁ =>
        obtain ⟨hne, hentries, hpending, hvalue⟩ := xAdd_eq_some hadd
        have hother : r₁ deduplicationKey = r deduplicationKey := hne _ hkeys.symm
        obtain ⟨r₂, hset⟩ := exists_hSet ((hGet_congr hother).trans hget) messageIdentity newId
        obtain ⟨hne', hvalue', -⟩ := hSet_eq_some hset
        have hsame := hSet_sameStreams hset
        simp only [hadd, hset] at h
        obtain ⟨rfl, rfl⟩ := Prod.mk.inj h
        refine .inr (.inr ⟨rfl, hGet_eq_some hget, ?_, fun f => ?_, fun k hk => ?_, fun k g m => ?_⟩)
        · rw [(hsame _).1, hentries]
        · rw [hvalue', hashValue_congr hother]
        · rw [(hsame k).1, entries_congr (hne k hk)]
        · rw [(hsame k).2]
          by_cases hk : k = deadLetterStream
          · subst hk
            exact hpending g m
          · exact pending_congr (hne k hk)

/-- The script changes no field but that of its message. -/
theorem writeDeadLetterOnceScript_hashValue (hkeys : deadLetterStream ≠ deduplicationKey) {reply : Option String}
    (h : r.writeDeadLetterOnceScript newId deadLetterStream deduplicationKey messageIdentity letter = (reply, r'))
    {k f : String} (hkept : k ≠ deduplicationKey ∨ f ≠ messageIdentity ∨ r.hashValue k f ≠ none) :
    r'.hashValue k f = r.hashValue k f := by
  unfold writeDeadLetterOnceScript at h
  cases hget : r.hGet deduplicationKey messageIdentity with
  | none =>
    rw [hget] at h
    obtain ⟨rfl, rfl⟩ := Prod.mk.inj h
    rfl
  | some stored =>
    rw [hget] at h
    cases stored with
    | some existingId =>
      obtain ⟨rfl, rfl⟩ := Prod.mk.inj h
      rfl
    | none =>
      cases hadd : r.xAdd deadLetterStream newId letter.fields with
      | none =>
        simp only [hadd] at h
        obtain ⟨rfl, rfl⟩ := Prod.mk.inj h
        rfl
      | some r₁ =>
        obtain ⟨hne, -, -, hvalue⟩ := xAdd_eq_some hadd
        have hsame : ∀ k, r₁.hashValue k f = r.hashValue k f := fun k => by
          by_cases hk : k = deadLetterStream
          · exact hk ▸ hvalue f
          · exact hashValue_congr (hne k hk)
        obtain ⟨r₂, hset⟩ := exists_hSet ((hGet_congr (hne _ hkeys.symm)).trans hget) messageIdentity newId
        obtain ⟨hne', hvalue', -⟩ := hSet_eq_some hset
        simp only [hadd, hset] at h
        obtain ⟨rfl, rfl⟩ := Prod.mk.inj h
        by_cases hk : k = deduplicationKey
        · subst hk
          have hf : f ≠ messageIdentity := by
            rintro rfl
            rcases hkept with hne | hne | hstored
            · exact hne rfl
            · exact hne rfl
            · exact hstored (hGet_eq_some hget)
          rw [hvalue', if_neg hf, hsame]
        · rw [hashValue_congr (hne' k hk), hsame]

/-- The script finds the number of the attempt, or it counts the failure and
stores its number; a value that is not a number stops it. -/
theorem recordMessageFailureOnceScript_cases (hkeys : failureCountsKey ≠ recordedAttemptsKey) {reply : Option ℤ}
    (h : r.recordMessageFailureOnceScript failureCountsKey recordedAttemptsKey messageIdentity attemptIdentity =
      (reply, r')) :
    (reply = none ∧ r' = r) ∨
    (∃ recordedCount, reply = recordedCount.toInt?.map (fun n => replyInteger (toDouble n)) ∧ r' = r ∧
      r.hashValue recordedAttemptsKey attemptIdentity = some recordedCount) ∨
    ∃ failureCount, r.hashValue recordedAttemptsKey attemptIdentity = none ∧
      (r.hashValue failureCountsKey messageIdentity).elim (some 0) redisInteger = some (failureCount - 1) ∧
      FitsInteger failureCount ∧ reply = some (replyInteger (toDouble failureCount)) ∧
      ∀ k f, r'.hashValue k f =
        if k = failureCountsKey ∧ f = messageIdentity then some (toString failureCount)
        else if k = recordedAttemptsKey ∧ f = attemptIdentity then some (toString (toDouble failureCount))
        else r.hashValue k f := by
  unfold recordMessageFailureOnceScript at h
  cases hget : r.hGet recordedAttemptsKey attemptIdentity with
  | none =>
    rw [hget] at h
    obtain ⟨rfl, rfl⟩ := Prod.mk.inj h
    exact .inl ⟨rfl, rfl⟩
  | some stored =>
    rw [hget] at h
    cases stored with
    | some recordedCount =>
      obtain ⟨rfl, rfl⟩ := Prod.mk.inj h
      exact .inr (.inl ⟨recordedCount, rfl, rfl, hGet_eq_some hget⟩)
    | none =>
      cases hincr : r.hIncrBy failureCountsKey messageIdentity 1 with
      | none =>
        simp only [hincr] at h
        obtain ⟨rfl, rfl⟩ := Prod.mk.inj h
        exact .inl ⟨rfl, rfl⟩
      | some result =>
        obtain ⟨failureCount, r₁⟩ := result
        obtain ⟨hcount, hfits⟩ := hIncrBy_counts hincr
        obtain ⟨hne, hvalue, -⟩ := hSet_eq_some (hIncrBy_eq_some hincr)
        obtain ⟨r₂, hset⟩ := exists_hSet ((hGet_congr (hne _ hkeys.symm)).trans hget) attemptIdentity
          (toString (toDouble failureCount))
        obtain ⟨hne', hvalue', -⟩ := hSet_eq_some hset
        simp only [hincr, hset] at h
        obtain ⟨rfl, rfl⟩ := Prod.mk.inj h
        refine .inr (.inr ⟨failureCount, hGet_eq_some hget, hcount, hfits, rfl, fun k f => ?_⟩)
        by_cases hk : k = recordedAttemptsKey
        · subst hk
          rw [hvalue', hashValue_congr (hne _ hkeys.symm)]
          simp [hkeys.symm]
        · rw [hashValue_congr (hne' k hk), if_neg (c := k = recordedAttemptsKey ∧ _) fun hf => hk hf.1]
          by_cases hk' : k = failureCountsKey
          · subst hk'
            rw [hvalue]
            simp
          · rw [hashValue_congr (hne k hk'), if_neg fun hf => hk' hf.1]

/-- Where neither key holds a stream, the script counts a new attempt. -/
theorem exists_recordMessageFailureOnceScript (hkeys : failureCountsKey ≠ recordedAttemptsKey)
    (hcounts : ∀ x, r failureCountsKey ≠ some (.stream x)) (hattempts : ∀ x, r recordedAttemptsKey ≠ some (.stream x))
    (hnone : r.hashValue recordedAttemptsKey attemptIdentity = none) {n : ℤ}
    (hcount : (r.hashValue failureCountsKey messageIdentity).elim (some 0) redisInteger = some n)
    (hfits : FitsInteger (n + 1)) :
    ∃ r', r.recordMessageFailureOnceScript failureCountsKey recordedAttemptsKey messageIdentity attemptIdentity =
        (some (replyInteger (toDouble (n + 1))), r') ∧ (∀ x, r' failureCountsKey ≠ some (.stream x)) ∧
      ∀ x, r' recordedAttemptsKey ≠ some (.stream x) := by
  have hget := hGet_of_ne_stream attemptIdentity hattempts
  obtain ⟨r₁, hr₁⟩ := exists_hSet (hGet_of_ne_stream messageIdentity hcounts) messageIdentity (toString (n + 1))
  obtain ⟨hne, -, ⟨fields, hhash⟩, -⟩ := hSet_eq_some hr₁
  obtain ⟨r₂, hr₂⟩ := exists_hSet ((hGet_congr (hne _ hkeys.symm)).trans hget) attemptIdentity
    (toString (toDouble (n + 1)))
  obtain ⟨hne', -, ⟨fields', hhash'⟩, -⟩ := hSet_eq_some hr₂
  have hincr : r.hIncrBy failureCountsKey messageIdentity 1 = some (n + 1, r₁) := by
    rw [hIncrBy, hGet_of_ne_stream messageIdentity hcounts]
    simp only [hcount, if_pos hfits, hr₁, Option.map_some]
  refine ⟨r₂, ?_, fun x => ?_, fun x => ?_⟩
  · rw [recordMessageFailureOnceScript, hget, hnone]
    simp only [hincr, hr₂]
  · rw [hne' _ hkeys, hhash]
    simp
  · rw [hhash']
    simp

/-- The script writes to its two hashes only. -/
theorem recordMessageFailureOnceScript_keeps {reply : Option ℤ}
    (h : r.recordMessageFailureOnceScript failureCountsKey recordedAttemptsKey messageIdentity attemptIdentity =
      (reply, r')) :
    r.SameStreams r' ∧ ∀ k f, k ≠ failureCountsKey → k ≠ recordedAttemptsKey →
      r'.hashValue k f = r.hashValue k f := by
  have same : r' = r → r.SameStreams r' ∧ ∀ k f, k ≠ failureCountsKey → k ≠ recordedAttemptsKey →
      r'.hashValue k f = r.hashValue k f := by
    rintro rfl
    exact ⟨.refl _, fun _ _ _ _ => rfl⟩
  unfold recordMessageFailureOnceScript at h
  cases hget : r.hGet recordedAttemptsKey attemptIdentity with
  | none =>
    rw [hget] at h
    exact same (Prod.mk.inj h).2.symm
  | some stored =>
    rw [hget] at h
    cases stored with
    | some recordedCount => exact same (Prod.mk.inj h).2.symm
    | none =>
      cases hincr : r.hIncrBy failureCountsKey messageIdentity 1 with
      | none =>
        simp only [hincr] at h
        exact same (Prod.mk.inj h).2.symm
      | some result =>
        obtain ⟨failureCount, r₁⟩ := result
        have hset := hIncrBy_eq_some hincr
        cases hset' : r₁.hSet recordedAttemptsKey attemptIdentity (toString (toDouble failureCount)) with
        | none =>
          simp only [hincr, hset'] at h
          obtain ⟨rfl, rfl⟩ := Prod.mk.inj h
          exact ⟨hSet_sameStreams hset, fun k f hk _ => hashValue_congr ((hSet_eq_some hset).1 k hk)⟩
        | some r₂ =>
          simp only [hincr, hset'] at h
          obtain ⟨rfl, rfl⟩ := Prod.mk.inj h
          refine ⟨(hSet_sameStreams hset).trans (hSet_sameStreams hset'), fun k f hk hk' => ?_⟩
          rw [hashValue_congr ((hSet_eq_some hset').1 k hk'), hashValue_congr ((hSet_eq_some hset).1 k hk)]

end

end

end Keyspace

end TaskApi
