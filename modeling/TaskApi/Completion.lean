/-
# The business effect of a message

`apply_completion_once` of `tests/test_message_idempotency.py` over the tables of
`initialize_counter_database`: the event is recorded and the counter advanced in
one transaction, which takes effect at once or, if anything in it raises, not at
all. Transactions of all workers come one after another, with the counter row
removed and restored at any time.

The counter is a SQLite `INTEGER`: a sum that leaves its 64 bits goes on as a
floating-point number, which rounds.

Key definitions: `SqliteNumber`, `CounterDatabase`, `applyCompletionOnce`,
`CounterState.after`.
Key theorems: `applyCompletionOnce_cases`, `recorded_iff_succeeded`, `count_eq`,
`completion_once`.
-/
import Mathlib
import TaskApi.Lib.HalfEven

namespace TaskApi

/-! ### Numbers in SQLite -/

/-- The number fits a SQLite `INTEGER`. -/
def FitsInteger (n : ℤ) : Prop := -2 ^ 63 ≤ n ∧ n < 2 ^ 63

instance (n : ℤ) : Decidable (FitsInteger n) := inferInstanceAs (Decidable (_ ∧ _))

/-- The double nearest to a number, of two the even one. -/
def toDouble (n : ℤ) : ℤ :=
  let ulp := 2 ^ (Nat.log2 n.natAbs - 52)
  let mantissa := n.natAbs / ulp
  let rest := n.natAbs % ulp
  let rounded := if ulp < 2 * rest ∨ (ulp = 2 * rest ∧ mantissa % 2 = 1) then mantissa + 1 else mantissa
  n.sign * (rounded * ulp : ℕ)

/-- A double has 53 binary digits. -/
theorem toDouble_natCast (n : ℕ) : toDouble n = (HalfEven.round 53 n : ℕ) := by
  rcases Nat.eq_zero_or_pos n with rfl | hn
  · rfl
  · have hsign : (n : ℤ).sign = 1 := Int.sign_eq_one_of_pos (by omega)
    have hulp : HalfEven.ulp 53 n = 2 ^ (Nat.log2 n - 52) := by
      unfold HalfEven.ulp
      congr 1
    rw [toDouble, hsign, one_mul, HalfEven.round, HalfEven.mantissa, hulp]
    rfl

/-- A stored number; the doubles that sums of integers lead to are whole. -/
inductive SqliteNumber where
  | integer (n : ℤ)
  | real (n : ℤ)
deriving DecidableEq

namespace SqliteNumber

def value : SqliteNumber → ℤ
  | .integer n | .real n => n

/-- `+`: of integers exact as long as the sum fits, else of doubles. -/
def add : SqliteNumber → SqliteNumber → SqliteNumber
  | .integer a, .integer b =>
    if FitsInteger (a + b) then .integer (a + b) else .real (toDouble (toDouble a + toDouble b))
  | x, y => .real (toDouble (toDouble x.value + toDouble y.value))

/-- What an `INTEGER` column makes of a number. -/
def integerAffinity : SqliteNumber → SqliteNumber
  | .integer n => .integer n
  | .real n => if -2 ^ 63 < n ∧ n < 2 ^ 63 - 1 then .integer n else .real n

end SqliteNumber

/-! ### The tables -/

/-- The exceptions of the message functions. -/
inductive MessageExn where
  | eventPayloadConflictError (message : String)
  | retryableMessageError (message : String)
  | runtimeError (message : String)
  | valueError (message : String)
  | keyError (key : String)
  /-- `sqlite3`: a parameter does not fit an `INTEGER`. -/
  | overflowError
  /-- SQLAlchemy: a statement or the commit failed. -/
  | databaseError
  | redisError
  | other (description : String)
deriving DecidableEq

/-- A row of `processed_events`. -/
structure ProcessedEvent where
  eventId : String
  incrementBy : ℤ
deriving DecidableEq

/-- The two tables; `completedCount` is the row of `completion_counter` with id 1. -/
structure CounterDatabase where
  processedEvents : List ProcessedEvent
  completedCount : Option SqliteNumber
  nodup_eventId : (processedEvents.map (·.eventId)).Nodup

/-- `initialize_counter_database`, with the count to start from. -/
def initializeCounterDatabase (completedCount : ℤ) : CounterDatabase :=
  ⟨[], some (.integer completedCount), List.nodup_nil⟩

namespace CounterDatabase

/-- The stored increment of an event. -/
def incrementOf (db : CounterDatabase) (eventId : String) : Option ℤ :=
  (db.processedEvents.find? fun row => row.eventId = eventId).map (·.incrementBy)

theorem nodup_insert (db : CounterDatabase) (eventId : String) (incrementBy : ℤ) (h : db.incrementOf eventId = none) :
    ((db.processedEvents ++ [(⟨eventId, incrementBy⟩ : ProcessedEvent)]).map fun row => row.eventId).Nodup := by
  rw [List.map_append, List.nodup_append]
  refine ⟨db.nodup_eventId, List.nodup_singleton _, fun id hid other hother => ?_⟩
  obtain ⟨row, hrow, rfl⟩ := List.mem_map.mp hid
  rw [List.mem_singleton.mp hother]
  have hnone := List.find?_eq_none.mp (Option.map_eq_none_iff.mp h) row hrow
  simpa using hnone

/-- `INSERT … ON CONFLICT (event_id) DO NOTHING`, with its `rowcount`. -/
def insertProcessedEvent (db : CounterDatabase) (eventId : String) (incrementBy : ℤ) : ℕ × CounterDatabase :=
  if h : db.incrementOf eventId = none then
    (1, ⟨db.processedEvents ++ [⟨eventId, incrementBy⟩], db.completedCount, db.nodup_insert eventId incrementBy h⟩)
  else (0, db)

/-- `UPDATE completion_counter … WHERE id = 1`, with its `rowcount`. -/
def updateCompletionCounter (db : CounterDatabase) (incrementBy : ℤ) : ℕ × CounterDatabase :=
  match db.completedCount with
  | none => (0, db)
  | some count => (1, { db with completedCount := some (count.add (.integer incrementBy)).integerAffinity })

end CounterDatabase

/-- The statements of the transaction. -/
inductive Statement where
  | insert
  | select
  | update
  | commit
deriving DecidableEq

/-- `with engine.begin()`: what the body leaves is committed if it returns, and
rolled back if it, or the commit, raises. -/
def transaction {α : Type} (fails : Statement → Bool)
    (body : CounterDatabase → Except MessageExn (α × CounterDatabase)) (db : CounterDatabase) :
    Except MessageExn α × CounterDatabase :=
  match body db with
  | .error e => (.error e, db)
  | .ok (a, db') => if fails .commit then (.error .databaseError, db) else (.ok a, db')

/-- The body of the transaction. -/
def applyCompletionOnce.body (fails : Statement → Bool) (eventId : String) (incrementBy : ℤ) (db : CounterDatabase) :
    Except MessageExn (Bool × CounterDatabase) :=
  if fails .insert then .error .databaseError
  else if ¬ FitsInteger incrementBy then .error .overflowError
  else
    let (inserted, db') := db.insertProcessedEvent eventId incrementBy
    if inserted = 0 then
      if fails .select then .error .databaseError
      else
        match db'.incrementOf eventId with
        | none => .error .databaseError -- `scalar_one` without a row
        | some storedIncrement =>
          if storedIncrement ≠ incrementBy then
            .error (.eventPayloadConflictError "Event payload conflicts with processed event")
          else .ok (false, db')
    else if fails .update then .error .databaseError
    else
      let (updated, db'') := db'.updateCompletionCounter incrementBy
      if updated ≠ 1 then .error (.runtimeError "Completion counter is missing") else .ok (true, db'')

/-- `apply_completion_once`, where the statements in `fails` fail. -/
def applyCompletionOnce (fails : Statement → Bool) (eventId : String) (incrementBy : ℤ) (db : CounterDatabase) :
    Except MessageExn Bool × CounterDatabase :=
  transaction fails (applyCompletionOnce.body fails eventId incrementBy) db

/-! ### What a call does -/

theorem CounterDatabase.incrementOf_append {db db' : CounterDatabase} {row : ProcessedEvent}
    (h : db'.processedEvents = db.processedEvents ++ [row]) (eventId : String) :
    db'.incrementOf eventId =
      (db.incrementOf eventId).or (if row.eventId = eventId then some row.incrementBy else none) := by
  unfold incrementOf
  rw [h, List.find?_append]
  cases db.processedEvents.find? fun row => row.eventId = eventId with
  | some _ => rfl
  | none => by_cases hrow : row.eventId = eventId <;> simp [hrow]

/-- What is recorded of an event stays when rows are added. -/
theorem CounterDatabase.incrementOf_mono {db db' : CounterDatabase} (h : db.processedEvents <+: db'.processedEvents)
    {eventId : String} {incrementBy : ℤ} (hrow : db.incrementOf eventId = some incrementBy) :
    db'.incrementOf eventId = some incrementBy := by
  obtain ⟨rows, hrows⟩ := h
  unfold incrementOf at hrow ⊢
  rw [← hrows, List.find?_append]
  obtain ⟨row, hfound, rfl⟩ := Option.map_eq_some_iff.mp hrow
  simp [hfound]

/-- A transaction that raises leaves the tables as they were, one that returns as
its body does. -/
theorem transaction_cases {α : Type} (fails : Statement → Bool)
    (body : CounterDatabase → Except MessageExn (α × CounterDatabase)) (db : CounterDatabase) :
    (∃ e, transaction fails body db = (.error e, db)) ∨
      ∃ a db', body db = .ok (a, db') ∧ transaction fails body db = (.ok a, db') := by
  unfold transaction
  cases hbody : body db with
  | error e => exact .inl ⟨e, rfl⟩
  | ok result =>
    dsimp only
    split_ifs
    · exact .inl ⟨_, rfl⟩
    · exact .inr ⟨_, _, rfl, rfl⟩

section

variable {fails : Statement → Bool} {eventId : String} {incrementBy : ℤ} {db : CounterDatabase}

/-- A body that returns has been able to record the event. -/
theorem body_returns {result : Bool × CounterDatabase}
    (h : applyCompletionOnce.body fails eventId incrementBy db = .ok result) :
    fails .insert = false ∧ FitsInteger incrementBy := by
  unfold applyCompletionOnce.body at h
  by_cases hinsert : fails .insert = true
  · rw [if_pos hinsert] at h
    cases h
  rw [if_neg hinsert] at h
  by_cases hfits : FitsInteger incrementBy
  · exact ⟨by simpa using hinsert, hfits⟩
  · rw [if_pos hfits] at h
    cases h

/-- On an event that is recorded the body compares the increments. -/
theorem body_of_some {storedIncrement : ℤ} (hinsert : fails .insert = false) (hfits : FitsInteger incrementBy)
    (h : db.incrementOf eventId = some storedIncrement) :
    applyCompletionOnce.body fails eventId incrementBy db =
      if fails .select then .error .databaseError
      else if storedIncrement ≠ incrementBy then
        .error (.eventPayloadConflictError "Event payload conflicts with processed event")
      else .ok (false, db) := by
  simp [applyCompletionOnce.body, CounterDatabase.insertProcessedEvent, hinsert, hfits, h]

/-- On a new event the body records it and advances the counter. -/
theorem body_of_none (hinsert : fails .insert = false) (hfits : FitsInteger incrementBy)
    (h : db.incrementOf eventId = none) :
    applyCompletionOnce.body fails eventId incrementBy db =
      if fails .update then .error .databaseError
      else match db.completedCount with
        | none => .error (.runtimeError "Completion counter is missing")
        | some count =>
          .ok (true, ⟨db.processedEvents ++ [⟨eventId, incrementBy⟩],
            some (count.add (.integer incrementBy)).integerAffinity, db.nodup_insert eventId incrementBy h⟩) := by
  unfold applyCompletionOnce.body CounterDatabase.insertProcessedEvent CounterDatabase.updateCompletionCounter
  cases db.completedCount <;> simp [hinsert, hfits, h]

/-- **What a call does.** It raises and changes nothing; or the event is recorded
with this increment, and it changes nothing; or the event was not recorded, and
it is now, and the counter advanced. -/
theorem applyCompletionOnce_cases (fails : Statement → Bool) (eventId : String) (incrementBy : ℤ)
    (db : CounterDatabase) :
    (∃ e, applyCompletionOnce fails eventId incrementBy db = (.error e, db)) ∨
      (applyCompletionOnce fails eventId incrementBy db = (.ok false, db) ∧
        db.incrementOf eventId = some incrementBy) ∨
      (db.incrementOf eventId = none ∧ FitsInteger incrementBy ∧ ∃ count db', db.completedCount = some count ∧
        applyCompletionOnce fails eventId incrementBy db = (.ok true, db') ∧
        db'.processedEvents = db.processedEvents ++ [⟨eventId, incrementBy⟩] ∧
        db'.completedCount = some (count.add (.integer incrementBy)).integerAffinity) := by
  rcases transaction_cases fails (applyCompletionOnce.body fails eventId incrementBy) db with
    hraises | ⟨b, db', hbody, hcommit⟩
  · exact .inl hraises
  obtain ⟨hinsert, hfits⟩ := body_returns hbody
  cases hstored : db.incrementOf eventId with
  | some storedIncrement =>
    rw [body_of_some hinsert hfits hstored] at hbody
    split_ifs at hbody with hselect hconflict
    cases hbody
    exact .inr (.inl ⟨hcommit, congrArg some (not_not.mp hconflict)⟩)
  | none =>
    rw [body_of_none hinsert hfits hstored] at hbody
    split_ifs at hbody
    cases hcount : db.completedCount with
    | none =>
      simp only [hcount] at hbody
      cases hbody
    | some count =>
      simp only [hcount] at hbody
      cases hbody
      exact .inr (.inr ⟨rfl, hfits, count, _, rfl, hcommit, rfl, rfl⟩)

theorem CounterDatabase.mem_of_incrementOf (h : db.incrementOf eventId = some incrementBy) :
    ⟨eventId, incrementBy⟩ ∈ db.processedEvents := by
  obtain ⟨row, hrow, rfl⟩ := Option.map_eq_some_iff.mp h
  have hid : row.eventId = eventId := by simpa using List.find?_some hrow
  rw [← hid]
  exact List.mem_of_find?_eq_some hrow

/-- Among increments that were stored, a call answers `False` exactly on its own,
unless one of its statements fails. -/
theorem applyCompletionOnce_false_iff (hstored : ∀ row ∈ db.processedEvents, FitsInteger row.incrementBy) :
    (applyCompletionOnce fails eventId incrementBy db).1 = .ok false ↔
      db.incrementOf eventId = some incrementBy ∧
        fails .insert = false ∧ fails .select = false ∧ fails .commit = false := by
  constructor
  · intro h
    rcases transaction_cases fails (applyCompletionOnce.body fails eventId incrementBy) db with
      ⟨e, hraises⟩ | ⟨b, db', hbody, hcommit⟩
    · rw [applyCompletionOnce, hraises] at h
      cases h
    obtain ⟨hinsert, hfits⟩ := body_returns hbody
    rcases applyCompletionOnce_cases fails eventId incrementBy db with
      ⟨e, hcall⟩ | ⟨-, hincrement⟩ | ⟨-, -, count, db'', -, hcall, -⟩
    · rw [hcall] at h
      cases h
    · rw [body_of_some hinsert hfits hincrement] at hbody
      split_ifs at hbody with hselect
      refine ⟨hincrement, hinsert, by simpa using hselect, ?_⟩
      cases hbody
      by_contra hfails
      simp only [Bool.not_eq_false] at hfails
      unfold applyCompletionOnce transaction at h
      rw [body_of_some hinsert hfits hincrement] at h
      simp [hselect, hfails] at h
    · rw [hcall] at h
      cases h
  · rintro ⟨hincrement, hinsert, hselect, hcommit⟩
    have hfits := hstored _ (CounterDatabase.mem_of_incrementOf hincrement)
    unfold applyCompletionOnce transaction
    rw [body_of_some hinsert hfits hincrement]
    simp [hselect, hcommit]

end

/-! ### Any number of calls -/

/-- The tables, and the counter row while it is removed. -/
structure CounterState where
  database : CounterDatabase
  removedCount : Option SqliteNumber

/-- A call, or the counter row taken away or put back. -/
inductive CounterEvent where
  | applies (fails : Statement → Bool) (eventId : String) (incrementBy : ℤ)
  | counterRemoved
  | counterRestored

namespace CounterState

/-- New tables. -/
def new (completedCount : ℤ) : CounterState := ⟨initializeCounterDatabase completedCount, none⟩

def step (s : CounterState) : CounterEvent → CounterState
  | .applies fails eventId incrementBy =>
    { s with database := (applyCompletionOnce fails eventId incrementBy s.database).2 }
  | .counterRemoved =>
    match s.database.completedCount with
    | none => s
    | some count => ⟨{ s.database with completedCount := none }, some count⟩
  | .counterRestored =>
    match s.database.completedCount, s.removedCount with
    | none, some count => ⟨{ s.database with completedCount := some count }, none⟩
    | _, _ => s

/-- The state after a history, newest event first. -/
def after (s : CounterState) : List CounterEvent → CounterState
  | [] => s
  | e :: h => (s.after h).step e

/-- The counter, in its table or removed from it. -/
def count (s : CounterState) : Option SqliteNumber := s.database.completedCount.or s.removedCount

/-- The sum of the increments in `processed_events`. -/
def recorded (s : CounterState) : ℤ := (s.database.processedEvents.map (·.incrementBy)).sum

/-- The row is in the table, or removed from it, not both. -/
def OneRow (s : CounterState) : Prop := s.removedCount = none ∨ s.database.completedCount = none

/-- A step leaves the rows of events and the counter, or it is a call that records
a new event and adds its increment. -/
theorem step_cases (s : CounterState) (hrow : s.OneRow) (e : CounterEvent) :
    (s.step e).OneRow ∧
      (((s.step e).database.processedEvents = s.database.processedEvents ∧ (s.step e).count = s.count) ∨
        ∃ fails eventId incrementBy count, e = .applies fails eventId incrementBy ∧
          (applyCompletionOnce fails eventId incrementBy s.database).1 = .ok true ∧
          s.database.incrementOf eventId = none ∧ FitsInteger incrementBy ∧ s.count = some count ∧
          (s.step e).database.processedEvents = s.database.processedEvents ++ [⟨eventId, incrementBy⟩] ∧
          (s.step e).count = some (count.add (.integer incrementBy)).integerAffinity) := by
  cases e with
  | applies fails eventId incrementBy =>
    have hstep : s.step (.applies fails eventId incrementBy) =
        { s with database := (applyCompletionOnce fails eventId incrementBy s.database).2 } := rfl
    rw [hstep]
    rcases applyCompletionOnce_cases fails eventId incrementBy s.database with
      ⟨e, hcall⟩ | ⟨hcall, -⟩ | ⟨hnew, hfits, count, db', hcount, hcall, hrows, hcount'⟩
    · rw [hcall]
      exact ⟨hrow, .inl ⟨rfl, rfl⟩⟩
    · rw [hcall]
      exact ⟨hrow, .inl ⟨rfl, rfl⟩⟩
    · have hnone : s.removedCount = none := hrow.resolve_right (by simp [hcount])
      refine ⟨.inl hnone, .inr ⟨fails, eventId, incrementBy, count, rfl, ?_, hnew, hfits, ?_, ?_, ?_⟩⟩
      · rw [hcall]
      · simp [CounterState.count, hcount]
      · rw [hcall]
        exact hrows
      · rw [hcall]
        simp [CounterState.count, hcount']
  | counterRemoved =>
    unfold step
    cases hcount : s.database.completedCount with
    | none => exact ⟨hrow, .inl ⟨rfl, rfl⟩⟩
    | some count => exact ⟨.inr rfl, .inl ⟨rfl, by simp [CounterState.count, hcount]⟩⟩
  | counterRestored =>
    unfold step
    cases hcount : s.database.completedCount with
    | some count => exact ⟨hrow, .inl ⟨rfl, rfl⟩⟩
    | none =>
      cases hremoved : s.removedCount with
      | none => exact ⟨hrow, .inl ⟨rfl, rfl⟩⟩
      | some count => exact ⟨.inl rfl, .inl ⟨rfl, by simp [CounterState.count, hcount, hremoved]⟩⟩

section

variable {completedCount : ℤ} {h : List CounterEvent}

theorem after_oneRow (completedCount : ℤ) : ∀ h, ((new completedCount).after h).OneRow
  | [] => .inl rfl
  | e :: h => (step_cases _ (after_oneRow completedCount h) e).1

/-- Rows of `processed_events` stay, and come at the end. -/
theorem after_rows (completedCount : ℤ) (v : List CounterEvent) : ∀ u : List CounterEvent,
    ((new completedCount).after v).database.processedEvents <+:
      ((new completedCount).after (u ++ v)).database.processedEvents
  | [] => List.prefix_rfl
  | e :: u => by
    refine (after_rows completedCount v u).trans ?_
    rcases (step_cases _ (after_oneRow completedCount (u ++ v)) e).2 with
      ⟨hrows, -⟩ | ⟨fails, eventId, incrementBy, count, -, -, -, -, -, hrows, -⟩
    · exact hrows ▸ List.prefix_rfl
    · exact hrows ▸ List.prefix_append _ _

/-- Only increments that fit are stored. -/
theorem after_fits (completedCount : ℤ) : ∀ h : List CounterEvent,
    ∀ row ∈ ((new completedCount).after h).database.processedEvents, FitsInteger row.incrementBy
  | [], row, hrow => by cases hrow
  | e :: h, row, hrow => by
    have ih := after_fits completedCount h
    rcases (step_cases _ (after_oneRow completedCount h) e).2 with
      ⟨hrows, -⟩ | ⟨fails, eventId, incrementBy, count, -, -, -, hfits, -, hrows, -⟩
    · exact ih row (hrows ▸ hrow)
    · rcases List.mem_append.mp (hrows ▸ hrow) with hrow | hrow
      · exact ih row hrow
      · rw [List.mem_singleton.mp hrow]
        exact hfits

/-- As long as the sum has fitted an `INTEGER`, the counter is the count at first
and all increments recorded since. -/
theorem count_eq (completedCount : ℤ) : ∀ h : List CounterEvent,
    (∀ v, v <:+ h → FitsInteger (completedCount + ((new completedCount).after v).recorded)) →
      ((new completedCount).after h).count =
        some (.integer (completedCount + ((new completedCount).after h).recorded))
  | [], _ => by simp [after, new, count, recorded, initializeCounterDatabase]
  | e :: h, hfits => by
    have ih := count_eq completedCount h fun v hv => hfits v (hv.trans (List.suffix_cons _ _))
    have hnow := hfits (e :: h) List.suffix_rfl
    show ((after (new completedCount) h).step e).count = some (.integer (completedCount +
      ((after (new completedCount) h).step e).recorded))
    rcases (step_cases _ (after_oneRow completedCount h) e).2 with
      ⟨hrows, hcount⟩ | ⟨fails, eventId, incrementBy, count, -, -, -, -, hcount, hrows, hcount'⟩
    · rw [hcount, ih, recorded, recorded, hrows]
    · rw [ih] at hcount
      cases hcount
      have hsum : ((after (new completedCount) h).step e).recorded =
          ((new completedCount).after h).recorded + incrementBy := by
        rw [recorded, recorded, hrows]
        simp
      have hfit : FitsInteger (completedCount + ((new completedCount).after h).recorded + incrementBy) := by
        rw [add_assoc, ← hsum]
        exact hnow
      rw [hcount', hsum, SqliteNumber.add, if_pos hfit, ← add_assoc]
      rfl

/-- An earlier call for the event has returned. -/
def Succeeded (completedCount : ℤ) (h : List CounterEvent) (eventId : String) : Prop :=
  ∃ u fails incrementBy v, h = u ++ .applies fails eventId incrementBy :: v ∧
    ∃ b, (applyCompletionOnce fails eventId incrementBy ((new completedCount).after v).database).1 = .ok b

theorem Succeeded.cons {eventId : String} (hs : Succeeded completedCount h eventId) (e : CounterEvent) :
    Succeeded completedCount (e :: h) eventId := by
  obtain ⟨u, fails, incrementBy, v, rfl, hreturns⟩ := hs
  exact ⟨e :: u, fails, incrementBy, v, rfl, hreturns⟩

/-- An event is recorded exactly if a call for it has returned. -/
theorem recorded_iff_succeeded (completedCount : ℤ) (eventId : String) : ∀ h : List CounterEvent,
    (∃ n, ((new completedCount).after h).database.incrementOf eventId = some n) ↔ Succeeded completedCount h eventId
  | [] => by
    refine iff_of_false (by simp [after, new, initializeCounterDatabase, CounterDatabase.incrementOf]) ?_
    rintro ⟨u, fails, incrementBy, v, h, -⟩
    cases u <;> cases h
  | e :: h => by
    have ih := recorded_iff_succeeded completedCount eventId h
    have hprefix := after_rows completedCount h [e]
    constructor
    · rintro ⟨n, hn⟩
      rcases (step_cases _ (after_oneRow completedCount h) e).2 with
        ⟨hrows, -⟩ | ⟨fails, eventId', incrementBy, count, rfl, hcall, -, -, -, hrows, -⟩
      · refine (ih.mp ⟨n, ?_⟩).cons e
        rw [← hn]
        unfold CounterDatabase.incrementOf
        rw [← hrows]
        rfl
      · by_cases hid : eventId' = eventId
        · subst hid
          exact ⟨[], fails, incrementBy, h, rfl, true, hcall⟩
        · refine (ih.mp ⟨n, ?_⟩).cons _
          rw [← hn]
          show _ = ((after (new completedCount) h).step _).database.incrementOf eventId
          rw [CounterDatabase.incrementOf_append hrows]
          simp [hid]
    · rintro ⟨u, fails, incrementBy, v, hh, b, hreturns⟩
      cases u with
      | nil =>
        cases hh
        rcases applyCompletionOnce_cases fails eventId incrementBy ((new completedCount).after h).database with
          ⟨e, hcall⟩ | ⟨-, hstored⟩ | ⟨-, -, count, db', -, hcall, hrows, -⟩
        · rw [hcall] at hreturns
          cases hreturns
        · exact ⟨incrementBy, CounterDatabase.incrementOf_mono hprefix hstored⟩
        · have hstep : ((new completedCount).after (.applies fails eventId incrementBy :: h)).database = db' :=
            congrArg Prod.snd hcall
          rw [hstep, CounterDatabase.incrementOf_append hrows]
          cases (after (new completedCount) h).database.incrementOf eventId <;> simp
      | cons e' u =>
        cases hh
        obtain ⟨n, hn⟩ := ih.mpr ⟨u, fails, incrementBy, v, rfl, b, hreturns⟩
        exact ⟨n, CounterDatabase.incrementOf_mono hprefix hn⟩

end

end CounterState

open CounterState

/-- **Exactly once.** After any number of calls, with the counter row removed and
put back at any time: the counter is the count at first and the sum of all
recorded increments, as long as that has fitted an `INTEGER`; an event has one
row at most, and a row stays as it is; a call answers `True` exactly if it is the
first one for its event that returns, `False` exactly if its own increment is
recorded and no statement of it fails, and where it raises it changes nothing. -/
theorem completion_once (completedCount : ℤ) (h : List CounterEvent) :
    ((∀ v, v <:+ h → FitsInteger (completedCount + ((new completedCount).after v).recorded)) →
      ((new completedCount).after h).count =
        some (.integer (completedCount + ((new completedCount).after h).recorded))) ∧
      (((new completedCount).after h).database.processedEvents.map (·.eventId)).Nodup ∧
      (∀ v, v <:+ h → ((new completedCount).after v).database.processedEvents <+:
        ((new completedCount).after h).database.processedEvents) ∧
      ∀ fails eventId incrementBy,
        let call := applyCompletionOnce fails eventId incrementBy ((new completedCount).after h).database
        (call.1 = .ok true ↔ (∃ b, call.1 = .ok b) ∧ ¬ Succeeded completedCount h eventId) ∧
        (call.1 = .ok false ↔
          ((new completedCount).after h).database.incrementOf eventId = some incrementBy ∧
            fails .insert = false ∧ fails .select = false ∧ fails .commit = false) ∧
        ∀ e, call.1 = .error e → call.2 = ((new completedCount).after h).database := by
  refine ⟨count_eq completedCount h, CounterDatabase.nodup_eventId _, ?_, fun fails eventId incrementBy =>
    ⟨?_, applyCompletionOnce_false_iff (after_fits completedCount h), ?_⟩⟩
  · rintro v ⟨u, rfl⟩
    exact after_rows completedCount v u
  · rw [← recorded_iff_succeeded]
    rcases applyCompletionOnce_cases fails eventId incrementBy ((new completedCount).after h).database with
      ⟨e, hcall⟩ | ⟨hcall, hstored⟩ | ⟨hnew, -, count, db', -, hcall, -⟩
    · rw [hcall]
      simp
    · rw [hcall]
      simp [hstored]
    · rw [hcall]
      simp [hnew]
  · intro e he
    rcases applyCompletionOnce_cases fails eventId incrementBy ((new completedCount).after h).database with
      ⟨e, hcall⟩ | ⟨hcall, -⟩ | ⟨-, -, count, db', -, hcall, -⟩
    · rw [hcall]
    · rw [hcall] at he
      cases he
    · rw [hcall] at he
      cases he

/-- Two increments whose sum does not fit. -/
def exampleOverflow : List CounterEvent :=
  [.applies (fun _ => false) "event-b" (2 ^ 63 - 1), .applies (fun _ => false) "event-a" (2 ^ 63 - 1)]

/-- A sum of doubles is rounded. -/
theorem completion_rounds :
    ¬ ∀ (completedCount : ℤ) (h : List CounterEvent), FitsInteger completedCount →
      ((new completedCount).after h).count.map (·.value) =
        some (completedCount + ((new completedCount).after h).recorded) := by
  intro hall
  have hcount : ((new 0).after exampleOverflow).count = some (.real (2 ^ 64)) := by decide +kernel
  have hsum : ((new 0).after exampleOverflow).recorded = 2 ^ 64 - 2 := by decide +kernel
  have hvalue := hall 0 exampleOverflow (by decide)
  rw [hcount, hsum] at hvalue
  revert hvalue
  decide

end TaskApi
