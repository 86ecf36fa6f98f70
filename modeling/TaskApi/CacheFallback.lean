/-
# Reading a task while Redis fails

One call of `get_cached_owned_task_or_404` on a Redis that fails at chosen
calls, before or after they take effect, while other clients do what they like
with the cache as long as it agrees with the table. The call answers from the
table whatever fails, with one exception: the lookup under the lock has no
handler, so its `RedisError` leaves the function.

Key definitions: `Others`, `faultyServe`, `LosesSecondLookup`.
Key theorems: `lookupTask_yields`, `load_yields`, `get_answers_iff`.
-/
import TaskApi.Coherence

namespace TaskApi

open Conc

/-- The live entry of the task, if there is one, says what the row says. -/
def Agrees (J : TaskJson) (o i : ℤ) (s : State) : Prop :=
  ∀ value, s.redis.get s.now (TaskCache.buildKey o i) = some value →
    J.read value = some (taskOf (s.row o i))

/-- What other clients and time do before the `n`-th Redis call: nothing to the
table, and nothing that makes the entry disagree. -/
structure Others (J : TaskJson) (o i : ℤ) where
  act : ℕ → State → State
  db : ∀ n s, (act n s).db = s.db
  agrees : ∀ n s, Agrees J o i s → Agrees J o i (act n s)

/-- How a Redis call fails: before it took effect, or after. -/
inductive Fault where
  | lostRequest
  | lostReply
deriving DecidableEq

/-- The shared state, and the number of Redis calls made so far. -/
structure World where
  state : State
  redisCalls : ℕ

/-- The server of a call, when the Redis calls listed in `faults` fail. -/
def faultyServe {J : TaskJson} {o i : ℤ} (pick : Pick) (others : Others J o i) (faults : ℕ → Option Fault)
    (c : Call) (w : World) : calls.Out c × World :=
  if c.isRedis then
    let s := others.act w.redisCalls w.state
    match faults w.redisCalls with
    | none => ((s.serve pick c).1, ⟨(s.serve pick c).2, w.redisCalls + 1⟩)
    | some .lostRequest => (.error .redisError, ⟨s, w.redisCalls + 1⟩)
    | some .lostReply => (.error .redisError, ⟨(s.serve pick c).2, w.redisCalls + 1⟩)
  else ((w.state.serve pick c).1, ⟨(w.state.serve pick c).2, w.redisCalls⟩)

section

variable {J : TaskJson} {settings : Settings} {o i : ℤ} {pick : Pick} {others : Others J o i}
  {faults : ℕ → Option Fault} {row : Option TaskRecord}

/-- The table has the row, and the cache agrees with it. -/
def World.Good (J : TaskJson) (o i : ℤ) (row : Option TaskRecord) (w : World) : Prop :=
  w.state.row o i = row ∧ Agrees J o i w.state

/-- The state in which the next Redis call is served. -/
def World.served (w : World) (others : Others J o i) : State := others.act w.redisCalls w.state

theorem World.Good.served {w : World} (h : w.Good J o i row) (others : Others J o i) :
    (w.served others).row o i = row ∧ Agrees J o i (w.served others) :=
  ⟨by rw [← h.1]; exact congrArg (·.findOwnedTask i o) (others.db _ _), others.agrees _ _ h.2⟩

/-- A Redis call is served, or fails; either way the table and the agreement are
as the call leaves them. -/
theorem faultyServe_redis (pick : Pick) (faults : ℕ → Option Fault) {c : Call} {w : World} (hc : c.isRedis)
    (h : w.Good J o i row)
    (hdb : ((w.served others).serve pick c).2.db = (w.served others).db)
    (hagree : Agrees J o i ((w.served others).serve pick c).2) :
    (faultyServe pick others faults c w).2.Good J o i row ∧
    ((faults w.redisCalls = none ∧ faultyServe pick others faults c w =
      (((w.served others).serve pick c).1, ⟨((w.served others).serve pick c).2, w.redisCalls + 1⟩)) ∨
    (faults w.redisCalls ≠ none ∧ (faultyServe pick others faults c w).1 = .error .redisError)) := by
  obtain ⟨h1, h2⟩ := h.served others
  have h3 : ((w.served others).serve pick c).2.row o i = row := by
    rw [← h1]
    exact congrArg (·.findOwnedTask i o) hdb
  unfold faultyServe
  rw [if_pos hc]
  cases hf : faults w.redisCalls with
  | none => exact ⟨⟨h3, hagree⟩, .inl ⟨rfl, rfl⟩⟩
  | some f =>
    cases f with
    | lostRequest => exact ⟨⟨h1, h2⟩, .inr ⟨by simp, rfl⟩⟩
    | lostReply => exact ⟨⟨h3, hagree⟩, .inr ⟨by simp, rfl⟩⟩

/-- Redis's calls raise `RedisError` or nothing. -/
theorem faultyServe_error {c : Call} {w : World} (hc : c.isRedis) {e : Exn}
    (h : (faultyServe pick others faults c w).1 = .error e) : e = .redisError := by
  unfold faultyServe at h
  rw [if_pos hc] at h
  cases hf : faults w.redisCalls with
  | none =>
    simp only [hf] at h
    exact step_redis_error hc (step_serve (fun _ => True) pick c _ |> fun hs => by rwa [h] at hs)
  | some f =>
    cases f <;> simp only [hf] at h <;> cases h <;> rfl

/-- A Redis call under a handler never raises. -/
theorem attempt_returns {c : Call} (hc : c.isRedis) (w : World) :
    (attemptRedis (perform c)).Yields (faultyServe pick others faults) (fun _ r => ∃ a, r = .ok a) w := by
  refine yields_attemptRedis (Prog.yields_perform.mpr ?_)
  cases hv : (faultyServe pick others faults c w).1 with
  | ok a => exact ⟨_, rfl⟩
  | error e =>
    obtain rfl := faultyServe_error hc hv
    exact ⟨_, rfl⟩

theorem setTaskNotFound_returns (w : World) :
    (attemptRedis ((getTaskCache settings).setTaskNotFound o i)).Yields (faultyServe pick others faults)
      (fun _ r => ∃ a, r = .ok a) w :=
  attempt_returns (c := .redisSet _ _ _) rfl w

/-- The jitter is drawn first; that cannot fail. -/
theorem setTask_returns (task : TaskResponse) (w : World) :
    (attemptRedis ((getTaskCache settings).setTask J o task)).Yields (faultyServe pick others faults)
      (fun _ r => ∃ a, r = .ok a) w :=
  attempt_returns (c := .redisSet (TaskCache.buildKey o task.id) (J.modelDumpJson task)
    ((getTaskCache settings).ttlSeconds + pick.randint 0 (getTaskCache settings).ttlJitterSeconds)) rfl w

theorem release_returns (lockToken : String) (w : World) :
    (attemptRedis (RedisLock.release (buildTaskCacheLockKey o i) lockToken)).Yields
      (faultyServe pick others faults) (fun _ r => ∃ a, r = .ok a) w := by
  refine yields_attemptRedis (Prog.yields_bind.mpr (Prog.yields_perform.mpr ?_))
  cases hv : (faultyServe pick others faults (.redisEvalReleaseLock (buildTaskCacheLockKey o i) lockToken) w).1 with
  | ok n => exact ⟨_, rfl⟩
  | error e =>
    obtain rfl := faultyServe_error rfl hv
    exact ⟨_, rfl⟩

theorem lookupTask_yields {Q : World → Except Exn TaskCacheLookup → Prop} {w : World}
    (h : w.Good J o i row)
    (hhit : ∀ w', w'.Good J o i row → faults w.redisCalls = none →
      (w.served others).redis.get (w.served others).now (TaskCache.buildKey o i) ≠ none →
      Q w' (.ok ⟨true, taskOf row⟩))
    (hmiss : faults w.redisCalls = none →
      (w.served others).redis.get (w.served others).now (TaskCache.buildKey o i) = none →
      Q ⟨w.served others, w.redisCalls + 1⟩ (.ok ⟨false, none⟩))
    (herr : ∀ w', w'.Good J o i row → faults w.redisCalls ≠ none → Q w' (.error .redisError)) :
    (TaskCache.lookupTask J o i).Yields (faultyServe pick others faults) Q w := by
  unfold TaskCache.lookupTask
  refine Prog.yields_bind.mpr (Prog.yields_perform.mpr ?_)
  obtain ⟨hrow, hagree⟩ := h.served others
  obtain ⟨hgood, hserved⟩ := faultyServe_redis pick faults (c := .redisGet (TaskCache.buildKey o i))
    rfl h rfl hagree
  rcases hserved with ⟨hf, heq⟩ | ⟨hf, hv⟩
  · rw [heq] at hgood ⊢
    change Prog.ends _ _ _ (.ok ((w.served others).redis.get (w.served others).now (TaskCache.buildKey o i)))
    cases hget : (w.served others).redis.get (w.served others).now (TaskCache.buildKey o i) with
    | none => exact hmiss hf hget
    | some value =>
      -- a value that agrees is the marker or decodes
      have hread := hagree value hget
      rw [hrow] at hread
      have hhit := hhit _ hgood hf (by rw [hget]; simp)
      unfold TaskJson.read at hread
      simp only [Prog.ends_ok]
      split_ifs at hread ⊢ with hm
      · rw [← Option.some.inj hread] at hhit
        exact hhit
      · cases hval : J.modelValidateJson value with
        | none =>
          rw [hval] at hread
          cases hread
        | some task =>
          rw [hval] at hread
          rw [← Option.some.inj hread] at hhit
          exact hhit
  · rw [hv]
    exact herr _ hgood hf

/-- The load answers from the table, whether or not it can write the cache. -/
theorem load_yields {w : World} (h : w.Good J o i row) :
    (loadOwnedTaskFromDatabase J (getTaskCache settings) o i).Yields (faultyServe pick others faults)
      (fun _ r => r = answerTask (taskOf row)) w := by
  unfold loadOwnedTaskFromDatabase
  refine Prog.yields_bind.mpr (Prog.yields_perform.mpr ?_)
  change Prog.ends _ _ w (.ok (w.state.row o i))
  rw [h.1, Prog.ends_ok]
  cases hrow : row with
  | none =>
    refine Prog.yields_bind.mpr ((setTaskNotFound_returns w).mono fun w' r hr => ?_)
    obtain ⟨a, rfl⟩ := hr
    rfl
  | some x =>
    obtain ⟨-, -, hread⟩ := TaskTable.findOwnedTask_some (h.1.trans hrow)
    have hvalid : validateTask x = Prog.ret (x.response hread) := by
      unfold validateTask
      rw [TaskResponse.modelValidate_of_readable hread]
    rw [taskOf_some hread]
    simp only [hvalid, Prog.ret_bind]
    refine Prog.yields_bind.mpr ((setTask_returns _ w).mono fun w' r hr => ?_)
    obtain ⟨a, rfl⟩ := hr
    rfl

/-- Waiting ends with the row's task, with nothing, or with the error of one of
its lookups. -/
theorem wait_yields (delaySeconds : ℚ) (n : ℕ) {w : World} (h : w.Good J o i row) :
    (waitForTaskCacheFill.loop J o i delaySeconds n).Yields (faultyServe pick others faults)
      (fun w' r => w'.Good J o i row ∧
        (r = .ok ⟨true, taskOf row⟩ ∨ r = .ok ⟨false, none⟩ ∨ r = .error Exn.redisError)) w := by
  induction n generalizing w with
  | zero => exact ⟨h, .inr (.inl rfl)⟩
  | succ n ih =>
    unfold waitForTaskCacheFill.loop
    refine Prog.yields_bind.mpr (Prog.yields_perform.mpr ?_)
    change Prog.ends _ _ w (.ok ())
    rw [Prog.ends_ok, Prog.yields_bind]
    refine lookupTask_yields h ?_ ?_ ?_
    · exact fun w' hw' _ _ => ⟨hw', .inl rfl⟩
    · exact fun _ _ => ih (h.served others)
    · exact fun w' hw' _ => ⟨hw', .inr (.inr rfl)⟩

theorem resolveCachedTask_yields {w : World} :
    (resolveCachedTask ⟨true, taskOf row⟩).Yields (faultyServe pick others faults)
      (fun _ r => r = answerTask (taskOf row)) w := by
  unfold resolveCachedTask
  cases taskOf row <;> rfl

theorem waitForOtherFill_yields {w : World} (h : w.Good J o i row) :
    (waitForOtherFill J settings o i).Yields (faultyServe pick others faults)
      (fun _ r => r = answerTask (taskOf row)) w := by
  have hattempts : ¬ settings.taskCacheLockWaitAttempts < 1 := not_lt.mpr settings.one_le_waitAttempts
  have hseconds : ¬ settings.taskCacheLockWaitSeconds < 0 := not_lt.mpr settings.waitSeconds_pos.le
  unfold waitForOtherFill waitForTaskCacheFill
  rw [if_neg hattempts, if_neg hseconds]
  refine Prog.yields_bind.mpr (yields_attemptRedis ((wait_yields _ _ h).mono fun w' r hr => ?_))
  obtain ⟨hw', rfl | rfl | rfl⟩ := hr
  · exact resolveCachedTask_yields
  · exact load_yields hw'
  · exact load_yields hw'

/-- Taking the lock, under its handler: the lock was free, or it is taken, or the
attempt failed. The entry is not touched. -/
theorem acquire_yields {Q : World → Except Exn (Option (Option String)) → Prop} {w : World}
    (h : w.Good J o i row)
    (hfree : ∀ w', w'.Good J o i row → w'.redisCalls = w.redisCalls + 1 → faults w.redisCalls = none →
      (w.served others).redis.get (w.served others).now (buildTaskCacheLockKey o i) = none →
      Q w' (.ok (some (some pick.uuid4))))
    (htaken : ∀ w', w'.Good J o i row →
      (w.served others).redis.get (w.served others).now (buildTaskCacheLockKey o i) ≠ none →
      Q w' (.ok (some none)))
    (herr : ∀ w', w'.Good J o i row → faults w.redisCalls ≠ none → Q w' (.ok none)) :
    (attemptRedis ((getTaskCacheLock settings).acquire (buildTaskCacheLockKey o i))).Yields
      (faultyServe pick others faults) Q w := by
  refine yields_attemptRedis (Prog.yields_bind.mpr (Prog.yields_perform.mpr ?_))
  change Prog.ends _ _ w (.ok pick.uuid4)
  rw [Prog.ends_ok]
  refine Prog.yields_bind.mpr (Prog.yields_perform.mpr ?_)
  obtain ⟨hrow, hagree⟩ := h.served others
  obtain ⟨hgood, hserved⟩ := faultyServe_redis pick faults
    (c := .redisSetNx (buildTaskCacheLockKey o i) pick.uuid4 (getTaskCacheLock settings).ttlSeconds)
    rfl h rfl fun value hvalue => hagree value (by
      rw [← hvalue]
      exact (Redis.get_congr (Redis.setNx_ne _ _ _ _ (buildKey_ne_lockKey o i o i))).symm)
  rcases hserved with ⟨hf, heq⟩ | ⟨hf, hv⟩
  · rw [heq] at hgood ⊢
    change Prog.ends _ _ _ (.ok ((w.served others).redis.setNx (w.served others).now
      (buildTaskCacheLockKey o i) pick.uuid4 (getTaskCacheLock settings).ttlSeconds).1)
    cases hget : (w.served others).redis.get (w.served others).now (buildTaskCacheLockKey o i) with
    | none =>
      have hset := hfree _ hgood rfl hf hget
      simpa [Redis.setNx, hget] using hset
    | some token =>
      have hnot := htaken _ hgood (by rw [hget]; simp)
      simpa [Redis.setNx, hget] using hnot
  · rw [hv]
    exact herr _ hgood hf

/-- With the lock held, everything depends on the second lookup: the release
that follows it has its own handler. -/
theorem fillUnderLock_yields (lockToken : String) {w : World} (h : w.Good J o i row) :
    (fillUnderLock J settings o i (buildTaskCacheLockKey o i) lockToken).Yields
      (faultyServe pick others faults)
      (fun _ r => r = if faults w.redisCalls = none then answerTask (taskOf row) else .error .redisError) w := by
  unfold fillUnderLock
  rw [Prog.yields_tryFinally]
  have released : ∀ (r : Except Exn TaskResponse) (w' : World),
      r = (if faults w.redisCalls = none then answerTask (taskOf row) else .error .redisError) →
      Prog.Yields (faultyServe pick others faults) (Prog.ends (fun _ _ => r =
          if faults w.redisCalls = none then answerTask (taskOf row) else .error .redisError)
        fun _ e => (.error e : Except Exn TaskResponse) =
          if faults w.redisCalls = none then answerTask (taskOf row) else .error .redisError) w'
        (attemptRedis (RedisLock.release (buildTaskCacheLockKey o i) lockToken) >>= fun _ => Prog.ret ()) := by
    intro r w' hr
    refine Prog.yields_bind.mpr ((release_returns lockToken w').mono fun w'' r' hr' => ?_)
    obtain ⟨a, rfl⟩ := hr'
    exact hr
  refine Prog.Yields.mono (Q := fun _ r => r = _) ?_ fun w' r hr => released r w' hr
  refine Prog.yields_bind.mpr (lookupTask_yields h ?_ ?_ ?_)
  · intro w' hw' hf _
    rw [if_pos hf]
    cases taskOf row <;> rfl
  · intro hf _
    rw [if_pos hf]
    exact load_yields (h.served others)
  · intro w' _ hf
    rw [if_neg hf]
    rfl

/-- The second lookup is made, and fails: the first was served and missed, and
the lock was taken. -/
def LosesSecondLookup (others : Others J o i) (faults : ℕ → Option Fault) (s : State) : Prop :=
  let s₀ := others.act 0 s
  let s₁ := others.act 1 s₀
  faults 0 = none ∧ s₀.redis.get s₀.now (TaskCache.buildKey o i) = none ∧
    faults 1 = none ∧ s₁.redis.get s₁.now (buildTaskCacheLockKey o i) = none ∧ faults 2 ≠ none

theorem get_yields {s : State} (h : Agrees J o i s) :
    (getCachedOwnedTaskOr404 J settings o i).Yields (faultyServe pick others faults)
      (fun _ r => r = answerTask (taskOf (s.row o i)) ↔ ¬ LosesSecondLookup others faults s) ⟨s, 0⟩ := by
  have hgood : World.Good J o i (s.row o i) ⟨s, 0⟩ := ⟨rfl, h⟩
  -- on every path but one the call is not a losing one and answers from the table
  have kept : ∀ {w : World} {p : Act TaskResponse}, ¬ LosesSecondLookup others faults s →
      p.Yields (faultyServe pick others faults) (fun _ r => r = answerTask (taskOf (s.row o i))) w →
      p.Yields (faultyServe pick others faults)
        (fun _ r => r = answerTask (taskOf (s.row o i)) ↔ ¬ LosesSecondLookup others faults s) w :=
    fun hnot hp => hp.mono fun _ _ hr => iff_of_true hr hnot
  unfold getCachedOwnedTaskOr404
  refine Prog.yields_bind.mpr (yields_attemptRedis (lookupTask_yields hgood ?_ ?_ ?_))
  · intro w' hw' _ hhit
    exact kept (fun hloses => hhit hloses.2.1) resolveCachedTask_yields
  · intro hf0 hmiss
    have hgood₁ : World.Good J o i (s.row o i) ⟨others.act 0 s, 1⟩ := hgood.served others
    simp only [Prog.ends_ok, Bool.false_eq_true, if_false]
    refine Prog.yields_bind.mpr (acquire_yields hgood₁ ?_ ?_ ?_)
    · intro w' hw' hcount hf1 hfree
      rw [Prog.ends_ok]
      refine Prog.Yields.mono (fillUnderLock_yields pick.uuid4 hw') fun _ r hr => ?_
      have hcount : w'.redisCalls = 2 := hcount
      rw [hcount] at hr
      subst hr
      by_cases hf2 : faults 2 = none
      · rw [if_pos hf2]
        exact iff_of_true rfl fun hloses => hloses.2.2.2.2 hf2
      · rw [if_neg hf2]
        refine iff_of_false ?_ (not_not.mpr ⟨hf0, hmiss, hf1, hfree, hf2⟩)
        cases taskOf (s.row o i) <;> intro heq <;> cases heq
    · intro w' hw' htaken
      refine kept (fun hloses => htaken hloses.2.2.2.1) ?_
      exact waitForOtherFill_yields hw'
    · intro w' hw' hf1
      exact kept (fun hloses => hf1 hloses.2.2.1) (load_yields hw')
  · intro w' hw' hf0
    exact kept (fun hloses => hf0 hloses.1) (load_yields hw')

/-- Whatever fails, the call ends with the fields of the row, or with 404 where there
is no row, unless it loses its second lookup. The id is one that the driver binds:
with any other the database query of the code raises `OverflowError`. -/
theorem get_answers_iff (others : Others J o i) (faults : ℕ → Option Fault) (pick : Pick) (s : State)
    (hagree : Agrees J o i s) :
    (∃ a, Shows a (s.row o i) ∧
      ((getCachedOwnedTaskOr404 J settings o i).run (faultyServe pick others faults) ⟨s, 0⟩).1 = answerTask a) ↔
      ¬ LosesSecondLookup others faults s :=
  State.exists_shows.trans (get_yields hagree)

end

/-- Nobody else touches the cache. -/
def Others.none (J : TaskJson) (o i : ℤ) : Others J o i := ⟨fun _ s => s, fun _ _ => rfl, fun _ _ h => h⟩

/-- The fourth and the fifth Redis call, the cache write and the release, take effect
and lose their replies. -/
def repliesLost (n : ℕ) : Option Fault := if n = 3 ∨ n = 4 then some .lostReply else none

/-- The table has the example task, and the cache is empty. -/
def uncachedState : State := { State.new with db := TaskTable.empty.insert exampleBody 1 1 rfl }

theorem get_answers_iff_uncached : ∃ a, Shows a (uncachedState.row 1 1) ∧
    ((getCachedOwnedTaskOr404 exampleJson .defaults 1 1).run
      (faultyServe .first (Others.none exampleJson 1 1) repliesLost) ⟨uncachedState, 0⟩).1 = answerTask a := by
  refine (get_answers_iff (Others.none exampleJson 1 1) repliesLost .first uncachedState
    fun _ hvalue => by cases hvalue).mpr ?_
  rintro ⟨-, -, -, -, hsecond⟩
  exact hsecond rfl

/-- The third Redis call, the second lookup, loses its request. -/
def secondLookupFails (n : ℕ) : Option Fault := if n = 2 then some .lostRequest else none

/-- On an empty cache with a free lock, a failing second lookup leaves the
function as it is. -/
theorem get_loses_second_lookup :
    ¬ ∀ (J : TaskJson) (settings : Settings) (o i : ℤ) (others : Others J o i)
      (faults : ℕ → Option Fault) (pick : Pick) (s : State), Agrees J o i s →
      ∃ a, Shows a (s.row o i) ∧
        ((getCachedOwnedTaskOr404 J settings o i).run (faultyServe pick others faults) ⟨s, 0⟩).1 = answerTask a := by
  intro h
  obtain ⟨a, -, h⟩ := h exampleJson .defaults 1 1 (Others.none _ 1 1) secondLookupFails .first .new
    fun _ hvalue => by cases hvalue
  have hraised : ((getCachedOwnedTaskOr404 exampleJson .defaults 1 1).run
      (faultyServe .first (Others.none exampleJson 1 1) secondLookupFails) ⟨.new, 0⟩).1 =
      .error .redisError := by rfl
  rw [hraised] at h
  cases a <;> cases h

end TaskApi
