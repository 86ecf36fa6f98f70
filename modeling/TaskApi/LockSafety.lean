/-
# A lock frees nobody else's

`redis_lock.py` over one Redis: any number of clients acquire and release locks
on any keys, calls may fail before or after they took effect, and entries expire.
From a successful `acquire` on, as long as its time has not run out and no
release of its token has run, the key holds the token (`HoldsLock.stored`); so no
other `acquire` of the key succeeds and no other `release` removes it.

`get_cached_owned_task_or_404` releases the lock it took once, on every way out,
whatever its calls come back with (`releases_what_it_acquired`).

Key definitions: `LockRequest`, `lockSystem`, `ReleaseRan`, `HoldsLock`.
Key theorems: `HoldsLock.stored`, `releases_what_it_acquired`, `lock_safety`.
-/
import TaskApi.TaskProtocol

namespace TaskApi

open Conc

/-! ### The interleaved system -/

inductive LockRequest where
  | acquire (lock : RedisLock) (lockKey : String)
  | release (lockKey lockToken : String)

/-- What a request returns. -/
inductive LockResult where
  | acquired (lockToken : Option String)
  | released (deleted : Bool)
deriving DecidableEq

def LockRequest.body : LockRequest → Act LockResult
  | .acquire lock lockKey => do
    return .acquired (← lock.acquire lockKey)
  | .release lockKey lockToken => do
    return .released (← RedisLock.release lockKey lockToken)

/-- The clients of the locks; between their calls time passes. -/
abbrev lockSystem (fails : Call → Prop) : System calls where
  State := State
  step := step fails
  env := Passes
  Req := LockRequest
  Res := LockResult
  body := LockRequest.body

/-! ### What a request does, call by call -/

/-- What a request has seen so far. -/
structure LockPhase where
  token : Option String := none
  /-- How `SET NX` ended. -/
  acquired : Option (Except Exn Bool) := none
  /-- How the release script ended. -/
  deletedCount : Option (Except Exn ℤ) := none

def LockPhase.next (q : LockPhase) : (c : Call) → calls.Out c → LockPhase
  | .uuid4, .ok token => { q with token := q.token.or (some token) }
  | .redisSetNx .., v => { q with acquired := q.acquired.or (some v) }
  | .redisEvalReleaseLock .., v => { q with deletedCount := q.deletedCount.or (some v) }
  | _, _ => q

abbrev lockAutomaton : Automaton calls := ⟨LockPhase, {}, LockPhase.next⟩

namespace LockRequest

/-- The calls a request may make in a phase. -/
def Allows : LockRequest → LockPhase → Call → Prop
  | .acquire _ _, q, .uuid4 => q.token = none ∧ q.acquired = none
  | .acquire lock lockKey, q, .redisSetNx key token ex =>
    key = lockKey ∧ q.token = some token ∧ q.acquired = none ∧ ex = lock.ttlSeconds
  | .release lockKey lockToken, q, .redisEvalReleaseLock key token =>
    key = lockKey ∧ token = lockToken ∧ q.deletedCount = none
  | _, _, _ => False

/-- How a request that returns ends. -/
def Ends : LockRequest → LockPhase → Except Exn LockResult → Prop
  | _, _, .error _ => True
  | .acquire .., q, .ok x => ∃ token acquired, q.token = some token ∧ q.acquired = some (.ok acquired) ∧
      x = .acquired (if acquired then some token else none)
  | .release .., q, .ok x =>
    ∃ deletedCount, q.deletedCount = some (.ok deletedCount) ∧ x = .released (deletedCount ≠ 0)

end LockRequest

theorem lockRequest_follows {can : (c : Call) → calls.Out c → Prop} (r : LockRequest) :
    r.body.Follows ⟨lockAutomaton, r.Allows⟩ can r.Ends {} := by
  cases r with
  | acquire lock lockKey =>
    refine Prog.follows_bind.mpr (Prog.follows_bind.mpr (Prog.follows_perform.mpr ⟨⟨rfl, rfl⟩, fun v _ => ?_⟩))
    rcases v with e | token
    · trivial
    refine Prog.follows_bind.mpr (Prog.follows_perform.mpr ⟨⟨rfl, rfl, rfl, rfl⟩, fun v _ => ?_⟩)
    rcases v with e | _ | _
    · trivial
    · exact ⟨token, false, rfl, rfl, rfl⟩
    · exact ⟨token, true, rfl, rfl, rfl⟩
  | release lockKey lockToken =>
    refine Prog.follows_bind.mpr (Prog.follows_bind.mpr (Prog.follows_perform.mpr ⟨⟨rfl, rfl, rfl⟩, fun v _ => ?_⟩))
    rcases v with e | deletedCount
    · trivial
    · exact ⟨deletedCount, rfl, rfl⟩

def lockDiscipline (fails : Call → Prop) : Discipline (lockSystem fails) where
  protocol r := ⟨lockAutomaton, r.Allows⟩
  final r := r.Ends
  follows r := lockRequest_follows r

/-! ### Who holds a lock -/

section

variable {fails : Call → Prop}

/-- The event is a release of the token, after which the key is free. -/
def ReleaseRan (e : Event (lockSystem fails)) (key token : String) : Prop :=
  (∃ t v, e.act = .call t (.redisEvalReleaseLock key token) v) ∧ e.after.redis key = none

/-- Thread `t` has acquired the key with the token; its time runs until `expiresAt`,
and no release of the token has run since. -/
def HoldsLock (t : ℕ) (key token : String) (expiresAt : ℚ) (s : State)
    (tr : List (Event (lockSystem fails))) : Prop :=
  s.now < expiresAt ∧ ∃ u s₁ s₂, ∃ ex : ℤ, ∃ tr',
    tr = u ++ ⟨s₁, s₂, .call t (.redisSetNx key token ex) (.ok true)⟩ :: tr' ∧ expiresAt = s₂.now + ex ∧
    ∀ e ∈ u, ¬ ReleaseRan e key token

variable {s s' : State} {key token : String} {ex : ℤ}

/-- `SET NX` takes a free key, and changes nothing else. -/
theorem step_redisSetNx {v : Except Exn Bool} (h : step fails (.redisSetNx key token ex) s v s') :
    (s.redis.get s.now key ≠ none → s' = s ∧ v ≠ .ok true) ∧
      (v = .ok true → s.redis.get s.now key = none ∧ s' = { s with redis := s.redis.set s.now key token ex }) := by
  rcases h with ⟨pick, h⟩ | ⟨-, -, rfl, h⟩
  · by_cases hfree : s.redis.get s.now key = none
    · rw [State.serve, Redis.setNx_of_none _ _ _ _ hfree] at h
      cases h
      exact ⟨fun hne => absurd hfree hne, fun _ => ⟨hfree, rfl⟩⟩
    · obtain ⟨x, hx⟩ := Option.ne_none_iff_exists'.mp hfree
      rw [State.serve, Redis.setNx_of_some _ _ _ _ hx] at h
      cases h
      exact ⟨fun _ => ⟨rfl, by simp⟩, fun hv => by cases hv⟩
  · refine ⟨fun hne => ⟨?_, by simp⟩, fun hv => by cases hv⟩
    rcases h with rfl | ⟨pick, rfl⟩
    · rfl
    · obtain ⟨x, hx⟩ := Option.ne_none_iff_exists'.mp hne
      rw [State.serve, Redis.setNx_of_some _ _ _ _ hx]

/-- The release script deletes a key that holds its token, and says so; otherwise it
changes nothing. -/
theorem step_redisEvalReleaseLock {v : Except Exn ℤ} (h : step fails (.redisEvalReleaseLock key token) s v s') :
    (s' = s ∨ (s.redis.get s.now key = some token ∧ s' = { s with redis := s.redis.delete key })) ∧
      ∀ n, v = .ok n → (n ≠ 0 ↔ s.redis.get s.now key = some token) ∧
        (n ≠ 0 → s' = { s with redis := s.redis.delete key }) ∧ (n = 0 → s' = s) := by
  by_cases hstored : s.redis.get s.now key = some token
  · have hserve : ∀ pick, s.serve pick (.redisEvalReleaseLock key token) =
        (.ok 1, { s with redis := s.redis.delete key }) := fun pick => by
      simp [State.serve, Redis.releaseLockScript, hstored]
    rcases h with ⟨pick, h⟩ | ⟨-, -, rfl, h⟩
    · rw [hserve] at h
      cases h
      refine ⟨.inr ⟨hstored, rfl⟩, fun n hn => ?_⟩
      obtain rfl : (1 : ℤ) = n := Except.ok.inj hn
      exact ⟨by simp [hstored], fun _ => rfl, fun h => by cases h⟩
    · refine ⟨?_, fun n hn => by cases hn⟩
      rcases h with rfl | ⟨pick, rfl⟩
      · exact .inl rfl
      · rw [hserve]
        exact .inr ⟨hstored, rfl⟩
  · have hserve : ∀ pick, s.serve pick (.redisEvalReleaseLock key token) = (.ok 0, s) := fun pick => by
      simp [State.serve, Redis.releaseLockScript, hstored]
    rcases h with ⟨pick, h⟩ | ⟨-, -, rfl, h⟩
    · rw [hserve] at h
      cases h
      refine ⟨.inl rfl, fun n hn => ?_⟩
      obtain rfl : (0 : ℤ) = n := Except.ok.inj hn
      exact ⟨by simp [hstored], fun h => absurd rfl h, fun _ => rfl⟩
    · refine ⟨?_, fun n hn => by cases hn⟩
      rcases h with rfl | ⟨pick, rfl⟩
      · exact .inl rfl
      · rw [hserve]
        exact .inl rfl

/-- A call that is neither a release of the token nor takes the key leaves a live
entry alone. -/
theorem LockRequest.Allows.keeps {r : LockRequest} {q : LockPhase} {x : Call} {v : calls.Out x} {expiresAt : ℚ}
    (ha : r.Allows q x) (hs : step fails x s v s') (hentry : s.redis key = some ⟨token, expiresAt⟩)
    (hlive : s.now < expiresAt) (hrelease : x = .redisEvalReleaseLock key token → s'.redis key ≠ none) :
    s'.redis key = some ⟨token, expiresAt⟩ := by
  have hget : s.redis.get s.now key = some token := (Redis.get_eq_some _ _).mpr ⟨_, hentry, hlive, rfl⟩
  by_cases hwrites : x.writes = some key
  · cases x with
    | redisSetNx key' token' ex =>
      obtain rfl : key' = key := Option.some.inj hwrites
      rw [((step_redisSetNx hs).1 (by simp [hget])).1, hentry]
    | redisEvalReleaseLock key' token' =>
      obtain rfl : key' = key := Option.some.inj hwrites
      rcases (step_redisEvalReleaseLock hs).1 with rfl | ⟨hstored, rfl⟩
      · exact hentry
      · rw [hget] at hstored
        obtain rfl := Option.some.inj hstored
        exact absurd (Redis.delete_self ..) (hrelease rfl)
    | redisSet key' value ex => cases r <;> exact ha.elim
    | redisDelete key' => cases r <;> exact ha.elim
    | _ => cases hwrites
  · rw [step_redis hwrites hs, hentry]

variable {gate : Config (lockSystem fails) → Prop} {s₀ : State} {c c' : Config (lockSystem fails)} {t : ℕ}
  {expiresAt : ℚ}

/-- What a holder holds is stored. -/
theorem HoldsLock.stored (h : Run gate (.init s₀) c) : ∀ {t key token expiresAt},
    HoldsLock t key token expiresAt c.state c.trace → c.state.redis key = some ⟨token, expiresAt⟩ := by
  refine @Run.invariant _ _ gate s₀ (lockDiscipline fails) (fun s tr => ∀ {t key token expiresAt},
    HoldsLock t key token expiresAt s tr → s.redis key = some ⟨token, expiresAt⟩) ?_ ?_ ?_ ?_ c h
  · rintro t key token expiresAt ⟨-, u, s₁, s₂, ex, tr', htr, -⟩
    simp at htr
  · rintro b hb ih t r hn t' key token expiresAt ⟨hlive, u, s₁, s₂, ex, tr', htr, hexpires, hreleases⟩
    cases u with
    | nil => simp at htr
    | cons e u =>
      obtain ⟨-, htr⟩ := List.cons.inj htr
      exact ih ⟨hlive, u, s₁, s₂, ex, tr', htr, hexpires, fun e he => hreleases e (List.mem_cons_of_mem _ he)⟩
  · rintro b hb ih t r x v s' hrun hr ha hs t' key token expiresAt
      ⟨hlive, u, s₁, s₂, ex, tr', htr, hexpires, hreleases⟩
    cases u with
    | nil =>
      -- this is the call that took the key
      simp only [List.nil_append, List.cons.injEq, Event.mk.injEq, Act.call.injEq] at htr
      obtain ⟨⟨rfl, rfl, rfl, rfl, hv⟩, rfl⟩ := htr
      obtain ⟨-, rfl⟩ := (step_redisSetNx hs).2 (eq_of_heq hv)
      rw [hexpires]
      exact Redis.set_self ..
    | cons e u =>
      obtain ⟨rfl, htail⟩ := List.cons.inj htr
      rw [step_now hs] at hlive
      have hentry := ih ⟨hlive, u, s₁, s₂, ex, tr', htail, hexpires,
        fun e he => hreleases e (List.mem_cons_of_mem _ he)⟩
      refine LockRequest.Allows.keeps ha hs hentry hlive fun hx hnone => ?_
      subst hx
      exact hreleases _ List.mem_cons_self ⟨⟨t, v, rfl⟩, hnone⟩
  · rintro b hb ih s' ⟨now, hnow, rfl⟩ t key token expiresAt ⟨hlive, hrest⟩
    exact ih ⟨hnow.trans_lt hlive, hrest⟩

/-! ### What the clients see -/

/-- Thread `t` was given the token. -/
def Generated (t : ℕ) (token : String) (tr : List (Event (lockSystem fails))) : Prop :=
  ∃ e ∈ tr, e.act = .call t .uuid4 (.ok token)

/-- No two acquires were given the same token. -/
def DistinctTokens (tr : List (Event (lockSystem fails))) : Prop :=
  ∀ t t' token, Generated t token tr → Generated t' token tr → t = t'

variable {u tr : List (Event (lockSystem fails))} {r : LockRequest}

/-- What a phase has recorded stays recorded. -/
theorem LockPhase.next_keeps (q : LockPhase) (x : Call) (v : calls.Out x) :
    (∀ token, q.token = some token → (q.next x v).token = some token) ∧
      (∀ w, q.acquired = some w → (q.next x v).acquired = some w) ∧
      ∀ w, q.deletedCount = some w → (q.next x v).deletedCount = some w := by
  cases x with
  | uuid4 => cases v <;> simp +contextual [LockPhase.next]
  | _ => simp +contextual [LockPhase.next]

/-- The token a thread has in its phase was generated for it. -/
theorem generated_of_phase (htoken : (phase lockAutomaton t tr).token = some token) : Generated t token tr := by
  obtain ⟨u, s₁, s₂, x, v, tr', rfl, hbefore, hnext⟩ :=
    phase_became (P := fun q : LockPhase => q.token = some token) (A := lockAutomaton) (by rintro ⟨⟩) htoken
  have hcall : (⟨x, v⟩ : Σ x : Call, calls.Out x) = ⟨.uuid4, .ok token⟩ := by
    cases x with
    | uuid4 =>
      cases v with
      | ok token' =>
        rcases Option.or_eq_some_iff.mp hnext with hold | ⟨-, hnew⟩
        · exact absurd hold hbefore
        · rw [Option.some.inj hnew]
      | error e => exact absurd hnext hbefore
    | _ => exact absurd hnext hbefore
  cases hcall
  exact ⟨_, List.mem_append_right _ List.mem_cons_self, rfl⟩

/-- A `SET NX` in the trace: its token was generated for the thread, and its outcome is
the one the thread goes by. -/
theorem setNx_made (h : Run gate (.init s₀) c) {v : Except Exn Bool}
    (he : c.trace = u ++ ⟨s, s', .call t (.redisSetNx key token ex) v⟩ :: tr) :
    Generated t token c.trace ∧ (phase lockAutomaton t c.trace).token = some token ∧
      (phase lockAutomaton t c.trace).acquired = some v ∧ step fails (.redisSetNx key token ex) s v s' ∧
      ∀ r, Requested t r c.trace → ∃ lock, r = LockRequest.acquire lock key ∧ ex = lock.ttlSeconds := by
  obtain ⟨b, r, hb, rfl, rfl, -, -, hr, ha, hs⟩ := Run.made (lockDiscipline fails) h he
  cases r with
  | release key' token' => exact ha.elim
  | acquire lock lockKey =>
    obtain ⟨rfl, htoken, hnone, hex⟩ := ha
    have htoken' : (phase lockAutomaton t c.trace).token = some token := by
      rw [he, List.append_cons]
      exact phase_stable (P := fun q : LockPhase => q.token = some token) (A := lockAutomaton)
        (fun q x w => (q.next_keeps x w).1 token) htoken _
    have hset : (phase lockAutomaton t (⟨b.state, s', .call t (.redisSetNx key token ex) v⟩ :: b.trace)).acquired =
        some v := by
      rw [phase_call_self]
      show (phase lockAutomaton t b.trace).acquired.or (some v) = some v
      rw [show (phase lockAutomaton t b.trace).acquired = none from hnone, Option.none_or]
    refine ⟨generated_of_phase htoken', htoken', ?_, hs, fun r' hr' => ⟨lock, hr r' hr', hex⟩⟩
    rw [he]
    exact phase_stable (P := fun q : LockPhase => q.acquired = some v) (A := lockAutomaton)
      (fun q x w => (q.next_keeps x w).2.1 v) hset u

/-- The outcome a thread goes by came with a `SET NX` of its own. -/
theorem setNx_of_phase {v : Except Exn Bool} (hv : (phase lockAutomaton t tr).acquired = some v) :
    ∃ key token ex u s s' tr', tr = u ++ ⟨s, s', .call t (.redisSetNx key token ex) v⟩ :: tr' := by
  obtain ⟨u, s₁, s₂, x, w, tr', he, hbefore, hnext⟩ :=
    phase_became (P := fun q : LockPhase => q.acquired = some v) (A := lockAutomaton) (by rintro ⟨⟩) hv
  cases x with
  | redisSetNx key' token' ex =>
    rcases Option.or_eq_some_iff.mp hnext with hold | ⟨-, hnew⟩
    · exact absurd hold hbefore
    · obtain rfl := Option.some.inj hnew
      exact ⟨_, _, _, _, _, _, _, he⟩
  | uuid4 => cases w <;> exact absurd hnext hbefore
  | _ => exact absurd hnext hbefore

/-- The same of a release: its outcome came with a run of the script. -/
theorem releaseLock_of_phase (h : Run gate (.init s₀) c) {v : Except Exn ℤ}
    (hr : Requested t (LockRequest.release key token) c.trace)
    (hv : (phase lockAutomaton t c.trace).deletedCount = some v) :
    ∃ u s s' tr, c.trace = u ++ ⟨s, s', .call t (.redisEvalReleaseLock key token) v⟩ :: tr ∧
      step fails (.redisEvalReleaseLock key token) s v s' := by
  obtain ⟨b, u, x, w, s', -, -, he, hbefore, hnext, ha, hs⟩ := Run.phase_made (lockDiscipline fails) h hr
    (P := fun q : LockPhase => q.deletedCount = some v) (by rintro ⟨⟩) hv
  cases x with
  | redisEvalReleaseLock key' token' =>
    obtain ⟨rfl, rfl, -⟩ := ha
    rcases Option.or_eq_some_iff.mp hnext with hold | ⟨-, hnew⟩
    · exact absurd hold hbefore
    · obtain rfl := Option.some.inj hnew
      exact ⟨_, _, _, _, he, hs⟩
  | uuid4 => cases w <;> exact absurd hnext hbefore
  | _ => exact absurd hnext hbefore

/-- A successful acquire took the key by its `SET NX`, for `ttl_seconds`. -/
theorem acquire_took (h : Run gate (.init s₀) c) {lock : RedisLock}
    (hr : Requested t (LockRequest.acquire lock key) c.trace)
    (hx : c.result t = some (.ok (.acquired (some token)))) :
    ∃ u s s' tr, c.trace = u ++ ⟨s, s', .call t (.redisSetNx key token lock.ttlSeconds) (.ok true)⟩ :: tr := by
  obtain ⟨token', acquired, htoken, hacquired, hresult⟩ := Run.final (lockDiscipline fails) h hr hx
  cases acquired with
  | false => cases hresult
  | true =>
    cases hresult
    obtain ⟨key', token'', ex, u, s, s', tr, he⟩ := setNx_of_phase hacquired
    obtain ⟨-, htoken'', -, -, hlock⟩ := setNx_made h he
    obtain ⟨lock', hlock', rfl⟩ := hlock _ hr
    cases hlock'
    have htoken : (phase lockAutomaton t c.trace).token = some token := htoken
    obtain rfl : token'' = token := Option.some.inj (htoken''.symm.trans htoken)
    exact ⟨u, s, s', tr, he⟩

/-- An acquire whose `SET NX` did not take the key returns `None`. -/
theorem acquire_none (h : Run gate (.init s₀) c) {v : Except Exn Bool} (hv : v ≠ .ok true) {x : LockResult}
    (he : c.trace = u ++ ⟨s, s', .call t (.redisSetNx key token ex) v⟩ :: tr)
    (hx : c.result t = some (.ok x)) : x = .acquired none := by
  obtain ⟨r, hr⟩ := Run.acted h (e := ⟨s, s', .call t (.redisSetNx key token ex) v⟩) (by simp [he])
  obtain ⟨-, -, hacquired, -, hlock⟩ := setNx_made h he
  obtain ⟨lock, rfl, -⟩ := hlock r hr
  obtain ⟨token', acquired, -, hacquired', rfl⟩ := Run.final (lockDiscipline fails) h hr hx
  have hacquired' : (phase lockAutomaton t c.trace).acquired = some (.ok acquired) := hacquired'
  obtain rfl : v = .ok acquired := Option.some.inj (hacquired.symm.trans hacquired')
  cases acquired with
  | false => rfl
  | true => exact absurd rfl hv

/-- The answer of `release`. -/
theorem release_answers (h : Run gate (.init s₀) c) {deleted : Bool}
    (hr : Requested t (LockRequest.release key token) c.trace)
    (hx : c.result t = some (.ok (.released deleted))) :
    ∃ u s s' n tr, c.trace = u ++ ⟨s, s', .call t (.redisEvalReleaseLock key token) (.ok n)⟩ :: tr ∧
      (deleted = true ↔ s.redis.get s.now key = some token) ∧
      (deleted = true → s'.redis key = none ∧ ∀ k ≠ key, s'.redis k = s.redis k) ∧ (deleted = false → s' = s) := by
  obtain ⟨n, hn, hresult⟩ := Run.final (lockDiscipline fails) h hr hx
  cases hresult
  obtain ⟨u, s, s', tr, he, hs⟩ := releaseLock_of_phase h hr hn
  obtain ⟨hstored, hremoved, hnone⟩ := (step_redisEvalReleaseLock hs).2 n rfl
  refine ⟨u, s, s', n, tr, he, by simpa using hstored, fun h1 => ?_, fun h0 => hnone (by simpa using h0)⟩
  obtain rfl := hremoved (by simpa using h1)
  exact ⟨s.redis.delete_self, fun k hk => s.redis.delete_ne hk⟩

end

/-! ### The route that takes the lock -/

/-- The locks a list of calls took: the replies `True` to `SET NX`. -/
def acquiredLocks (log : List (Σ c : Call, calls.Out c)) : List (String × String) :=
  log.filterMap fun
    | ⟨.redisSetNx key token _, .ok true⟩ => some (key, token)
    | _ => none

/-- The locks it asked to release, whatever came of it. -/
def releasedLocks (log : List (Σ c : Call, calls.Out c)) : List (String × String) :=
  log.filterMap fun
    | ⟨.redisEvalReleaseLock key token, _⟩ => some (key, token)
    | _ => none

/-- The locks taken and given back so far. -/
structure LockUse where
  acquired : List (String × String) := []
  released : List (String × String) := []

def LockUse.next (q : LockUse) (x : Call) (v : calls.Out x) : LockUse :=
  ⟨q.acquired ++ acquiredLocks [⟨x, v⟩], q.released ++ releasedLocks [⟨x, v⟩]⟩

/-- One lock is taken, and only that one is released, once. -/
def LockUse.Allows (q : LockUse) : Call → Prop
  | .redisSetNx .. => q.acquired = [] ∧ q.released = []
  | .redisEvalReleaseLock key token => q.acquired = [(key, token)] ∧ q.released = []
  | _ => True

abbrev lockUse : Protocol calls := ⟨⟨LockUse, {}, LockUse.next⟩, LockUse.Allows⟩

/-- Where a list of calls leads: the locks it took, and those it gave back. -/
theorem lockUse_after : ∀ (log : List (Σ c : Call, calls.Out c)) (q : LockUse),
    lockUse.after q log = (⟨q.acquired ++ acquiredLocks log, q.released ++ releasedLocks log⟩ : LockUse)
  | [], q => by simp only [Automaton.after, acquiredLocks, releasedLocks, List.foldl_nil, List.filterMap_nil,
      List.append_nil]
  | x :: log, q => by
    have hfirst : x :: log = [x] ++ log := rfl
    have hrest := lockUse_after log (q.next x.1 x.2)
    rw [show lockUse.after q (x :: log) = lockUse.after (q.next x.1 x.2) log from rfl, hrest]
    simp only [LockUse.next, hfirst, acquiredLocks, releasedLocks, List.filterMap_append, List.append_assoc]

/-- The calls that take or release a lock. -/
def Call.isLock : Call → Bool
  | .redisSetNx .. | .redisEvalReleaseLock .. => true
  | _ => false

theorem hasCacheCalls_not_isLock : HasCacheCalls fun x => x.isLock = false :=
  ⟨fun _ => rfl, fun _ _ _ => rfl, fun _ => rfl, fun _ _ => rfl, fun _ => rfl⟩

/-- Code without such calls takes no lock and releases none. -/
theorem keepsLocks {α : Type} {p : Act α} (hp : p.Makes fun x : Call => x.isLock = false) (q : LockUse) :
    p.Follows lockUse (fun _ _ => True) (fun q' _ => q' = q) q := by
  refine Prog.Makes.keeps (fun q x hx => ?_) hp
  have hallows : LockUse.Allows q x := by cases x <;> first | exact trivial | cases hx
  refine ⟨hallows, fun v => ?_⟩
  have hnone : acquiredLocks [⟨x, v⟩] = [] ∧ releasedLocks [⟨x, v⟩] = [] := by
    cases x <;> first | exact ⟨rfl, rfl⟩ | cases hx
  show LockUse.next q x v = q
  rw [LockUse.next, hnone.1, hnone.2, List.append_nil, List.append_nil]

/-- What was taken has been given back. -/
def LocksReturned (q : LockUse) (_ : Except Exn TaskResponse) : Prop :=
  q.released = q.acquired ∧ q.acquired.length ≤ 1

section

variable (J : TaskJson) (settings : Settings) (userId taskId : ℤ)

/-- Before a lock is taken, code that takes none leaves nothing to give back. -/
theorem returned_of_makes {p : Act TaskResponse} (hp : p.Makes fun x : Call => x.isLock = false) :
    p.Follows lockUse (fun _ _ => True) LocksReturned ({} : LockUse) :=
  (keepsLocks hp {}).mono fun q r hq => hq ▸ ⟨rfl, by simp⟩

theorem acquire_follows_lockUse {lock : RedisLock} {lockKey : String}
    {Q : LockUse → Except Exn (Option (Option String)) → Prop}
    (htaken : ∀ token, Q { acquired := [(lockKey, token)] } (.ok (some (some token))))
    (hrefused : Q {} (.ok (some none))) (hraised : ∀ e, Q {} (.error e)) (herr : Q {} (.ok none)) :
    (attemptRedis (lock.acquire lockKey)).Follows lockUse (fun _ _ => True) Q ({} : LockUse) := by
  have hhandled : ∀ e : Exn, if e = .redisError then Q {} (.ok none) else Q {} (.error e) := fun e => by
    split_ifs
    · exact herr
    · exact hraised e
  refine follows_attemptRedis ⟨trivial, fun v _ => ?_⟩
  rcases v with e | token
  · exact hhandled e
  refine ⟨⟨rfl, rfl⟩, fun v _ => ?_⟩
  rcases v with e | _ | _
  · exact hhandled e
  · exact hrefused
  · exact htaken token

theorem release_follows_lockUse {lockKey lockToken : String} {Q : LockUse → Except Exn (Option Bool) → Prop}
    (hreleased : ∀ r, Q ⟨[(lockKey, lockToken)], [(lockKey, lockToken)]⟩ r) :
    (attemptRedis (RedisLock.release lockKey lockToken)).Follows lockUse (fun _ _ => True) Q
      ({ acquired := [(lockKey, lockToken)] } : LockUse) := by
  refine follows_attemptRedis ⟨⟨rfl, rfl⟩, fun v _ => ?_⟩
  rcases v with e | deletedCount
  · exact ite_prop_iff_and.mpr ⟨fun _ => hreleased _, fun _ => hreleased _⟩
  · exact hreleased _

/-- With the lock held, every way out passes the release. -/
theorem fillUnderLock_follows_lockUse (lockKey lockToken : String) :
    (fillUnderLock J settings userId taskId lockKey lockToken).Follows lockUse (fun _ _ => True) LocksReturned
      ({ acquired := [(lockKey, lockToken)] } : LockUse) := by
  have hfill : Prog.Makes (fun x : Call => x.isLock = false) (do
      let secondLookup ← TaskCache.lookupTask J userId taskId
      if secondLookup.cacheHit then resolveCachedTask secondLookup
      else loadOwnedTaskFromDatabase J (getTaskCache settings) userId taskId) := by
    refine Prog.Makes.bind (fun secondLookup => ?_) (lookupTask_makes J userId taskId hasCacheCalls_not_isLock)
    split_ifs
    · exact resolveCachedTask_makes _
    · exact loadOwnedTaskFromDatabase_makes J userId taskId hasCacheCalls_not_isLock _ rfl
  refine Prog.follows_tryFinally.mpr ((keepsLocks hfill _).mono fun q r hq => ?_)
  subst hq
  refine Prog.follows_bind.mpr (release_follows_lockUse fun v => ?_)
  cases v <;> exact ⟨rfl, le_rfl⟩

/-- `get_cached_owned_task_or_404` gives back the lock it took. -/
theorem getCachedOwnedTaskOr404_follows_lockUse :
    (getCachedOwnedTaskOr404 J settings userId taskId).Follows lockUse (fun _ _ => True) LocksReturned
      ({} : LockUse) := by
  have hload := returned_of_makes
    (loadOwnedTaskFromDatabase_makes J userId taskId hasCacheCalls_not_isLock (getTaskCache settings) rfl)
  have hlookup := keepsLocks (makes_attemptRedis (lookupTask_makes J userId taskId hasCacheCalls_not_isLock)) {}
  refine Prog.follows_bind.mpr (hlookup.mono fun q r hq => ?_)
  subst hq
  rcases r with e | _ | initialLookup
  · exact ⟨rfl, by simp⟩
  · exact hload
  rw [Prog.ends_ok]
  dsimp only
  split_ifs
  · exact returned_of_makes (resolveCachedTask_makes _)
  refine Prog.follows_bind.mpr (acquire_follows_lockUse (fun token => ?_) ?_ (fun e => ⟨rfl, by simp⟩) hload)
  · exact fillUnderLock_follows_lockUse J settings userId taskId _ token
  · exact returned_of_makes (waitForOtherFill_makes J userId taskId hasCacheCalls_not_isLock settings rfl)

/-- Whatever the calls come back with, a lock the route took is released once, with
its key and token and only after it was taken, and no other lock is. -/
theorem releases_what_it_acquired {σ : Type} (serve : (x : Call) → σ → calls.Out x × σ) (s : σ) :
    releasedLocks ((getCachedOwnedTaskOr404 J settings userId taskId).log serve s) =
        acquiredLocks ((getCachedOwnedTaskOr404 J settings userId taskId).log serve s) ∧
      (acquiredLocks ((getCachedOwnedTaskOr404 J settings userId taskId).log serve s)).length ≤ 1 ∧
      ∀ u key token v w, (getCachedOwnedTaskOr404 J settings userId taskId).log serve s =
          u ++ ⟨.redisEvalReleaseLock key token, v⟩ :: w →
        acquiredLocks u = [(key, token)] ∧ releasedLocks u = [] := by
  obtain ⟨hallowed, hreturned⟩ := Prog.Follows.log serve (fun _ _ => trivial) (s := s)
    (getCachedOwnedTaskOr404_follows_lockUse J settings userId taskId)
  rw [lockUse_after] at hreturned
  refine ⟨hreturned.1, hreturned.2, fun u key token v w hlog => ?_⟩
  have hallows := hallowed u _ v w hlog
  rw [lockUse_after] at hallows
  exact hallows

end

/-! ### The locks and the route together -/

section

variable {fails : Call → Prop} {s₀ s s' : State} {c : Config (lockSystem fails)} {t t' : ℕ} {key token : String}
  {expiresAt : ℚ} {u tr : List (Event (lockSystem fails))}

/-- Who holds a lock was given its token. -/
theorem HoldsLock.generated (h : Interleaved (.init s₀) c)
    (hholds : HoldsLock t key token expiresAt c.state c.trace) : Generated t token c.trace := by
  obtain ⟨-, u, s₁, s₂, ex, tr', he, -⟩ := hholds
  exact (setNx_made h he).1

/-- Two clients do not hold the same lock. -/
theorem HoldsLock.unique (h : Interleaved (.init s₀) c) (hdistinct : DistinctTokens c.trace) {token' : String}
    {expiresAt' : ℚ} (hholds : HoldsLock t key token expiresAt c.state c.trace)
    (hholds' : HoldsLock t' key token' expiresAt' c.state c.trace) : t = t' := by
  have hentry := (HoldsLock.stored h hholds).symm.trans (HoldsLock.stored h hholds')
  obtain rfl : token = token' := congrArg RedisEntry.value (Option.some.inj hentry)
  exact hdistinct t t' token (hholds.generated h) (hholds'.generated h)

/-- The token of who holds a lock is what Redis gives for it. -/
theorem HoldsLock.get (h : Interleaved (.init s₀) c) (hholds : HoldsLock t key token expiresAt c.state c.trace) :
    c.state.redis.get c.state.now key = some token :=
  (Redis.get_eq_some _ _).mpr ⟨_, HoldsLock.stored h hholds, hholds.1, rfl⟩

/-- At every call of a run, who holds a lock has its token stored. -/
theorem HoldsLock.get_at (h : Interleaved (.init s₀) c) {x : Call} {v : calls.Out x}
    (he : c.trace = u ++ ⟨s, s', .call t' x v⟩ :: tr) (hholds : HoldsLock t key token expiresAt s tr) :
    s.redis.get s.now key = some token := by
  obtain ⟨b, -, hb, rfl, rfl, -⟩ := Run.made (lockDiscipline fails) h he
  exact hholds.get hb

/-- A lock frees nobody else's: of any clients acquiring and releasing locks in any
interleaving, with tokens that no two acquires share,
- a successful acquire took its key for `ttl_seconds`;
- from then until its time is over or its token is released, the key holds its token, and
  no other client holds it;
- every other acquire of the key returns `None` and changes nothing;
- a release with any other token, as that of another acquire, leaves it;
- a release returns `True` exactly when its token was stored; then it has removed the key and no
  other, and otherwise it changes nothing.
`get_cached_owned_task_or_404` releases exactly the lock it took, once, on every way out. -/
theorem lock_safety (h : Interleaved (.init s₀) c) (hdistinct : DistinctTokens c.trace) :
    (∀ t lock key token, Requested t (LockRequest.acquire lock key) c.trace →
      c.result t = some (.ok (.acquired (some token))) →
      ∃ u s s' tr, c.trace = u ++ ⟨s, s', .call t (.redisSetNx key token lock.ttlSeconds) (.ok true)⟩ :: tr) ∧
    (∀ t key token expiresAt, HoldsLock t key token expiresAt c.state c.trace →
      c.state.redis.get c.state.now key = some token ∧
        ∀ t' token' expiresAt', HoldsLock t' key token' expiresAt' c.state c.trace → t' = t) ∧
    (∀ t key token expiresAt t' u s s' token' ex v tr,
      c.trace = u ++ ⟨s, s', .call t' (.redisSetNx key token' ex) v⟩ :: tr → HoldsLock t key token expiresAt s tr →
      s' = s ∧ ∀ x, c.result t' = some (.ok x) → x = .acquired none) ∧
    (∀ t key token expiresAt t' u s s' token' v tr,
      c.trace = u ++ ⟨s, s', .call t' (.redisEvalReleaseLock key token') v⟩ :: tr →
      HoldsLock t key token expiresAt s tr → (token' ≠ token ∨ ∃ t'' ≠ t, Generated t'' token' c.trace) → s' = s) ∧
    (∀ t key token deleted, Requested t (LockRequest.release key token) c.trace →
      c.result t = some (.ok (.released deleted)) →
      ∃ u s s' n tr, c.trace = u ++ ⟨s, s', .call t (.redisEvalReleaseLock key token) (.ok n)⟩ :: tr ∧
        (deleted = true ↔ s.redis.get s.now key = some token) ∧
        (deleted = true → s'.redis key = none ∧ ∀ k ≠ key, s'.redis k = s.redis k) ∧ (deleted = false → s' = s)) ∧
    (∀ J settings userId taskId (σ : Type) (serve : (x : Call) → σ → calls.Out x × σ) s,
      releasedLocks ((getCachedOwnedTaskOr404 J settings userId taskId).log serve s) =
          acquiredLocks ((getCachedOwnedTaskOr404 J settings userId taskId).log serve s) ∧
        (acquiredLocks ((getCachedOwnedTaskOr404 J settings userId taskId).log serve s)).length ≤ 1 ∧
        ∀ u key token v w, (getCachedOwnedTaskOr404 J settings userId taskId).log serve s =
            u ++ ⟨.redisEvalReleaseLock key token, v⟩ :: w →
          acquiredLocks u = [(key, token)] ∧ releasedLocks u = []) := by
  refine ⟨?took, ?stored, ?refused, ?kept, ?answered, ?route⟩
  case took => exact fun t lock key token hr hx => acquire_took h hr hx
  case stored =>
    exact fun t key token expiresAt hholds => ⟨hholds.get h, fun t' token' expiresAt' hholds' =>
      hholds'.unique h hdistinct hholds⟩
  case refused =>
    intro t key token expiresAt t' u s s' token' ex v tr he hholds
    have hget := hholds.get_at h he
    obtain ⟨hsame, hv⟩ := (step_redisSetNx (setNx_made h he).2.2.2.1).1 (by simp [hget])
    exact ⟨hsame, fun x hx => acquire_none h hv he hx⟩
  case kept =>
    intro t key token expiresAt t' u s s' token' v tr he hholds hother
    have hget := hholds.get_at h he
    obtain ⟨b, r, hb, rfl, rfl, -, -, -, -, hs⟩ := Run.made (lockDiscipline fails) h he
    rcases (step_redisEvalReleaseLock hs).1 with hsame | ⟨hstored, -⟩
    · exact hsame
    · -- the stored token is the holder's own
      obtain rfl : token' = token := Option.some.inj (hstored.symm.trans hget)
      obtain ⟨e, hmem, hact⟩ := hholds.generated hb
      rcases hother with hne | ⟨t'', hne, hgenerated⟩
      · exact absurd rfl hne
      · exact absurd (hdistinct t'' t token' hgenerated ⟨e, by simp [he, hmem], hact⟩) hne
  case answered => exact fun t key token deleted hr hx => release_answers h hr hx
  case route => exact fun J settings userId taskId _ => releases_what_it_acquired J settings userId taskId

/-- Calls served without failures, `uuid4` giving the token. -/
def serveToken (token : String) (x : Call) (s : State) : calls.Out x × State :=
  s.serve { Pick.first with uuid4 := token } x

theorem step_serveToken (token : String) (x : Call) (s : State) :
    step (fun _ => False) x s (serveToken token x s).1 (serveToken token x s).2 := step_serve _ _ x s

theorem five_seconds : (1 : ℤ) ≤ 5 := by decide

/-- Two clients want one lock; the second comes too late, and its token frees nothing. -/
def contended : Config (lockSystem fun _ => False) :=
  (((Config.init State.new).schedule (serveToken "first")
    [.start 1 (LockRequest.acquire ⟨5, five_seconds⟩ "lock"), .call 1, .call 1]).schedule (serveToken "second")
    [.start 2 (LockRequest.acquire ⟨5, five_seconds⟩ "lock"), .call 2, .call 2]).schedule (serveToken "third")
    [.start 3 (LockRequest.release "lock" "second"), .call 3]

theorem contended_run : Interleaved (.init State.new) contended :=
  ((Interleaved.schedule (step_serveToken "first") _ _).trans
    (Interleaved.schedule (step_serveToken "second") _ _)).trans
    (Interleaved.schedule (step_serveToken "third") _ _)

/-- The token that a call generated. -/
def generatedToken (e : Event (lockSystem fails)) : Option (ℕ × String) :=
  match e.act with
  | .call t .uuid4 (.ok token) => some (t, token)
  | _ => none

/-- The lock and the token that a script was called with. -/
def releasedLock (e : Event (lockSystem fails)) : Option (String × String) :=
  match e.act with
  | .call _ (.redisEvalReleaseLock key token) _ => some (key, token)
  | _ => none

theorem contended_distinct : DistinctTokens contended.trace := by
  have htokens : contended.trace.filterMap generatedToken = [(2, "second"), (1, "first")] := by decide +kernel
  have hgenerated : ∀ {t token}, Generated t token contended.trace → (t, token) ∈ [(2, "second"), (1, "first")] := by
    rintro t token ⟨e, he, hact⟩
    rw [← htokens]
    exact List.mem_filterMap.mpr ⟨e, he, by rw [generatedToken, hact]⟩
  intro t t' token h h'
  have h := hgenerated h
  have h' := hgenerated h'
  simp only [List.mem_cons, Prod.mk.injEq, List.not_mem_nil, or_false] at h h'
  rcases h with ⟨rfl, rfl⟩ | ⟨rfl, rfl⟩
  · have ht : t' = 2 := by simpa using h'
    exact ht.symm
  · have ht : t' = 1 := by simpa using h'
    exact ht.symm

theorem contended_holds : HoldsLock 1 "lock" "first" 5 contended.state contended.trace := by
  have hreleases : (contended.trace.take 5).filterMap releasedLock = [("lock", "second")] := by decide +kernel
  refine ⟨by decide +kernel, contended.trace.take 5, _, _, 5, contended.trace.drop 6, rfl, by decide +kernel, ?_⟩
  rintro e he ⟨⟨t, v, hact⟩, -⟩
  have hmem : ("lock", "first") ∈ [("lock", "second")] := by
    rw [← hreleases]
    exact List.mem_filterMap.mpr ⟨e, he, by rw [releasedLock, hact]⟩
  simp at hmem

example : contended.result 3 = some (.ok (.released false)) := by decide +kernel

/-- The second client is refused, and the lock is still the first one's. -/
theorem lock_safety_contended : contended.state.redis.get contended.state.now "lock" = some "first" ∧
    ∀ t' token' expiresAt', HoldsLock t' "lock" token' expiresAt' contended.state contended.trace → t' = 1 :=
  (lock_safety contended_run contended_distinct).2.1 1 "lock" "first" 5 contended_holds

end

end TaskApi
