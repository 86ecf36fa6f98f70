/-
# One load at a time

Any number of `GET`s of one task, from an empty entry and a free lock, while
nothing expires, nothing fails and nobody writes. The entry and the lock are
then two cells (`Cells`) that the requests read and write in any order, and what
the lock is for is an invariant of the cells and of what each request has done
(`FlightInv`): whoever holds the lock and has looked again without finding the
entry is the only lock holder, past or present, that will ever have queried.

Key definitions: `Lasts`, `Cells`, `FlightInv`.
Key theorems: `FlightInv.step`, `flightInv`, `single_flight`.
-/
import TaskApi.Coherence

namespace TaskApi

open Conc

/-- Time passes, and what is there under the two keys stays. -/
def Lasts (o i : ℤ) (s s' : State) : Prop :=
  ∃ t, s.now ≤ t ∧ s' = { s with now := t } ∧
    ∀ e, (s.redis (TaskCache.buildKey o i) = some e ∨ s.redis (buildTaskCacheLockKey o i) = some e) →
      s.now < e.expiresAt → t < e.expiresAt

/-- What the requests see of Redis: the entry and the lock. -/
structure Cells where
  entry : Option String
  lock : Option String

/-- The two cells of a state. -/
def State.cells (s : State) (o i : ℤ) : Cells :=
  ⟨s.redis.get s.now (TaskCache.buildKey o i), s.redis.get s.now (buildTaskCacheLockKey o i)⟩

theorem Lasts.cells {o i : ℤ} {s s' : State} (h : Lasts o i s s') : s'.cells o i = s.cells o i := by
  obtain ⟨t, ht, rfl, hlive⟩ := h
  unfold State.cells
  rw [Redis.get_later ht fun e he => hlive e (.inl he), Redis.get_later ht fun e he => hlive e (.inr he)]

/-- No call of Redis fails. -/
theorem ok_of_redis {s s' : State} {x : Call} {v : calls.Out x} (hx : x.isRedis)
    (hs : step (fun _ => False) x s v s') : ∃ value, v = .ok value := by
  rcases v with e | value
  · obtain rfl := step_redis_error hx hs
    exact (step_error hs rfl).2.elim
  · exact ⟨value, rfl⟩

/-- What a call of a `GET` does to the cells, when nothing fails. -/
theorem cells_step {J : TaskJson} {settings : Settings} {o i : ℤ} {q : Phase} {s s' : State} {x : Call}
    {v : calls.Out x} (ha : q.getAllows J settings o i x) (hs : step (fun _ => False) x s v s') :
    match x, v with
    | .redisGet _, .ok value => value = (s.cells o i).entry ∧ s'.cells o i = s.cells o i
    | .redisSet _ value _, _ => s'.cells o i = { s.cells o i with entry := some value }
    | .redisSetNx _ token _, .ok acquired =>
      (acquired = true ∧ (s.cells o i).lock = none ∧ s'.cells o i = { s.cells o i with lock := some token }) ∨
        (acquired = false ∧ s'.cells o i = s.cells o i)
    | .redisEvalReleaseLock _ token, _ =>
      (s.cells o i).lock = some token → s'.cells o i = { s.cells o i with lock := none }
    | .redisDelete _, _ => q.corrupt = true
    | _, _ => s'.cells o i = s.cells o i := by
  have hkeys := buildKey_ne_lockKey o i o i
  have same : (∀ key, x.writes ≠ some key) → s'.cells o i = s.cells o i := fun hw => by
    unfold State.cells
    rw [step_now hs, Redis.get_congr (step_redis (hw _) hs), Redis.get_congr (step_redis (hw _) hs)]
  rcases hs with ⟨pick, hs⟩ | ⟨-, h, -⟩
  swap
  · exact h.elim
  cases x with
  | redisGet key =>
    obtain ⟨rfl, -⟩ := ha
    cases hs
    exact ⟨rfl, rfl⟩
  | redisSet key value ex =>
    obtain ⟨rfl, -, -, hex, -⟩ := ha
    cases hs
    simp only [State.cells, Redis.get_set hex, Redis.get_congr (s.redis.set_ne s.now value ex hkeys.symm)]
  | redisSetNx key token ex =>
    obtain ⟨rfl, -, -, -, -, hex⟩ := ha
    cases hs
    by_cases hlock : s.redis.get s.now (buildTaskCacheLockKey o i) = none
    · refine .inl ?_
      simp only [State.cells, Redis.setNx, hlock, Option.isSome_none, Bool.false_eq_true, if_false, Redis.get_set hex,
        Redis.get_congr (s.redis.set_ne s.now token ex hkeys), and_self]
    · refine .inr ?_
      simp [State.cells, Redis.setNx, Option.isSome_iff_ne_none.mpr hlock]
  | redisDelete key => exact ha.2
  | redisEvalReleaseLock key token =>
    obtain ⟨rfl, -⟩ := ha
    cases hs
    intro hlock
    have hlock : s.redis.get s.now (buildTaskCacheLockKey o i) = some token := hlock
    simp only [State.cells, Redis.releaseLockScript, hlock, if_true, Redis.get_delete,
      Redis.get_congr (s.redis.delete_ne hkeys)]
  | _ => exact same fun key h => by cases h

/-! ### The invariant -/

/-- The request holds the lock. -/
def Phase.Holds (q : Phase) : Prop := q.token.isSome ∧ q.released = false

/-- The cells and what each request has done, while the answer of the table is `a`. -/
structure FlightInv (J : TaskJson) (a : Option TaskResponse) (m : Cells) (q : ℕ → Phase) : Prop where
  not_faulted : ∀ t, (q t).faulted = false
  not_corrupt : ∀ t, (q t).corrupt = false
  entry : ∀ value, m.entry = some value → J.read value = some a
  answer : ∀ t x, (q t).answer = some x → taskOf x = a
  lock : ∀ t token, (q t).token = some token → (q t).released = false → m.lock = some token
  held : m.lock.isSome → ∃ t, (q t).Holds
  mutex : ∀ t t', (q t).Holds → (q t').Holds → t = t'
  /-- What a holder queried it caches before it releases the lock. -/
  filled : ∀ t, (q t).token.isSome → (q t).answer.isSome →
    ((q t).Holds ∧ (q t).filled = false) ∨ m.entry.isSome
  /-- Who has looked again under the lock in vain is the first to query. -/
  first : ∀ t t', (q t).Holds → (q t).missed → t' ≠ t → (q t').token.isSome → (q t').answer = none
  single : ∀ t t', (q t).token.isSome → (q t).answer.isSome → (q t').token.isSome →
    (q t').answer.isSome → t = t'

theorem Phase.holds_congr {q q' : Phase} (htoken : q.token = q'.token) (hreleased : q.released = q'.released) :
    q.Holds = q'.Holds := by
  unfold Phase.Holds
  rw [htoken, hreleased]

namespace FlightInv

variable {J : TaskJson} {a : Option TaskResponse} {m : Cells} {q : ℕ → Phase} {t : ℕ} {n : Phase}

/-- What a step of `t` leaves alone in the phase of `t`, it leaves alone in every phase. -/
theorem update_field {β : Type} (f : Phase → β) (h : f n = f (q t)) (t' : ℕ) :
    f (Function.update q t n t') = f (q t') := by
  rw [Function.apply_update (fun _ => f), h, Function.update_eq_self t (fun t' => f (q t'))]

/-- A call that changes neither the cells nor what the invariant says of its
thread, apart from having missed. -/
theorem congr (h : FlightInv J a m q) (h1 : n.faulted = (q t).faulted) (h2 : n.corrupt = (q t).corrupt)
    (h3 : n.answer = (q t).answer) (h4 : n.token = (q t).token) (h5 : n.released = (q t).released)
    (h6 : n.filled = (q t).filled ∨ m.entry.isSome)
    (hfirst : (q t).Holds → n.missed → ∀ t', t' ≠ t → (q t').token.isSome → (q t').answer = none) :
    FlightInv J a m (Function.update q t n) := by
  have answer := update_field _ h3
  have token := update_field _ h4
  have released := update_field _ h5
  have holds := update_field Phase.Holds (Phase.holds_congr h4 h5)
  constructor
  · simpa only [update_field _ h1] using h.not_faulted
  · simpa only [update_field _ h2] using h.not_corrupt
  · exact h.entry
  · simpa only [answer] using h.answer
  · simpa only [token, released] using h.lock
  · simpa only [holds] using h.held
  · simpa only [holds] using h.mutex
  · intro t' htok hans
    rw [token] at htok
    rw [answer] at hans
    rcases h6 with h6 | h6
    · rw [holds, update_field _ h6]
      exact h.filled t' htok hans
    · exact .inr h6
  · intro t₁ t₂ hh hm hne htok
    rw [holds] at hh
    rw [token] at htok
    rw [answer]
    by_cases ht : t₁ = t
    · subst ht
      rw [Function.update_self] at hm
      exact hfirst hh hm t₂ hne htok
    · rw [Function.update_of_ne ht] at hm
      exact h.first t₁ t₂ hh hm hne htok
  · simpa only [answer, token] using h.single

theorem keep (h : FlightInv J a m q) (h1 : n.faulted = (q t).faulted) (h2 : n.corrupt = (q t).corrupt)
    (h3 : n.answer = (q t).answer) (h4 : n.token = (q t).token) (h5 : n.released = (q t).released)
    (h6 : n.filled = (q t).filled) (h7 : n.missed = (q t).missed) :
    FlightInv J a m (Function.update q t n) :=
  h.congr h1 h2 h3 h4 h5 (.inl h6) fun hh hm t' hne => h.first t t' hh (h7 ▸ hm) hne

/-- A lookup finds no entry: then no lock holder before this one has queried. -/
theorem miss (h : FlightInv J a m q) (hentry : m.entry = none) (h1 : n.faulted = (q t).faulted)
    (h2 : n.corrupt = (q t).corrupt) (h3 : n.answer = (q t).answer) (h4 : n.token = (q t).token)
    (h5 : n.released = (q t).released) (h6 : n.filled = (q t).filled) :
    FlightInv J a m (Function.update q t n) := by
  refine h.congr h1 h2 h3 h4 h5 (.inl h6) fun hh _ t' hne htok => ?_
  by_contra hans
  rcases h.filled t' htok (Option.isSome_iff_ne_none.mpr hans) with ⟨hh', -⟩ | hsome
  · exact hne (h.mutex t' t hh' hh)
  · rw [hentry] at hsome
    cases hsome

theorem Holds.lock (h : FlightInv J a m q) {t : ℕ} (hh : (q t).Holds) : m.lock.isSome := by
  obtain ⟨token, htok⟩ := Option.isSome_iff_exists.mp hh.1
  rw [h.lock t token htok hh.2]
  rfl

/-- The lock is free and is taken: nobody held it. -/
theorem take (h : FlightInv J a m q) (hlock : m.lock = none) {token : String}
    (hq : (q t).answer = none) (h1 : n.faulted = (q t).faulted) (h2 : n.corrupt = (q t).corrupt)
    (h3 : n.answer = (q t).answer) (h4 : n.token = some token) (h5 : n.released = false)
    (h7 : n.missed = false) :
    FlightInv J a { m with lock := some token } (Function.update q t n) := by
  have free : ∀ t', ¬ (q t').Holds := fun t' hh => by
    have := Holds.lock h hh
    rw [hlock] at this
    cases this
  have holder : ∀ {t'}, (Function.update q t n t').Holds → t' = t := fun {t'} hh => by
    by_contra hne
    rw [Function.update_of_ne hne] at hh
    exact free t' hh
  have queried : ∀ {t'}, (Function.update q t n t').answer.isSome → t' ≠ t := fun {t'} hans he => by
    rw [he, Function.update_self, h3, hq] at hans
    cases hans
  constructor
  · simpa only [update_field _ h1] using h.not_faulted
  · simpa only [update_field _ h2] using h.not_corrupt
  · exact h.entry
  · intro t' x hx
    have hne := @queried t' (by rw [hx]; rfl)
    rw [Function.update_of_ne hne] at hx
    exact h.answer t' x hx
  · intro t' token' htok hrel
    obtain rfl := holder ⟨by rw [htok]; rfl, hrel⟩
    rw [Function.update_self, h4] at htok
    exact htok
  · intro _
    exact ⟨t, by rw [Function.update_self]; exact ⟨by rw [h4]; rfl, h5⟩⟩
  · intro t₁ t₂ hh₁ hh₂
    rw [holder hh₁, holder hh₂]
  · intro t' htok hans
    have hne := queried hans
    rw [Function.update_of_ne hne] at htok hans ⊢
    exact h.filled t' htok hans
  · intro t₁ t₂ hh hm
    obtain rfl := holder hh
    rw [Function.update_self, h7] at hm
    cases hm
  · intro t₁ t₂ htok₁ hans₁ htok₂ hans₂
    have hne₁ := queried hans₁
    have hne₂ := queried hans₂
    rw [Function.update_of_ne hne₁] at htok₁ hans₁
    rw [Function.update_of_ne hne₂] at htok₂ hans₂
    exact h.single t₁ t₂ htok₁ hans₁ htok₂ hans₂

/-- The entry is written. -/
theorem fill (h : FlightInv J a m q) {value : String} (hvalue : J.read value = some a)
    (h1 : n.faulted = (q t).faulted) (h2 : n.corrupt = (q t).corrupt) (h3 : n.answer = (q t).answer)
    (h4 : n.token = (q t).token) (h5 : n.released = (q t).released) (h7 : n.missed = (q t).missed) :
    FlightInv J a { m with entry := some value } (Function.update q t n) := by
  have h' : FlightInv J a { m with entry := some value } q :=
    { h with
      entry := fun value' hv => by
        cases hv
        exact hvalue
      filled := fun _ _ _ => .inr rfl }
  exact h'.congr h1 h2 h3 h4 h5 (.inr rfl) fun hh hm t' hne => h.first t t' hh (h7 ▸ hm) hne

/-- The lock is released by its holder. -/
theorem release (h : FlightInv J a m q) (hh : (q t).Holds) (hfilled : (q t).answer.isSome → (q t).filled)
    (h1 : n.faulted = (q t).faulted) (h2 : n.corrupt = (q t).corrupt) (h3 : n.answer = (q t).answer)
    (h4 : n.token = (q t).token) (h5 : n.released = true) :
    FlightInv J a { m with lock := none } (Function.update q t n) := by
  have nobody : ∀ t', ¬ (Function.update q t n t').Holds := fun t' hh' => by
    by_cases ht : t' = t
    · rw [ht, Function.update_self] at hh'
      exact absurd hh'.2 (by simp [h5])
    · rw [Function.update_of_ne ht] at hh'
      exact ht (h.mutex t' t hh' hh)
  have answer := update_field _ h3
  have token := update_field _ h4
  constructor
  · simpa only [update_field _ h1] using h.not_faulted
  · simpa only [update_field _ h2] using h.not_corrupt
  · exact h.entry
  · simpa only [answer] using h.answer
  · exact fun t' token' htok hrel => absurd ⟨by rw [htok]; rfl, hrel⟩ (nobody t')
  · exact fun hnone => by cases hnone
  · exact fun t₁ t₂ hh₁ => absurd hh₁ (nobody t₁)
  · intro t' htok hans
    rw [token] at htok
    rw [answer] at hans
    rcases h.filled t' htok hans with ⟨hh', hf⟩ | hsome
    · obtain rfl := h.mutex t' t hh' hh
      rw [hfilled hans] at hf
      cases hf
    · exact .inr hsome
  · exact fun t₁ t₂ hh₁ => absurd hh₁ (nobody t₁)
  · simpa only [answer, token] using h.single

/-- The table is queried, under the lock by the first to do so. -/
theorem query (h : FlightInv J a m q) {x : Option TaskRecord} (hx : taskOf x = a)
    (hfilled : (q t).filled = false) (hreleased : (q t).released = false)
    (hmissed : (q t).token.isSome → (q t).missed) (h1 : n.faulted = (q t).faulted)
    (h2 : n.corrupt = (q t).corrupt) (h3 : n.answer = some x) (h4 : n.token = (q t).token)
    (h5 : n.released = (q t).released) (h6 : n.filled = (q t).filled) (h7 : n.missed = (q t).missed) :
    FlightInv J a m (Function.update q t n) := by
  have token := update_field _ h4
  have holds := update_field Phase.Holds (Phase.holds_congr h4 h5)
  have others : ∀ {t'}, t' ≠ t → (Function.update q t n t').answer = (q t').answer := fun hne => by
    rw [Function.update_of_ne hne]
  have first : (q t).token.isSome → ∀ {t'}, t' ≠ t → (q t').token.isSome → (q t').answer = none :=
    fun htok {t'} hne => h.first t t' ⟨htok, hreleased⟩ (hmissed htok) hne
  constructor
  · simpa only [update_field _ h1] using h.not_faulted
  · simpa only [update_field _ h2] using h.not_corrupt
  · exact h.entry
  · intro t' y hy
    by_cases ht : t' = t
    · rw [ht, Function.update_self, h3] at hy
      cases hy
      exact hx
    · rw [others ht] at hy
      exact h.answer t' y hy
  · simpa only [token, update_field _ h5] using h.lock
  · simpa only [holds] using h.held
  · simpa only [holds] using h.mutex
  · intro t' htok hans
    rw [token] at htok
    rw [holds, update_field _ h6]
    by_cases ht : t' = t
    · rw [ht] at htok ⊢
      exact .inl ⟨⟨htok, hreleased⟩, hfilled⟩
    · rw [others ht] at hans
      exact h.filled t' htok hans
  · intro t₁ t₂ hh hm hne htok
    rw [holds] at hh
    rw [update_field _ h7] at hm
    rw [token] at htok
    by_cases ht : t₂ = t
    · rw [ht] at htok hne
      exact absurd (h.mutex t₁ t hh ⟨htok, hreleased⟩).symm hne
    · rw [others ht]
      exact h.first t₁ t₂ hh hm hne htok
  · intro t₁ t₂ htok₁ hans₁ htok₂ hans₂
    rw [token] at htok₁ htok₂
    by_cases ht₁ : t₁ = t
    · by_cases ht₂ : t₂ = t
      · rw [ht₁, ht₂]
      · rw [others ht₂, first (ht₁ ▸ htok₁) ht₂ htok₂] at hans₂
        cases hans₂
    · rw [others ht₁] at hans₁
      by_cases ht₂ : t₂ = t
      · rw [first (ht₂ ▸ htok₂) ht₁ htok₁] at hans₁
        cases hans₁
      · rw [others ht₂] at hans₂
        exact h.single t₁ t₂ htok₁ hans₁ htok₂ hans₂

/-- One call of a `GET`. -/
theorem step (h : FlightInv J a m q) {settings : Settings} {o i : ℤ} {s s' : State} {x : Call}
    {v : calls.Out x} (hm : s.cells o i = m) (hrow : taskOf (s.row o i) = a)
    (ha : (q t).getAllows J settings o i x) (hs : TaskApi.step (fun _ => False) x s v s') :
    FlightInv J a (s'.cells o i) (Function.update q t ((q t).next J x v)) := by
  subst hm
  have hcells := cells_step ha hs
  cases x with
  | redisGet key =>
    obtain ⟨value, rfl⟩ := ok_of_redis rfl hs
    obtain ⟨rfl, hcells⟩ := hcells
    rw [hcells]
    cases hentry : (s.cells o i).entry with
    | none =>
      refine h.miss hentry rfl ?_ rfl rfl rfl rfl
      simp [Phase.next, Phase.seen]
    | some value =>
      have hread := h.entry value hentry
      refine h.keep rfl ?_ rfl rfl rfl rfl ?_
      · simp [Phase.next, Phase.seen, hread]
      · simp [Phase.next, Phase.seen, hread]
  | redisSet key value ex =>
    obtain ⟨_, rfl⟩ := ok_of_redis rfl hs
    obtain ⟨_, _, _, _, y, hy, hread, _⟩ := ha
    have hcells : s'.cells o i = { s.cells o i with entry := some value } := hcells
    rw [hcells]
    rw [h.answer t y hy] at hread
    exact h.fill hread rfl rfl rfl rfl rfl rfl
  | redisSetNx key token ex =>
    obtain ⟨acquired, rfl⟩ := ok_of_redis rfl hs
    obtain ⟨_, _, _, hans, hrel, _⟩ := ha
    rcases hcells with ⟨rfl, hlock, hcells⟩ | ⟨rfl, hcells⟩
    · rw [hcells]
      exact h.take hlock hans rfl rfl rfl rfl hrel rfl
    · rw [hcells]
      exact h.keep rfl rfl rfl rfl rfl rfl rfl
  | redisDelete key =>
    have := h.not_corrupt t
    rw [hcells] at this
    cases this
  | redisEvalReleaseLock key token =>
    obtain ⟨deleted, rfl⟩ := ok_of_redis rfl hs
    obtain ⟨_, htok, hrel, hfilled⟩ := ha
    have hcells := hcells (h.lock t token htok hrel)
    rw [hcells]
    refine h.release ⟨by rw [htok]; rfl, hrel⟩ (fun hans => ?_) rfl rfl rfl rfl rfl
    exact (hfilled hans).resolve_right (by simp [h.not_faulted])
  | findOwnedTask taskId ownerId =>
    obtain ⟨rfl, rfl, _, _, hfilled, hreleased, hmissed, _⟩ := ha
    obtain rfl := step_findOwnedTask hs
    have hcells : s'.cells ownerId taskId = s.cells ownerId taskId := hcells
    rw [hcells]
    exact h.query hrow hfilled hreleased hmissed rfl rfl rfl rfl rfl rfl rfl
  | uuid4 =>
    obtain ⟨token, rfl⟩ := step_uuid4 hs
    have hcells : s'.cells o i = s.cells o i := hcells
    rw [hcells]
    exact h.keep rfl rfl rfl rfl rfl rfl rfl
  | randint lo hi =>
    obtain ⟨jitter, rfl, -⟩ := step_randint hs
    have hcells : s'.cells o i = s.cells o i := hcells
    rw [hcells]
    exact h.keep rfl rfl rfl rfl rfl rfl rfl
  | sleep seconds =>
    obtain rfl := step_sleep hs
    have hcells : s'.cells o i = s.cells o i := hcells
    rw [hcells]
    exact h.keep rfl rfl rfl rfl rfl rfl rfl
  | _ => exact ha.elim

end FlightInv

/-! ### Runs -/

section

variable {J : TaskJson} {settings : Settings} {o i : ℤ} {s₀ : State}

/-- The task routes while nothing fails and nothing expires. -/
abbrev quietSystem (J : TaskJson) (settings : Settings) (o i : ℤ) : System calls :=
  taskSystem J settings (fun _ => False) (Lasts o i)

variable {gate : Config (quietSystem J settings o i) → Prop} {c : Config (quietSystem J settings o i)}

/-- Thread `t` asked for the lock and got it, or not. -/
def AsksLock (t : ℕ) (acquired : Bool) (e : Event (quietSystem J settings o i)) : Prop :=
  ∃ token ex, e.act = .call t (.redisSetNx (buildTaskCacheLockKey o i) token ex) (.ok acquired)

/-- Thread `t` looked the entry up and found nothing. -/
def misses (t : ℕ) (e : Event (quietSystem J settings o i)) : Bool :=
  match e.act with
  | .call t' (.redisGet _) (.ok value) => t' = t ∧ (value.bind J.read).isNone
  | _ => false

theorem lookups_eq (t : ℕ) : ∀ tr : List (Event (quietSystem J settings o i)),
    (phase (taskAutomaton J) t tr).lookups = tr.countP (misses t)
  | [] => rfl
  | ⟨_, _, .start _ _⟩ :: tr => by
    rw [phase_start, lookups_eq t tr, List.countP_cons_of_neg (by simp [misses])]
  | ⟨s, s', .call t' x v⟩ :: tr => by
    have ih := lookups_eq t tr
    by_cases ht : t' = t
    · subst ht
      rw [phase_call_self, List.countP_cons, ← ih]
      rcases v with e | v
      · cases e <;> cases x <;> rfl
      · cases x with
        | redisGet key => cases h : v.bind J.read <;> simp [Phase.next, Phase.seen, misses, h]
        | _ => rfl
    · rw [phase_call_ne _ ht, ih, List.countP_cons_of_neg]
      cases x <;> rcases v with e | v <;> simp [misses, ht]

theorem flightInv (hcells : s₀.cells o i = ⟨none, none⟩) (h : Run gate (.init s₀) c) :
    (∀ t r, Requested t r c.trace → r = Request.get o i) → c.state.db = s₀.db ∧
      FlightInv J (taskOf (s₀.row o i)) (c.state.cells o i) fun t => phase (taskAutomaton J) t c.trace := by
  refine @taskInvariant J settings _ _ gate s₀ c (fun s tr =>
    (∀ t r, Requested t r tr → r = Request.get o i) → s.db = s₀.db ∧
      FlightInv J (taskOf (s₀.row o i)) (s.cells o i) fun t => phase (taskAutomaton J) t tr) ?_ ?_ ?_ ?_ h
  · intro _
    rw [hcells]
    refine ⟨rfl, ?_⟩
    constructor <;> simp [phase, Phase.Holds]
  · intro b hb ih t r hn hreq
    exact ih fun t' r' hr => hreq t' r' (hr.cons _)
  · intro b hb ih t r x v s' hrun hr ha hs hreq
    obtain ⟨hdb, hinv⟩ := ih fun t' r' hr => hreq t' r' (hr.cons _)
    obtain rfl := hreq t r (hr.cons _)
    constructor
    · rw [← hdb]
      refine step_db ?_ hs
      cases x <;> first | rfl | exact ha.elim
    · have hrow : taskOf (b.state.row o i) = taskOf (s₀.row o i) := by rw [State.row, hdb]
      rw [phase_call]
      exact hinv.step rfl hrow ha hs
  · intro b hb ih s' he hreq
    obtain ⟨hdb, hinv⟩ := ih hreq
    rw [he.cells]
    obtain ⟨t, -, rfl, -⟩ := he
    exact ⟨hdb, hinv⟩

theorem token_of_asked {t : ℕ} {tr : List (Event (quietSystem J settings o i))}
    (h : ∃ e ∈ tr, AsksLock t true e) : (phase (taskAutomaton J) t tr).token.isSome := by
  obtain ⟨e, he, token, ex, hact⟩ := h
  refine @phase_of_call _ _ (taskAutomaton J) t (fun q => q.token.isSome) (fun q x v hq => ?_) tr e he _ _ hact
    fun q => rfl
  rcases v with e | v
  · cases e <;> exact hq
  · cases x with
    | redisSetNx key token' ex' => cases v <;> first | exact hq | rfl
    | _ => exact hq

theorem answer_of_reads (h : Run gate (.init s₀) c) {t : ℕ} (hr : ∃ e ∈ c.trace, Reads o i t e) :
    (phase (taskAutomaton J) t c.trace).answer.isSome := by
  obtain ⟨e, he, v, hact⟩ := hr
  obtain ⟨u, tr, htr⟩ := List.append_of_mem he
  rcases e with ⟨s, s', act⟩
  obtain rfl : act = .call t (.findOwnedTask i o) v := hact
  obtain ⟨b, r, -, -, -, -, -, -, -, hs⟩ := taskCall h htr
  obtain rfl := step_findOwnedTask hs
  refine @phase_of_call _ _ (taskAutomaton J) t (fun q => q.answer.isSome) (fun q x v hq => ?_) _ _ he _ _ rfl
    fun q => rfl
  rcases v with e | v
  · cases e <;> exact hq
  · cases x <;> first | exact hq | rfl

/-- What a `GET`'s phase says of the lock came from its call. -/
theorem asked_of_phase (h : Run gate (.init s₀) c) {t : ℕ} (hr : Requested t (Request.get o i) c.trace) :
    ((phase (taskAutomaton J) t c.trace).token.isSome → ∃ e ∈ c.trace, AsksLock t true e) ∧
    ((phase (taskAutomaton J) t c.trace).refused → ∃ e ∈ c.trace, AsksLock t false e) := by
  constructor
  · intro htok
    obtain ⟨u, s, s', x, v, tr, he, h1, h2⟩ :=
      @phase_became _ _ (taskAutomaton J) t (fun q => q.token.isSome) (by simp) _ htok
    have ha := (taskMade h hr he).1
    rcases v with e | v
    · cases e <;> exact absurd h2 h1
    cases x with
    | redisSetNx key token ex =>
      obtain ⟨rfl, -⟩ := ha
      cases v with
      | false => exact absurd h2 h1
      | true => exact ⟨_, by rw [he]; exact List.mem_append_right _ List.mem_cons_self, token, ex, rfl⟩
    | _ => exact absurd h2 h1
  · intro href
    obtain ⟨u, s, s', x, v, tr, he, h1, h2⟩ :=
      @phase_became _ _ (taskAutomaton J) t (fun q => q.refused = true) (by simp) _ href
    have ha := (taskMade h hr he).1
    rcases v with e | v
    · cases e <;> exact absurd h2 h1
    cases x with
    | redisSetNx key token ex =>
      obtain ⟨rfl, -⟩ := ha
      cases v with
      | true => exact absurd h2 h1
      | false => exact ⟨_, by rw [he]; exact List.mem_append_right _ List.mem_cons_self, token, ex, rfl⟩
    | _ => exact absurd h2 h1

/-- A query is its request's first, and is made under the lock or after waiting in vain. -/
theorem query_first (h : Run gate (.init s₀) c) (hreq : ∀ t r, Requested t r c.trace → r = Request.get o i)
    {t : ℕ} {u tr : List (Event (quietSystem J settings o i))} {q : Event (quietSystem J settings o i)}
    (he : c.trace = u ++ q :: tr) (hq : Reads o i t q) :
    (∀ e ∈ tr, ¬ Reads o i t e) ∧
      ((∃ e ∈ tr, AsksLock t true e) ∨ (∃ e ∈ tr, AsksLock t false e) ∧
        (tr.countP (misses t) : ℤ) = settings.taskCacheLockWaitAttempts + 1) := by
  rcases q with ⟨s, s', act⟩
  obtain ⟨v, hq⟩ := hq
  obtain rfl : act = .call t (.findOwnedTask i o) v := hq
  obtain ⟨b, r, hb, -, rfl, -, hr, -, ha, -⟩ := taskCall h he
  obtain rfl := hreq t r (he ▸ (hr.cons _).append u)
  obtain ⟨-, -, hans, -, -, -, -, hwait⟩ := ha
  obtain ⟨hasked, hrefused⟩ := asked_of_phase hb hr
  refine ⟨fun e hm hread => ?_, ?_⟩
  · have := answer_of_reads hb ⟨e, hm, hread⟩
    rw [hans] at this
    cases this
  · by_cases htok : (phase (taskAutomaton J) t b.trace).token.isSome
    · exact .inl (hasked htok)
    · right
      have hnf := not_faulted (fun _ => id) hb hr
      rcases hwait (Option.not_isSome_iff_eq_none.mp htok) with hf | ⟨href, hl⟩
      · rw [hnf] at hf
        cases hf
      · rw [lookups_eq] at hl
        exact ⟨hrefused href, hl⟩

/-- Every request that has ended answered with the row. -/
theorem flight_answer (hcells : s₀.cells o i = ⟨none, none⟩) (h : Run gate (.init s₀) c)
    (hreq : ∀ t r, Requested t r c.trace → r = Request.get o i) {t : ℕ}
    {x : Except Exn (Option TaskResponse)} (hx : c.result t = some x) :
    x = answerGet (taskOf (s₀.row o i)) := by
  obtain ⟨r, hr⟩ := h.ended_requested hx
  obtain rfl := hreq t r hr
  obtain ⟨-, ⟨a, ha, rfl⟩ | ⟨-, hf⟩⟩ := taskFinal h hr hx
  · congr 1
    rcases ha with ha | ⟨-, y, hy, rfl⟩
    · obtain ⟨u, s, tr, value, he, hget, hread⟩ := get_hit h hr ha
      obtain ⟨b, d, hb, -, -, rfl, rfl, -, -⟩ := Run.split h he
      have hb' := (flightInv hcells hb fun t' r' hr' => hreq t' r' (he ▸ (hr'.cons _).append u)).2
      exact Option.some.inj (hread.symm.trans (hb'.entry value hget))
    · exact (flightInv hcells h hreq).2.answer t y hy
  · rw [not_faulted (fun _ => id) h hr] at hf
    cases hf

/-- **Single flight.** From an empty entry and a free lock, with nothing failing
or expiring and nobody writing:
the requests that obtained the lock query the table at most once in all;
whoever else queries it was refused the lock and has missed in every attempt;
every request that ends answers with the row;
and the lock is free when all have ended. The id is one that the driver binds: with
any other the query of the code raises `OverflowError`, and so does every request. -/
theorem single_flight (hentry : s₀.redis.get s₀.now (TaskCache.buildKey o i) = none)
    (hlock : s₀.redis.get s₀.now (buildTaskCacheLockKey o i) = none) (h : Interleaved (.init s₀) c)
    (hreq : ∀ t r, Requested t r c.trace → r = Request.get o i) :
    (∀ t t', (∃ e ∈ c.trace, AsksLock t true e) → (∃ e ∈ c.trace, Reads o i t e) →
      (∃ e ∈ c.trace, AsksLock t' true e) → (∃ e ∈ c.trace, Reads o i t' e) → t = t') ∧
    (∀ t u q tr, c.trace = u ++ q :: tr → Reads o i t q → (∀ e ∈ tr, ¬ Reads o i t e) ∧
      ((∃ e ∈ tr, AsksLock t true e) ∨ (∃ e ∈ tr, AsksLock t false e) ∧
        (tr.countP (misses t) : ℤ) = settings.taskCacheLockWaitAttempts + 1)) ∧
    (∀ t x, c.result t = some x → x = answerGet (taskOf (s₀.row o i))) ∧
    (c.Quiet → c.state.redis.get c.state.now (buildTaskCacheLockKey o i) = none) := by
  have hcells : s₀.cells o i = ⟨none, none⟩ := by
    unfold State.cells
    rw [hentry, hlock]
  have hinv := (flightInv hcells h hreq).2
  refine ⟨fun t t' hask hread hask' hread' => ?_, fun t u q tr he hq => query_first h hreq he hq,
    fun t x hx => flight_answer hcells h hreq hx, fun hquiet => ?_⟩
  · exact hinv.single t t' (token_of_asked hask) (answer_of_reads h hread) (token_of_asked hask')
      (answer_of_reads h hread')
  · -- a holder has not ended
    by_contra hheld
    obtain ⟨t, htok, hrel⟩ := hinv.held (Option.isSome_iff_ne_none.mpr hheld)
    cases hp : c.pool t with
    | none =>
      rw [phase_eq_init _ (Run.not_acted h hp)] at htok
      cases htok
    | some rp =>
      obtain ⟨r, p⟩ := rp
      have hr := (Run.pool_trace h).1 t r p hp
      obtain rfl := hreq t r hr
      obtain ⟨x, hx⟩ := h.ended hr (hquiet t)
      rcases (taskFinal h hr hx).1 htok with hrel' | hf
      · rw [hrel] at hrel'
        cases hrel'
      · rw [not_faulted (fun _ => id) h hr] at hf
        cases hf

end

/-- Two `GET`s of a task that does not exist: the second is refused the lock and
finds the entry of the first. -/
noncomputable def twoGets : Config (quietSystem exampleJson .defaults 1 1) :=
  exampleRun _ _ [.start 0 (Request.get 1 1), .start 1 (Request.get 1 1), .call 0, .call 1, .call 0, .call 0,
    .call 1, .call 1, .call 0, .call 0, .call 0, .call 0, .call 1, .call 1]

theorem single_flight_twoGets :
    twoGets.Quiet ∧ answerGet (taskOf (State.new.row 1 1)) = .error taskNotFound ∧
      (∀ x, twoGets.result 1 = some x → x = answerGet (taskOf (State.new.row 1 1))) ∧
      twoGets.state.redis.get twoGets.state.now (buildTaskCacheLockKey 1 1) = none := by
  have h : Interleaved (.init State.new) twoGets := Interleaved.schedule (step_serve _ _) _ _
  have hquiet : twoGets.Quiet := Run.quiet h (by decide +kernel)
  have hreq : ∀ t r, Requested t r twoGets.trace → r = Request.get 1 1 := fun t r hr =>
    (show ∀ p ∈ starts twoGets.trace, p.2 = Request.get 1 1 by decide +kernel) _ hr.mem_starts
  obtain ⟨-, -, hanswer, hlock⟩ := single_flight rfl rfl h hreq
  exact ⟨hquiet, by decide +kernel, hanswer 1, hlock hquiet⟩

end TaskApi
