/-
# The circuit breaker

`circuit_breaker.py`. The clock is a callable; a method that reads it reads it
once, so each takes the reading as an argument. Clock readings are rational
numbers, and the difference of two of them is a double (`Double.sub`), as in the
code.

Key definitions: `CircuitBreaker`, `CircuitBreaker.beforeCall`,
`CircuitBreaker.recordSuccess`, `CircuitBreaker.recordFailure`,
`CircuitBreaker.History`.
Key theorems: `CircuitBreaker.beforeCall_cases`,
`CircuitBreaker.recordFailure_cases`, `CircuitBreaker.History.admits_iff`.
-/
import TaskApi.Lib.Double
import TaskApi.Retrying

namespace TaskApi

/-- `CircuitState` -/
inductive CircuitState where
  | closed
  | opened
  | halfOpen
deriving DecidableEq

/-- A constructed `CircuitBreaker`: its parameters passed the checks of `__init__`. -/
structure CircuitBreaker where
  failureThreshold : ℤ
  recoveryTimeout : ℚ
  failureCount : ℤ := 0
  openedAt : Option ℚ := none
  state : CircuitState := .closed
  one_le_threshold : 1 ≤ failureThreshold
  recoveryTimeout_pos : 0 < recoveryTimeout
deriving DecidableEq

namespace CircuitBreaker

theorem one_le_of_not_lt {n : ℤ} (h : ¬ n < 1) : 1 ≤ n := not_lt.mp h

/-- `CircuitBreaker.__init__` -/
def init (failureThreshold : ℤ) (recoveryTimeout : ℚ) : Except UpstreamExn CircuitBreaker :=
  if h1 : failureThreshold < 1 then .error (.valueError "failure_threshold must be at least 1")
  else if h2 : recoveryTimeout ≤ 0 then .error (.valueError "recovery_timeout must be greater than 0")
  else .ok
    { failureThreshold, recoveryTimeout,
      one_le_threshold := one_le_of_not_lt h1, recoveryTimeout_pos := not_le.mp h2 }

variable (b : CircuitBreaker) (now : ℚ)

/-- `before_call`: whether the call may be made, and the breaker afterwards. -/
def beforeCall : Except UpstreamExn Unit × CircuitBreaker :=
  match b.state, b.openedAt with
  | .closed, _ => (.ok (), b)
  | .halfOpen, _ => (.error (.circuitBreakerOpenError "Circuit breaker probe is already in progress"), b)
  | .opened, none => (.error (.runtimeError "Open circuit breaker has no opening time"), b)
  | .opened, some openedAt =>
    let elapsedTime := Double.sub now openedAt
    if elapsedTime < b.recoveryTimeout then
      (.error (.circuitBreakerOpenError "Circuit breaker is open"), b)
    else (.ok (), { b with state := .halfOpen })

def recordSuccess : CircuitBreaker := { b with failureCount := 0, openedAt := none, state := .closed }

/-- `_open` -/
def openAt : CircuitBreaker := { b with state := .opened, openedAt := some now }

def recordFailure : CircuitBreaker :=
  if b.state = .halfOpen then b.openAt now
  else
    let b' := { b with failureCount := b.failureCount + 1 }
    if b'.failureCount ≥ b'.failureThreshold then b'.openAt now else b'

/-- `record_failure` calls `_open`. -/
def Opens : Prop := b.state = .halfOpen ∨ b.failureThreshold ≤ b.failureCount + 1

instance : Decidable b.Opens := inferInstanceAs (Decidable (_ ∨ _))

/-! ### What the methods do -/

@[simp] theorem recordSuccess_state : b.recordSuccess.state = .closed := rfl
@[simp] theorem recordSuccess_failureThreshold : b.recordSuccess.failureThreshold = b.failureThreshold := rfl
@[simp] theorem recordSuccess_recoveryTimeout : b.recordSuccess.recoveryTimeout = b.recoveryTimeout := rfl

/-- A failure that opens the breaker, and one that only counts. -/
theorem recordFailure_cases :
    (b.Opens ∧ (b.recordFailure now).state = .opened ∧ (b.recordFailure now).openedAt = some now) ∨
    (¬ b.Opens ∧ b.recordFailure now = { b with failureCount := b.failureCount + 1 }) := by
  unfold recordFailure Opens
  by_cases hhalf : b.state = .halfOpen
  · rw [if_pos hhalf]
    exact .inl ⟨.inl hhalf, rfl, rfl⟩
  · rw [if_neg hhalf]
    dsimp only
    by_cases hcount : b.failureThreshold ≤ b.failureCount + 1
    · rw [if_pos hcount]
      exact .inl ⟨.inr hcount, rfl, rfl⟩
    · rw [if_neg hcount]
      exact .inr ⟨by rintro (h | h); exacts [hhalf h, hcount h], rfl⟩

variable {b}

theorem recordFailure_of_opens (h : b.Opens) :
    (b.recordFailure now).state = .opened ∧ (b.recordFailure now).openedAt = some now :=
  ((b.recordFailure_cases now).resolve_right fun hnot => hnot.1 h).2

theorem recordFailure_of_not_opens (h : ¬ b.Opens) :
    b.recordFailure now = { b with failureCount := b.failureCount + 1 } :=
  ((b.recordFailure_cases now).resolve_left fun hopens => h hopens.1).2

variable (b)

/-- No failure leaves the breaker half open. -/
theorem recordFailure_state_ne : (b.recordFailure now).state ≠ .halfOpen := by
  rcases b.recordFailure_cases now with ⟨-, hstate, -⟩ | ⟨hnot, heq⟩
  · rw [hstate]
    simp
  · rw [heq]
    exact fun hhalf => hnot (.inl hhalf)

theorem recordFailure_failureCount : (b.recordFailure now).failureCount =
    if b.state = .halfOpen then b.failureCount else b.failureCount + 1 := by
  unfold recordFailure openAt
  dsimp only
  split_ifs <;> rfl

@[simp] theorem recordFailure_failureThreshold :
    (b.recordFailure now).failureThreshold = b.failureThreshold := by
  unfold recordFailure openAt
  dsimp only
  split_ifs <;> rfl

@[simp] theorem recordFailure_recoveryTimeout :
    (b.recordFailure now).recoveryTimeout = b.recoveryTimeout := by
  unfold recordFailure openAt
  dsimp only
  split_ifs <;> rfl

/-- A call is let through while the breaker is closed, or once the recovery
timeout has passed since it opened; then the breaker is half open. A refused
call changes nothing. -/
theorem beforeCall_cases :
    (b.state = .closed ∧ b.beforeCall now = (.ok (), b)) ∨
    (∃ t, b.state = .opened ∧ b.openedAt = some t ∧ b.recoveryTimeout ≤ Double.sub now t ∧
      b.beforeCall now = (.ok (), { b with state := .halfOpen })) ∨
    (∃ e, b.beforeCall now = (.error e, b) ∧ (b.state = .halfOpen ∨ b.state = .opened ∧
      ∀ t, b.openedAt = some t → Double.sub now t < b.recoveryTimeout)) := by
  cases hstate : b.state with
  | closed =>
    refine .inl ⟨rfl, ?_⟩
    simp only [beforeCall, hstate]
  | halfOpen =>
    refine .inr (.inr ⟨.circuitBreakerOpenError "Circuit breaker probe is already in progress", ?_, .inl rfl⟩)
    simp only [beforeCall, hstate]
  | opened =>
    cases hopened : b.openedAt with
    | none =>
      refine .inr (.inr ⟨.runtimeError "Open circuit breaker has no opening time", ?_,
        .inr ⟨rfl, fun t ht => by cases ht⟩⟩)
      simp only [beforeCall, hstate, hopened]
    | some t =>
      by_cases helapsed : Double.sub now t < b.recoveryTimeout
      · refine .inr (.inr ⟨.circuitBreakerOpenError "Circuit breaker is open", ?_,
          .inr ⟨rfl, fun t' ht' => by cases ht'; exact helapsed⟩⟩)
        simp only [beforeCall, hstate, hopened, if_pos helapsed]
      · refine .inr (.inl ⟨t, rfl, rfl, not_lt.mp helapsed, ?_⟩)
        simp only [beforeCall, hstate, hopened, if_neg helapsed]

/-! ### The breaker and its history

What the breaker is for: to refuse calls while `n` failures in a row are on
record, until the recovery timeout has passed since the latest of them. -/

/-- The breaker after `failures` failures in a row, the latest at `last`: closed
while they are fewer than the threshold, and not closed since the latest one
otherwise. -/
structure History (n : ℤ) (T : ℚ) (b : CircuitBreaker) (failures : ℕ) (last : Option ℚ) : Prop where
  threshold : b.failureThreshold = n
  timeout : b.recoveryTimeout = T
  of_closed : b.state = .closed → b.failureCount = failures ∧ (failures : ℤ) < n
  of_not_closed : b.state ≠ .closed → n ≤ b.failureCount ∧ n ≤ failures ∧
    ∃ t, b.openedAt = some t ∧ last = some t

variable {b} {n : ℤ} {T : ℚ} {failures : ℕ} {last : Option ℚ}

theorem init_ok (h : init n T = .ok b) :
    1 ≤ n ∧ b.failureThreshold = n ∧ b.recoveryTimeout = T ∧ b.failureCount = 0 ∧ b.openedAt = none ∧
      b.state = .closed := by
  unfold init at h
  split_ifs at h with h1 h2
  cases h
  exact ⟨one_le_of_not_lt h1, rfl, rfl, rfl, rfl, rfl⟩

namespace History

theorem init (h : init n T = .ok b) : History n T b 0 none := by
  obtain ⟨h1, h2, h3, h4, -, h6⟩ := init_ok h
  refine ⟨h2, h3, fun _ => ⟨by rw [h4]; rfl, ?_⟩, fun hnot => absurd h6 hnot⟩
  push_cast
  omega

theorem beforeCall (h : History n T b failures last) (now : ℚ) :
    History n T (b.beforeCall now).2 failures last := by
  rcases b.beforeCall_cases now with ⟨-, heq⟩ | ⟨t, hopened, -, -, heq⟩ | ⟨error, heq, -⟩
  · rw [heq]
    exact h
  · rw [heq]
    have hnot : b.state ≠ .closed := by
      rw [hopened]
      simp
    exact ⟨h.threshold, h.timeout, fun hclosed => absurd hclosed (by simp), fun _ => h.of_not_closed hnot⟩
  · rw [heq]
    exact h

theorem recordSuccess (h : History n T b failures last) : History n T b.recordSuccess 0 last := by
  have hn := b.one_le_threshold
  rw [h.threshold] at hn
  refine ⟨h.threshold, h.timeout, fun _ => ⟨rfl, ?_⟩, fun hnot => absurd rfl hnot⟩
  push_cast
  omega

/-- A recorded failure opens the breaker at the reading of the clock, or is one of
fewer than `n`. -/
theorem recordFailure (h : History n T b failures last) (now : ℚ) :
    History n T (b.recordFailure now) (failures + 1) (some now) := by
  have hn := h.threshold
  by_cases hopens : b.Opens
  · obtain ⟨hopened, hat⟩ := recordFailure_of_opens now hopens
    refine ⟨by simpa using h.threshold, by simpa using h.timeout, fun hclosed => ?_, fun _ => ⟨?_, ?_, now, hat, rfl⟩⟩
    · rw [hopened] at hclosed
      cases hclosed
    · rw [recordFailure_failureCount]
      split_ifs with hhalf
      · exact (h.of_not_closed (by rw [hhalf]; simp)).1
      · have := hopens.resolve_left hhalf
        omega
    · push_cast
      by_cases hclosed : b.state = .closed
      · have hcount := (h.of_closed hclosed).1
        have := hopens.resolve_left (by rw [hclosed]; simp)
        omega
      · have := (h.of_not_closed hclosed).2.1
        omega
  · have hcount : ¬ b.failureThreshold ≤ b.failureCount + 1 := fun hle => hopens (.inr hle)
    have hclosed : b.state = .closed := by
      by_contra hnot
      have := (h.of_not_closed hnot).1
      omega
    obtain ⟨h1, h2⟩ := h.of_closed hclosed
    rw [recordFailure_of_not_opens now hopens]
    refine ⟨h.threshold, h.timeout, fun _ => ⟨?_, ?_⟩, fun hnot => absurd hclosed hnot⟩
    · push_cast
      rw [← h1]
    · push_cast
      omega

/-- The breaker lets a call through exactly when its history says so, unless a
probe is under way. -/
theorem admits_iff (h : History n T b failures last) (hhalf : b.state ≠ .halfOpen) (now : ℚ) :
    (b.beforeCall now).1 = .ok () ↔ (failures : ℤ) < n ∨ ∃ t, last = some t ∧ T ≤ Double.sub now t := by
  rcases b.beforeCall_cases now with
    ⟨hclosed, heq⟩ | ⟨t, hopened, hat, helapsed, heq⟩ | ⟨error, heq, hstate⟩
  · rw [heq]
    exact iff_of_true rfl (.inl (h.of_closed hclosed).2)
  · rw [heq]
    obtain ⟨-, -, t', hat', hlast⟩ := h.of_not_closed (by rw [hopened]; simp)
    rw [hat] at hat'
    rw [h.timeout] at helapsed
    exact iff_of_true rfl (.inr ⟨t, by rw [hlast, hat'], helapsed⟩)
  · obtain ⟨hopened, hwait⟩ := hstate.resolve_left hhalf
    obtain ⟨-, hn, t, hat, hlast⟩ := h.of_not_closed (by rw [hopened]; simp)
    rw [heq]
    refine iff_of_false (by simp) ?_
    rintro (hlt | ⟨t', ht', helapsed⟩)
    · omega
    · rw [hlast] at ht'
      cases ht'
      have := hwait t hat
      rw [h.timeout] at this
      linarith

end History
end CircuitBreaker
end TaskApi
