/-
# Interleaved runs of programs

A system has a shared state, what each call does to it in one atomic step, the
moves of its environment, and a program for each request. A run starts requests
at any time, any number of them, and lets one pending call after another take
its step, in any order. The trace keeps every event with the states around it,
newest first; what a run did is a statement about its trace.

`Run.invariant` is the induction over runs. What it knows of the thread that
takes a step is the call, the request, and that the thread's protocol
(`Prog.Follows`) allows the call in the phase the thread's own past led to. So
an invariant over all interleavings needs no program counters: the protocol is
checked once on the program text, the invariant on states and traces.

Key definitions: `System`, `Event`, `Config`, `Step`, `Run`, `Latest`, `Discipline`.
Key theorems: `Run.follows`, `Run.made`, `Run.invariant`, `Run.phase_made`,
`Run.phase_invariant`, `Run.pairwise`, `Run.exists_quiet`, `Sequential.since`.
-/
import TaskApi.Lib.Prog
import Mathlib.Logic.Relation
import Mathlib.Logic.Function.Basic

namespace Conc

/-- A shared state, the atomic effect of each call on it, what the environment
may do in between, and the programs that are run. -/
structure System (I : Interface) where
  State : Type
  step (c : I.Call) : State → I.Out c → State → Prop
  env : State → State → Prop
  Req : Type
  Res : Type
  body : Req → Prog I Res

variable {I : Interface}

/-- What thread `t` did. -/
inductive Act (S : System I) where
  | start (t : ℕ) (r : S.Req)
  | call (t : ℕ) (c : I.Call) (v : I.Out c)

/-- The thread of an act. -/
def Act.thread {S : System I} : Act S → ℕ
  | .start t _ => t
  | .call t _ _ => t

/-- The call of an act. -/
def Act.called {S : System I} : Act S → Option I.Call
  | .start _ _ => none
  | .call _ c _ => some c

/-- The act is a call that raised. -/
def Act.raised {S : System I} : Act S → Bool
  | .call _ _ (.error _) => true
  | _ => false

/-- An act, and the shared state before and after it. -/
structure Event (S : System I) where
  before : S.State
  after : S.State
  act : Act S

/-- A moment of a run: the shared state, the events so far (newest first), and
each started thread's request with what is left of its program. -/
structure Config (S : System I) where
  state : S.State
  trace : List (Event S)
  pool : ℕ → Option (S.Req × Prog I S.Res)

variable {S : System I}

namespace Config

/-- Nothing has been requested yet. -/
def init (s : S.State) : Config S := ⟨s, [], fun _ => none⟩

/-- How thread `t` ended, once it has. -/
def result (c : Config S) (t : ℕ) : Option (Except I.Err S.Res) :=
  (c.pool t).bind fun p => p.2.result

/-- Thread `t` has started and not ended. -/
def Running (c : Config S) (t : ℕ) : Prop := (c.pool t).isSome ∧ c.result t = none

instance (c : Config S) (t : ℕ) : Decidable (c.Running t) :=
  decidable_of_iff ((c.pool t).isSome ∧ (c.result t).isNone) (and_congr_right' Option.isNone_iff_eq_none)

/-- Every started thread has ended. -/
def Quiet (c : Config S) : Prop := ∀ t, ¬ c.Running t

end Config

/-- One step of a run. A request may start where `gate` lets it. -/
inductive Step (gate : Config S → Prop) : Config S → Config S → Prop
  | start {c : Config S} (t : ℕ) (r : S.Req) (hg : gate c) (hn : c.pool t = none) :
      Step gate c ⟨c.state, ⟨c.state, c.state, .start t r⟩ :: c.trace,
        Function.update c.pool t (some (r, S.body r))⟩
  | call {c : Config S} (t : ℕ) (r : S.Req) (x : I.Call) (k : I.Out x → Prog I S.Res)
      (v : I.Out x) (s' : S.State) (hp : c.pool t = some (r, .call x k)) (hs : S.step x c.state v s') :
      Step gate c ⟨s', ⟨c.state, s', .call t x v⟩ :: c.trace,
        Function.update c.pool t (some (r, k v))⟩
  | env {c : Config S} (s' : S.State) (he : S.env c.state s') : Step gate c ⟨s', c.trace, c.pool⟩

/-- Any number of steps. -/
abbrev Run (gate : Config S → Prop) : Config S → Config S → Prop := Relation.ReflTransGen (Step gate)

/-- Requests start at any time: every interleaving. -/
abbrev Interleaved : Config S → Config S → Prop := Run fun _ => True

/-- A request starts only when all earlier ones have ended. -/
abbrev Sequential : Config S → Config S → Prop := Run Config.Quiet

/-! ### Requests and results -/

/-- Thread `t` was started with request `r`. -/
def Requested (t : ℕ) (r : S.Req) (tr : List (Event S)) : Prop :=
  ∃ s, (⟨s, s, .start t r⟩ : Event S) ∈ tr

theorem Requested.cons {t : ℕ} {r : S.Req} {tr : List (Event S)} (h : Requested t r tr)
    (e : Event S) : Requested t r (e :: tr) :=
  h.imp fun _ hm => List.mem_cons_of_mem _ hm

theorem Requested.append {t : ℕ} {r : S.Req} {tr : List (Event S)} (h : Requested t r tr)
    (u : List (Event S)) : Requested t r (u ++ tr) :=
  h.imp fun _ hm => List.mem_append_right _ hm

/-- The threads that were started, with their requests. -/
def starts : List (Event S) → List (ℕ × S.Req)
  | [] => []
  | ⟨_, _, .start t r⟩ :: tr => (t, r) :: starts tr
  | ⟨_, _, .call _ _ _⟩ :: tr => starts tr

theorem Requested.mem_starts {t : ℕ} {r : S.Req} : ∀ {tr : List (Event S)},
    Requested t r tr → (t, r) ∈ starts tr
  | [], ⟨_, h⟩ => by cases h
  | ⟨_, _, .start t' r'⟩ :: tr, ⟨s, h⟩ => by
    rcases List.mem_cons.mp h with h | h
    · cases h
      exact List.mem_cons_self
    · exact List.mem_cons_of_mem _ (mem_starts ⟨s, h⟩)
  | ⟨_, _, .call _ _ _⟩ :: tr, ⟨s, h⟩ => by
    rcases List.mem_cons.mp h with h | h
    · cases h
    · exact (show Requested t r tr from ⟨s, h⟩).mem_starts

@[simp] theorem requested_start {t t' : ℕ} {r r' : S.Req} {s s' : S.State} {tr : List (Event S)} :
    Requested t r (⟨s, s', .start t' r'⟩ :: tr) ↔ (s' = s ∧ t = t' ∧ r = r') ∨ Requested t r tr := by
  constructor
  · rintro ⟨s₀, hs⟩
    rcases List.mem_cons.mp hs with hs | hs
    · cases hs
      exact .inl ⟨rfl, rfl, rfl⟩
    · exact .inr ⟨s₀, hs⟩
  · rintro (⟨rfl, rfl, rfl⟩ | h)
    · exact ⟨_, List.mem_cons_self⟩
    · exact h.cons _

@[simp] theorem requested_call {t t' : ℕ} {r : S.Req} {c : I.Call} {v : I.Out c} {s s' : S.State}
    {tr : List (Event S)} : Requested t r (⟨s, s', .call t' c v⟩ :: tr) ↔ Requested t r tr :=
  ⟨fun ⟨s₀, hs⟩ => ⟨s₀, (List.mem_cons.mp hs).resolve_left (by simp)⟩, fun h => h.cons _⟩

variable {gate : Config S → Prop} {s₀ : S.State}

/-- The pool and the trace agree on who was started with what, and only started
threads have acted. -/
theorem Run.pool_trace {c : Config S} (h : Run gate (.init s₀) c) :
    (∀ t r p, c.pool t = some (r, p) → Requested t r c.trace) ∧
    (∀ t r, Requested t r c.trace → ∃ p, c.pool t = some (r, p)) ∧
    (∀ e ∈ c.trace, (c.pool e.act.thread).isSome) := by
  induction h with
  | refl =>
    refine ⟨fun t r p hp => ?_, fun t r ⟨s, hs⟩ => ?_, fun e he => ?_⟩
    · cases hp
    · cases hs
    · cases he
  | tail _ hs ih =>
    obtain ⟨i1, i2, i3⟩ := ih
    cases hs with
    | start t r hg hn =>
      refine ⟨fun t' r' p hp => ?_, fun t' r' ⟨s, hs⟩ => ?_, fun e he => ?_⟩
      · by_cases ht : t' = t
        · subst ht
          simp only [Function.update_self, Option.some.injEq, Prod.mk.injEq] at hp
          exact ⟨_, by rw [← hp.1]; exact List.mem_cons_self⟩
        · simp only [Function.update_of_ne ht] at hp
          exact (i1 t' r' p hp).cons _
      · rcases List.mem_cons.mp hs with hs | hs
        · simp only [Event.mk.injEq, Act.start.injEq] at hs
          obtain ⟨-, -, rfl, rfl⟩ := hs
          exact ⟨S.body r', by simp⟩
        · obtain ⟨p, hp⟩ := i2 t' r' ⟨s, hs⟩
          have ht : t' ≠ t := by rintro rfl; rw [hn] at hp; cases hp
          exact ⟨p, by simpa [Function.update_of_ne ht] using hp⟩
      · rcases List.mem_cons.mp he with rfl | he
        · simp [Act.thread]
        · have := i3 e he
          by_cases ht : e.act.thread = t
          · simp [ht]
          · simpa [Function.update_of_ne ht] using this
    | call t r x k v s' hp hs =>
      refine ⟨fun t' r' p hp' => ?_, fun t' r' ⟨s, hs⟩ => ?_, fun e he => ?_⟩
      · by_cases ht : t' = t
        · subst ht
          simp only [Function.update_self, Option.some.injEq, Prod.mk.injEq] at hp'
          rw [← hp'.1]
          exact (i1 _ _ _ hp).cons _
        · simp only [Function.update_of_ne ht] at hp'
          exact (i1 t' r' p hp').cons _
      · have hs' := (List.mem_cons.mp hs).resolve_left (by simp)
        obtain ⟨p, hp'⟩ := i2 t' r' ⟨s, hs'⟩
        by_cases ht : t' = t
        · subst ht
          rw [hp] at hp'
          simp only [Option.some.injEq, Prod.mk.injEq] at hp'
          exact ⟨k v, by simp [hp'.1]⟩
        · exact ⟨p, by simpa [Function.update_of_ne ht] using hp'⟩
      · rcases List.mem_cons.mp he with rfl | he
        · simp [Act.thread]
        · have := i3 e he
          by_cases ht : e.act.thread = t
          · simp [ht]
          · simpa [Function.update_of_ne ht] using this
    | env s' he => exact ⟨i1, i2, i3⟩

theorem Run.requested {c : Config S} (h : Run gate (.init s₀) c) {t : ℕ} {r : S.Req}
    (ht : (c.pool t).map (·.1) = some r) : Requested t r c.trace := by
  obtain ⟨⟨r', p⟩, hp, rfl⟩ := Option.map_eq_some_iff.mp ht
  exact h.pool_trace.1 t r' p hp

/-- A thread that has ended was started. -/
theorem Run.ended_requested {c : Config S} (h : Run gate (.init s₀) c) {t : ℕ} {x : Except I.Err S.Res}
    (hx : c.result t = some x) : ∃ r, Requested t r c.trace := by
  obtain ⟨⟨r, p⟩, hp, -⟩ := Option.bind_eq_some_iff.mp hx
  exact ⟨r, h.pool_trace.1 t r p hp⟩

/-- A thread that has acted was started. -/
theorem Run.acted {c : Config S} (h : Run gate (.init s₀) c) {e : Event S} (he : e ∈ c.trace) :
    ∃ r, Requested e.act.thread r c.trace := by
  obtain ⟨⟨r, p⟩, hp⟩ := Option.isSome_iff_exists.mp (h.pool_trace.2.2 e he)
  exact ⟨r, h.pool_trace.1 _ r p hp⟩

/-- A started thread that is not running has ended. -/
theorem Run.ended {c : Config S} (h : Run gate (.init s₀) c) {t : ℕ} {r : S.Req}
    (hr : Requested t r c.trace) (ht : ¬ c.Running t) : ∃ x, c.result t = some x := by
  obtain ⟨p, hp⟩ := h.pool_trace.2.1 t r hr
  by_contra hnone
  refine ht ⟨by rw [hp]; rfl, Option.eq_none_iff_forall_not_mem.mpr fun x hx => hnone ⟨x, hx⟩⟩

/-- A thread that has ended stays as it is. -/
theorem Run.result_stable {c c' : Config S} (h : Run gate c c') {t : ℕ} {x : Except I.Err S.Res}
    (hx : c.result t = some x) : c'.result t = some x := by
  induction h with
  | refl => exact hx
  | @tail b d _ hs ih =>
    cases hs with
    | start t' r hg hn =>
      by_cases ht : t = t'
      · subst ht
        rw [Config.result, hn] at ih
        cases ih
      · simpa [Config.result, Function.update_of_ne ht] using ih
    | call t' r y k v s' hp hs =>
      by_cases ht : t = t'
      · subst ht
        rw [Config.result, hp] at ih
        cases ih
      · simpa [Config.result, Function.update_of_ne ht] using ih
    | env s' he => exact ih

/-- A thread that has not started has not acted. -/
theorem Run.not_acted {c : Config S} (h : Run gate (.init s₀) c) {t : ℕ} (ht : c.pool t = none) :
    ∀ e ∈ c.trace, e.act.thread ≠ t := fun e he hte => by
  have := h.pool_trace.2.2 e he
  rw [hte, ht] at this
  cases this

/-- A thread has one request. -/
theorem Run.requested_unique {c : Config S} (h : Run gate (.init s₀) c) {t : ℕ} {r r' : S.Req}
    (h1 : Requested t r c.trace) (h2 : Requested t r' c.trace) : r = r' := by
  obtain ⟨-, i2, -⟩ := h.pool_trace
  obtain ⟨p, hp⟩ := i2 t r h1
  obtain ⟨p', hp'⟩ := i2 t r' h2
  rw [hp] at hp'
  simp only [Option.some.injEq, Prod.mk.injEq] at hp'
  exact hp'.1

/-! ### The past of a run -/

theorem Step.trace_suffix {c c' : Config S} (h : Step gate c c') :
    c'.trace = c.trace ∨ ∃ e, c'.trace = e :: c.trace ∧ e.before = c.state ∧ e.after = c'.state := by
  cases h with
  | start t r hg hn => exact .inr ⟨_, rfl, rfl, rfl⟩
  | call t r x k v s' hp hs => exact .inr ⟨_, rfl, rfl, rfl⟩
  | env s' he => exact .inl rfl

theorem Run.trace_suffix {c c' : Config S} (h : Run gate c c') : ∃ u, c'.trace = u ++ c.trace := by
  induction h with
  | refl => exact ⟨[], rfl⟩
  | tail _ hs ih =>
    obtain ⟨u, hu⟩ := ih
    rcases hs.trace_suffix with h | ⟨e, h, -⟩
    · exact ⟨u, h.trans hu⟩
    · exact ⟨e :: u, by rw [h, hu]; rfl⟩

/-- Every event was the step from one moment of the run to another. -/
theorem Run.split {c : Config S} (h : Run gate (.init s₀) c) {u tr : List (Event S)} {e : Event S}
    (he : c.trace = u ++ e :: tr) :
    ∃ c₁ c₂, Run gate (.init s₀) c₁ ∧ Step gate c₁ c₂ ∧ Run gate c₂ c ∧ c₁.trace = tr ∧
      c₁.state = e.before ∧ c₂.state = e.after ∧ c₂.trace = e :: tr := by
  induction h generalizing u with
  | refl => simp [Config.init] at he
  | @tail b d hb hs ih =>
    rcases hs.trace_suffix with h | ⟨e', h, h1, h2⟩
    · obtain ⟨c₁, c₂, r1, r2, r3, r4⟩ := ih (h.symm.trans he)
      exact ⟨c₁, c₂, r1, r2, r3.tail hs, r4⟩
    · cases u with
      | nil =>
        rw [h, List.nil_append, List.cons.injEq] at he
        obtain ⟨rfl, ht⟩ := he
        exact ⟨b, d, hb, hs, .refl, ht, h1.symm, h2.symm, by rw [h, ht]⟩
      | cons a u =>
        rw [h, List.cons_append, List.cons.injEq] at he
        obtain ⟨c₁, c₂, r1, r2, r3, r4⟩ := ih he.2
        exact ⟨c₁, c₂, r1, r2, r3.tail hs, r4⟩

/-- A start changes no state. -/
theorem Run.started {c : Config S} (h : Run gate (.init s₀) c) {u tr : List (Event S)} {s s' : S.State}
    {t : ℕ} {r : S.Req} (he : c.trace = u ++ ⟨s, s', .start t r⟩ :: tr) : s' = s := by
  obtain ⟨b, d, -, hs, -, rfl, rfl, rfl, htr⟩ := Run.split h he
  cases hs with
  | start t' r' hg hn => rfl
  | call t' r' x k v s' hp hs => simp at htr
  | env s' he' => exact absurd (congrArg List.length htr) (by simp)

/-- A thread has not acted before it starts. -/
theorem Run.start_fresh {c : Config S} (h : Run gate (.init s₀) c) {u tr : List (Event S)} {s s' : S.State}
    {t : ℕ} {r : S.Req} (he : c.trace = u ++ ⟨s, s', .start t r⟩ :: tr) : ∀ e ∈ tr, e.act.thread ≠ t := by
  obtain ⟨b, d, hb, hs, -, rfl, rfl, rfl, htr⟩ := Run.split h he
  cases hs with
  | start t' r' hg hn =>
    cases htr
    exact Run.not_acted hb hn
  | call t' r' x k v s' hp hs => cases htr
  | env s' he' => exact absurd (congrArg List.length htr) (by simp)

/-- A call in the trace was made by a running thread. -/
theorem Run.caller {c : Config S} (h : Run gate (.init s₀) c) {u tr : List (Event S)} {s s' : S.State}
    {t : ℕ} {x : I.Call} {v : I.Out x} (he : c.trace = u ++ ⟨s, s', .call t x v⟩ :: tr) :
    ∃ b, Run gate (.init s₀) b ∧ Run gate b c ∧ b.state = s ∧ b.trace = tr ∧ b.Running t := by
  obtain ⟨b, d, hb, hs, hd, rfl, rfl, -, htr⟩ := Run.split h he
  refine ⟨b, hb, Relation.ReflTransGen.head hs hd, rfl, rfl, ?_⟩
  cases hs with
  | start t' r' hg hn => simp at htr
  | call t' r x' k v' s'' hp hs =>
    simp only [List.cons.injEq, Event.mk.injEq, Act.call.injEq, and_true, true_and] at htr
    obtain ⟨-, rfl, -⟩ := htr
    simp [Config.Running, Config.result, hp, Prog.result]
  | env s'' he' => exact absurd (congrArg List.length htr) (by simp)

/-- A thread starts once. -/
theorem Run.start_unique {c : Config S} (h : Run gate (.init s₀) c) {u u' tr tr' : List (Event S)} {s s' x x' : S.State}
    {t : ℕ} {r r' : S.Req} (he : c.trace = u ++ ⟨s, s', .start t r⟩ :: tr)
    (he' : c.trace = u' ++ ⟨x, x', .start t r'⟩ :: tr') : tr = tr' := by
  have hfresh := Run.start_fresh h he
  have hfresh' := Run.start_fresh h he'
  rcases List.append_eq_append_iff.mp (he.symm.trans he') with ⟨w, rfl, hw⟩ | ⟨w, rfl, hw⟩
  · cases w with
    | nil => exact (List.cons.inj hw).2
    | cons e w =>
      obtain ⟨-, rfl⟩ := List.cons.inj hw
      exact absurd rfl (hfresh _ (List.mem_append_right _ List.mem_cons_self))
  · cases w with
    | nil => exact (List.cons.inj hw).2.symm
    | cons e w =>
      obtain ⟨-, rfl⟩ := List.cons.inj hw
      exact absurd rfl (hfresh' _ (List.mem_append_right _ List.mem_cons_self))

/-- What every step does to the state, any later state has over any earlier one. -/
theorem Run.pairwise {R : S.State → S.State → Prop} (hrefl : ∀ s, R s s) (htrans : ∀ {s s' s''}, R s s' → R s' s'' → R s s'')
    (hcall : ∀ {x s v s'}, S.step x s v s' → R s s') (henv : ∀ {s s'}, S.env s s' → R s s') {c : Config S}
    (h : Run gate (.init s₀) c) :
    c.trace.Pairwise (fun e e' => R e'.before e.before) ∧ ∀ e ∈ c.trace, R e.before c.state := by
  induction h with
  | refl => exact ⟨.nil, fun e he => by cases he⟩
  | tail _ hs ih =>
    obtain ⟨ih, hlast⟩ := ih
    cases hs with
    | start t r hg hn =>
      refine ⟨List.pairwise_cons.mpr ⟨hlast, ih⟩, fun e he => ?_⟩
      rcases List.mem_cons.mp he with rfl | he
      · exact hrefl _
      · exact hlast e he
    | call t r x k v s' hp hs =>
      refine ⟨List.pairwise_cons.mpr ⟨hlast, ih⟩, fun e he => ?_⟩
      rcases List.mem_cons.mp he with rfl | he
      · exact hcall hs
      · exact htrans (hlast e he) (hcall hs)
    | env s' he' => exact ⟨ih, fun e he => htrans (hlast e he) (henv he')⟩

/-! ### Runs from a schedule

A schedule names the threads in the order in which they move; `serve` decides
how the calls come back. Runs on concrete inputs are built this way. -/

/-- A thread starts, or its next call takes its step. -/
inductive Move (S : System I) where
  | start (t : ℕ) (r : S.Req)
  | call (t : ℕ)

/-- The configuration after a move; a move that is not possible changes nothing. -/
def Config.advance (serve : (c : I.Call) → S.State → I.Out c × S.State) (c : Config S) :
    Move S → Config S
  | .start t r =>
    match c.pool t with
    | none => ⟨c.state, ⟨c.state, c.state, .start t r⟩ :: c.trace,
        Function.update c.pool t (some (r, S.body r))⟩
    | some _ => c
  | .call t =>
    match c.pool t with
    | some (r, .call x k) => ⟨(serve x c.state).2, ⟨c.state, (serve x c.state).2, .call t x (serve x c.state).1⟩ ::
        c.trace, Function.update c.pool t (some (r, k (serve x c.state).1))⟩
    | _ => c

/-- The configuration after a schedule. -/
def Config.schedule (serve : (c : I.Call) → S.State → I.Out c × S.State) (c : Config S)
    (ms : List (Move S)) : Config S := ms.foldl (Config.advance serve) c

section Schedule

variable {serve : (c : I.Call) → S.State → I.Out c × S.State}

theorem Run.call (hserve : ∀ x s, S.step x s (serve x s).1 (serve x s).2) (c : Config S) (t : ℕ) :
    Run gate c (c.advance serve (.call t)) := by
  unfold Config.advance
  dsimp only
  split
  · rename_i r x k hp
    exact .single (.call t r x k _ _ hp (hserve x c.state))
  · exact .refl

theorem Run.start (c : Config S) (hg : gate c) (t : ℕ) (r : S.Req) :
    Run gate c (c.advance serve (.start t r)) := by
  unfold Config.advance
  dsimp only
  split
  · rename_i hp
    exact .single (.start t r hg hp)
  · exact .refl

/-- Calls of started threads can be scheduled whatever the gate is. -/
theorem Run.calls (hserve : ∀ x s, S.step x s (serve x s).1 (serve x s).2) (c : Config S) (ts : List ℕ) :
    Run gate c (c.schedule serve (ts.map .call)) := by
  induction ts generalizing c with
  | nil => exact .refl
  | cons t ts ih => exact (Run.call hserve c t).trans (ih _)

theorem Interleaved.schedule (hserve : ∀ x s, S.step x s (serve x s).1 (serve x s).2) (c : Config S)
    (ms : List (Move S)) : Interleaved c (c.schedule serve ms) := by
  induction ms generalizing c with
  | nil => exact .refl
  | cons m ms ih =>
    refine Relation.ReflTransGen.trans ?_ (ih _)
    cases m with
    | start t r => exact Run.start c trivial t r
    | call t => exact Run.call hserve c t

end Schedule

/-! ### The latest event of a kind -/

/-- Of two ways to cut a list, an element that is not in the second tail is in
the second front part. -/
theorem append_cons_eq_append {α : Type} {l v u w : List α} {a : α} (h : l ++ a :: v = u ++ w)
    (ha : a ∉ w) : ∃ m, u = l ++ a :: m ∧ v = m ++ w := by
  rcases List.append_eq_append_iff.mp h with ⟨m, hu, hm⟩ | ⟨m, -, hm⟩
  · cases m with
    | nil =>
      rw [List.nil_append] at hm
      exact absurd (hm ▸ List.mem_cons_self) ha
    | cons b m =>
      rw [List.cons_append, List.cons.injEq] at hm
      exact ⟨m, by rw [hu, hm.1], hm.2⟩
  · exact absurd (hm ▸ List.mem_append_right _ List.mem_cons_self) ha

/-- In `l`, newest first, `a` is the latest with `p`: `u` came after it, `v`
before it. -/
structure Latest {α : Type} (p : α → Prop) (l u : List α) (a : α) (v : List α) : Prop where
  eq : l = u ++ a :: v
  prop : p a
  none_since : ∀ b ∈ u, ¬ p b

section Latest

variable {α : Type} {p : α → Prop} {l u v w : List α} {a b : α}

theorem Latest.head (h : p a) : Latest p (a :: l) [] a l := ⟨rfl, h, by simp⟩

theorem Latest.cons (h : Latest p l u a v) (hb : ¬ p b) : Latest p (b :: l) (b :: u) a v :=
  ⟨by rw [h.eq]; rfl, h.prop, by simpa [hb] using h.none_since⟩

theorem latest_cons : Latest p (b :: l) w a v ↔
    (p b ∧ w = [] ∧ a = b ∧ v = l) ∨ (¬ p b ∧ ∃ u, w = b :: u ∧ Latest p l u a v) := by
  constructor
  · rintro ⟨heq, ha, hu⟩
    cases w with
    | nil =>
      simp only [List.nil_append, List.cons.injEq] at heq
      obtain ⟨rfl, rfl⟩ := heq
      exact .inl ⟨ha, rfl, rfl, rfl⟩
    | cons c w =>
      simp only [List.cons_append, List.cons.injEq] at heq
      obtain ⟨rfl, rfl⟩ := heq
      exact .inr ⟨hu _ List.mem_cons_self, w, rfl, rfl, ha, fun c hc => hu c (List.mem_cons_of_mem _ hc)⟩
  · rintro (⟨h, rfl, rfl, rfl⟩ | ⟨h, u, rfl, hl⟩)
    · exact .head h
    · exact hl.cons h

theorem Latest.append (h : Latest p l u a v) (w : List α) : Latest p (l ++ w) u a (v ++ w) :=
  ⟨by rw [h.eq, List.append_assoc, List.cons_append], h.prop, h.none_since⟩

theorem Latest.dropWhile [DecidablePred p] (h : Latest p l u a v) :
    l.dropWhile (fun b => !decide (p b)) = a :: v := by
  obtain ⟨rfl, ha, hu⟩ := h
  induction u with
  | nil => simp [ha]
  | cons b u ih =>
    simp only [List.mem_cons, forall_eq_or_imp] at hu
    simp [hu.1, ih hu.2]

theorem exists_latest (h : ∃ a ∈ l, p a) : ∃ u a v, Latest p l u a v := by
  classical
  induction l with
  | nil => simp at h
  | cons b l ih =>
    by_cases hb : p b
    · exact ⟨[], b, l, .head hb⟩
    · obtain ⟨u, a, v, hl⟩ := ih (by simpa [hb] using h)
      exact ⟨b :: u, a, v, hl.cons hb⟩

end Latest

/-! ### Threads that follow a protocol -/

/-- The phase thread `t` is in: where its own calls have led its automaton. -/
def phase (A : Automaton I) (t : ℕ) : List (Event S) → A.Phase
  | [] => A.init
  | ⟨_, _, .start _ _⟩ :: tr => phase A t tr
  | ⟨_, _, .call t' c v⟩ :: tr => if t' = t then A.next (phase A t tr) c v else phase A t tr

@[simp] theorem phase_start (A : Automaton I) (t t' : ℕ) (r : S.Req) (s s' : S.State)
    (tr : List (Event S)) : phase A t (⟨s, s', .start t' r⟩ :: tr) = phase A t tr := rfl

@[simp] theorem phase_call_self (A : Automaton I) (t : ℕ) (c : I.Call) (v : I.Out c) (s s' : S.State)
    (tr : List (Event S)) :
    phase A t (⟨s, s', .call t c v⟩ :: tr) = A.next (phase A t tr) c v := by
  simp [phase]

theorem phase_call_ne (A : Automaton I) {t t' : ℕ} (h : t' ≠ t) (c : I.Call) (v : I.Out c)
    (s s' : S.State) (tr : List (Event S)) :
    phase A t (⟨s, s', .call t' c v⟩ :: tr) = phase A t tr := by
  simp [phase, h]

/-- The phases of all threads after a call of one of them. -/
theorem phase_call (A : Automaton I) (t : ℕ) (c : I.Call) (v : I.Out c) (s s' : S.State)
    (tr : List (Event S)) : (fun t' => phase A t' (⟨s, s', .call t c v⟩ :: tr)) =
      Function.update (fun t' => phase A t' tr) t (A.next (phase A t tr) c v) := by
  funext t'
  by_cases h : t' = t
  · subst h
    rw [phase_call_self, Function.update_self]
  · rw [phase_call_ne A (Ne.symm h), Function.update_of_ne h]

theorem phase_eq_init (A : Automaton I) {t : ℕ} : ∀ {tr : List (Event S)},
    (∀ e ∈ tr, e.act.thread ≠ t) → phase A t tr = A.init
  | [], _ => rfl
  | ⟨_, _, .start _ _⟩ :: _, h => by
    rw [phase_start]
    exact phase_eq_init A fun e he => h e (List.mem_cons_of_mem _ he)
  | ⟨_, _, .call t' c v⟩ :: _, h => by
    rw [phase_call_ne A (show t' ≠ t from h _ List.mem_cons_self)]
    exact phase_eq_init A fun e he => h e (List.mem_cons_of_mem _ he)

/-- Events of other threads leave the phase as it is. -/
theorem phase_append {A : Automaton I} {t : ℕ} {tr : List (Event S)} :
    ∀ {u : List (Event S)}, (∀ e ∈ u, e.act.thread ≠ t) → phase A t (u ++ tr) = phase A t tr
  | [], _ => rfl
  | ⟨_, _, .start _ _⟩ :: _, h => by
    rw [List.cons_append, phase_start]
    exact phase_append fun e he => h e (List.mem_cons_of_mem _ he)
  | ⟨_, _, .call t' c v⟩ :: _, h => by
    rw [List.cons_append, phase_call_ne A (show t' ≠ t from h _ List.mem_cons_self)]
    exact phase_append fun e he => h e (List.mem_cons_of_mem _ he)

/-- What a phase has and the first one has not came with a call of the thread. -/
theorem phase_became {A : Automaton I} {t : ℕ} {P : A.Phase → Prop} (h0 : ¬ P A.init) :
    ∀ {tr : List (Event S)}, P (phase A t tr) → ∃ u s s' c v tr',
      tr = u ++ ⟨s, s', .call t c v⟩ :: tr' ∧ ¬ P (phase A t tr') ∧ P (A.next (phase A t tr') c v)
  | [], h => absurd h h0
  | ⟨s, s', .start t' r⟩ :: tr, h => by
    obtain ⟨u, s₁, s₂, c, v, tr', rfl, h1, h2⟩ := phase_became h0 (phase_start A t t' r s s' tr ▸ h)
    exact ⟨_ :: u, s₁, s₂, c, v, tr', rfl, h1, h2⟩
  | ⟨s, s', .call t' c v⟩ :: tr, h => by
    by_cases hP : P (phase A t tr)
    · obtain ⟨u, s₁, s₂, c', v', tr', rfl, h1, h2⟩ := phase_became h0 hP
      exact ⟨_ :: u, s₁, s₂, c', v', tr', rfl, h1, h2⟩
    · by_cases ht : t' = t
      · subst ht
        rw [phase_call_self] at h
        exact ⟨[], s, s', c, v, tr, rfl, hP, h⟩
      · rw [phase_call_ne A ht] at h
        exact absurd h hP

/-- What no call of the thread undoes stays so. -/
theorem phase_stable {A : Automaton I} {t : ℕ} {P : A.Phase → Prop}
    (hP : ∀ q c v, P q → P (A.next q c v)) {tr : List (Event S)} (h : P (phase A t tr)) :
    ∀ u : List (Event S), P (phase A t (u ++ tr))
  | [] => h
  | ⟨_, _, .start _ _⟩ :: u => phase_stable hP h u
  | ⟨s, s', .call t' c v⟩ :: u => by
    have ih := phase_stable hP h u
    by_cases ht : t' = t
    · subst ht
      rw [List.cons_append, phase_call_self]
      exact hP _ c v ih
    · rwa [List.cons_append, phase_call_ne A ht]

/-- What a call of the thread made so stays so. -/
theorem phase_of_call {A : Automaton I} {t : ℕ} {P : A.Phase → Prop}
    (hP : ∀ q c v, P q → P (A.next q c v)) {tr : List (Event S)} {e : Event S} (he : e ∈ tr) {c : I.Call}
    {v : I.Out c} (hact : e.act = .call t c v) (h : ∀ q, P (A.next q c v)) : P (phase A t tr) := by
  obtain ⟨u, tr', rfl⟩ := List.append_of_mem he
  rcases e with ⟨s, s', act⟩
  subst hact
  refine phase_stable hP ?_ u
  rw [phase_call_self]
  exact h _

/-- The call `c` can come back with `v`. -/
def System.Can (S : System I) (c : I.Call) (v : I.Out c) : Prop := ∃ s s', S.step c s v s'

/-- A protocol for each request of the system, which the request's program
follows; `final` is what it ends in. -/
structure Discipline (S : System I) where
  protocol : S.Req → Protocol I
  final (r : S.Req) : (protocol r).Phase → Except I.Err S.Res → Prop
  follows (r : S.Req) : (S.body r).Follows (protocol r) S.Can (final r) (protocol r).init

/-- What is left of a thread's program still follows its protocol. -/
theorem Run.follows (D : Discipline S) {c : Config S} (h : Run gate (.init s₀) c) {t : ℕ} {r : S.Req}
    {p : Prog I S.Res} (hp : c.pool t = some (r, p)) :
    p.Follows (D.protocol r) S.Can (D.final r) (phase (D.protocol r).toAutomaton t c.trace) := by
  induction h generalizing t r p with
  | refl => cases hp
  | @tail b d hb hs ih =>
    cases hs with
    | start t' r' hg hn =>
      by_cases ht : t = t'
      · subst ht
        simp only [Function.update_self, Option.some.injEq, Prod.mk.injEq] at hp
        obtain ⟨rfl, rfl⟩ := hp
        rw [phase_start, phase_eq_init]
        · exact D.follows _
        · exact Run.not_acted hb hn
      · simp only [Function.update_of_ne ht] at hp
        exact ih hp
    | call t' r' x k v s' hp' hs =>
      by_cases ht : t = t'
      · subst ht
        simp only [Function.update_self, Option.some.injEq, Prod.mk.injEq] at hp
        obtain ⟨rfl, rfl⟩ := hp
        rw [phase_call_self]
        exact (ih hp').2 v ⟨_, _, hs⟩
      · simp only [Function.update_of_ne ht] at hp
        rw [phase_call_ne _ (Ne.symm ht)]
        exact ih hp
    | env s' he => exact ih hp

/-- Every call of a trace was a step that its thread's protocol allowed, from a
moment of the run. -/
theorem Run.made (D : Discipline S) {c : Config S} (h : Run gate (.init s₀) c) {u tr : List (Event S)}
    {s s' : S.State} {t : ℕ} {x : I.Call} {v : I.Out x}
    (he : c.trace = u ++ ⟨s, s', .call t x v⟩ :: tr) :
    ∃ b r, Run gate (.init s₀) b ∧ b.state = s ∧ b.trace = tr ∧ b.Running t ∧ Requested t r tr ∧
      (∀ r', Requested t r' c.trace → r' = r) ∧
      (D.protocol r).allows (phase (D.protocol r).toAutomaton t tr) x ∧ S.step x s v s' := by
  obtain ⟨b, d, hb, hs, -, rfl, rfl, hd, htr⟩ := Run.split h he
  cases hs with
  | start t' r' hg hn => simp at htr
  | call t' r x' k v' s'' hp hs =>
    simp only [List.cons.injEq, Event.mk.injEq, Act.call.injEq, and_true, true_and] at htr
    obtain ⟨rfl, rfl, rfl, hv⟩ := htr
    cases hv
    have hrun : b.Running t' := by simp [Config.Running, Config.result, hp, Prog.result]
    have hr := (Run.pool_trace hb).1 t' r _ hp
    exact ⟨b, r, hb, rfl, rfl, hrun, hr, fun r' h' => h.requested_unique h' (he ▸ (hr.cons _).append u),
      (Run.follows D hb hp).1, hs⟩
  | env s'' he =>
    exfalso
    have := congrArg List.length htr
    simp at this

/-- A thread that has ended, ended as its protocol says. -/
theorem Run.final (D : Discipline S) {c : Config S} (h : Run gate (.init s₀) c) {t : ℕ} {r : S.Req}
    {x : Except I.Err S.Res} (hr : Requested t r c.trace) (hx : c.result t = some x) :
    D.final r (phase (D.protocol r).toAutomaton t c.trace) x := by
  obtain ⟨p, hp⟩ := h.pool_trace.2.1 t r hr
  have hf := h.follows D hp
  simp only [Config.result, hp, Option.bind_some] at hx
  cases p with
  | ret a =>
    cases hx
    exact hf
  | raise e =>
    cases hx
    exact hf
  | call c k => cases hx

/-- **The induction over runs.** An invariant of the state and the trace holds
throughout if it holds at first and is kept, from every moment of a run, by a
new thread starting, by every call a running thread's protocol allows, and by
the environment. -/
theorem Run.invariant (D : Discipline S) {Inv : S.State → List (Event S) → Prop} (init : Inv s₀ [])
    (start : ∀ b, Run gate (.init s₀) b → Inv b.state b.trace → ∀ t r, b.pool t = none →
      Inv b.state (⟨b.state, b.state, .start t r⟩ :: b.trace))
    (call : ∀ b, Run gate (.init s₀) b → Inv b.state b.trace → ∀ t r x v s', b.Running t →
      Requested t r b.trace → (D.protocol r).allows (phase (D.protocol r).toAutomaton t b.trace) x →
      S.step x b.state v s' → Inv s' (⟨b.state, s', .call t x v⟩ :: b.trace))
    (env : ∀ b, Run gate (.init s₀) b → Inv b.state b.trace → ∀ s', S.env b.state s' → Inv s' b.trace)
    {c : Config S} (h : Run gate (.init s₀) c) : Inv c.state c.trace := by
  induction h with
  | refl => exact init
  | @tail b d hb hs ih =>
    cases hs with
    | start t r hg hn => exact start b hb ih t r hn
    | call t r x k v s' hp hs =>
      have hrun : b.Running t := by simp [Config.Running, Config.result, hp, Prog.result]
      exact call b hb ih t r x v s' hrun ((Run.pool_trace hb).1 t r _ hp) (Run.follows D hb hp).1 hs
    | env s' he => exact env b hb ih s' he

/-- What a thread's phase has and the first one has not came with a call that its
protocol allowed, from a moment of the run. -/
theorem Run.phase_made (D : Discipline S) {c : Config S} (h : Run gate (.init s₀) c) {t : ℕ} {r : S.Req}
    (hr : Requested t r c.trace) {P : (D.protocol r).Phase → Prop} (h0 : ¬ P (D.protocol r).init)
    (hP : P (phase (D.protocol r).toAutomaton t c.trace)) :
    ∃ b u x v s', Run gate (.init s₀) b ∧ Requested t r b.trace ∧
      c.trace = u ++ ⟨b.state, s', .call t x v⟩ :: b.trace ∧ ¬ P (phase (D.protocol r).toAutomaton t b.trace) ∧
      P ((D.protocol r).next (phase (D.protocol r).toAutomaton t b.trace) x v) ∧
      (D.protocol r).allows (phase (D.protocol r).toAutomaton t b.trace) x ∧ S.step x b.state v s' := by
  obtain ⟨u, s, s', x, v, tr, he, hbefore, hnext⟩ := phase_became h0 hP
  obtain ⟨b, r', hb, rfl, rfl, -, hrb, hunique, hallows, hs⟩ := Run.made D h he
  obtain rfl := hunique r hr
  exact ⟨b, u, x, v, s', hb, hrb, he, hbefore, hnext, hallows, hs⟩

/-- What a request's own allowed calls keep holds of the phase of every thread
with that request. -/
theorem Run.phase_invariant (D : Discipline S) {P : (r : S.Req) → (D.protocol r).Phase → Prop}
    (init : ∀ r, P r (D.protocol r).init)
    (call : ∀ r q x v, P r q → (D.protocol r).allows q x → S.Can x v → P r ((D.protocol r).next q x v))
    {c : Config S} (h : Run gate (.init s₀) c) {t : ℕ} {r : S.Req} (hr : Requested t r c.trace) :
    P r (phase (D.protocol r).toAutomaton t c.trace) := by
  by_contra hP
  obtain ⟨b, u, x, v, s', -, -, -, hbefore, hnext, hallows, hs⟩ :=
    @Run.phase_made _ _ _ _ D c h t r hr (fun q => ¬ P r q) (not_not.mpr (init r)) hP
  exact hnext (call r _ x v (not_not.mp hbefore) hallows ⟨_, _, hs⟩)

/-! ### Running to the end

A program makes finitely many calls, whatever they come back with. So where every call
can take its step, what has started can be brought to its end. -/

/-- One thread runs to its end, and no other moves. -/
theorem Run.finish (hstep : ∀ x s, ∃ v s', S.step x s v s') {t : ℕ} {r : S.Req} {p : Prog I S.Res} {c : Config S}
    (hp : c.pool t = some (r, p)) :
    ∃ c', Run gate c c' ∧ starts c'.trace = starts c.trace ∧ ∀ t', c'.Running t' → t' ≠ t ∧ c.Running t' := by
  induction p generalizing c with
  | call x k ih =>
    obtain ⟨v, s', hs⟩ := hstep x c.state
    obtain ⟨c', hrun, hstarts, hleft⟩ :=
      @ih v ⟨s', ⟨c.state, s', .call t x v⟩ :: c.trace, Function.update c.pool t (some (r, k v))⟩ (by simp)
    refine ⟨c', .head (.call t r x k v s' hp hs) hrun, hstarts, fun t' ht' => ?_⟩
    obtain ⟨hne, hbefore⟩ := hleft t' ht'
    refine ⟨hne, ?_⟩
    simpa [Config.Running, Config.result, Function.update_of_ne hne] using hbefore
  | _ =>
    refine ⟨c, .refl, rfl, fun t' ht' => ⟨?_, ht'⟩⟩
    rintro rfl
    simp [Config.Running, Config.result, hp, Prog.result] at ht'

/-- **Every run can be completed**: all that has started ends, and nothing more starts. -/
theorem Run.exists_quiet (hstep : ∀ x s, ∃ v s', S.step x s v s') {c : Config S} (h : Run gate (.init s₀) c) :
    ∃ c', Run gate c c' ∧ starts c'.trace = starts c.trace ∧ c'.Quiet := by
  -- one thread after another
  have hfinish : ∀ ts : List ℕ, ∃ c', Run gate c c' ∧ starts c'.trace = starts c.trace ∧
      ∀ t, c'.Running t → t ∉ ts ∧ c.Running t := by
    intro ts
    induction ts with
    | nil => exact ⟨c, .refl, rfl, fun t ht => ⟨by simp, ht⟩⟩
    | cons t ts ih =>
      obtain ⟨b, hb, hstarts, hleft⟩ := ih
      cases hpool : b.pool t with
      | none =>
        refine ⟨b, hb, hstarts, fun t' ht' => ⟨?_, (hleft t' ht').2⟩⟩
        have hne : t' ≠ t := by
          rintro rfl
          simp [Config.Running, hpool] at ht'
        simp [hne, (hleft t' ht').1]
      | some rp =>
        obtain ⟨c', hc', hstarts', hleft'⟩ := Run.finish hstep hpool
        refine ⟨c', hb.trans hc', hstarts'.trans hstarts, fun t' ht' => ?_⟩
        obtain ⟨hne, hrun⟩ := hleft' t' ht'
        obtain ⟨hnot, hrun⟩ := hleft t' hrun
        exact ⟨by simp [hne, hnot], hrun⟩
  obtain ⟨c', hc', hstarts, hleft⟩ := hfinish ((starts c.trace).map (·.1))
  refine ⟨c', hc', hstarts, fun t ht => ?_⟩
  obtain ⟨hnot, hrun⟩ := hleft t ht
  obtain ⟨⟨r, p⟩, hp⟩ := Option.isSome_iff_exists.mp hrun.1
  exact hnot (List.mem_map_of_mem (h.pool_trace.1 t r p hp).mem_starts)

/-! ### One request after another -/

theorem Config.quiet_init (s : S.State) : (Config.init s).Quiet := fun t ht => by cases ht.1

/-- A run is quiet if what it started has ended. -/
theorem Run.quiet {c : Config S} (h : Run gate (.init s₀) c) (hq : ∀ p ∈ starts c.trace, ¬ c.Running p.1) :
    c.Quiet := fun t ht => by
  obtain ⟨⟨r, p⟩, hp⟩ := Option.isSome_iff_exists.mp ht.1
  exact hq _ (h.pool_trace.1 t r p hp).mem_starts ht

/-- One more request and its first `n` calls, in a sequential run. -/
theorem Sequential.request {serve : (c : I.Call) → S.State → I.Out c × S.State}
    (hserve : ∀ x s, S.step x s (serve x s).1 (serve x s).2) {c : Config S} (h : Sequential (.init s₀) c)
    (hq : c.Quiet) (t : ℕ) (r : S.Req) (n : ℕ) :
    Sequential (.init s₀) (c.schedule serve (.start t r :: (List.replicate n t).map .call)) :=
  Relation.ReflTransGen.trans h ((Run.start c hq t r).trans (Run.calls hserve _ _))

/-- In a sequential run only the latest request can be running. -/
theorem Sequential.running {c : Config S} (h : Sequential (.init s₀) c) {t : ℕ} (ht : c.Running t) :
    ∃ r, (starts c.trace).head? = some (t, r) := by
  induction h generalizing t with
  | refl => simp [Config.Running, Config.init] at ht
  | @tail b d hb hs ih =>
    cases hs with
    | start t' r hg hn =>
      by_cases hne : t = t'
      · subst hne
        exact ⟨r, rfl⟩
      · exact absurd (by simpa [Config.Running, Config.result, Function.update_of_ne hne] using ht) (hg t)
    | call t' r x k v s' hp hs =>
      by_cases hne : t = t'
      · subst hne
        exact ih (by simp [Config.Running, Config.result, hp, Prog.result])
      · exact ih (by simpa [Config.Running, Config.result, Function.update_of_ne hne] using ht)
    | env s' he => exact ih ht

theorem Sequential.running_unique {c : Config S} (h : Sequential (.init s₀) c) {t t' : ℕ}
    (ht : c.Running t) (ht' : c.Running t') : t = t' := by
  obtain ⟨r, hr⟩ := Sequential.running h ht
  obtain ⟨r', hr'⟩ := Sequential.running h ht'
  rw [hr] at hr'
  cases hr'
  rfl

/-- In a sequential run every event since the latest request started is its own. -/
theorem Sequential.since {c : Config S} (h : Sequential (.init s₀) c) {t : ℕ} {r : S.Req}
    (ht : (starts c.trace).head? = some (t, r)) :
    ∃ u tr s, c.trace = u ++ ⟨s, s, .start t r⟩ :: tr ∧ (∀ e ∈ u, e.act.thread = t) ∧
      ∀ e ∈ tr, e.act.thread ≠ t := by
  induction h with
  | refl => cases ht
  | @tail b d hb hs ih =>
    cases hs with
    | start t' r' hg hn =>
      cases ht
      exact ⟨[], b.trace, _, rfl, by simp, Run.not_acted hb hn⟩
    | call t' r' x k v s' hp hs =>
      obtain ⟨r₀, hhead⟩ := Sequential.running hb (show b.Running t' by
        simp [Config.Running, Config.result, hp, Prog.result])
      have ht : (starts b.trace).head? = some (t, r) := ht
      obtain ⟨u, tr, s, hu, hmine, hnot⟩ := ih ht
      obtain rfl : t' = t := by
        rw [ht] at hhead
        cases hhead
        rfl
      refine ⟨_ :: u, tr, s, by rw [hu]; rfl, fun e he => ?_, hnot⟩
      rcases List.mem_cons.mp he with rfl | he
      · rfl
      · exact hmine e he
    | env s' he => exact ih ht

theorem Sequential.requested {c : Config S} (h : Sequential (.init s₀) c) {t : ℕ} {r : S.Req}
    (ht : (starts c.trace).head? = some (t, r)) : Requested t r c.trace := by
  obtain ⟨u, tr, s, hu, -⟩ := Sequential.since h ht
  exact ⟨s, by rw [hu]; simp⟩

/-- In a sequential run every event after a call of the latest request is its own. -/
theorem Sequential.since_call {c : Config S} (h : Sequential (.init s₀) c) {t : ℕ} {r : S.Req}
    (ht : (starts c.trace).head? = some (t, r)) {u tr : List (Event S)} {s s' : S.State} {x : I.Call}
    {v : I.Out x} (he : c.trace = u ++ ⟨s, s', .call t x v⟩ :: tr) : ∀ e ∈ u, e.act.thread = t := by
  obtain ⟨m, tr', s₁, hm, hmine, hnot⟩ := Sequential.since h ht
  obtain ⟨a, rfl, -⟩ := append_cons_eq_append (he.symm.trans hm) (by
    rw [List.mem_cons, not_or]
    exact ⟨by simp, fun hmem => hnot _ hmem rfl⟩)
  exact fun e he => hmine e (List.mem_append_left _ he)

end Conc
