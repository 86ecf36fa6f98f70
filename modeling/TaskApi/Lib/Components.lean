/-
# Systems inside systems

The programs of a large system run programs of smaller ones: a route first asks a rate
limiter, then a store of tickets. Here one such component is looked at. Its calls are
some of the calls of the large system (`Embedding`), its state is a part of the large
state (`Part`), and a request of the large system runs one of its programs, from a point
on that what the request has done so far decides (`Hosting`).

Seen through the component, a run of the large system is a run of the component
(`Run.part`): own calls are its steps, and everything else is its environment or leaves
it as it is. What holds in every run of the component so holds in every run of the large
system. That each request runs the component's program from its start, call by call, is
a protocol, checked once on the text of the programs like any other.

Key definitions: `Protocol.prod`, `Embedding`, `Prog.lift`, `Part`, `Hosting`, `Hosting.protocol`,
`Projects`, `Seen`.
Key theorems: `phase_prod`, `follows_lift`, `Projects.of_mem`, `Projects.split`, `Run.part`.
-/
import TaskApi.Lib.Interleave

namespace Conc

/-! ### Protocols side by side -/

section Prod

variable {I : Interface} {α : Type} {P P' : Protocol I} {can : (c : I.Call) → I.Out c → Prop}

/-- Both protocols, each in its own phase. -/
abbrev Protocol.prod (P P' : Protocol I) : Protocol I where
  Phase := P.Phase × P'.Phase
  init := (P.init, P'.init)
  next q c v := (P.next q.1 c v, P'.next q.2 c v)
  allows q c := P.allows q.1 c ∧ P'.allows q.2 c

theorem Prog.Follows.prod {Q : P.Phase → Except I.Err α → Prop} {Q' : P'.Phase → Except I.Err α → Prop} :
    ∀ {p : Prog I α} {q : P.Phase} {q' : P'.Phase}, p.Follows P can Q q → p.Follows P' can Q' q' →
      p.Follows (P.prod P') can (fun q x => Q q.1 x ∧ Q' q.2 x) (q, q')
  | ret _, _, _, h, h' => ⟨h, h'⟩
  | raise _, _, _, h, h' => ⟨h, h'⟩
  | call _ _, _, _, h, h' => ⟨⟨h.1, h'.1⟩, fun v hv => (h.2 v hv).prod (h'.2 v hv)⟩

theorem phase_prod {S : System I} (P P' : Protocol I) (t : ℕ) : ∀ tr : List (Event S),
    phase (P.prod P').toAutomaton t tr = (phase P.toAutomaton t tr, phase P'.toAutomaton t tr)
  | [] => rfl
  | ⟨_, _, .start _ _⟩ :: tr => by
    rw [phase_start, phase_start, phase_start, phase_prod P P' t tr]
  | ⟨_, _, .call t' c v⟩ :: tr => by
    by_cases ht : t' = t
    · subst ht
      rw [phase_call_self, phase_call_self, phase_call_self, phase_prod P P' t' tr]
    · rw [phase_call_ne _ ht, phase_call_ne _ ht, phase_call_ne _ ht, phase_prod P P' t tr]

end Prod

/-! ### A component's programs -/

/-- The calls of `I` among those of `J`. -/
structure Embedding (I J : Interface) where
  call : I.Call → J.Call
  call_injective : Function.Injective call
  /-- What the component makes of a call's outcome. An error that is none of its own
  passes through its programs. -/
  hears (c : I.Call) : J.Out (call c) → Except J.Err (I.Out c)
  raise : I.Err → J.Err
  /-- The component's call and outcome that a call and its outcome are. -/
  sees (d : J.Call) : J.Out d → Option (Σ c : I.Call, I.Out c)
  sees_call : ∀ {c : I.Call} {v : J.Out (call c)} {w : I.Out c}, hears c v = .ok w → sees (call c) v = some ⟨c, w⟩
  of_sees : ∀ {d : J.Call} {v : J.Out d} {x : Σ c : I.Call, I.Out c}, sees d v = some x → d = call x.1

variable {I J : Interface} {E : Embedding I J} {A : System I} {B : System J} {α β : Type}

/-- The call is none of the component's. -/
def Embedding.Foreign (E : Embedding I J) (d : J.Call) : Prop := ∀ c, d ≠ E.call c

theorem Embedding.Foreign.sees {d : J.Call} (h : E.Foreign d) (v : J.Out d) : E.sees d v = none := by
  cases hx : E.sees d v with
  | none => rfl
  | some x => exact absurd (E.of_sees hx) (h x.1)

/-- Go on with what was heard, or raise what passes through. -/
def Prog.resume : Except J.Err β → (β → Prog J α) → Prog J α
  | .ok b, f => f b
  | .error e, _ => raise e

/-- A program of the component, run in the large system. -/
def Prog.lift (E : Embedding I J) : Prog I α → Prog J α
  | ret a => ret a
  | raise e => raise (E.raise e)
  | call c k => call (E.call c) fun v => resume (E.hears c v) fun w => (k w).lift E

theorem Prog.makes_lift {C : J.Call → Prop} (hC : ∀ c, C (E.call c)) (p : Prog I α) : (p.lift E).Makes C := by
  induction p with
  | ret a => trivial
  | raise e => trivial
  | call c k ih =>
    refine (show C (E.call c) ∧ ∀ v, (resume (E.hears c v) fun w => (k w).lift E).Makes C from ⟨hC c, fun v => ?_⟩)
    cases E.hears c v with
    | ok w => exact ih w
    | error e => trivial

/-- In the protocol of a large request, a component's program does what it does in its own. -/
theorem Prog.Follows.lift {P : Protocol I} {P' : Protocol J} {can : (c : I.Call) → I.Out c → Prop}
    {can' : (d : J.Call) → J.Out d → Prop} (f : P.Phase → P'.Phase)
    (hallows : ∀ q c, P.allows q c → P'.allows (f q) (E.call c))
    (hnext : ∀ q c v w, E.hears c v = .ok w → P'.next (f q) (E.call c) v = f (P.next q c w))
    (hcan : ∀ c v, can' (E.call c) v → ∃ w, E.hears c v = .ok w ∧ can c w)
    {Q : P.Phase → Except I.Err α → Prop} {Q' : P'.Phase → Except J.Err α → Prop}
    (hQ : ∀ q x, Q q x → Q' (f q) (x.mapError E.raise)) {p : Prog I α} {q : P.Phase} (h : p.Follows P can Q q) :
    (p.lift E).Follows P' can' Q' (f q) := by
  induction p generalizing q with
  | ret a => exact hQ q (.ok a) h
  | raise e => exact hQ q (.error e) h
  | call c k ih =>
    refine ⟨hallows q c h.1, fun v hv => ?_⟩
    obtain ⟨w, hw, hw'⟩ := hcan c v hv
    rw [hnext q c v w hw]
    simp only [hw]
    exact ih w (h.2 w hw')

/-- A phase that the component's calls leave as it is. -/
theorem Prog.follows_lift_keeps {P : Protocol J} {can : (d : J.Call) → J.Out d → Prop} {q : P.Phase}
    (hkeeps : ∀ c, P.allows q (E.call c) ∧ ∀ v, P.next q (E.call c) v = q)
    (hcan : ∀ c v, can (E.call c) v → ∃ w, E.hears c v = .ok w) {Q : P.Phase → Except J.Err α → Prop}
    (hQ : ∀ x : Except I.Err α, Q q (x.mapError E.raise)) (p : Prog I α) : (p.lift E).Follows P can Q q := by
  induction p with
  | ret a => exact hQ (.ok a)
  | raise e => exact hQ (.error e)
  | call c k ih =>
    refine ⟨(hkeeps c).1, fun v hv => ?_⟩
    obtain ⟨w, hw⟩ := hcan c v hv
    rw [(hkeeps c).2 v]
    simp only [hw]
    exact ih w

theorem Prog.bind_ret (p : Prog I α) : (p >>= ret) = p := by
  induction p with
  | ret a => rfl
  | raise e => rfl
  | call c k ih => exact congrArg (call c) (funext ih)

/-- The component as a part of the large system. Of its own calls only those count that its
threads make, and of the others those that are `apart` from it. -/
structure Part (E : Embedding I J) (A : System I) (B : System J) where
  view : B.State → A.State
  makes : I.Call → Prop
  makes_call : ∀ {s₀ : A.State} {a : Config A} {t : ℕ} {r : A.Req} {c : I.Call} {k : I.Out c → Prog I A.Res},
    Interleaved (.init s₀) a → a.pool t = some (r, .call c k) → makes c
  apart : J.Call → Prop
  own : ∀ {c s v s'}, makes c → B.step (E.call c) s v s' → ∃ w, E.hears c v = .ok w ∧ A.step c (view s) w (view s')
  other : ∀ {d s v s'}, E.Foreign d → apart d → B.step d s v s' → Relation.ReflTransGen A.env (view s) (view s')
  env : ∀ {s s'}, B.env s s' → Relation.ReflTransGen A.env (view s) (view s')

/-! ### The component's thread in a request -/

/-- A thread of a system: its request and what is left to run, once it has started. -/
abbrev System.Thread (A : System I) : Type := Option (A.Req × Prog I A.Res)

/-- How the large system's request uses the component: `spawn` says when, and with what
request, and `allows` what else the large request may do meanwhile. -/
structure Hosting (E : Embedding I J) (A : System I) where
  automaton : Automaton J
  spawn : automaton.Phase → Option A.Req
  allows : automaton.Phase → A.Thread → J.Call → Prop
  next_own : ∀ (q : automaton.Phase) (c : I.Call) (v : J.Out (E.call c)), automaton.next q (E.call c) v = q

/-- A request that never uses the component, and makes the given calls. -/
def Hosting.idle (E : Embedding I J) (A : System I) (allows : J.Call → Prop) : Hosting E A where
  automaton := ⟨Unit, (), fun _ _ _ => ()⟩
  spawn _ := none
  allows _ _ := allows
  next_own _ _ _ := rfl

/-- The thread after one of its calls. -/
def System.Thread.after [DecidableEq I.Call] : A.Thread → (Σ c : I.Call, I.Out c) → A.Thread
  | some (r, .call c k), ⟨c', w⟩ => if h : c' = c then some (r, k (h ▸ w)) else some (r, .call c k)
  | x, _ => x

/-- The thread after a call of the large request. -/
def System.Thread.hear [DecidableEq I.Call] (x : A.Thread) : Option (Σ c : I.Call, I.Out c) → A.Thread
  | some cw => System.Thread.after x cw
  | none => x

namespace Hosting

variable (H : Hosting E A)

/-- The thread starts where `spawn` says so. -/
def settle (q : H.automaton.Phase) : A.Thread → A.Thread
  | some x => some x
  | none => (H.spawn q).map fun r => (r, A.body r)

/-- A request of the component's, once spawned, is there to stay. -/
def Settled : Prop := ∀ q d v r, H.spawn q = some r → H.spawn (H.automaton.next q d v) = some r

@[simp] theorem settle_some (q : H.automaton.Phase) (x : A.Req × Prog I A.Res) : H.settle q (some x) = some x := rfl

theorem settle_settle (q : H.automaton.Phase) (x : A.Thread) : H.settle q (H.settle q x) = H.settle q x := by
  cases x with
  | some y => rfl
  | none => cases hspawn : H.spawn q <;> simp [settle, hspawn]

theorem settle_none {q : H.automaton.Phase} {r : A.Req} {p : Prog I A.Res} (h : H.settle q none = some (r, p)) :
    H.spawn q = some r := by
  obtain ⟨r', hr', heq⟩ := Option.map_eq_some_iff.mp h
  cases heq
  exact hr'

variable [DecidableEq I.Call]

/-- The large request makes the component's calls just as the component's thread does. -/
abbrev protocol : Protocol J where
  Phase := H.automaton.Phase × A.Thread
  init := (H.automaton.init, H.settle H.automaton.init none)
  next q d v :=
    (H.automaton.next q.1 d v, H.settle (H.automaton.next q.1 d v) (System.Thread.hear q.2 (E.sees d v)))
  allows q d := (∀ c, d = E.call c → ∃ r k, q.2 = some (r, .call c k)) ∧ (E.Foreign d → H.allows q.1 q.2 d)

theorem next_foreign {q : H.protocol.Phase} {d : J.Call} (h : E.Foreign d) (v : J.Out d) :
    H.protocol.next q d v = (H.automaton.next q.1 d v, H.settle (H.automaton.next q.1 d v) q.2) := by
  show (_, H.settle _ (System.Thread.hear q.2 (E.sees d v))) = _
  rw [h.sees]
  rfl

theorem next_call {q : H.automaton.Phase} {c : I.Call} {r : A.Req} {k : I.Out c → Prog I A.Res}
    {v : J.Out (E.call c)} {w : I.Out c} (h : E.hears c v = .ok w) :
    H.protocol.next (q, some (r, .call c k)) (E.call c) v = (q, some (r, k w)) := by
  have hthread : System.Thread.hear (some (r, Prog.call c k) : A.Thread) (E.sees (E.call c) v) = some (r, k w) := by
    rw [E.sees_call h]
    simp [System.Thread.hear, System.Thread.after]
  show (H.automaton.next q (E.call c) v, H.settle _ (System.Thread.hear (some (r, .call c k)) _)) = _
  rw [hthread, H.next_own, settle_some]

variable {H} {can : (d : J.Call) → J.Out d → Prop}

/-- The component's program, run where its thread is about to run it. -/
theorem follows_lift (hcan : ∀ c v, can (E.call c) v → ∃ w, E.hears c v = .ok w) {q : H.automaton.Phase} {r : A.Req}
    {g : α → Prog I A.Res} {Q : H.protocol.Phase → Except J.Err α → Prop} (hok : ∀ a, Q (q, some (r, g a)) (.ok a))
    (herror : ∀ e, Q (q, some (r, .raise e)) (.error (E.raise e))) (p : Prog I α) :
    (p.lift E).Follows H.protocol can Q (q, some (r, p >>= g)) := by
  induction p with
  | ret a => exact hok a
  | raise e => exact herror e
  | call c k ih =>
    have hallows : H.protocol.allows (q, some (r, .call c k >>= g)) (E.call c) := by
      refine ⟨fun c' hc' => ?_, fun hforeign => absurd rfl (hforeign c)⟩
      obtain rfl := E.call_injective hc'
      exact ⟨r, _, rfl⟩
    refine ⟨hallows, fun v hv => ?_⟩
    obtain ⟨w, hw⟩ := hcan c v hv
    rw [Prog.call_bind, next_call H hw]
    simp only [hw]
    exact ih w

/-- The component's whole program. -/
theorem follows_body (hcan : ∀ c v, can (E.call c) v → ∃ w, E.hears c v = .ok w) {q : H.automaton.Phase} {r : A.Req}
    {Q : H.protocol.Phase → Except J.Err A.Res → Prop} (hok : ∀ a, Q (q, some (r, .ret a)) (.ok a))
    (herror : ∀ e, Q (q, some (r, .raise e)) (.error (E.raise e))) :
    ((A.body r).lift E).Follows H.protocol can Q (q, some (r, A.body r)) := by
  have hbody := follows_lift (H := H) hcan hok herror (A.body r)
  rwa [Prog.bind_ret] at hbody

/-- Calls that have nothing to do with the component. -/
theorem follows_quiet {C : J.Call → Prop} {q : H.protocol.Phase} (hsettled : H.settle q.1 q.2 = q.2)
    (hC : ∀ d, C d → E.Foreign d ∧ H.allows q.1 q.2 d ∧ ∀ v, H.automaton.next q.1 d v = q.1) {p : Prog J α}
    (hp : p.Makes C) : p.Follows H.protocol can (fun q' _ => q' = q) q := by
  induction p with
  | ret a => rfl
  | raise e => rfl
  | call d k ih =>
    obtain ⟨hforeign, hallows, hnext⟩ := hC d hp.1
    refine ⟨⟨fun c hc => absurd hc (hforeign c), fun _ => hallows⟩, fun v _ => ?_⟩
    have hstays : H.protocol.next q d v = q := by
      rw [next_foreign H hforeign, hnext v, hsettled]
    rw [hstays]
    exact ih v (hp.2 v)

/-- What the host does on its own, it does in its own protocol. -/
theorem follows_host {allows : H.automaton.Phase → J.Call → Prop}
    (hsettled : H.Settled) {C : J.Call → Prop}
    (hC : ∀ d, C d → E.Foreign d ∧ ∀ q x, H.allows q x d) {Q : H.automaton.Phase → Except J.Err α → Prop}
    {q : H.automaton.Phase} {p : Prog J α} (hp : p.Makes C) (h : p.Follows ⟨H.automaton, allows⟩ can Q q) :
    p.Follows H.protocol can (fun q' x => Q q'.1 x ∧ q'.2 = H.settle q'.1 none) (q, H.settle q none) := by
  induction p generalizing q with
  | ret a => exact ⟨h, rfl⟩
  | raise e => exact ⟨h, rfl⟩
  | call d k ih =>
    obtain ⟨hforeign, hallows⟩ := hC d hp.1
    refine ⟨⟨fun c hc => absurd hc (hforeign c), fun _ => hallows _ _⟩, fun v hv => ?_⟩
    rw [next_foreign H hforeign]
    have hnext : H.settle (H.automaton.next q d v) (H.settle q none) = H.settle (H.automaton.next q d v) none := by
      cases hspawn : H.spawn q with
      | none => simp [settle, hspawn]
      | some r => simp [settle, hspawn, hsettled q d v r hspawn]
    rw [hnext]
    exact ih v (hp.2 v) (h.2 v hv)

theorem follows_idle {allows : J.Call → Prop} {p : Prog J α} (hp : p.Makes fun d => E.Foreign d ∧ allows d) :
    p.Follows (idle E A allows).protocol can (fun _ _ => True) (idle E A allows).protocol.init :=
  (follows_quiet rfl (fun _ hd => ⟨hd.1, hd.2, fun _ => rfl⟩) hp).mono fun _ _ _ => trivial

/-- Another component's program, in a request that never uses this one. -/
theorem follows_lift_idle {I' : Interface} {E' : Embedding I' J} {P : Protocol I'}
    {can' : (c : I'.Call) → I'.Out c → Prop} {allows : J.Call → Prop}
    (hallows : ∀ q c, P.allows q c → E.Foreign (E'.call c) ∧ allows (E'.call c))
    (hcan : ∀ c v, can (E'.call c) v → ∃ w, E'.hears c v = .ok w ∧ can' c w)
    {Q : P.Phase → Except I'.Err α → Prop} {p : Prog I' α} {q : P.Phase} (h : p.Follows P can' Q q) :
    (p.lift E').Follows (idle E A allows).protocol can (fun q _ => q = (idle E A allows).protocol.init)
      (idle E A allows).protocol.init := by
  induction p generalizing q with
  | ret a => rfl
  | raise e => rfl
  | call c k ih =>
    obtain ⟨hforeign, hallowed⟩ := hallows q c h.1
    refine ⟨⟨fun c' hc' => absurd hc' (hforeign c'), fun _ => hallowed⟩, fun v hv => ?_⟩
    obtain ⟨w, hw, hw'⟩ := hcan c v hv
    rw [next_foreign _ hforeign]
    simp only [hw]
    exact ih w (h.2 w hw')

/-- A thread that has ended stays so. -/
theorem ended_stable {r : A.Req} {x : Except I.Err A.Res} (q : H.protocol.Phase) (d : J.Call) (v : J.Out d)
    (h : ∃ p : Prog I A.Res, q.2 = some (r, p) ∧ p.result = some x) :
    ∃ p : Prog I A.Res, (H.protocol.next q d v).2 = some (r, p) ∧ p.result = some x := by
  obtain ⟨p, hq, hp⟩ := h
  refine ⟨p, ?_, hp⟩
  show H.settle _ (System.Thread.hear q.2 (E.sees d v)) = some (r, p)
  have hhear : System.Thread.hear q.2 (E.sees d v) = some (r, p) := by
    rw [hq]
    cases p with
    | call c k => cases hp
    | _ => cases E.sees d v <;> rfl
  rw [hhear, settle_some]

end Hosting

/-! ### A thread and its host -/

section Spawned

variable [DecidableEq I.Call]

theorem System.Thread.hear_some {x : A.Thread} {cw : Option (Σ c : I.Call, I.Out c)} {r : A.Req}
    {p : Prog I A.Res} (h : System.Thread.hear x cw = some (r, p)) : ∃ p', x = some (r, p') := by
  cases cw with
  | none => exact ⟨p, h⟩
  | some cw =>
    cases x with
    | none => cases h
    | some y =>
      obtain ⟨r', p'⟩ := y
      cases p' with
      | ret a =>
        cases h
        exact ⟨_, rfl⟩
      | raise e =>
        cases h
        exact ⟨_, rfl⟩
      | call c k =>
        obtain ⟨c', w⟩ := cw
        have hafter : (if h : c' = c then some (r', k (h ▸ w)) else some (r', .call c k) : A.Thread) = some (r, p) := h
        split_ifs at hafter with hc
        · cases hafter
          exact ⟨_, rfl⟩
        · cases hafter
          exact ⟨_, rfl⟩

variable {H : Hosting E A} {t : ℕ}

/-- The host's part of the phase is the phase of the host. -/
theorem Hosting.phase_fst (H : Hosting E A) (t : ℕ) : ∀ tr : List (Event B),
    (phase H.protocol.toAutomaton t tr).1 = phase H.automaton t tr
  | [] => rfl
  | ⟨_, _, .start _ _⟩ :: tr => H.phase_fst t tr
  | ⟨s, s', .call t' d v⟩ :: tr => by
    by_cases ht : t' = t
    · subst ht
      rw [phase_call_self, phase_call_self, ← H.phase_fst t' tr]
    · rw [phase_call_ne _ ht, phase_call_ne _ ht]
      exact H.phase_fst t tr

/-- The component's thread runs what the host has spawned. -/
theorem Hosting.spawned (hsettled : H.Settled) {r : A.Req} {p : Prog I A.Res} {tr : List (Event B)}
    (h : (phase H.protocol.toAutomaton t tr).2 = some (r, p)) : H.spawn (phase H.automaton t tr) = some r := by
  induction tr generalizing p with
  | nil => exact H.settle_none h
  | cons e tr ih =>
    obtain ⟨s, s', act⟩ := e
    cases act with
    | start t' r' => exact ih h
    | call t' d v =>
      by_cases ht : t' = t
      · subst ht
        rw [phase_call_self] at h ⊢
        have h : H.settle (H.automaton.next (phase H.protocol.toAutomaton t' tr).1 d v)
            (System.Thread.hear (phase H.protocol.toAutomaton t' tr).2 (E.sees d v)) = some (r, p) := h
        rw [H.phase_fst] at h
        cases hheard : System.Thread.hear (phase H.protocol.toAutomaton t' tr).2 (E.sees d v) with
        | none =>
          rw [hheard] at h
          exact H.settle_none h
        | some x =>
          rw [hheard, H.settle_some] at h
          cases h
          obtain ⟨p', hp'⟩ := System.Thread.hear_some hheard
          exact hsettled _ d v r (ih hp')
      · rw [phase_call_ne _ ht] at h ⊢
        exact ih h

end Spawned

/-! ### The component's trace -/

/-- The component's trace `a` of the large system's trace `b`: the component's calls, and
the starts of its threads somewhere in between. -/
inductive Projects (E : Embedding I J) (view : B.State → A.State) : List (Event B) → List (Event A) → Prop
  | nil : Projects E view [] []
  | start {b a} (s s' : B.State) (t : ℕ) (r : B.Req) (h : Projects E view b a) :
      Projects E view (⟨s, s', .start t r⟩ :: b) a
  | spawn {b a} (s : A.State) (t : ℕ) (r : A.Req) (h : Projects E view b a) :
      Projects E view b (⟨s, s, .start t r⟩ :: a)
  | own {b a} (s s' : B.State) (t : ℕ) {c : I.Call} {v : J.Out (E.call c)} {w : I.Out c} (hw : E.hears c v = .ok w)
      (h : Projects E view b a) :
      Projects E view (⟨s, s', .call t (E.call c) v⟩ :: b) (⟨view s, view s', .call t c w⟩ :: a)
  | other {b a} (s s' : B.State) (t : ℕ) {d : J.Call} (v : J.Out d) (hd : E.Foreign d) (h : Projects E view b a) :
      Projects E view (⟨s, s', .call t d v⟩ :: b) a

namespace Projects

variable {view : B.State → A.State} {b : List (Event B)} {a : List (Event A)}

/-- Where the component made a call, the large system made it. -/
theorem split (h : Projects E view b a) {u tr : List (Event A)} {x x' : A.State} {t : ℕ} {c : I.Call} {w : I.Out c}
    (he : a = u ++ ⟨x, x', .call t c w⟩ :: tr) :
    ∃ ub s s' v trb, b = ub ++ ⟨s, s', .call t (E.call c) v⟩ :: trb ∧ x = view s ∧ x' = view s' ∧
      E.hears c v = .ok w ∧ Projects E view ub u ∧ Projects E view trb tr := by
  induction h generalizing u with
  | nil => simp at he
  | start s₁ s₁' t₁ r₁ h ih =>
    obtain ⟨ub, s, s', v, trb, rfl, hx, hx', hw, hu, htr⟩ := ih he
    exact ⟨_ :: ub, s, s', v, trb, rfl, hx, hx', hw, hu.start s₁ s₁' t₁ r₁, htr⟩
  | spawn s₁ t₁ r₁ h ih =>
    cases u with
    | nil => simp at he
    | cons e u =>
      rw [List.cons_append, List.cons.injEq] at he
      obtain ⟨ub, s, s', v, trb, rfl, hx, hx', hw, hu, htr⟩ := ih he.2
      exact ⟨ub, s, s', v, trb, rfl, hx, hx', hw, he.1 ▸ hu.spawn s₁ t₁ r₁, htr⟩
  | @own b a s₁ s₁' t₁ c₁ v₁ w₁ hw h ih =>
    cases u with
    | nil =>
      simp only [List.nil_append, List.cons.injEq, Event.mk.injEq, Act.call.injEq] at he
      obtain ⟨⟨rfl, rfl, rfl, rfl, hv⟩, rfl⟩ := he
      cases hv
      exact ⟨[], s₁, s₁', v₁, b, rfl, rfl, rfl, hw, .nil, h⟩
    | cons e u =>
      rw [List.cons_append, List.cons.injEq] at he
      obtain ⟨ub, s, s', v, trb, rfl, hx, hx', hw', hu, htr⟩ := ih he.2
      exact ⟨_ :: ub, s, s', v, trb, rfl, hx, hx', hw', he.1 ▸ hu.own s₁ s₁' t₁ hw, htr⟩
  | other s₁ s₁' t₁ v₁ hd h ih =>
    obtain ⟨ub, s, s', v, trb, rfl, hx, hx', hw, hu, htr⟩ := ih he
    exact ⟨_ :: ub, s, s', v, trb, rfl, hx, hx', hw, hu.other s₁ s₁' t₁ v₁ hd, htr⟩

/-- A call of the component is a call of the large system. -/
theorem of_mem (h : Projects E view b a) {x x' : A.State} {t : ℕ} {c : I.Call} {w : I.Out c}
    (he : ⟨x, x', .call t c w⟩ ∈ a) :
    ∃ s s' v, ⟨s, s', .call t (E.call c) v⟩ ∈ b ∧ x = view s ∧ x' = view s' ∧ E.hears c v = .ok w := by
  obtain ⟨u, tr, he⟩ := List.append_of_mem he
  obtain ⟨ub, s, s', v, trb, rfl, hx, hx', hw, -⟩ := h.split he
  exact ⟨s, s', v, by simp, hx, hx', hw⟩

/-- The same cut of the large trace, and where it is in the component's. -/
theorem split_own (h : Projects E view b a) {ub trb : List (Event B)} {s s' : B.State} {t : ℕ} {c : I.Call}
    {v : J.Out (E.call c)} (he : b = ub ++ ⟨s, s', .call t (E.call c) v⟩ :: trb) :
    ∃ u w tr, a = u ++ ⟨view s, view s', .call t c w⟩ :: tr ∧ E.hears c v = .ok w ∧ Projects E view ub u ∧
      Projects E view trb tr := by
  induction h generalizing ub with
  | nil => simp at he
  | start s₁ s₁' t₁ r₁ h ih =>
    cases ub with
    | nil => simp at he
    | cons e ub =>
      rw [List.cons_append, List.cons.injEq] at he
      obtain ⟨u, w, tr, rfl, hw, hu, htr⟩ := ih he.2
      exact ⟨u, w, tr, rfl, hw, he.1 ▸ hu.start s₁ s₁' t₁ r₁, htr⟩
  | spawn s₁ t₁ r₁ h ih =>
    obtain ⟨u, w, tr, rfl, hw, hu, htr⟩ := ih he
    exact ⟨_ :: u, w, tr, rfl, hw, hu.spawn s₁ t₁ r₁, htr⟩
  | @own b a s₁ s₁' t₁ c₁ v₁ w₁ hw h ih =>
    cases ub with
    | nil =>
      simp only [List.nil_append, List.cons.injEq, Event.mk.injEq, Act.call.injEq] at he
      obtain ⟨⟨rfl, rfl, rfl, hcall, hv⟩, rfl⟩ := he
      obtain rfl := E.call_injective hcall
      cases hv
      exact ⟨[], w₁, a, rfl, hw, .nil, h⟩
    | cons e ub =>
      rw [List.cons_append, List.cons.injEq] at he
      obtain ⟨u, w, tr, rfl, hw', hu, htr⟩ := ih he.2
      exact ⟨_ :: u, w, tr, rfl, hw', he.1 ▸ hu.own s₁ s₁' t₁ hw, htr⟩
  | other s₁ s₁' t₁ v₁ hd h ih =>
    cases ub with
    | nil =>
      simp only [List.nil_append, List.cons.injEq, Event.mk.injEq, Act.call.injEq] at he
      exact absurd he.1.2.2.2.1 (hd c)
    | cons e ub =>
      rw [List.cons_append, List.cons.injEq] at he
      obtain ⟨u, w, tr, rfl, hw, hu, htr⟩ := ih he.2
      exact ⟨u, w, tr, rfl, hw, he.1 ▸ hu.other s₁ s₁' t₁ v₁ hd, htr⟩

end Projects

/-! ### The component's run -/

/-- The environment moves any number of times. -/
theorem Run.moves {gate : Config A → Prop} {c : Config A} {s' : A.State}
    (h : Relation.ReflTransGen A.env c.state s') : Run gate c ⟨s', c.trace, c.pool⟩ := by
  induction h with
  | refl => exact .refl
  | tail _ hs ih => exact ih.tail (.env _ hs)

variable [DecidableEq I.Call]

/-- How every request of the large system uses the component. -/
structure Hosts (P : Part E A B) where
  hosting : B.Req → Hosting E A
  apart : ∀ {r : B.Req} {q : (hosting r).automaton.Phase} {x : A.Thread} {d : J.Call}, E.Foreign d →
    (hosting r).allows q x d → P.apart d
  final (r : B.Req) : (hosting r).protocol.Phase → Except J.Err B.Res → Prop
  follows (r : B.Req) : (B.body r).Follows (hosting r).protocol B.Can (final r) (hosting r).protocol.init

/-- The protocol is a discipline like any other. -/
abbrev Hosts.discipline {P : Part E A B} (D : Hosts P) : Discipline B := ⟨fun r => (D.hosting r).protocol, D.final, D.follows⟩

/-- The component's thread in thread `t`, which was started with `r`. -/
abbrev Hosts.thread {P : Part E A B} (D : Hosts P) (r : B.Req) (t : ℕ) (tr : List (Event B)) : A.Thread :=
  (phase (D.hosting r).protocol.toAutomaton t tr).2

/-- The component's moment `a` of the large system's moment `b`. -/
structure Seen {P : Part E A B} (D : Hosts P) (b : Config B) (a : Config A) : Prop where
  state : a.state = P.view b.state
  fresh : ∀ t, b.pool t = none → a.pool t = none
  pool : ∀ t r, Requested t r b.trace → a.pool t = D.thread r t b.trace
  trace : Projects E P.view b.trace a.trace

section Part

variable {P : Part E A B} {D : Hosts P} {b : Config B} {a : Config A}

/-- A thread starts if its request now says so. -/
theorem Seen.spawn {r : B.Req} {q : (D.hosting r).automaton.Phase}
    {t : ℕ} {x : A.Thread} (hx : a.pool t = x) {tr : List (Event B)} (htrace : Projects E P.view tr a.trace) :
    ∃ a', Interleaved a a' ∧ a'.state = a.state ∧ a'.pool = Function.update a.pool t ((D.hosting r).settle q x) ∧
      Projects E P.view tr a'.trace := by
  have hstays : a.pool = Function.update a.pool t x := by rw [← hx, Function.update_eq_self]
  cases x with
  | some y => exact ⟨a, .refl, rfl, hstays, htrace⟩
  | none =>
    cases hspawn : (D.hosting r).spawn q with
    | none =>
      refine ⟨a, .refl, rfl, ?_, htrace⟩
      simpa [Hosting.settle, hspawn] using hstays
    | some ρ =>
      refine ⟨_, .single (.start t ρ trivial hx), rfl, ?_, htrace.spawn _ t ρ⟩
      simp [Hosting.settle, hspawn]

theorem Seen.start (h : Seen D b a) {t : ℕ} (r : B.Req)
    (hn : b.pool t = none) (hfresh : ∀ e ∈ b.trace, e.act.thread ≠ t) :
    ∃ a', Interleaved a a' ∧ Seen D ⟨b.state, ⟨b.state, b.state, .start t r⟩ :: b.trace,
      Function.update b.pool t (some (r, B.body r))⟩ a' := by
  obtain ⟨a', hrun, hstate, hpool, htrace⟩ := Seen.spawn (q := (D.hosting r).automaton.init)
    (h.fresh t hn) (h.trace.start b.state b.state t r)
  refine ⟨a', hrun, hstate.trans h.state, fun t' ht' => ?_, fun t' r' hr' => ?_, htrace⟩
  · have hne : t' ≠ t := by
      rintro rfl
      simp at ht'
    rw [hpool, Function.update_of_ne hne]
    exact h.fresh t' (by simpa [Function.update_of_ne hne] using ht')
  · rw [hpool]
    by_cases hne : t' = t
    · subst hne
      rcases requested_start.mp hr' with ⟨-, -, rfl⟩ | ⟨s, hs⟩
      · rw [Function.update_self, Hosts.thread, phase_start, phase_eq_init _ hfresh]
      · exact absurd rfl (hfresh _ hs)
    · have hr' : Requested t' r' b.trace := (requested_start.mp hr').resolve_left fun heq => hne heq.2.1
      rw [Function.update_of_ne hne, Hosts.thread, phase_start]
      exact h.pool t' r' hr'

/-- A call of the large system's thread `t`. -/
theorem Seen.call {s₀ : A.State} (ha : Interleaved (.init s₀) a) (h : Seen D b a) {t : ℕ} {r : B.Req} {d : J.Call}
    {v : J.Out d} {s' : B.State} (hr : Requested t r b.trace)
    (hunique : ∀ r', Requested t r' b.trace → r' = r)
    (hallows : (D.hosting r).protocol.allows (phase (D.hosting r).protocol.toAutomaton t b.trace) d)
    (hs : B.step d b.state v s') (p : Option (B.Req × Prog J B.Res)) (hp : p ≠ none) :
    ∃ a', Interleaved a a' ∧
      Seen D ⟨s', ⟨b.state, s', .call t d v⟩ :: b.trace, Function.update b.pool t p⟩ a' := by
  obtain ⟨q, hq⟩ : ∃ q, phase (D.hosting r).protocol.toAutomaton t b.trace = q := ⟨_, rfl⟩
  rw [hq] at hallows
  have hthread : a.pool t = q.2 := hq ▸ h.pool t r hr
  -- what the component's threads are after a call after which thread `t` is `x`
  have hseen : ∀ a' : Config A, a'.state = P.view s' →
      a'.pool = Function.update a.pool t ((D.hosting r).protocol.next q d v).2 →
      Projects E P.view (⟨b.state, s', .call t d v⟩ :: b.trace) a'.trace →
      Seen D ⟨s', ⟨b.state, s', .call t d v⟩ :: b.trace, Function.update b.pool t p⟩ a' := by
    intro a' hstate hpool htrace
    refine ⟨hstate, fun t' ht' => ?_, fun t' r' hr' => ?_, htrace⟩
    · have hne : t' ≠ t := by
        rintro rfl
        exact hp (by simpa using ht')
      rw [hpool, Function.update_of_ne hne]
      exact h.fresh t' (by simpa [Function.update_of_ne hne] using ht')
    · have hbefore : Requested t' r' b.trace := requested_call.mp hr'
      rw [hpool]
      by_cases hne : t' = t
      · subst hne
        obtain rfl := hunique r' hbefore
        rw [Function.update_self, Hosts.thread, phase_call_self, hq]
      · rw [Function.update_of_ne hne, Hosts.thread, phase_call_ne _ (Ne.symm hne)]
        exact h.pool t' r' hbefore
  by_cases hown : ∃ c, d = E.call c
  · obtain ⟨c, rfl⟩ := hown
    obtain ⟨ρ, k, hk⟩ := hallows.1 c rfl
    obtain ⟨w, hw, hstep⟩ := P.own (P.makes_call ha (hthread.trans hk)) hs
    rw [← h.state] at hstep
    refine ⟨_, .single (.call t ρ c k w _ (hthread.trans hk) hstep), hseen _ rfl ?_ ?_⟩
    · have hnext := (D.hosting r).next_call (q := q.1) (r := ρ) (k := k) hw
      rw [← hk] at hnext
      rw [hnext]
    · have hproj := h.trace.own b.state s' t hw
      rw [← h.state] at hproj
      exact hproj
  · have hforeign : E.Foreign d := fun c hc => hown ⟨c, hc⟩
    have hmove := P.other hforeign (D.apart hforeign (hallows.2 hforeign)) hs
    rw [← h.state] at hmove
    obtain ⟨a', hrun, hstate, hpool, htrace⟩ := Seen.spawn (a := ⟨P.view s', a.trace, a.pool⟩)
      (q := (D.hosting r).automaton.next q.1 d v) hthread (h.trace.other b.state s' t v hforeign)
    refine ⟨a', .trans (Run.moves hmove) hrun, hseen a' hstate ?_ htrace⟩
    rw [hpool, Hosting.next_foreign _ hforeign]

/-- **A run of the large system is a run of the component.** -/
theorem Run.part (D : Hosts P) {s₀ : B.State} (h : Interleaved (.init s₀) b) :
    ∃ a : Config A, Interleaved (.init (P.view s₀)) a ∧ Seen D b a := by
  induction h with
  | refl =>
    refine ⟨.init (P.view s₀), .refl, rfl, fun _ _ => rfl, fun t r hr => ?_, .nil⟩
    obtain ⟨s, hs⟩ := hr
    cases hs
  | @tail b d hb hs ih =>
    obtain ⟨a, ha, hseen⟩ := ih
    cases hs with
    | start t r hg hn =>
      obtain ⟨a', hrun, hseen'⟩ := hseen.start r hn (Run.not_acted hb hn)
      exact ⟨a', ha.trans hrun, hseen'⟩
    | call t r x k v s' hp hs =>
      have hr := (Run.pool_trace hb).1 t r _ hp
      have hallows := (Run.follows D.discipline hb hp).1
      obtain ⟨a', hrun, hseen'⟩ := hseen.call ha hr
        (fun r' hr' => Run.requested_unique hb hr' hr) hallows hs (some (r, k v)) (by simp)
      exact ⟨a', ha.trans hrun, hseen'⟩
    | env s' he =>
      have hmove := P.env he
      rw [← hseen.state] at hmove
      exact ⟨_, ha.trans (Run.moves hmove), rfl, hseen.fresh, hseen.pool, hseen.trace⟩

/-- How the component's thread ended, in a thread of the large system. -/
theorem Seen.result (h : Seen D b a) {t : ℕ} {r : B.Req} (hr : Requested t r b.trace) :
    a.result t = (D.thread r t b.trace).bind fun p => p.2.result := by
  rw [Config.result, h.pool t r hr]

end Part

end Conc
