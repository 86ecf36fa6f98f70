/-
# Programs that make calls

A program here is what is left to run of a piece of sequential code: it has
returned, it has raised, or it makes one call and goes on with the call's
outcome. The calls are the only points where the code touches anything
outside itself, so they are also the points where other programs can run in
between (`Interleave`).

Every call can end in a value or in an error; an error is raised where the
call was made. `try`, `except` and `finally` are the recursions on the program
that the statements of that name are (`Prog.tryCatch`, `Prog.tryFinally`).

Key definitions: `Prog`, `Prog.run`, `Automaton`, `Protocol`, `Prog.Follows`, `Prog.Makes`.
Key theorems: `Prog.follows_bind`, `Prog.follows_tryCatch`,
`Prog.follows_tryFinally`, `Prog.yields_bind`, `Prog.yields_tryFinally`.
-/
import Mathlib.Data.Set.Basic

namespace Conc

/-- What programs can ask for: the calls, the value each returns, and the
errors a call or the code itself can raise. -/
structure Interface where
  Call : Type
  Val : Call → Type
  Err : Type

/-- How a call ends: with its value, or with an error. -/
abbrev Interface.Out (I : Interface) (c : I.Call) : Type := Except I.Err (I.Val c)

/-- What is left to run of a program. -/
inductive Prog (I : Interface) (α : Type) where
  | ret (a : α)
  | raise (e : I.Err)
  | call (c : I.Call) (k : I.Out c → Prog I α)

namespace Prog

variable {I : Interface} {α β γ : Type}

/-- Run `p`, then `f` on what it returns. -/
def bind : Prog I α → (α → Prog I β) → Prog I β
  | ret a, f => f a
  | raise e, _ => raise e
  | call c k, f => call c fun v => (k v).bind f

instance : Monad (Prog I) where
  pure := ret
  bind := bind

/-- Make the call `c`; its error is raised here. -/
def perform (c : I.Call) : Prog I (I.Val c) :=
  call c fun
    | .ok v => ret v
    | .error e => raise e

/-- `try: p except e: h e`. A handler that does not take the error raises it
again. -/
def tryCatch : Prog I α → (I.Err → Prog I α) → Prog I α
  | ret a, _ => ret a
  | raise e, h => h e
  | call c k, h => call c fun v => (k v).tryCatch h

/-- `try: p finally: fin`. The block `fin` runs whichever way `p` ends; an error
of its own replaces `p`'s outcome. -/
def tryFinally : Prog I α → Prog I Unit → Prog I α
  | ret a, fin => fin.bind fun _ => ret a
  | raise e, fin => fin.bind fun _ => raise e
  | call c k, fin => call c fun v => (k v).tryFinally fin

@[simp] theorem pure_eq (a : α) : (pure a : Prog I α) = ret a := rfl
@[simp] theorem ret_bind (a : α) (f : α → Prog I β) : (ret a >>= f) = f a := rfl
@[simp] theorem raise_bind (e : I.Err) (f : α → Prog I β) : (raise e >>= f) = raise e := rfl
@[simp] theorem call_bind (c : I.Call) (k : I.Out c → Prog I α) (f : α → Prog I β) :
    (call c k >>= f) = call c fun v => k v >>= f := rfl

@[simp] theorem ret_tryCatch (a : α) (h : I.Err → Prog I α) : (ret a).tryCatch h = ret a := rfl
@[simp] theorem raise_tryCatch (e : I.Err) (h : I.Err → Prog I α) :
    (raise e).tryCatch h = h e := rfl
@[simp] theorem call_tryCatch (c : I.Call) (k : I.Out c → Prog I α) (h : I.Err → Prog I α) :
    (call c k).tryCatch h = call c fun v => (k v).tryCatch h := rfl

@[simp] theorem ret_tryFinally (a : α) (fin : Prog I Unit) :
    (ret a).tryFinally fin = fin >>= fun _ => ret a := rfl
@[simp] theorem raise_tryFinally (e : I.Err) (fin : Prog I Unit) :
    (raise e : Prog I α).tryFinally fin = fin >>= fun _ => raise e := rfl
@[simp] theorem call_tryFinally (c : I.Call) (k : I.Out c → Prog I α) (fin : Prog I Unit) :
    (call c k).tryFinally fin = call c fun v => (k v).tryFinally fin := rfl

/-- How the program ended, once it has. -/
def result : Prog I α → Option (Except I.Err α)
  | ret a => some (.ok a)
  | raise e => some (.error e)
  | call _ _ => none

/-- Run `p` alone, `serve` answering its calls from a state it threads. -/
def run {σ : Type} (serve : (c : I.Call) → σ → I.Out c × σ) : Prog I α → σ → Except I.Err α × σ
  | ret a, s => (.ok a, s)
  | raise e, s => (.error e, s)
  | call c k, s => (k (serve c s).1).run serve (serve c s).2

end Prog

/-! ### Protocols

A protocol is a small automaton over the calls a program makes: it says which
call the program may make next, given the phase its own past calls led to. That
a program follows its protocol is a fact about the program alone, whatever the
other programs do, and it is what an argument about interleaved programs needs
to know of each of them. -/

/-- An automaton over calls and their outcomes. -/
structure Automaton (I : Interface) where
  Phase : Type
  init : Phase
  next : Phase → (c : I.Call) → I.Out c → Phase

/-- The phase that a list of calls leads to. -/
def Automaton.after {I : Interface} (A : Automaton I) (q : A.Phase) (calls : List (Σ c : I.Call, I.Out c)) :
    A.Phase := calls.foldl (fun q x => A.next q x.1 x.2) q

/-- An automaton, and the calls it allows in each phase. -/
structure Protocol (I : Interface) extends Automaton I where
  allows : Phase → I.Call → Prop

/-- From phase `q` on the program makes only allowed calls, as long as their
outcomes are among `can`, and ends in `Q`. -/
def Prog.Follows {I : Interface} {α : Type} (P : Protocol I) (can : (c : I.Call) → I.Out c → Prop)
    (Q : P.Phase → Except I.Err α → Prop) : P.Phase → Prog I α → Prop
  | q, .ret a => Q q (.ok a)
  | q, .raise e => Q q (.error e)
  | q, .call c k => P.allows q c ∧ ∀ v, can c v → (k v).Follows P can Q (P.next q c v)

namespace Prog

variable {I : Interface} {α β : Type} {P : Protocol I} {can : (c : I.Call) → I.Out c → Prop}

@[simp] theorem follows_ret {Q : P.Phase → Except I.Err α → Prop} {q : P.Phase} {a : α} :
    (ret a).Follows P can Q q ↔ Q q (.ok a) := Iff.rfl

@[simp] theorem follows_raise {Q : P.Phase → Except I.Err α → Prop} {q : P.Phase} {e : I.Err} :
    (raise e).Follows P can Q q ↔ Q q (.error e) := Iff.rfl

/-- The call `c` alone: what it may end in, in the phase it leads to. -/
theorem follows_perform {Q : P.Phase → Except I.Err (I.Val c) → Prop} {q : P.Phase} :
    (perform c).Follows P can Q q ↔ P.allows q c ∧ ∀ v, can c v → Q (P.next q c v) v := by
  refine and_congr Iff.rfl (forall_congr' fun v => imp_congr_right fun _ => ?_)
  cases v <;> rfl

/-- What a program ends in can be weakened. -/
theorem Follows.mono {Q Q' : P.Phase → Except I.Err α → Prop} (h : ∀ q r, Q q r → Q' q r) :
    ∀ {p : Prog I α} {q : P.Phase}, p.Follows P can Q q → p.Follows P can Q' q
  | ret _, _, hp => h _ _ hp
  | raise _, _, hp => h _ _ hp
  | call _ _, _, hp => ⟨hp.1, fun v hv => (hp.2 v hv).mono h⟩

/-- A program that follows a protocol follows any that allows those calls in every phase. -/
theorem Follows.weaken {R : Protocol I} (hR : ∀ q c, P.allows q c → ∀ q', R.allows q' c)
    {Q : P.Phase → Except I.Err α → Prop} : ∀ {p : Prog I α} {q : P.Phase} (q' : R.Phase),
      p.Follows P can Q q → p.Follows R can (fun _ _ => True) q'
  | ret _, _, _, _ => trivial
  | raise _, _, _, _ => trivial
  | call _ _, _, _, h => ⟨hR _ _ h.1 _, fun v hv => (h.2 v hv).weaken hR _⟩

/-- From a phase that no call leaves, in which every call is allowed, any program
follows the protocol. -/
theorem follows_of_closed {K : P.Phase → Prop} (hallows : ∀ q c, K q → P.allows q c)
    (hnext : ∀ q c v, K q → K (P.next q c v)) :
    ∀ {p : Prog I α} {q : P.Phase}, K q → p.Follows P can (fun _ _ => True) q
  | ret _, _, _ => trivial
  | raise _, _, _ => trivial
  | call _ _, _, h => ⟨hallows _ _ h, fun _ _ => follows_of_closed hallows hnext (hnext _ _ _ h)⟩

/-- A postcondition by cases on how a program ended. -/
def ends {φ ε : Type} (ok : φ → α → Prop) (error : φ → ε → Prop) (q : φ) : Except ε α → Prop
  | .ok a => ok q a
  | .error e => error q e

@[simp] theorem ends_ok {φ ε : Type} {ok : φ → α → Prop} {error : φ → ε → Prop} {q : φ} {a : α} :
    ends ok error q (.ok a) ↔ ok q a := Iff.rfl

@[simp] theorem ends_error {φ ε : Type} {ok : φ → α → Prop} {error : φ → ε → Prop} {q : φ} {e : ε} :
    ends ok error q (.error e) ↔ error q e := Iff.rfl

/-- A sequence follows the protocol if its first part does and hands over to
the second wherever it returns. -/
theorem follows_bind {Q : P.Phase → Except I.Err β → Prop} {f : α → Prog I β} :
    ∀ {p : Prog I α} {q : P.Phase}, (p >>= f).Follows P can Q q ↔
      p.Follows P can (ends (fun q a => (f a).Follows P can Q q) fun q e => Q q (.error e)) q
  | ret _, _ => Iff.rfl
  | raise _, _ => Iff.rfl
  | call _ _, _ => and_congr Iff.rfl (forall_congr' fun _ => imp_congr_right fun _ => follows_bind)

/-- A `try` follows the protocol if its body does and hands over to the handler
wherever it raises. -/
theorem follows_tryCatch {Q : P.Phase → Except I.Err α → Prop} {h : I.Err → Prog I α} :
    ∀ {p : Prog I α} {q : P.Phase}, (p.tryCatch h).Follows P can Q q ↔
      p.Follows P can (ends (fun q a => Q q (.ok a)) fun q e => (h e).Follows P can Q q) q
  | ret _, _ => Iff.rfl
  | raise _, _ => Iff.rfl
  | call _ _, _ =>
    and_congr Iff.rfl (forall_congr' fun _ => imp_congr_right fun _ => follows_tryCatch)

/-- A `finally` block runs from wherever the body ends, and keeps its outcome
unless the block itself raises. -/
theorem follows_tryFinally {Q : P.Phase → Except I.Err α → Prop} {fin : Prog I Unit} :
    ∀ {p : Prog I α} {q : P.Phase}, (p.tryFinally fin).Follows P can Q q ↔
      p.Follows P can (fun q r =>
        fin.Follows P can (ends (fun q _ => Q q r) fun q e => Q q (.error e)) q) q
  | ret _, _ => by simp only [ret_tryFinally, follows_bind, follows_ret]
  | raise _, _ => by simp only [raise_tryFinally, follows_bind, follows_raise]
  | call _ _, _ =>
    and_congr Iff.rfl (forall_congr' fun _ => imp_congr_right fun _ => follows_tryFinally)

/-! The calls of a program, whatever they come back with. -/

/-- The program makes only calls in `C`. -/
def Makes (C : I.Call → Prop) : Prog I α → Prop
  | ret _ => True
  | raise _ => True
  | call c k => C c ∧ ∀ v, (k v).Makes C

section Makes

variable {C : I.Call → Prop}

theorem makes_ret (a : α) : (ret a : Prog I α).Makes C := trivial

theorem makes_raise (e : I.Err) : (raise e : Prog I α).Makes C := trivial

theorem makes_perform {c : I.Call} (hc : C c) : (perform c).Makes C :=
  ⟨hc, fun v => by cases v <;> trivial⟩

theorem Makes.bind {f : α → Prog I β} (hf : ∀ a, (f a).Makes C) : ∀ {p : Prog I α}, p.Makes C → (p >>= f).Makes C
  | ret a, _ => hf a
  | raise _, _ => trivial
  | call _ _, hp => ⟨hp.1, fun v => (hp.2 v).bind hf⟩

theorem Makes.tryCatch {h : I.Err → Prog I α} (hh : ∀ e, (h e).Makes C) :
    ∀ {p : Prog I α}, p.Makes C → (p.tryCatch h).Makes C
  | ret _, _ => trivial
  | raise e, _ => hh e
  | call _ _, hp => ⟨hp.1, fun v => (hp.2 v).tryCatch hh⟩

theorem Makes.tryFinally {fin : Prog I Unit} (hfin : fin.Makes C) :
    ∀ {p : Prog I α}, p.Makes C → (p.tryFinally fin).Makes C
  | ret a, _ => Makes.bind (fun _ => makes_ret a) hfin
  | raise e, _ => Makes.bind (fun _ => makes_raise e) hfin
  | call _ _, hp => ⟨hp.1, fun v => Makes.tryFinally hfin (hp.2 v)⟩

/-- Calls that leave every phase as it is leave it so to the end. -/
theorem Makes.keeps (hC : ∀ q c, C c → P.allows q c ∧ ∀ v, P.next q c v = q) {q : P.Phase} :
    ∀ {p : Prog I α}, p.Makes C → p.Follows P can (fun q' _ => q' = q) q
  | ret _, _ => rfl
  | raise _, _ => rfl
  | call c k, hp => ⟨(hC q c hp.1).1, fun v _ => by
      rw [(hC q c hp.1).2 v]
      exact (hp.2 v).keeps hC⟩

end Makes

/-! ### Running alone

What a program run against a server ends in, by the same rules. -/

variable {σ : Type} {serve : (c : I.Call) → σ → I.Out c × σ}

/-- Run from `s`, the program ends in `Q`. -/
def Yields (serve : (c : I.Call) → σ → I.Out c × σ) (Q : σ → Except I.Err α → Prop) (s : σ)
    (p : Prog I α) : Prop := Q (p.run serve s).2 (p.run serve s).1

@[simp] theorem yields_ret {Q : σ → Except I.Err α → Prop} {s : σ} {a : α} :
    (ret a).Yields serve Q s ↔ Q s (.ok a) := Iff.rfl

@[simp] theorem yields_raise {Q : σ → Except I.Err α → Prop} {s : σ} {e : I.Err} :
    (raise e).Yields serve Q s ↔ Q s (.error e) := Iff.rfl

theorem yields_perform {c : I.Call} {Q : σ → Except I.Err (I.Val c) → Prop} {s : σ} :
    (perform c).Yields serve Q s ↔ Q (serve c s).2 (serve c s).1 := by
  unfold Yields perform run
  cases (serve c s).1 <;> rfl

theorem yields_bind {Q : σ → Except I.Err β → Prop} {f : α → Prog I β} :
    ∀ {p : Prog I α} {s : σ}, (p >>= f).Yields serve Q s ↔
      p.Yields serve (ends (fun s a => (f a).Yields serve Q s) fun s e => Q s (.error e)) s
  | ret _, _ => Iff.rfl
  | raise _, _ => Iff.rfl
  | call c k, s => yields_bind (p := k (serve c s).1) (s := (serve c s).2)

theorem yields_tryCatch {Q : σ → Except I.Err α → Prop} {h : I.Err → Prog I α} :
    ∀ {p : Prog I α} {s : σ}, (p.tryCatch h).Yields serve Q s ↔
      p.Yields serve (ends (fun s a => Q s (.ok a)) fun s e => (h e).Yields serve Q s) s
  | ret _, _ => Iff.rfl
  | raise _, _ => Iff.rfl
  | call c k, s => yields_tryCatch (p := k (serve c s).1) (s := (serve c s).2)

theorem yields_tryFinally {Q : σ → Except I.Err α → Prop} {fin : Prog I Unit} :
    ∀ {p : Prog I α} {s : σ}, (p.tryFinally fin).Yields serve Q s ↔
      p.Yields serve (fun s r =>
        fin.Yields serve (ends (fun s _ => Q s r) fun s e => Q s (.error e)) s) s
  | ret _, _ => by
    simp only [ret_tryFinally, yields_bind, yields_ret]
  | raise _, _ => by
    simp only [raise_tryFinally, yields_bind, yields_raise]
  | call c k, s => yields_tryFinally (p := k (serve c s).1) (s := (serve c s).2)

/-- What a program raises, a sequence that begins with it raises. -/
theorem run_bind_error {f : α → Prog I β} {e : I.Err} :
    ∀ {p : Prog I α} {s : σ}, (p.run serve s).1 = .error e → ((p >>= f).run serve s).1 = .error e
  | ret _, _, h => by cases h
  | raise _, _, h => by
    cases h
    rfl
  | call c k, s, h => run_bind_error (p := k (serve c s).1) (s := (serve c s).2) h

/-! The calls of a run alone, and what a protocol says of them. -/

/-- The calls that `p` makes, run from `s`, and how they ended. -/
def log (serve : (c : I.Call) → σ → I.Out c × σ) : Prog I α → σ → List (Σ c : I.Call, I.Out c)
  | ret _, _ => []
  | raise _, _ => []
  | call c k, s => ⟨c, (serve c s).1⟩ :: (k (serve c s).1).log serve (serve c s).2

/-- After a program that raised, the rest of a sequence makes no call. -/
theorem log_bind_error {f : α → Prog I β} {e : I.Err} :
    ∀ {p : Prog I α} {s : σ}, (p.run serve s).1 = .error e → (p >>= f).log serve s = p.log serve s
  | ret _, _, h => by cases h
  | raise _, _, _ => rfl
  | call c k, s, h => by
    have ih := log_bind_error (f := f) (p := k (serve c s).1) (s := (serve c s).2) h
    rw [call_bind, log, log, ih]

/-- A program that follows a protocol makes the calls it allows, and ends as it
says. -/
theorem Follows.log (serve : (c : I.Call) → σ → I.Out c × σ) (hcan : ∀ c s, can c (serve c s).1)
    {Q : P.Phase → Except I.Err α → Prop} :
    ∀ {p : Prog I α} {q : P.Phase} {s : σ}, p.Follows P can Q q →
      (∀ u c v w, p.log serve s = u ++ ⟨c, v⟩ :: w → P.allows (P.after q u) c) ∧
        Q (P.after q (p.log serve s)) (p.run serve s).1
  | ret _, _, _, hp => ⟨fun u c v w h => by simp [Prog.log] at h, hp⟩
  | raise _, _, _, hp => ⟨fun u c v w h => by simp [Prog.log] at h, hp⟩
  | call c k, q, s, hp => by
    obtain ⟨hallowed, hends⟩ := Follows.log serve hcan (s := (serve c s).2) (hp.2 _ (hcan c s))
    refine ⟨fun u c' v w h => ?_, hends⟩
    cases u with
    | nil =>
      simp only [Prog.log, List.nil_append, List.cons.injEq, Sigma.mk.injEq] at h
      obtain ⟨⟨rfl, -⟩, -⟩ := h
      exact hp.1
    | cons x u =>
      simp only [Prog.log, List.cons_append, List.cons.injEq] at h
      obtain ⟨rfl, h⟩ := h
      exact hallowed u c' v w h

theorem Makes.log {C : I.Call → Prop} (serve : (c : I.Call) → σ → I.Out c × σ) :
    ∀ {p : Prog I α} {s : σ}, p.Makes C → ∀ x ∈ p.log serve s, C x.1
  | ret _, _, _, x, hx => by cases hx
  | raise _, _, _, x, hx => by cases hx
  | call c k, s, hp, x, hx => by
    rcases List.mem_cons.mp hx with rfl | hx
    · exact hp.1
    · exact (hp.2 _).log serve x hx

theorem Yields.mono {Q Q' : σ → Except I.Err α → Prop} {p : Prog I α} {s : σ} (hp : p.Yields serve Q s)
    (h : ∀ s r, Q s r → Q' s r) : p.Yields serve Q' s := h _ _ hp

end Prog
end Conc
