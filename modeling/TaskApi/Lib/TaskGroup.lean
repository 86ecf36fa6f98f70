/-
# Groups of concurrent tasks

A group runs its children at the same time and ends when all of them have. Here
a child does everything it does in one step, when it completes, so a run of the
group is the list of its children in the order in which they complete. When a
child raises, the children that have not completed are cancelled, which does
nothing, and the group raises.

Key definitions: `taskGroup`.
Key theorems: `taskGroup_returns_iff`, `taskGroup_invariant`.
-/
import Mathlib.Data.List.Basic

namespace Conc

variable {ι σ ε : Type}

/-- The children complete in this order: how the group ends (with the errors of
its children, if it raises), and the state it leaves. -/
def taskGroup (child : ι → σ → Except ε Unit × σ) : List ι → σ → Except (List ε) Unit × σ
  | [], s => (.ok (), s)
  | i :: order, s =>
    match (child i s).1 with
    | .ok _ => taskGroup child order (child i s).2
    | .error e => (.error [e], (child i s).2)

variable {child : ι → σ → Except ε Unit × σ} {raises : ι → Option ε}

/-- The group returns exactly if none of its children raises, for children that
raise or not whatever the state is. -/
theorem taskGroup_returns_iff (hok : ∀ i s, raises i = none → (child i s).1 = .ok ())
    (herror : ∀ i s e, raises i = some e → (child i s).1 = .error e) :
    ∀ (order : List ι) (s : σ), (taskGroup child order s).1 = .ok () ↔ ∀ i ∈ order, raises i = none
  | [], s => by simp [taskGroup]
  | i :: order, s => by
    unfold taskGroup
    cases hraises : raises i with
    | none =>
      rw [hok i s hraises]
      simp only [List.mem_cons, forall_eq_or_imp, hraises, true_and]
      exact taskGroup_returns_iff hok herror order _
    | some e =>
      rw [herror i s e hraises]
      simp [hraises]

/-- What each completion keeps, of the children still to complete and the state,
holds of the state the group leaves when it returns. -/
theorem taskGroup_invariant {P : List ι → σ → Prop}
    (step : ∀ i order s, P (i :: order) s → (child i s).1 = .ok () → P order (child i s).2) :
    ∀ {order : List ι} {s : σ}, P order s → (taskGroup child order s).1 = .ok () →
      P [] (taskGroup child order s).2
  | [], _, h, _ => h
  | i :: order, s, h, hok => by
    unfold taskGroup at hok ⊢
    cases hchild : (child i s).1 with
    | ok _ =>
      rw [hchild] at hok
      exact taskGroup_invariant step (step i order s h hchild) hok
    | error e =>
      rw [hchild] at hok
      cases hok

end Conc
