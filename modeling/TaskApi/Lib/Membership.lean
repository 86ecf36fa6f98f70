/-
# Who is a member

Anyone joins and leaves groups. Of a history, newest change first, the members of a
group are those who have joined it, in the order in which they did, without those who
have left it since. As long as nobody joins a group twice, one more change adds at the
end or takes out (`members_join`, `members_leave`).

Key definitions: `Change`, `joined`, `LeftSince`, `members`, `JoinsOnce`.
Key theorems: `members_nodup`, `members_join`, `members_leave`, `LeftSince.not_mem`.
-/
import Mathlib.Data.List.Nodup

namespace Membership

variable {κ α : Type}

inductive Change (κ α : Type) where
  | join (group : κ) (who : α)
  | leave (group : κ) (who : α)
deriving DecidableEq

variable [DecidableEq κ]

/-- Everyone who has joined the group, in order. -/
def joined (group : κ) : List (Change κ α) → List α
  | [] => []
  | .join group' who :: log => if group' = group then joined group log ++ [who] else joined group log
  | .leave _ _ :: log => joined group log

/-- Nobody has joined a group twice. -/
def JoinsOnce (log : List (Change κ α)) : Prop := ∀ group, (joined group log).Nodup

variable {group group' : κ} {who : α} {log : List (Change κ α)} {change : Change κ α}

theorem JoinsOnce.of_cons (h : JoinsOnce (change :: log)) : JoinsOnce log := by
  intro group
  have hnodup := h group
  cases change with
  | join group' who =>
    unfold joined at hnodup
    split_ifs at hnodup
    · exact (List.nodup_append.mp hnodup).1
    · exact hnodup
  | leave group' who => exact hnodup

theorem JoinsOnce.not_joined (h : JoinsOnce (.join group who :: log)) : who ∉ joined group log := by
  have hnodup := h group
  rw [joined, if_pos rfl] at hnodup
  intro hmem
  exact (List.nodup_append.mp hnodup).2.2 who hmem who (List.mem_singleton_self who) rfl

variable [DecidableEq α]

/-- Left after the latest join, if there was one. -/
def LeftSince (group : κ) (who : α) (log : List (Change κ α)) : Prop :=
  .leave group who ∈ log.takeWhile (· ≠ .join group who)

instance (group : κ) (who : α) (log : List (Change κ α)) : Decidable (LeftSince group who log) :=
  inferInstanceAs (Decidable (_ ∈ _))

/-- Those who have joined and not left since. -/
def members (group : κ) (log : List (Change κ α)) : List α :=
  (joined group log).filter fun who => ¬ LeftSince group who log

theorem leftSince_cons_of_ne (h : change ≠ .join group who) :
    LeftSince group who (change :: log) ↔ change = .leave group who ∨ LeftSince group who log := by
  unfold LeftSince
  rw [List.takeWhile_cons_of_pos (by simpa using h), List.mem_cons, eq_comm]

theorem not_leftSince_join : ¬ LeftSince group who (.join group who :: log) := by
  simp [LeftSince]

theorem members_nodup (h : JoinsOnce log) (group : κ) : (members group log).Nodup :=
  (h group).filter _

/-- Who joins comes last. -/
theorem members_join (h : JoinsOnce (.join group who :: log)) :
    members group (.join group who :: log) = members group log ++ [who] := by
  have hold : ∀ x ∈ joined group log, LeftSince group x (.join group who :: log) ↔ LeftSince group x log := by
    intro x hx
    have hne : (Change.join group who : Change κ α) ≠ .join group x := by
      rintro ⟨⟩
      exact h.not_joined hx
    rw [leftSince_cons_of_ne hne]
    simp
  unfold members
  rw [joined, if_pos rfl, List.filter_append]
  congr 1
  · exact List.filter_congr fun x hx => by rw [decide_eq_decide, hold x hx]
  · simp [not_leftSince_join]

theorem members_join_ne (h : group' ≠ group) :
    members group (.join group' who :: log) = members group log := by
  unfold members
  rw [joined, if_neg h]
  refine List.filter_congr fun x _ => ?_
  rw [decide_eq_decide, leftSince_cons_of_ne (by simp [h])]
  simp

/-- Who leaves is taken out. -/
theorem members_leave : members group (.leave group who :: log) = (members group log).filter (· ≠ who) := by
  unfold members
  rw [joined, List.filter_filter]
  refine List.filter_congr fun x _ => ?_
  rw [← Bool.decide_and, decide_eq_decide, leftSince_cons_of_ne (by simp)]
  simp [eq_comm]

theorem members_leave_ne (h : group' ≠ group) :
    members group (.leave group' who :: log) = members group log := by
  unfold members
  rw [joined]
  refine List.filter_congr fun x _ => ?_
  rw [decide_eq_decide, leftSince_cons_of_ne (by simp)]
  simp [h]

/-- Who has left and not joined again is no member. -/
theorem LeftSince.not_mem (h : LeftSince group who log) : who ∉ members group log := by
  simp [members, h]

end Membership
