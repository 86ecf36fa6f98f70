/-
# Items numbered as they come

An event of a history may stand for an item. The first event of an item gives it
the next number, and the number is kept under a label; later events of the item
change nothing. So the items seen so far are a list without repetitions, in the
order of their first events, and the label kept for each is that of its place
(`Numbered`).

Key definitions: `Numbered`.
Key theorems: `Numbered.skip`, `Numbered.add`, `Numbered.bijOn`.
-/
import Mathlib.Data.List.Nodup
import Mathlib.Data.Set.Card
import Mathlib.Logic.Function.Basic
import Mathlib.Order.Interval.Set.Basic

namespace Numbering

variable {ε α β : Type} (stands : ε → α → Prop) (label : ℕ → β)

/-- The items of a history, newest event first, and what is kept for each. -/
structure Numbered (history : List ε) (items : List α) (kept : α → Option β) : Prop where
  nodup : items.Nodup
  mem_iff : ∀ a, a ∈ items ↔ ∃ e ∈ history, stands e a
  kept_get : ∀ i (h : i < items.length), kept items[i] = some (label (i + 1))
  kept_none : ∀ a, a ∉ items → kept a = none

namespace Numbered

variable {stands label} {history : List ε} {items : List α} {kept : α → Option β} {e : ε} {a : α}

theorem nil : Numbered stands label [] [] fun _ => none where
  nodup := List.nodup_nil
  mem_iff a := by simp
  kept_get i h := absurd h (Nat.not_lt_zero i)
  kept_none _ _ := rfl

theorem not_mem_of_kept (h : Numbered stands label history items kept) (ha : kept a = none) : a ∉ items := by
  intro hmem
  obtain ⟨i, hi, rfl⟩ := List.getElem_of_mem hmem
  have hkept := h.kept_get i hi
  rw [ha] at hkept
  cases hkept

/-- What is kept is the label of a place. -/
theorem exists_of_kept (h : Numbered stands label history items kept) {b : β} (hb : kept a = some b) :
    ∃ i, items[i]? = some a ∧ b = label (i + 1) := by
  have hmem : a ∈ items := by
    by_contra hmem
    have hnone := h.kept_none a hmem
    rw [hb] at hnone
    cases hnone
  obtain ⟨i, hi, rfl⟩ := List.getElem_of_mem hmem
  have hkept := h.kept_get i hi
  rw [hb] at hkept
  exact ⟨i, List.getElem?_eq_getElem hi, Option.some.inj hkept⟩

theorem kept_of_get (h : Numbered stands label history items kept) {i : ℕ} (hi : items[i]? = some a) :
    kept a = some (label (i + 1)) := by
  obtain ⟨hlt, rfl⟩ := List.getElem?_eq_some_iff.mp hi
  exact h.kept_get i hlt

/-- An event that stands for nothing new. -/
theorem skip (h : Numbered stands label history items kept) (he : ∀ a, stands e a → a ∈ items) :
    Numbered stands label (e :: history) items kept where
  nodup := h.nodup
  mem_iff a := by
    rw [h.mem_iff]
    constructor
    · rintro ⟨e', he', hstands⟩
      exact ⟨e', List.mem_cons_of_mem _ he', hstands⟩
    · rintro ⟨e', he', hstands⟩
      rcases List.mem_cons.mp he' with rfl | he'
      · exact (h.mem_iff a).mp (he a hstands)
      · exact ⟨e', he', hstands⟩
  kept_get := h.kept_get
  kept_none := h.kept_none

/-- A new item is given the next number. -/
theorem add [DecidableEq α] (h : Numbered stands label history items kept) (he : ∀ a', stands e a' ↔ a' = a)
    (ha : a ∉ items) :
    Numbered stands label (e :: history) (items ++ [a])
      (Function.update kept a (some (label (items.length + 1)))) where
  nodup := by
    rw [List.nodup_append]
    refine ⟨h.nodup, List.nodup_singleton a, fun b hb b' hb' => ?_⟩
    rintro rfl
    obtain rfl : b = a := List.mem_singleton.mp hb'
    exact ha hb
  mem_iff a' := by
    rw [List.mem_append, List.mem_singleton, h.mem_iff]
    constructor
    · rintro (⟨e', he', hstands⟩ | rfl)
      · exact ⟨e', List.mem_cons_of_mem _ he', hstands⟩
      · exact ⟨e, List.mem_cons_self, (he a').mpr rfl⟩
    · rintro ⟨e', he', hstands⟩
      rcases List.mem_cons.mp he' with rfl | he'
      · exact .inr ((he a').mp hstands)
      · exact .inl ⟨e', he', hstands⟩
  kept_get i hi := by
    rw [List.length_append, List.length_singleton] at hi
    by_cases hlt : i < items.length
    · have hne : items[i] ≠ a := fun heq => ha (heq ▸ List.getElem_mem hlt)
      rw [List.getElem_append_left hlt, Function.update_of_ne hne]
      exact h.kept_get i hlt
    · obtain rfl : i = items.length := by omega
      rw [List.getElem_concat_length rfl, Function.update_self]
  kept_none a' ha' := by
    rw [List.mem_append, List.mem_singleton, not_or] at ha'
    rw [Function.update_of_ne ha'.2]
    exact h.kept_none a' ha'.1

/-- As long as no two numbers have one label, the items are numbered from one to
how many they are. -/
theorem bijOn (h : Numbered stands label history items kept)
    (hlabel : ∀ i j, i ∈ Set.Icc 1 items.length → j ∈ Set.Icc 1 items.length → label i = label j → i = j) :
    Set.BijOn kept {a | ∃ e ∈ history, stands e a} ((fun n => some (label n)) '' Set.Icc 1 items.length) := by
  have hitems : {a | ∃ e ∈ history, stands e a} = {a | a ∈ items} := by
    ext a
    exact (h.mem_iff a).symm
  rw [hitems]
  refine ⟨fun a ha => ?_, fun a ha a' ha' heq => ?_, ?_⟩
  · obtain ⟨i, hi, rfl⟩ := List.getElem_of_mem ha
    exact ⟨i + 1, ⟨by omega, by omega⟩, (h.kept_get i hi).symm⟩
  · obtain ⟨i, hi, rfl⟩ := List.getElem_of_mem ha
    obtain ⟨j, hj, rfl⟩ := List.getElem_of_mem ha'
    rw [h.kept_get i hi, h.kept_get j hj] at heq
    have hij : i + 1 = j + 1 := hlabel _ _ ⟨by omega, by omega⟩ ⟨by omega, by omega⟩ (Option.some.inj heq)
    obtain rfl : i = j := by omega
    rfl
  · rintro _ ⟨n, ⟨hn, hn'⟩, rfl⟩
    obtain ⟨i, rfl⟩ : ∃ i, n = i + 1 := ⟨n - 1, by omega⟩
    exact ⟨items[i], List.getElem_mem (by omega), h.kept_get i (by omega)⟩

theorem encard (h : Numbered stands label history items kept) :
    {a | ∃ e ∈ history, stands e a}.encard = items.length := by
  classical
  have hitems : {a | ∃ e ∈ history, stands e a} = (items.toFinset : Set α) := by
    rw [List.coe_toFinset]
    ext a
    exact (h.mem_iff a).symm
  rw [hitems, Set.encard_coe_eq_coe_finsetCard, List.toFinset_card_of_nodup h.nodup]

end Numbered

end Numbering
