/-
# A log with one record for each key

Records are appended to a log under fresh ids, and an index keeps the id of each
key's record; a record whose key is in the index is not appended again. So of
all writes of a key the log holds the first one (`WrittenOnce`). A write is an
event of a history, newest first, by whatever relation the history has.

Key definitions: `FirstWrite`, `WrittenOnce`.
Key theorems: `exists_firstWrite`, `WrittenOnce.skip`, `WrittenOnce.add`,
`WrittenOnce.unique`.
-/
import Mathlib.Data.List.Nodup
import Mathlib.Logic.Function.Basic

namespace OnceLog

variable {ε ρ κ ι : Type} (wrote : ε → ρ → Prop) (key : ρ → κ)

/-- The record was written, and none of its key before it. -/
def FirstWrite (history : List ε) (r : ρ) : Prop :=
  ∃ u e v, history = u ++ e :: v ∧ wrote e r ∧ ∀ e' ∈ v, ∀ r', wrote e' r' → key r' ≠ key r

/-- The log of a history and its index. -/
structure WrittenOnce (history : List ε) (log : List (ι × ρ)) (index : κ → Option ι) : Prop where
  nodup_id : (log.map Prod.fst).Nodup
  nodup_key : (log.map fun l => key l.2).Nodup
  index_iff : ∀ k x, index k = some x ↔ ∃ r, (x, r) ∈ log ∧ key r = k
  first : ∀ r, r ∈ log.map Prod.snd ↔ FirstWrite wrote key history r

variable {wrote key} {history : List ε} {e : ε} {r r' : ρ}

theorem FirstWrite.cons (h : FirstWrite wrote key history r) (e : ε) : FirstWrite wrote key (e :: history) r := by
  obtain ⟨u, e', v, rfl, hwrote, hfirst⟩ := h
  exact ⟨e :: u, e', v, rfl, hwrote, hfirst⟩

theorem firstWrite_cons : FirstWrite wrote key (e :: history) r ↔
    FirstWrite wrote key history r ∨ (wrote e r ∧ ∀ e' ∈ history, ∀ r', wrote e' r' → key r' ≠ key r) := by
  constructor
  · rintro ⟨u, e', v, h, hwrote, hfirst⟩
    cases u with
    | nil =>
      cases h
      exact .inr ⟨hwrote, hfirst⟩
    | cons e'' u =>
      cases h
      exact .inl ⟨u, e', v, rfl, hwrote, hfirst⟩
  · rintro (h | ⟨hwrote, hfirst⟩)
    · exact h.cons e
    · exact ⟨[], e, history, rfl, hwrote, hfirst⟩

/-- A key that was written has a first write. -/
theorem exists_firstWrite (key : ρ → κ) {history : List ε} (h : ∃ e ∈ history, wrote e r) :
    ∃ r', key r' = key r ∧ FirstWrite wrote key history r' := by
  induction history generalizing r with
  | nil => simp at h
  | cons e history ih =>
    by_cases hbefore : ∃ e' ∈ history, ∃ r', wrote e' r' ∧ key r' = key r
    · obtain ⟨e', he', r', hwrote, hkey⟩ := hbefore
      obtain ⟨r'', hkey', hfirst⟩ := ih ⟨e', he', hwrote⟩
      exact ⟨r'', hkey'.trans hkey, hfirst.cons e⟩
    · obtain ⟨e', he', hwrote⟩ := h
      rcases List.mem_cons.mp he' with rfl | he'
      · refine ⟨r, rfl, firstWrite_cons.mpr (.inr ⟨hwrote, fun e'' he'' r' hwrote' hkey => hbefore ?_⟩)⟩
        exact ⟨e'', he'', r', hwrote', hkey⟩
      · exact absurd ⟨e', he', r, hwrote, rfl⟩ hbefore

namespace WrittenOnce

variable {log : List (ι × ρ)} {index : κ → Option ι} {x x' : ι}

theorem nil : WrittenOnce wrote key ([] : List ε) ([] : List (ι × ρ)) fun _ => none where
  nodup_id := List.nodup_nil
  nodup_key := List.nodup_nil
  index_iff k x := by simp
  first r := by simp [FirstWrite]

/-- A key that is not in the index was not written. -/
theorem not_wrote (h : WrittenOnce wrote key history log index) (hkey : index (key r) = none) :
    ∀ e ∈ history, ∀ r', wrote e r' → key r' ≠ key r := by
  intro e he r' hwrote heq
  obtain ⟨r'', hkey', hfirst⟩ := exists_firstWrite key ⟨e, he, hwrote⟩
  obtain ⟨⟨x, r₀⟩, hmem, rfl⟩ := List.mem_map.mp ((h.first r'').mpr hfirst)
  have hindex := (h.index_iff (key r) x).mpr ⟨_, hmem, hkey'.trans heq⟩
  rw [hkey] at hindex
  cases hindex

/-- An event that writes nothing, or writes a key again, leaves the log as it is. -/
theorem skip (h : WrittenOnce wrote key history log index) (he : ∀ r, wrote e r → index (key r) ≠ none) :
    WrittenOnce wrote key (e :: history) log index where
  nodup_id := h.nodup_id
  nodup_key := h.nodup_key
  index_iff := h.index_iff
  first r := by
    rw [h.first, firstWrite_cons]
    refine ⟨.inl, fun hr => hr.resolve_right ?_⟩
    rintro ⟨hwrote, hfirst⟩
    obtain ⟨x, hx⟩ := Option.ne_none_iff_exists'.mp (he r hwrote)
    obtain ⟨r', hmem, hkey⟩ := (h.index_iff _ _).mp hx
    obtain ⟨u, e', v, rfl, hwrote', -⟩ := (h.first r').mp (List.mem_map.mpr ⟨_, hmem, rfl⟩)
    exact hfirst e' (by simp) r' hwrote' hkey

/-- A new key is appended under a fresh id. -/
theorem add [DecidableEq κ] (h : WrittenOnce wrote key history log index) (he : ∀ r', wrote e r' ↔ r' = r)
    (hkey : index (key r) = none) (hx : x ∉ log.map Prod.fst) :
    WrittenOnce wrote key (e :: history) (log ++ [(x, r)]) (Function.update index (key r) (some x)) where
  nodup_id := by
    rw [List.map_append, List.nodup_append]
    refine ⟨h.nodup_id, List.nodup_singleton _, fun y hy z hz => ?_⟩
    rintro rfl
    obtain rfl : y = x := List.mem_singleton.mp hz
    exact hx hy
  nodup_key := by
    rw [List.map_append, List.nodup_append]
    refine ⟨h.nodup_key, List.nodup_singleton _, fun k hk k' hk' heq => ?_⟩
    obtain ⟨⟨y, r'⟩, hmem, rfl⟩ := List.mem_map.mp hk
    have hindex := (h.index_iff (key r) y).mpr ⟨r', hmem, heq.trans (List.mem_singleton.mp hk')⟩
    rw [hkey] at hindex
    cases hindex
  index_iff k y := by
    by_cases hk : k = key r
    · subst hk
      rw [Function.update_self]
      constructor
      · rintro ⟨⟩
        exact ⟨r, by simp, rfl⟩
      · rintro ⟨r', hmem, hkey'⟩
        rcases List.mem_append.mp hmem with hmem | hmem
        · rw [(h.index_iff _ _).mpr ⟨r', hmem, hkey'⟩] at hkey
          cases hkey
        · rw [(Prod.mk.inj (List.mem_singleton.mp hmem)).1]
    · rw [Function.update_of_ne hk, h.index_iff]
      refine exists_congr fun r' => ⟨fun ⟨hmem, hkey'⟩ => ⟨List.mem_append_left _ hmem, hkey'⟩, ?_⟩
      rintro ⟨hmem, hkey'⟩
      rcases List.mem_append.mp hmem with hmem | hmem
      · exact ⟨hmem, hkey'⟩
      · rw [(Prod.mk.inj (List.mem_singleton.mp hmem)).2] at hkey'
        exact absurd hkey'.symm hk
  first r' := by
    rw [firstWrite_cons, ← h.first, List.map_append, List.mem_append]
    refine or_congr Iff.rfl ?_
    rw [List.map_singleton, List.mem_singleton, he]
    refine ⟨fun hr => ⟨hr, ?_⟩, And.left⟩
    subst hr
    exact h.not_wrote hkey

/-- A key has one record. -/
theorem unique (h : WrittenOnce wrote key history log index) (hr : (x, r) ∈ log) (hr' : (x', r') ∈ log)
    (hkey : key r = key r') : x = x' ∧ r = r' :=
  Prod.mk.inj (List.inj_on_of_nodup_map h.nodup_key hr hr' hkey)

end WrittenOnce

end OnceLog
