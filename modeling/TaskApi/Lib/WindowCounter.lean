/-
# Fixed windows

A counter that admits at most `limit` requests in a window of a given width. The
first request opens a window, and the first one after its end opens the next, so
windows start anywhere, but never less than a width apart: any half-open interval
of that width meets at most two of them.

Key definitions: `WindowCounter.check`, `WindowCounter.Bounded`.
Key theorems: `Bounded.check`, `Bounded.sublist`.
-/
import Mathlib.Algebra.Order.Group.Int
import Mathlib.Algebra.Order.Group.Defs
import Mathlib.Data.List.Count
import Mathlib.Order.Basic

namespace WindowCounter

/-! ### Times in an interval -/

section Order

variable {T : Type} [LinearOrder T]

/-- The number of times from `a` on. -/
def since (a : T) (ts : List T) : ℕ := ts.countP fun t => decide (a ≤ t)

/-- The number of times from `a` on and before `b`. -/
def between (a b : T) (ts : List T) : ℕ := ts.countP fun t => decide (a ≤ t ∧ t < b)

@[simp] theorem since_nil (a : T) : since a [] = 0 := rfl
@[simp] theorem between_nil (a b : T) : between a b [] = 0 := rfl

theorem since_cons (a t : T) (ts : List T) : since a (t :: ts) = since a ts + if a ≤ t then 1 else 0 := by
  simp [since, List.countP_cons]

theorem between_cons (a b t : T) (ts : List T) :
    between a b (t :: ts) = between a b ts + if a ≤ t ∧ t < b then 1 else 0 := by
  simp [between, List.countP_cons]

theorem since_eq_zero {a : T} {ts : List T} (h : ∀ t ∈ ts, t < a) : since a ts = 0 := by
  refine List.countP_eq_zero.mpr fun t ht => ?_
  simpa using h t ht

theorem between_le_since {a b m : T} (h : m ≤ a) (ts : List T) : between a b ts ≤ since m ts := by
  refine List.countP_mono_left fun t _ ht => ?_
  rw [decide_eq_true_eq] at ht ⊢
  exact h.trans ht.1

theorem between_mono {a a' b : T} (h : a' ≤ a) (ts : List T) : between a b ts ≤ between a' b ts := by
  refine List.countP_mono_left fun t _ ht => ?_
  rw [decide_eq_true_eq] at ht ⊢
  exact ⟨h.trans ht.1, ht.2⟩

/-- An interval can be cut anywhere. -/
theorem between_le_add (a b m : T) (ts : List T) : between a b ts ≤ between a m ts + since m ts := by
  induction ts with
  | nil => rfl
  | cons t ts ih =>
    rw [between_cons, between_cons, since_cons]
    by_cases ht : a ≤ t ∧ t < b
    · rcases lt_or_ge t m with hm | hm
      · rw [if_pos ht, if_pos ⟨ht.1, hm⟩]
        omega
      · rw [if_pos ht, if_pos hm]
        omega
    · rw [if_neg ht]
      omega

end Order

/-! ### The counter -/

/-- An open window: when it started, and how many requests it has admitted. -/
structure Window (T : Type) where
  start : T
  admitted : ℤ

variable {T : Type} [AddCommGroup T] [LinearOrder T]

/-- A request at time `now`: whether it is admitted, and the window after it. -/
def check (limit : ℤ) (width : T) (w : Option (Window T)) (now : T) : Bool × Option (Window T) :=
  match w with
  | none => (true, some ⟨now, 1⟩)
  | some w =>
    if w.start + width ≤ now then (true, some ⟨now, 1⟩)
    else if w.admitted < limit then (true, some ⟨w.start, w.admitted + 1⟩)
    else (false, some w)

/-- What a window knows of the times `ts` at which requests were admitted. -/
structure Window.Covers (limit : ℤ) (width : T) (w : Window T) (ts : List T) : Prop where
  inside : ∀ t ∈ ts, t < w.start + width
  counted : (since w.start ts : ℤ) ≤ w.admitted
  admitted_le : w.admitted ≤ limit
  /-- The stretch before the window, as long as a window. -/
  before : (between (w.start - width) w.start ts : ℤ) ≤ limit

/-- The admissions `ts` of a counter: its window covers them, and no interval of
the width holds more than two windows' worth. -/
structure Bounded (limit : ℤ) (width : T) (w : Option (Window T)) (ts : List T) : Prop where
  empty : w = none → ts = []
  covers : ∀ x, w = some x → x.Covers limit width ts
  interval : ∀ a, (between a (a + width) ts : ℤ) ≤ 2 * limit

namespace Bounded

variable {limit : ℤ} {width : T} {w : Option (Window T)} {ts : List T} {now : T}

theorem init (h : 1 ≤ limit) : Bounded limit width none ([] : List T) :=
  ⟨fun _ => rfl, nofun, fun a => by
    rw [between_nil]
    omega⟩

/-- Admissions that did not take place are not counted. -/
theorem sublist {ts' : List T} (h : Bounded limit width w ts) (hts : ts'.Sublist ts) :
    Bounded limit width w ts' := by
  refine ⟨fun hw => ?_, fun x hx => ?_, fun a => ?_⟩
  · rw [h.empty hw] at hts
    exact List.sublist_nil.mp hts
  · obtain ⟨hinside, hcounted, hle, hbefore⟩ := h.covers x hx
    have hsince : since x.start ts' ≤ since x.start ts := hts.countP_le
    have hbetween : between (x.start - width) x.start ts' ≤ between (x.start - width) x.start ts := hts.countP_le
    exact ⟨fun t ht => hinside t (hts.subset ht), by omega, hle, by omega⟩
  · have hbetween : between a (a + width) ts' ≤ between a (a + width) ts := hts.countP_le
    have := h.interval a
    omega

/-- Nothing is known to have been admitted in a window that was found. -/
theorem found {x : Window T} (h0 : 0 ≤ x.admitted) (hle : x.admitted ≤ limit) :
    Bounded limit width (some x) ([] : List T) := by
  refine ⟨nofun, ?_, fun a => ?_⟩
  · rintro _ ⟨⟩
    exact ⟨nofun, by rw [since_nil]; exact h0, hle, by rw [between_nil]; exact h0.trans hle⟩
  · rw [between_nil]
    omega

variable [IsOrderedAddMonoid T]

/-- A new window opens at `now`, after every admission so far. -/
theorem reopen (hlimit : 1 ≤ limit) (hwidth : 0 < width) (hold : ∀ t ∈ ts, t < now)
    (hrecent : (between (now - width) now ts : ℤ) ≤ limit)
    (hinterval : ∀ a, (between a (a + width) ts : ℤ) ≤ 2 * limit) :
    Bounded limit width (some ⟨now, 1⟩) (now :: ts) := by
  refine ⟨nofun, fun x hx => ?_, fun a => ?_⟩
  · cases hx
    refine ⟨fun t ht => ?_, ?_, hlimit, ?_⟩
    · rcases List.mem_cons.mp ht with rfl | ht
      · exact lt_add_of_pos_right _ hwidth
      · exact (hold t ht).trans (lt_add_of_pos_right _ hwidth)
    · rw [since_cons, since_eq_zero hold, if_pos le_rfl]
      simp
    · rw [between_cons, if_neg fun h => lt_irrefl _ h.2]
      simpa using hrecent
  · rw [between_cons]
    by_cases ha : a ≤ now ∧ now < a + width
    · -- what else the interval holds is less than a width old
      have hle : between a (a + width) ts ≤ between (now - width) now ts + since now ts :=
        (between_le_add a (a + width) now ts).trans
          (Nat.add_le_add_right (between_mono (sub_lt_iff_lt_add.mpr ha.2).le ts) _)
      rw [since_eq_zero hold] at hle
      rw [if_pos ha]
      push_cast
      omega
    · rw [if_neg ha]
      simpa using hinterval a

/-- The window stays open and admits one more. -/
theorem counted {x : Window T} (h : Bounded limit width (some x) ts) (hstart : x.start ≤ now)
    (hopen : now < x.start + width) (hroom : x.admitted < limit) :
    Bounded limit width (some ⟨x.start, x.admitted + 1⟩) (now :: ts) := by
  obtain ⟨hinside, hcounted, -, hbefore⟩ := h.covers x rfl
  have hsince : since x.start (now :: ts) = since x.start ts + 1 := by rw [since_cons, if_pos hstart]
  have hbefore' : ∀ a, between a x.start (now :: ts) = between a x.start ts := fun a => by
    rw [between_cons, if_neg fun h => absurd h.2 (not_lt.mpr hstart)]
    rfl
  refine ⟨nofun, fun y hy => ?_, fun a => ?_⟩
  · cases hy
    refine ⟨fun t ht => ?_, ?_, Int.add_one_le_iff.mpr hroom, ?_⟩
    · rcases List.mem_cons.mp ht with rfl | ht
      · exact hopen
      · exact hinside t ht
    · rw [hsince]
      push_cast
      omega
    · rw [hbefore']
      exact hbefore
  · by_cases ha : a ≤ now ∧ now < a + width
    · have hlow : x.start - width ≤ a := by
        have := sub_lt_iff_lt_add.mpr ha.2
        exact ((sub_le_sub_right hstart width).trans_lt this).le
      have hcut := between_le_add a (a + width) x.start (now :: ts)
      rw [hsince, hbefore'] at hcut
      have hmono := between_mono (b := x.start) hlow ts
      omega
    · rw [between_cons, if_neg ha]
      simpa using h.interval a

/-- One request keeps the bound, at a time that is not before its window. -/
theorem check (hlimit : 1 ≤ limit) (hwidth : 0 < width) (h : Bounded limit width w ts)
    (hnow : ∀ x, w = some x → x.start ≤ now) :
    Bounded limit width (WindowCounter.check limit width w now).2
      (if (WindowCounter.check limit width w now).1 then now :: ts else ts) := by
  cases w with
  | none =>
    obtain rfl := h.empty rfl
    exact reopen hlimit hwidth (by simp) (by simp; omega) h.interval
  | some x =>
    obtain ⟨hinside, hcounted, hle, hbefore⟩ := h.covers x rfl
    unfold WindowCounter.check
    by_cases hclosed : x.start + width ≤ now
    · have hrecent := between_le_since (b := now) (le_sub_iff_add_le.mpr hclosed) ts
      simp only [if_pos hclosed]
      exact reopen hlimit hwidth (fun t ht => (hinside t ht).trans_le hclosed) (by omega) h.interval
    · simp only [if_neg hclosed]
      by_cases hroom : x.admitted < limit
      · simp only [if_pos hroom]
        exact h.counted (hnow x rfl) (not_le.mp hclosed) hroom
      · simp only [if_neg hroom]
        exact h

end Bounded

/-- The window after a request has started by then. -/
theorem check_start {limit : ℤ} {width : T} {w : Option (Window T)} {now : T} (h : ∀ x, w = some x → x.start ≤ now) :
    ∀ x, (check limit width w now).2 = some x → x.start ≤ now := by
  unfold check
  split
  · rintro _ ⟨⟩
    exact le_rfl
  · rename_i x
    split_ifs
    · rintro _ ⟨⟩
      exact le_rfl
    · rintro _ ⟨⟩
      exact h x rfl
    · exact h

end WindowCounter
