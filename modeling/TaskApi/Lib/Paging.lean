/-
# Reading a changing set page by page

A reader asks for page 0, 1, 2, … of a set in its order, and the set may change between two
pages: elements go, and new ones come. Where an element stands is how many are below it
(`rank`), so it moves down when one below it goes, and never up as long as what is new is above
all there was (`GrowsAbove`). A reader then never sees an element twice, and misses none that
stays in its place.

Key definitions: `page`, `pages`, `rank`, `GrowsAbove`.
Key theorems: `mem_page`, `pages_sorted`, `pages_complete`.
-/
import Mathlib.Data.Finset.Sort

namespace Paging

variable {α : Type*} [LinearOrder α]

/-- Page `k` of a set. -/
def page (size k : ℕ) (s : Finset α) : List α := ((s.sort (· ≤ ·)).drop (k * size)).take size

/-- One page after another, each of the set as it is when its turn comes. -/
def pages (size : ℕ) (ss : List (Finset α)) : List (List α) := ss.mapIdx (page size)

/-- How many of the set are below. -/
def rank (s : Finset α) (x : α) : ℕ := (s.filter (· < x)).card

/-- What is new is above all there was. -/
def GrowsAbove (s s' : Finset α) : Prop := ∀ y ∈ s', y ∈ s ∨ ∀ x ∈ s, x < y

variable {s s' : Finset α} {ss : List (Finset α)} {size k : ℕ} {x y : α}

/-! ### Where an element stands -/

theorem rank_congr (h : ∀ y, y < x → (y ∈ s ↔ y ∈ s')) : rank s x = rank s' x := by
  unfold rank
  congr 1
  ext y
  have hy := h y
  simp only [Finset.mem_filter]
  exact and_congr_left hy

theorem rank_mono (h : y ≤ x) : rank s y ≤ rank s x := by
  refine Finset.card_le_card fun z hz => ?_
  simp only [Finset.mem_filter] at hz ⊢
  exact ⟨hz.1, hz.2.trans_le h⟩

theorem rank_lt_card (hx : x ∈ s) : rank s x < s.card := by
  refine Finset.card_lt_card ⟨Finset.filter_subset _ _, fun h => ?_⟩
  have hself := h hx
  simp at hself

/-- An element moves down only. -/
theorem GrowsAbove.rank_le (h : GrowsAbove s s') (hy : y ∈ s) : rank s' y ≤ rank s y := by
  refine Finset.card_le_card fun z hz => ?_
  simp only [Finset.mem_filter] at hz ⊢
  obtain ⟨hmem, hlt⟩ := hz
  rcases h z hmem with hold | habove
  · exact ⟨hold, hlt⟩
  · exact absurd hlt (habove y hy).asymm

theorem length_filter_lt {l : List α} (h : l.Pairwise (· < ·)) : ∀ i (hi : i < l.length),
    (l.filter (· < l[i])).length = i := by
  induction l with
  | nil =>
    intro i hi
    cases hi
  | cons a l ih =>
    obtain ⟨ha, hl⟩ := List.pairwise_cons.mp h
    intro i hi
    cases i with
    | zero =>
      have hnone : l.filter (· < a) = [] := List.filter_eq_nil_iff.mpr fun b hb => by simpa using (ha b hb).le
      simp [hnone]
    | succ i =>
      have hi' : i < l.length := by simpa using hi
      have hlt : a < l[i] := ha _ (List.getElem_mem hi')
      have hrest := ih hl i hi'
      simp [hlt, hrest]

/-- The element at a place has that many below it. -/
theorem rank_sort (s : Finset α) (i : ℕ) (hi : i < (s.sort (· ≤ ·)).length) : rank s (s.sort (· ≤ ·))[i] = i := by
  have hcount := length_filter_lt s.sortedLT_sort.pairwise i hi
  rw [← List.toFinset_card_of_nodup ((s.sort_nodup _).filter _), List.toFinset_filter, s.sort_toFinset] at hcount
  simpa only [rank, decide_eq_true_eq] using hcount

/-! ### One page -/

/-- The elements of a page are those that stand on it. -/
theorem mem_page : x ∈ page size k s ↔ x ∈ s ∧ k * size ≤ rank s x ∧ rank s x < (k + 1) * size := by
  have hsucc : (k + 1) * size = k * size + size := Nat.succ_mul k size
  unfold page
  constructor
  · intro hx
    obtain ⟨i, hi, rfl⟩ := List.getElem_of_mem hx
    have hlength : i < size ∧ k * size + i < (s.sort (· ≤ ·)).length := by
      rw [List.length_take, List.length_drop] at hi
      omega
    have hplace := rank_sort s (k * size + i) hlength.2
    rw [List.getElem_take, List.getElem_drop, hplace]
    refine ⟨(s.mem_sort _).mp (List.getElem_mem _), ?_, ?_⟩ <;> omega
  · rintro ⟨hx, hle, hlt⟩
    obtain ⟨i, hi, rfl⟩ := List.getElem_of_mem ((s.mem_sort (· ≤ ·)).mpr hx)
    rw [rank_sort s i hi] at hle hlt
    have hplace : i - k * size < (((s.sort (· ≤ ·)).drop (k * size)).take size).length := by
      rw [List.length_take, List.length_drop]
      omega
    have hget : (((s.sort (· ≤ ·)).drop (k * size)).take size)[i - k * size] = (s.sort (· ≤ ·))[i] := by
      rw [List.getElem_take, List.getElem_drop]
      congr 1
      omega
    rw [← hget]
    exact List.getElem_mem hplace

theorem page_sorted (size k : ℕ) (s : Finset α) : (page size k s).Pairwise (· < ·) :=
  s.sortedLT_sort.pairwise.sublist ((List.take_sublist _ _).trans (List.drop_sublist _ _))

/-- Nothing stands behind a page that is not full. -/
theorem rank_lt_of_short (h : (page size k s).length < size) (hx : x ∈ s) : rank s x < (k + 1) * size := by
  have hcard := rank_lt_card hx
  have hsucc : (k + 1) * size = k * size + size := Nat.succ_mul k size
  unfold page at h
  rw [List.length_take, List.length_drop, Finset.length_sort] at h
  omega

/-- What stood on an earlier page is below what stands on a later one. -/
theorem GrowsAbove.lt_of_mem_page {k' : ℕ} (h : GrowsAbove s s') (hk : k < k') (hx : x ∈ page size k s)
    (hy : y ∈ page size k' s') : x < y := by
  obtain ⟨hmem, -, hlt⟩ := mem_page.mp hx
  obtain ⟨hmem', hle, -⟩ := mem_page.mp hy
  rcases h y hmem' with hold | habove
  · have hpages : (k + 1) * size ≤ k' * size := Nat.mul_le_mul_right size hk
    have hdown := h.rank_le hold
    by_contra hnot
    have hmono := rank_mono (s := s) (not_lt.mp hnot)
    omega
  · exact habove x hmem

/-! ### All pages -/

theorem pages_concat (size : ℕ) (ss : List (Finset α)) (s : Finset α) :
    pages size (ss ++ [s]) = pages size ss ++ [page size ss.length s] := List.mapIdx_concat

theorem mem_pages : x ∈ (pages size ss).flatten ↔ ∃ k, ∃ h : k < ss.length, x ∈ page size k ss[k] := by
  constructor
  · intro hx
    obtain ⟨l, hl, hx⟩ := List.mem_flatten.mp hx
    obtain ⟨k, hk, rfl⟩ := List.mem_mapIdx.mp hl
    exact ⟨k, hk, hx⟩
  · rintro ⟨k, hk, hx⟩
    exact List.mem_flatten.mpr ⟨_, List.mem_mapIdx.mpr ⟨k, hk, rfl⟩, hx⟩

/-- The pages together are in order, and nothing is on two of them. -/
theorem pages_sorted (h : ss.Pairwise GrowsAbove) : (pages size ss).flatten.Pairwise (· < ·) := by
  induction ss using List.reverseRecOn with
  | nil => exact .nil
  | append_singleton ss s ih =>
    obtain ⟨hss, -, hlast⟩ := List.pairwise_append.mp h
    rw [pages_concat, List.flatten_append, List.flatten_singleton]
    refine List.pairwise_append.mpr ⟨ih hss, page_sorted .., fun x hx y hy => ?_⟩
    obtain ⟨k, hk, hx⟩ := mem_pages.mp hx
    have habove : GrowsAbove ss[k] s := hlast _ (List.getElem_mem hk) s (List.mem_singleton.mpr rfl)
    exact habove.lt_of_mem_page hk hx hy

/-- If the last page is not full, an element is on one of the pages as long as neither it nor
one below it comes or goes. -/
theorem pages_complete (hs : ∀ s' ∈ ss, ∀ y, y ≤ x → (y ∈ s' ↔ y ∈ s)) (hx : x ∈ s) {last : List α}
    (hlast : (pages size ss).getLast? = some last) (hshort : last.length < size) : x ∈ (pages size ss).flatten := by
  have hrank : ∀ s' ∈ ss, rank s' x = rank s x := fun s' hs' => rank_congr fun y hy => hs s' hs' y hy.le
  have hmem : ∀ s' ∈ ss, x ∈ s' := fun s' hs' => (hs s' hs' x le_rfl).mpr hx
  have hbound : rank s x < ss.length * size := by
    rcases List.eq_nil_or_concat' ss with rfl | ⟨ss', s', rfl⟩
    · cases hlast
    · rw [pages_concat, List.getLast?_concat] at hlast
      cases hlast
      have hs' : s' ∈ ss' ++ [s'] := List.mem_append_right _ List.mem_cons_self
      rw [← hrank s' hs', List.length_append]
      exact rank_lt_of_short hshort (hmem s' hs')
  have hsize : 0 < size := by omega
  have hk : rank s x / size < ss.length := Nat.div_lt_of_lt_mul (by rwa [Nat.mul_comm])
  refine mem_pages.mpr ⟨rank s x / size, hk, mem_page.mpr ⟨hmem _ (List.getElem_mem hk), ?_⟩⟩
  rw [hrank _ (List.getElem_mem hk)]
  have hlt : rank s x < size * (rank s x / size + 1) := Nat.lt_mul_div_succ _ hsize
  exact ⟨Nat.div_mul_le_self _ _, by rwa [Nat.mul_comm]⟩

end Paging
