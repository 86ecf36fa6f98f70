/-
# How old a cached answer can be

An entry is written with what its writer had read from the table, and is gone
when its time is up. So whatever is lost, delayed or overtaken, an answer from
the cache was the answer of the table at most the entry's lifetime plus the
writer's delay ago. Here requests of all users run in any order, every Redis
call may fail, and entries disappear at any time.

Key definitions: `FillsWithin`, `Fresh`.
Key theorems: `fresh_of_run`, `cached_answer_recent`.
-/
import TaskApi.Coherence

namespace TaskApi

open Conc

variable {J : TaskJson} {settings : Settings} {fails : Call → Prop} {s₀ : State}
  {gate : Config (taskSystem J settings fails Environment) → Prop}
  {c c' : Config (taskSystem J settings fails Environment)} {o i : ℤ} {d : ℚ}

/-- Time does not run backwards. -/
theorem now_mono (h : Run gate c c') : c.state.now ≤ c'.state.now := by
  induction h with
  | refl => exact le_rfl
  | tail _ hs ih =>
    refine ih.trans ?_
    cases hs with
    | start t r hg hn => exact le_rfl
    | call t r x k v s' hp hs => exact (step_now hs).ge
    | env s' he =>
      rcases he with ⟨t, ht, rfl⟩ | ⟨key, rfl⟩
      · exact ht
      · exact le_rfl

/-- No request has let more than `d` pass between its query of task `i` of owner
`o` and its write of the entry. -/
def FillsWithin (d : ℚ) (o i : ℤ) (tr : List (TaskEvent J settings fails Environment)) : Prop :=
  ∀ t, ∀ f ∈ tr, Fills o i t f → ∀ q ∈ tr, Reads o i t q → f.before.now - q.before.now ≤ d

theorem FillsWithin.of_append {u tr : List (TaskEvent J settings fails Environment)}
    (h : FillsWithin d o i (u ++ tr)) : FillsWithin d o i tr := fun t f hf hft q hq hqt =>
  h t f (List.mem_append_right _ hf) hft q (List.mem_append_right _ hq) hqt

/-- The entry, if there is one, says what some query has found, and expires
within its lifetime and `d` of that query. -/
def Fresh (d : ℚ) (o i : ℤ) (s : State) (tr : List (TaskEvent J settings fails Environment)) : Prop :=
  ∀ e, s.redis (TaskCache.buildKey o i) = some e → ∃ t, ∃ q ∈ tr, Reads o i t q ∧
    J.read e.value = some (taskOf (q.before.row o i)) ∧
    e.expiresAt ≤ q.before.now + d + Phase.maxTtl settings (taskOf (q.before.row o i))

theorem Fresh.of_eq {s s' : State} {u tr : List (TaskEvent J settings fails Environment)}
    (h : Fresh d o i s tr)
    (hr : ∀ e, s'.redis (TaskCache.buildKey o i) = some e → s.redis (TaskCache.buildKey o i) = some e) :
    Fresh d o i s' (u ++ tr) := fun e he => by
  obtain ⟨t, q, hq, hrest⟩ := h e (hr e he)
  exact ⟨t, q, List.mem_append_right _ hq, hrest⟩

/-- What a run that began without the entry makes of it. -/
theorem fresh_of_run (hempty : s₀.redis (TaskCache.buildKey o i) = none) (h : Run gate (.init s₀) c) :
    FillsWithin d o i c.trace → Fresh d o i c.state c.trace := by
  refine @taskInvariant J settings fails Environment gate s₀ c
    (fun s tr => FillsWithin d o i tr → Fresh d o i s tr) ?_ ?_ ?_ ?_ h
  · intro _ e he
    rw [hempty] at he
    cases he
  · intro b hb ih t r hn hd
    exact (ih (hd.of_append (u := [_]))).of_eq (u := [_]) fun e he => he
  · intro b hb ih t r x v s' hrun hr ha hs hd
    have ih := ih (hd.of_append (u := [_]))
    by_cases hw : x.writes = some (TaskCache.buildKey o i)
    · rcases writes_entry ha hw with ⟨value, ex, y, rfl, rfl, hy, hread, hle⟩ | rfl
      · rcases step_redisSet hs with ⟨hs', -⟩ | ⟨hs', -⟩
        · exact ih.of_eq (u := [_]) fun e he => by rwa [hs'] at he
        · -- the entry was read from the table at most `d` ago
          intro e he
          obtain rfl : e = ⟨value, b.state.now + ex⟩ := by simpa [hs'] using he.symm
          obtain ⟨u, s, s₁, tr, htr, rfl, -⟩ := get_answer hb hr hy
          have hq : (⟨s, s₁, .call t (.findOwnedTask i o) (.ok (s.db.findOwnedTask i o))⟩ :
              TaskEvent J settings fails Environment) ∈ b.trace := by
            rw [htr]
            simp
          refine ⟨t, _, List.mem_cons_of_mem _ hq, ⟨_, rfl⟩, hread, ?_⟩
          have hdelay := hd t _ List.mem_cons_self ⟨value, ex, v, rfl⟩ _ (List.mem_cons_of_mem _ hq) ⟨_, rfl⟩
          have hex : (ex : ℚ) ≤ (Phase.maxTtl settings (taskOf (s.row o i)) : ℤ) := by
            exact_mod_cast hle
          dsimp only at hdelay ⊢
          linarith
      · refine ih.of_eq (u := [_]) fun e he => ?_
        rcases step_redisDelete hs with hs' | ⟨hs', -⟩
        · simp [hs'] at he
        · rwa [hs'] at he
    · exact ih.of_eq (u := [_]) fun e he => (step_redis hw hs) ▸ he
  · intro b hb ih s' he hd
    exact (ih hd).of_eq (u := []) fun e he' => he.redis he'

theorem answerGet_inj {a a' : Option TaskResponse} (h : answerGet a = answerGet a') : a = a' := by
  cases a <;> cases a' <;> cases h <;> rfl

/-- **Bounded staleness.** A `GET` that ends with an answer and never queried the
table has it from one of its lookups, and at some moment within the lifetime of
such an entry and `d` before that lookup the table had exactly that answer. -/
theorem cached_answer_recent (hempty : s₀.redis (TaskCache.buildKey o i) = none)
    (h : Interleaved (.init s₀) c) (hd : FillsWithin d o i c.trace) {g : ℕ}
    (hg : Requested g (Request.get o i) c.trace) {a : Option TaskResponse}
    (ha : c.result g = some (answerGet a)) (hcached : ∀ q ∈ c.trace, ¬ Reads o i g q) :
    ∃ e ∈ c.trace, ∃ value, e.act = .call g (.redisGet (TaskCache.buildKey o i)) (.ok (some value)) ∧
      J.read value = some a ∧
      ∃ b, Interleaved (.init s₀) b ∧ Interleaved b c ∧
        e.before.now - (Phase.maxTtl settings a + d) < b.state.now ∧ b.state.now ≤ e.before.now ∧
        Shows a (b.state.row o i) := by
  have hhit : (phase (taskAutomaton J) g c.trace).hit = some a := by
    obtain ⟨-, ⟨a', ha', heq⟩ | ⟨herr, -⟩⟩ := taskFinal h hg ha
    · obtain rfl := answerGet_inj heq
      rcases ha' with ha' | ⟨-, y, hy, -⟩
      · exact ha'
      · obtain ⟨u, s, s', tr, he, -⟩ := get_answer h hg hy
        exact absurd ⟨_, rfl⟩ (hcached _ (by rw [he]; exact List.mem_append_right _ List.mem_cons_self))
    · cases a <;> cases herr
  obtain ⟨u, s, tr, value, he, hget, hread⟩ := get_hit h hg hhit
  obtain ⟨b, b₂, hb, hs, hbc, rfl, rfl, -, -⟩ := Run.split h he
  obtain ⟨e, hentry, hlive, rfl⟩ := (b.state.redis.get_eq_some _).mp hget
  refine ⟨_, by rw [he]; exact List.mem_append_right _ List.mem_cons_self, e.value, rfl, hread, ?_⟩
  rw [he, ← List.singleton_append, ← List.append_assoc] at hd
  obtain ⟨t, q, hq, -, hqread, hexp⟩ := fresh_of_run hempty hb hd.of_append e hentry
  obtain rfl : a = taskOf (q.before.row o i) := Option.some.inj (hread.symm.trans hqread)
  obtain ⟨u', tr', hq⟩ := List.append_of_mem hq
  obtain ⟨b', c', hb', hs', hc', -, hbefore, -, -⟩ := Run.split hb hq
  have hmono := now_mono (Relation.ReflTransGen.head hs' hc')
  refine ⟨b', hb', (Relation.ReflTransGen.head hs' hc').trans (Relation.ReflTransGen.head hs hbc), ?_, hmono, ?_⟩
  swap
  · rw [← hbefore]
    exact b'.state.shows_row o i
  rw [hbefore]
  have hlive : b.state.now < e.expiresAt := hlive
  linarith

/-- A `GET` of a task that does not exist, and another one, answered from the cache. -/
noncomputable def cachedNotFound : Config (taskSystem exampleJson .defaults (fun _ => True) Environment) :=
  exampleRun _ _ (.start 0 (Request.get 1 1) :: (List.replicate 7 0).map .call ++
    [.start 1 (Request.get 1 1), .call 1])

theorem cached_answer_recent_notFound :
    ∃ e ∈ cachedNotFound.trace, ∃ value,
      e.act = .call 1 (.redisGet (TaskCache.buildKey 1 1)) (.ok (some value)) ∧
      exampleJson.read value = some none ∧
      ∃ b, Interleaved (.init State.new) b ∧ Interleaved b cachedNotFound ∧
        e.before.now - (Phase.maxTtl .defaults none + 0) < b.state.now ∧ b.state.now ≤ e.before.now ∧
        Shows none (b.state.row 1 1) := by
  have h : Interleaved (.init State.new) cachedNotFound := Interleaved.schedule (step_serve _ _) _ _
  have hnow : ∀ e ∈ cachedNotFound.trace, e.before.now = 0 := by decide +kernel
  have hqueries : ∀ e ∈ cachedNotFound.trace, e.act.called = some (.findOwnedTask 1 1) →
      e.act.thread = 0 := by decide +kernel
  refine cached_answer_recent rfl h (fun t f hf _ q hq _ => ?_) ((Run.pool_trace h).1 1 _ _ rfl)
    (by decide +kernel) (fun q hq ⟨v, hv⟩ => ?_)
  · rw [hnow f hf, hnow q hq, sub_zero]
  · have := hqueries q hq (by rw [hv]; rfl)
    rw [hv] at this
    cases this

end TaskApi
