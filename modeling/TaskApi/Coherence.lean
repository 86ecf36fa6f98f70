/-
# The cache and the table agree

What keeps a cache entry in step with its row. A commit that changes the row
leaves the entry wrong until the same request deletes it, and a `GET` that read
the row before the commit can put the old answer back after the deletion
(`Overtaken`). Apart from that, once the latest change has been followed by its
deletion (`Settled`), the entry is either absent or says what the row says
(`Coherent`), in every interleaving (`coherent_of_settled`).

Two results follow. With any number of requests and no Redis errors, a `GET` that
starts after a change and its deletion answers with the committed row unless the
change was overtaken (`get_after_write`), and it can be
(`get_after_write_overtaken`). With one request after another, none is ever
overtaken, and every entry agrees with its row even if Redis fails at anything
but the deletions (`cache_coherent`).

Key definitions: `Changes`, `Coherent`, `Settled`, `Overtaken`, `Committed`.
Key theorems: `coherent_of_settled`, `settled_of_ended`, `get_after_write`,
`cache_coherent`.
-/
import TaskApi.TaskProtocol

namespace TaskApi

open Conc

/-- Time passes or an entry disappears. -/
def Environment (s s' : State) : Prop := Passes s s' ∨ Evicts s s'

theorem Environment.db {s s' : State} (h : Environment s s') : s'.db = s.db := by
  rcases h with ⟨t, -, rfl⟩ | ⟨key, rfl⟩ <;> rfl

/-- The environment puts nothing into Redis. -/
theorem Environment.redis {s s' : State} (h : Environment s s') {key : String} {e : RedisEntry}
    (he : s'.redis key = some e) : s.redis key = some e := by
  rcases h with ⟨t, -, rfl⟩ | ⟨key', rfl⟩
  · exact he
  · by_cases hk : key = key'
    · subst hk
      simp at he
    · exact (s.redis.delete_ne hk).symm.trans he

/-- The row of task `i` of owner `o`. -/
abbrev State.row (s : State) (o i : ℤ) : Option TaskRecord := s.db.findOwnedTask i o

theorem State.shows_row (s : State) (o i : ℤ) : Shows (taskOf (s.row o i)) (s.row o i) :=
  shows_taskOf fun _ hr => (TaskTable.findOwnedTask_some hr).2.2

theorem State.exists_shows {s : State} {o i : ℤ} {P : Option TaskResponse → Prop} :
    (∃ a, Shows a (s.row o i) ∧ P a) ↔ P (taskOf (s.row o i)) :=
  ⟨fun ⟨_, hshows, ha⟩ => hshows.eq ▸ ha, fun h => ⟨_, s.shows_row o i, h⟩⟩

/-- The cache entry of task `i` of owner `o`, if there is one, says what the row
says. -/
def Coherent (J : TaskJson) (o i : ℤ) (s : State) : Prop :=
  ∀ e, s.redis (TaskCache.buildKey o i) = some e → J.read e.value = some (taskOf (s.row o i))

theorem Coherent.of_eq {J : TaskJson} {o i : ℤ} {s s' : State} (h : Coherent J o i s)
    (hr : s'.redis (TaskCache.buildKey o i) = s.redis (TaskCache.buildKey o i))
    (hrow : s'.row o i = s.row o i) : Coherent J o i s' := fun e he => by
  rw [hrow]
  exact h e (hr ▸ he)

section

variable {J : TaskJson} {settings : Settings} {fails : Call → Prop} {env : State → State → Prop}

/-- The event changed the row of task `i` of owner `o`. -/
def Changes (o i : ℤ) (e : TaskEvent J settings fails env) : Prop :=
  e.after.row o i ≠ e.before.row o i

instance (o i : ℤ) (e : TaskEvent J settings fails env) : Decidable (Changes o i e) :=
  inferInstanceAs (Decidable (_ ≠ _))

/-- Thread `t` deleted the cache entry of task `i` of owner `o`. -/
def Invalidates (o i : ℤ) (t : ℕ) (e : TaskEvent J settings fails env) : Prop :=
  ∃ v, e.act = .call t (.redisDelete (TaskCache.buildKey o i)) v

/-- Thread `t` wrote the cache entry of task `i` of owner `o`. -/
def Fills (o i : ℤ) (t : ℕ) (e : TaskEvent J settings fails env) : Prop :=
  ∃ value ex v, e.act = .call t (.redisSet (TaskCache.buildKey o i) value ex) v

/-- Thread `t` queried task `i` of owner `o`. -/
def Reads (o i : ℤ) (t : ℕ) (e : TaskEvent J settings fails env) : Prop :=
  ∃ v, e.act = .call t (.findOwnedTask i o) v

/-- The latest change of the row has been followed by its deletion of the entry. -/
def Settled (o i : ℤ) (tr : List (TaskEvent J settings fails env)) : Prop :=
  ∀ u c v, Latest (Changes o i) tr u c v → ∃ d ∈ u, Invalidates o i c.act.thread d

/-- A request that queried before the latest change of the row wrote the cache
after that change's deletion of the entry. -/
def Overtaken (o i : ℤ) (tr : List (TaskEvent J settings fails env)) : Prop :=
  ∃ u c v, Latest (Changes o i) tr u c v ∧
    ∃ u₁ d u₂, u = u₁ ++ d :: u₂ ∧ Invalidates o i c.act.thread d ∧
      ∃ t, (∃ f ∈ u₁, Fills o i t f) ∧ ∃ q ∈ v, Reads o i t q

/-- No deletion by a write has failed. -/
def InvalidationsSucceed (tr : List (TaskEvent J settings fails env)) : Prop :=
  ∀ e ∈ tr, ∀ t key err r, e.act = .call t (.redisDelete key) (.error err) → Requested t r tr →
    Request.isWrite r = false

variable {o i : ℤ} {tr : List (TaskEvent J settings fails env)} {e : TaskEvent J settings fails env}

theorem InvalidationsSucceed.of_append {u : List (TaskEvent J settings fails env)}
    (h : InvalidationsSucceed (u ++ tr)) : InvalidationsSucceed tr := fun e he t key err r hact hr =>
  h e (List.mem_append_right _ he) t key err r hact (hr.append u)

theorem InvalidationsSucceed.of_cons (h : InvalidationsSucceed (e :: tr)) : InvalidationsSucceed tr :=
  h.of_append (u := [e])

theorem Overtaken.cons (h : Overtaken o i tr) (he : ¬ Changes o i e) : Overtaken o i (e :: tr) := by
  obtain ⟨u, c, v, hl, u₁, d, u₂, rfl, hd, t, ⟨f, hf, hft⟩, hq⟩ := h
  exact ⟨_, c, v, hl.cons he, e :: u₁, d, u₂, rfl, hd, t, ⟨f, List.mem_cons_of_mem _ hf, hft⟩, hq⟩

/-- An event that changes nothing and deletes nothing settles nothing. -/
theorem Settled.of_cons (h : Settled o i (e :: tr)) (he : ¬ Changes o i e)
    (hd : ∀ t, ¬ Invalidates o i t e) : Settled o i tr := fun u c v hl => by
  obtain ⟨d, hm, hdel⟩ := h _ c v (hl.cons he)
  rcases List.mem_cons.mp hm with rfl | hm
  · exact absurd hdel (hd _)
  · exact ⟨d, hm, hdel⟩

/-- Nobody is overtaken if nobody queried before the latest change. -/
theorem not_overtaken_of_not_called
    (h : ∀ e ∈ tr.dropWhile fun e => !decide (Changes o i e), e.act.called ≠ some (.findOwnedTask i o)) :
    ¬ Overtaken o i tr := by
  rintro ⟨u, c, v, hl, -, -, -, -, -, t, -, q, hq, w, hact⟩
  rw [hl.dropWhile] at h
  exact h q (List.mem_cons_of_mem _ hq) (by rw [hact]; rfl)

theorem Settled.append (h : Settled o i tr) {w : List (TaskEvent J settings fails env)}
    (hw : ∀ e ∈ w, ¬ Changes o i e) : Settled o i (w ++ tr) := by
  induction w with
  | nil => exact h
  | cons e w ih =>
    intro u c v hl
    rcases latest_cons.mp hl with ⟨hch, -⟩ | ⟨-, u', rfl, hl'⟩
    · exact absurd hch (hw _ List.mem_cons_self)
    · obtain ⟨d, hd, hinv⟩ := ih (fun e he => hw e (List.mem_cons_of_mem _ he)) _ _ _ hl'
      exact ⟨d, List.mem_cons_of_mem _ hd, hinv⟩

theorem Overtaken.append (h : Overtaken o i tr) {w : List (TaskEvent J settings fails env)}
    (hw : ∀ e ∈ w, ¬ Changes o i e) : Overtaken o i (w ++ tr) := by
  induction w with
  | nil => exact h
  | cons e w ih =>
    exact (ih fun e he => hw e (List.mem_cons_of_mem _ he)).cons (hw _ List.mem_cons_self)

theorem not_settled_of_changes (he : Changes o i e) : ¬ Settled o i (e :: tr) := fun h => by
  obtain ⟨d, hd, -⟩ := h _ _ _ (.head he)
  cases hd

end

/-! ### The row and the entry along a run -/

section

variable {J : TaskJson} {settings : Settings} {fails : Call → Prop}
  {gate : Config (taskSystem J settings fails Environment) → Prop} {s₀ : State}
  {c c' : Config (taskSystem J settings fails Environment)} {o i : ℤ}

/-- The row stays what it is until an event changes it. -/
theorem row_eq (h : Run gate c c') {u : List (TaskEvent J settings fails Environment)}
    (hu : c'.trace = u ++ c.trace) (hno : ∀ e ∈ u, ¬ Changes o i e) :
    c'.state.row o i = c.state.row o i := by
  induction h generalizing u with
  | refl => rfl
  | @tail b d hb hs ih =>
    obtain ⟨u', hu'⟩ := Run.trace_suffix hb
    cases hs with
    | start t r hg hn =>
      exact ih hu' fun e he => hno e (by
        rw [hu', ← List.cons_append] at hu
        rw [← List.append_cancel_right hu]
        exact List.mem_cons_of_mem _ he)
    | call t r x k v s' hp hs =>
      rw [hu', ← List.cons_append] at hu
      obtain rfl := List.append_cancel_right hu
      have hrow := not_not.mp (hno _ List.mem_cons_self)
      exact hrow.trans (ih hu' fun e he => hno e (List.mem_cons_of_mem _ he))
    | env s' he =>
      have hdb : s'.row o i = b.state.row o i := congrArg (·.findOwnedTask i o) he.db
      exact hdb.trans (ih hu hno)

/-- What a `GET` read is what the row is now, or the row has changed since. -/
theorem row_read (h : Run gate (.init s₀) c) {t : ℕ} (hr : Requested t (Request.get o i) c.trace)
    {x : Option TaskRecord} (hx : (phase (taskAutomaton J) t c.trace).answer = some x) :
    c.state.row o i = x ∨
      ∃ u e v, Latest (Changes o i) c.trace u e v ∧ ∃ q ∈ v, Reads o i t q := by
  obtain ⟨u, s, s', tr, he, hq, hdb⟩ := get_answer h hr hx
  by_cases hu : ∃ e ∈ u, Changes o i e
  · obtain ⟨u₁, e, v, hl⟩ := exists_latest hu
    refine .inr ⟨u₁, e, v ++ _, he ▸ hl.append _, _, List.mem_append_right _ List.mem_cons_self, _, rfl⟩
  · push Not at hu
    obtain ⟨b, d, -, -, hd, -, -, hs', htr⟩ := Run.split h he
    left
    rw [row_eq hd (u := u) (by rw [he, htr]) hu, ← hq]
    exact congrArg (·.findOwnedTask i o) ((congrArg State.db hs').trans hdb)

/-- Only a `GET` that has the answer, or a deletion, touches a cache entry. -/
theorem writes_entry {r : Request} {q : Phase} {x : Call} (ha : Phase.allows J settings r q x)
    (hw : x.writes = some (TaskCache.buildKey o i)) :
    (∃ value ex y, x = .redisSet (TaskCache.buildKey o i) value ex ∧ r = .get o i ∧
      q.answer = some y ∧ J.read value = some (taskOf y) ∧ ex ≤ Phase.maxTtl settings (taskOf y)) ∨
    x = .redisDelete (TaskCache.buildKey o i) := by
  cases x with
  | redisDelete key =>
    cases hw
    exact .inr rfl
  | redisSet key value ex =>
    cases hw
    cases r with
    | get o' i' =>
      obtain ⟨hkey, -, -, -, y, hy, hread, hle⟩ := ha
      obtain ⟨rfl, rfl⟩ := TaskCache.buildKey_inj.mp hkey
      exact .inl ⟨value, ex, y, rfl, rfl, hy, hread, hle⟩
    | _ => cases ha
  | redisSetNx key token ex =>
    cases hw
    cases r with
    | get o' i' => exact absurd ha.1 (buildKey_ne_lockKey _ _ _ _)
    | _ => cases ha
  | redisEvalReleaseLock key token =>
    cases hw
    cases r with
    | get o' i' => exact absurd ha.1 (buildKey_ne_lockKey _ _ _ _)
    | _ => cases ha
  | _ => cases hw

/-- A `GET` changes no row. -/
theorem get_no_change (h : Run gate (.init s₀) c) {e : TaskEvent J settings fails Environment}
    (he : e ∈ c.trace) {o' i' : ℤ} (hr : Requested e.act.thread (Request.get o' i') c.trace) :
    ¬ Changes o i e := by
  obtain ⟨u, tr, he⟩ := List.append_of_mem he
  rcases e with ⟨s, s', ⟨t, r⟩ | ⟨t, x, v⟩⟩
  · obtain rfl := Run.started h he
    exact fun h => h rfl
  · obtain ⟨ha, hs⟩ := taskMade h hr he
    refine fun hch => hch (congrArg (·.findOwnedTask i o) (step_db ?_ hs))
    cases x <;> first | rfl | cases ha

/-- **A settled entry that no `GET` was overtaken on agrees with its row**, if it
did at first or the row has changed since. -/
theorem coherent_of_settled (h : Run gate (.init s₀) c) : InvalidationsSucceed c.trace →
    Settled o i c.trace → ¬ Overtaken o i c.trace →
      (Coherent J o i s₀ ∨ ∃ e ∈ c.trace, Changes o i e) → Coherent J o i c.state := by
  refine @taskInvariant J settings fails Environment gate s₀ c (fun s tr => InvalidationsSucceed tr →
    Settled o i tr → ¬ Overtaken o i tr → (Coherent J o i s₀ ∨ ∃ e ∈ tr, Changes o i e) →
    Coherent J o i s) ?_ ?_ ?_ ?_ h
  · rintro - - - (h | ⟨e, he, -⟩)
    · exact h
    · cases he
  · intro b hb ih t r hn hdel hset hov hstart
    have hch : ¬ Changes o i (⟨b.state, b.state, .start t r⟩ : TaskEvent J settings fails Environment) :=
      fun h => h rfl
    refine ih hdel.of_cons (hset.of_cons hch fun t' h => by obtain ⟨v, hv⟩ := h; cases hv)
      (fun h => hov (h.cons hch)) ?_
    exact hstart.imp_right fun h => ((List.exists_mem_cons_iff _ _ _).mp h).resolve_left hch
  · intro b hb ih t r x v s' hrun hr ha hs hdel hset hov hstart
    by_cases hch : Changes o i (⟨b.state, s', .call t x v⟩ : TaskEvent J settings fails Environment)
    · exact absurd hset (not_settled_of_changes hch)
    have hrow : s'.row o i = b.state.row o i := not_not.mp hch
    -- a step that leaves the entry alone keeps what held before
    have keep : Settled o i b.trace → s'.redis (TaskCache.buildKey o i) =
        b.state.redis (TaskCache.buildKey o i) → Coherent J o i s' := fun hset hentry => by
      refine (ih hdel.of_cons hset (fun h => hov (h.cons hch)) ?_).of_eq hentry hrow
      exact hstart.imp_right fun h => ((List.exists_mem_cons_iff _ _ _).mp h).resolve_left hch
    by_cases hw : x.writes = some (TaskCache.buildKey o i)
    · rcases writes_entry ha hw with ⟨value, ex, y, rfl, rfl, hy, hread, -⟩ | rfl
      · rcases step_redisSet hs with ⟨hs', -⟩ | ⟨hs', -⟩
        · exact keep (hset.of_cons hch fun t' ⟨v', hv⟩ => by cases hv) (by rw [hs'])
        · -- the entry says what the thread read, which no change has made old
          intro e he
          obtain rfl : e = ⟨value, b.state.now + ex⟩ := by simpa [hs'] using he.symm
          rcases row_read hb hr hy with hy' | ⟨u, ch, w, hl, q, hq, hreads⟩
          · rw [hrow, hy']
            exact hread
          · obtain ⟨d, hd, hinv⟩ := hset _ _ _ (hl.cons hch)
            rcases List.mem_cons.mp hd with rfl | hd
            · obtain ⟨v', hv⟩ := hinv
              cases hv
            · obtain ⟨u₁, u₂, rfl⟩ := List.append_of_mem hd
              exact absurd ⟨_, ch, w, hl.cons hch, _ :: u₁, d, u₂, rfl, hinv, t,
                ⟨_, List.mem_cons_self, value, ex, v, rfl⟩, q, hq, hreads⟩ hov
      · rcases step_redisDelete hs with hs' | ⟨hs', rfl⟩
        · intro e he
          simp [hs'] at he
        · -- a deletion that failed is no write's, so no change is waiting for it
          refine keep (fun u e w hl => ?_) (by rw [hs'])
          obtain ⟨d, hd, hinv⟩ := hset _ _ _ (hl.cons hch)
          rcases List.mem_cons.mp hd with rfl | hd
          · obtain ⟨v', hv⟩ := hinv
            obtain rfl : t = e.act.thread := by cases hv; rfl
            have hget := hdel _ List.mem_cons_self _ _ _ r rfl (hr.cons _)
            cases r with
            | get => exact absurd hl.prop (get_no_change hb (by rw [hl.eq]; simp) hr)
            | _ => cases hget
          · exact ⟨d, hd, hinv⟩
    · exact keep (hset.of_cons hch fun t' ⟨v', hv⟩ => hw (by cases hv; rfl)) (step_redis hw hs)
  · intro b hb ih s' he hdel hset hov hstart e' he'
    have hrow : s'.row o i = b.state.row o i := congrArg (·.findOwnedTask i o) he.db
    rw [hrow]
    exact ih hdel hset hov hstart e' (he.redis he')

/-! ### Every change is followed by its deletion -/

/-- The only Redis call of a write is its deletion. -/
theorem write_redis {r : Request} {q : Phase} {x : Call} (hr : r.isWrite)
    (ha : Phase.allows J settings r q x) (hx : x.isRedis) : ∃ key, x = .redisDelete key := by
  cases r with
  | get o i => cases hr
  | _ => cases x <;> first | exact ⟨_, rfl⟩ | exact absurd hx Bool.false_ne_true | exact ha.elim

theorem write_not_faulted (h : Run gate (.init s₀) c) (hdel : InvalidationsSucceed c.trace) {t : ℕ}
    {r : Request} (hr : Requested t r c.trace) (hw : r.isWrite) :
    (phase (taskAutomaton J) t c.trace).faulted = false := by
  by_contra hf
  obtain ⟨u, s, s', x, v, tr, he, h1, h2⟩ :=
    @phase_became _ _ (taskAutomaton J) t (fun q => q.faulted = true) (by simp) _ (by simpa using hf)
  by_cases hv : v = .error .redisError
  · obtain ⟨ha, hs⟩ := taskMade h hr he
    obtain ⟨key, rfl⟩ := write_redis hw ha (step_error hs hv).1
    subst hv
    have := hdel _ (he ▸ List.mem_append_right u List.mem_cons_self) _ _ _ r rfl hr
    rw [hw] at this
    cases this
  · exact h1 ((Phase.next_faulted hv).symm.trans h2)

/-- A write of owner `o` has committed row `i` and still has to delete its entry. -/
structure Committed (o i : ℤ) (r : Request) (q : Phase) (s : State) : Prop where
  committed : q.committed = some i
  not_deleted : q.deleted = false
  not_lost : q.lost = false
  /-- What a `POST` inserted is still there. -/
  inserted : ∀ body, r = .create o body → (s.row o i).isSome

/-- A step that changes the row is the commit of a write: of a `POST` by the
owner that has now inserted it, or of a write that looked up a task of this id. -/
theorem changes_cases {r : Request} {q : Phase} {x : Call} {v : calls.Out x} {s s' : State}
    (ha : Phase.allows J settings r q x) (hs : step fails x s v s') (hch : s'.row o i ≠ s.row o i) :
    q.MayCommit ∧ q.next J x v = { q with committed := some i } ∧
    (((∃ body, r = .create o body) ∧ (s'.row o i).isSome) ∨
      ∃ u, r.target = some (u, i) ∧ (∃ row, q.answer = some (some row)) ∧ (s.row o i).isSome) := by
  have isSome : ∀ {y : Option TaskRecord}, s.row o i = none → y = none → s'.row o i = y → False :=
    fun h hy hs' => hch (hs'.trans (hy.trans h.symm))
  cases x with
  | commitInsert body userId =>
    cases r with
    | create u b =>
      obtain ⟨rfl, hmay⟩ := ha
      obtain ⟨id, hid, rfl, rfl⟩ := step_commitInsert hs
      have hrow := s.db.findOwnedTask_insert (i := i) (o := o) body userId id hid
      by_cases hi : i = id ∧ o = userId
      · obtain ⟨rfl, rfl⟩ := hi
        rw [if_pos ⟨rfl, rfl⟩] at hrow
        exact ⟨hmay, rfl, .inl ⟨⟨b, rfl⟩, Option.isSome_iff_exists.mpr ⟨_, hrow⟩⟩⟩
      · rw [if_neg hi] at hrow
        exact absurd hrow hch
    | _ => exact ha.elim
  | commitUpdate id changes =>
    cases r with
    | patch u taskId body =>
      obtain ⟨rfl, hmay, hrow⟩ := ha
      rcases step_commitUpdate hs with rfl | ⟨rfl, rfl⟩
      · exact absurd rfl hch
      have hupd := s.db.findOwnedTask_update (i := i) (o := o) id changes
      by_cases hi : i = id
      · subst hi
        rw [if_pos rfl] at hupd
        refine ⟨hmay, rfl, .inr ⟨u, rfl, hrow, Option.isSome_iff_ne_none.mpr fun h => isSome h ?_ hupd⟩⟩
        exact congrArg (Option.map _) h
      · rw [if_neg hi] at hupd
        exact absurd hupd hch
    | _ => exact ha.elim
  | commitDelete id =>
    cases r with
    | delete u taskId =>
      obtain ⟨rfl, hmay, hrow⟩ := ha
      obtain ⟨rfl, rfl⟩ := step_commitDelete hs
      have hdel := s.db.findOwnedTask_delete (i := i) (o := o) id
      by_cases hi : i = id
      · subst hi
        rw [if_pos rfl] at hdel
        exact ⟨hmay, rfl, .inr ⟨u, rfl, hrow, Option.isSome_iff_ne_none.mpr fun h => isSome h rfl hdel⟩⟩
      · rw [if_neg hi] at hdel
        exact absurd hdel hch
    | _ => exact ha.elim
  | _ => exact absurd (congrArg (·.findOwnedTask i o) (step_db rfl hs)) hch

theorem committed_of_changes {r : Request} {q : Phase} {x : Call} {v : calls.Out x} {s s' : State}
    (ha : Phase.allows J settings r q x) (hs : step fails x s v s') (hch : s'.row o i ≠ s.row o i) :
    r.isWrite ∧ Committed o i r (q.next J x v) s' := by
  obtain ⟨⟨-, hd, hl⟩, hq, ⟨⟨body, rfl⟩, hrow⟩ | ⟨u, htarget, -⟩⟩ := changes_cases ha hs hch
  · rw [hq]
    exact ⟨rfl, rfl, hd, hl, fun _ _ => hrow⟩
  · rw [hq]
    cases r <;> cases htarget <;> exact ⟨rfl, rfl, hd, hl, fun _ h => by cases h⟩

/-- The next call of a write that has committed is the deletion, or leaves it still to be done. -/
theorem Committed.next {r : Request} {q : Phase} {x : Call} {v : calls.Out x} {s s' : State}
    (h : Committed o i r q s) (hr : r.isWrite) (hu : r.userId = o) (hf : q.faulted = false)
    (ha : Phase.allows J settings r q x) (hs : step fails x s v s') (hrow : s'.row o i = s.row o i) :
    x = .redisDelete (TaskCache.buildKey o i) ∨ Committed o i r (q.next J x v) s' := by
  obtain ⟨hc, hd, hl, hins⟩ := h
  rw [← hrow] at hins
  cases r with
  | get => cases hr
  | create u body =>
    obtain rfl : u = o := hu
    cases x with
    | commitInsert => cases ha.2.1.symm.trans hc
    | redisDelete key =>
      obtain ⟨id, hid, rfl⟩ := ha
      cases hid.symm.trans hc
      exact .inl rfl
    | refresh id =>
      cases ha.symm.trans hc
      obtain ⟨rfl, ⟨-, hnone⟩ | ⟨row, rfl, -⟩⟩ := step_refresh hs
      · obtain ⟨row, hsome⟩ := Option.isSome_iff_exists.mp (hins body rfl)
        rw [TaskTable.findOwnedTask_eq_some_iff, hnone] at hsome
        cases hsome.1
      · exact .inr ⟨hc, hd, hl, hins⟩
    | _ => cases ha
  | patch u taskId body =>
    obtain rfl : u = o := hu
    cases x with
    | findOwnedTask =>
      obtain rfl := step_findOwnedTask hs
      exact .inr ⟨hc, hd, hl, hins⟩
    | commitUpdate => cases ha.2.1.1.symm.trans hc
    | redisDelete key =>
      obtain ⟨hid, rfl⟩ := ha
      cases hid.symm.trans hc
      exact .inl rfl
    | refresh id => simp [Phase.allows, hd, hf] at ha
    | _ => cases ha
  | delete u taskId =>
    obtain rfl : u = o := hu
    cases x with
    | findOwnedTask =>
      obtain rfl := step_findOwnedTask hs
      exact .inr ⟨hc, hd, hl, hins⟩
    | commitDelete => cases ha.2.1.1.symm.trans hc
    | redisDelete key =>
      obtain ⟨hid, rfl⟩ := ha
      cases hid.symm.trans hc
      exact .inl rfl
    | _ => cases ha

/-- The thread of the latest change has deleted the entry since, or still has to. -/
theorem settled_or_committed (h : Run gate (.init s₀) c) : InvalidationsSucceed c.trace →
    ∀ u e v, Latest (Changes o i) c.trace u e v → (∃ d ∈ u, Invalidates o i e.act.thread d) ∨
      ∃ r, Requested e.act.thread r c.trace ∧ r.isWrite ∧ (r.userId = o →
        Committed o i r (phase (taskAutomaton J) e.act.thread c.trace) c.state) := by
  refine @taskInvariant J settings fails Environment gate s₀ c (fun s tr => InvalidationsSucceed tr →
    ∀ u e v, Latest (Changes o i) tr u e v → (∃ d ∈ u, Invalidates o i e.act.thread d) ∨
      ∃ r, Requested e.act.thread r tr ∧ r.isWrite ∧ (r.userId = o →
        Committed o i r (phase (taskAutomaton J) e.act.thread tr) s)) ?_ ?_ ?_ ?_ h
  · intro _ u e v hl
    have := hl.eq
    simp at this
  · intro b hb ih t r hn hdel u e v hl
    rcases latest_cons.mp hl with ⟨hch, -⟩ | ⟨-, u', rfl, hl'⟩
    · exact absurd rfl hch
    · rcases ih hdel.of_cons _ _ _ hl' with ⟨d, hd, hinv⟩ | ⟨r', hr', hw, hq⟩
      · exact .inl ⟨d, List.mem_cons_of_mem _ hd, hinv⟩
      · exact .inr ⟨r', hr'.cons _, hw, hq⟩
  · intro b hb ih t r x v s' hrun hr ha hs hdel u e w hl
    rcases latest_cons.mp hl with ⟨hch, -, rfl, -⟩ | ⟨hch, u', rfl, hl'⟩
    · obtain ⟨hw, hq⟩ := committed_of_changes ha hs hch
      refine .inr ⟨r, hr.cons _, hw, fun hu => ?_⟩
      change Committed o i r (phase (taskAutomaton J) t (_ :: b.trace)) s'
      rw [phase_call_self]
      exact hq
    have hrow : s'.row o i = b.state.row o i := not_not.mp hch
    rcases ih hdel.of_cons _ _ _ hl' with ⟨d, hd, hinv⟩ | ⟨r', hr', hw, hq⟩
    · exact .inl ⟨d, List.mem_cons_of_mem _ hd, hinv⟩
    by_cases ht : t = e.act.thread
    · -- the writer's own next call
      subst ht
      obtain rfl := hb.requested_unique hr hr'
      by_cases hu : r.userId = o
      · rcases (hq hu).next hw hu (write_not_faulted hb hdel.of_cons hr hw) ha hs hrow with rfl | hq'
        · exact .inl ⟨_, List.mem_cons_self, v, rfl⟩
        · refine .inr ⟨r, hr.cons _, hw, fun _ => ?_⟩
          rwa [phase_call_self]
      · exact .inr ⟨r, hr.cons _, hw, fun h => absurd h hu⟩
    · refine .inr ⟨r', hr'.cons _, hw, fun hu => ?_⟩
      rw [phase_call_ne _ ht]
      exact { hq hu with inserted := fun body hb => by rw [hrow]; exact (hq hu).inserted body hb }
  · intro b hb ih s' he hdel u e v hl
    have hrow : s'.row o i = b.state.row o i := congrArg (·.findOwnedTask i o) he.db
    refine (ih hdel u e v hl).imp_right fun ⟨r, hr, hw, hq⟩ => ⟨r, hr, hw, fun hu => ?_⟩
    exact { hq hu with inserted := fun body hb => by rw [hrow]; exact (hq hu).inserted body hb }

/-- Once the requests that changed the row have ended, the latest change has been
followed by its deletion. -/
theorem settled_of_ended (h : Run gate (.init s₀) c) (hdel : InvalidationsSucceed c.trace)
    (howner : ∀ e ∈ c.trace, Changes o i e → ∀ r, Requested e.act.thread r c.trace → r.userId = o)
    (hend : ∀ e ∈ c.trace, Changes o i e → ¬ c.Running e.act.thread) : Settled o i c.trace := by
  intro u e v hl
  have he : e ∈ c.trace := by
    rw [hl.eq]
    simp
  rcases settled_or_committed h hdel u e v hl with hd | ⟨r, hr, hw, hq⟩
  · exact hd
  obtain ⟨hc, hd, hlost, -⟩ := hq (howner e he hl.prop r hr)
  obtain ⟨x, hx⟩ := h.ended hr (hend e he hl.prop)
  have hf := write_not_faulted h hdel hr hw
  have hends := taskFinal h hr hx
  cases r with
  | get => cases hw
  | _ => simp [Phase.Ends, Phase.WriteEnds, hc, hd, hlost, hf] at hends

/-! ### What a `GET` answers -/

/-- A `GET` that finds the entry coherent whenever it makes a call, while the row
stays as it is, answers with the row. -/
theorem get_answers (h : Run gate (.init s₀) c) {g : ℕ} (hg : Requested g (Request.get o i) c.trace)
    {x : Except Exn (Option TaskResponse)} (hx : c.result g = some x)
    (hcoh : ∀ u s s' y v tr, c.trace = u ++ ⟨s, s', .call g y v⟩ :: tr →
      (∀ e ∈ u, ¬ Changes o i e) ∧ Coherent J o i s) :
    x = answerGet (taskOf (c.state.row o i)) ∨
      (x = .error .redisError ∧ (phase (taskAutomaton J) g c.trace).faulted) := by
  have since : ∀ {u s s' y v tr}, c.trace = u ++ ⟨s, s', .call g y v⟩ :: tr →
      c.state.row o i = s'.row o i := fun {u s s' y v tr} he => by
    obtain ⟨b, d, -, -, hd, -, -, rfl, htr⟩ := Run.split h he
    exact row_eq hd (u := u) (by rw [he, htr]) (hcoh _ _ _ _ _ _ he).1
  obtain ⟨-, ⟨a, ha, rfl⟩ | hf⟩ := taskFinal h hg hx
  · left
    congr 1
    rcases ha with ha | ⟨-, y, hy, rfl⟩
    · obtain ⟨u, s, tr, value, he, hget, hread⟩ := get_hit h hg ha
      obtain ⟨e, hentry, -, rfl⟩ := (s.redis.get_eq_some _).mp hget
      have := (hcoh _ _ _ _ _ _ he).2 e hentry
      rw [since he]
      exact Option.some.inj (hread.symm.trans this)
    · obtain ⟨u, s, s', tr, he, rfl, hdb⟩ := get_answer h hg hy
      rw [since he]
      exact congrArg (fun db : TaskTable => taskOf (db.findOwnedTask i o)) hdb.symm
  · exact .inr hf

end

/-- Without failing calls every invalidation succeeds. -/
theorem invalidationsSucceed {J : TaskJson} {settings : Settings} {s₀ : State}
    {gate : Config (taskSystem J settings (fun _ => False) Environment) → Prop}
    {c : Config (taskSystem J settings (fun _ => False) Environment)} (h : Run gate (.init s₀) c) :
    InvalidationsSucceed c.trace := fun e he t key err r hact hr => by
  obtain ⟨u, tr, he⟩ := List.append_of_mem he
  rcases e with ⟨s, s', act⟩
  subst hact
  obtain ⟨-, hs⟩ := taskMade h hr he
  obtain rfl := step_redis_error rfl hs
  exact (step_error hs rfl).2.elim

/-- **Read after write.** Requests run in any order, with no Redis errors. When the
latest change of the row has been followed by its invalidation, a `GET` of the task
that starts after that and overlaps no further change answers with the committed
row, or 404 if there is none, provided that no request which queried the task
before the latest change wrote the cache after that change's invalidation. -/
theorem get_after_write {J : TaskJson} {settings : Settings} {s₀ : State}
    {c₁ c₂ : Config (taskSystem J settings (fun _ => False) Environment)} {o i : ℤ} {g : ℕ}
    {x : Except Exn (Option TaskResponse)} (h₁ : Interleaved (.init s₀) c₁) (h₂ : Interleaved c₁ c₂)
    (hwrote : ∃ e ∈ c₁.trace, Changes o i e) (hset : Settled o i c₁.trace)
    (hno : ∀ u, c₂.trace = u ++ c₁.trace → ∀ e ∈ u, ¬ Changes o i e)
    (hov : ¬ Overtaken o i c₂.trace) (hnew : c₁.pool g = none)
    (hg : Requested g (Request.get o i) c₂.trace) (hx : c₂.result g = some x) :
    ∃ a, Shows a (c₂.state.row o i) ∧ x = answerGet a := by
  have h := Relation.ReflTransGen.trans h₁ h₂
  obtain ⟨w, hw⟩ := Run.trace_suffix h₂
  refine ⟨_, c₂.state.shows_row o i, ?_⟩
  refine (get_answers h hg hx fun u s s' y v tr he => ?_).resolve_right fun ⟨_, hf⟩ => by
    simp [not_faulted (fun _ => id) h hg] at hf
  -- the call came after `c₁`, since its thread had not started there
  have hin : (⟨s, s', .call g y v⟩ : TaskEvent J settings _ Environment) ∉ c₁.trace := fun hm =>
    Run.not_acted h₁ hnew _ hm rfl
  obtain ⟨w', rfl, rfl⟩ := append_cons_eq_append (he.symm.trans hw) hin
  have hw' : ∀ e ∈ w', ¬ Changes o i e := fun e he => hno _ hw e (by simp [he])
  have hu : ∀ e ∈ u ++ [⟨s, s', .call g y v⟩], ¬ Changes o i e := fun e he => hno _ hw e (by
    rw [← List.singleton_append, ← List.append_assoc]
    exact List.mem_append_left _ he)
  obtain ⟨b, d, hb, -, -, hbt, rfl, -⟩ := Run.split h he
  refine ⟨fun e he => hu e (List.mem_append_left _ he), ?_⟩
  refine coherent_of_settled hb (invalidationsSucceed hb) ?_ (fun hover => hov ?_) (.inr ?_)
  · rw [hbt]
    exact hset.append hw'
  · rw [hbt] at hover
    have := hover.append hu
    rwa [List.append_assoc, List.singleton_append, ← he] at this
  · obtain ⟨e, he, hch⟩ := hwrote
    exact ⟨e, by rw [hbt]; exact List.mem_append_right _ he, hch⟩

/-- A `POST` that has ended. -/
noncomputable def posted : Config (taskSystem exampleJson .defaults (fun _ => False) Environment) :=
  exampleRun _ _ [.start 0 examplePost, .call 0, .call 0, .call 0]

/-- A `GET` of the task after that. -/
noncomputable def fetched : Config (taskSystem exampleJson .defaults (fun _ => False) Environment) :=
  posted.schedule (State.serve Pick.first) (.start 1 (Request.get 1 1) :: (List.replicate 8 1).map .call)

theorem get_after_write_posted :
    ∃ a, Shows a (fetched.state.row 1 1) ∧ (.ok (some exampleTask) : Except Exn (Option TaskResponse)) =
      answerGet a := by
  have h₁ : Interleaved (.init State.new) posted := Interleaved.schedule (step_serve _ _) _ _
  have h₂ : Interleaved posted fetched := Interleaved.schedule (step_serve _ _) _ _
  have hset : Settled 1 1 posted.trace := settled_of_ended h₁ (invalidationsSucceed h₁) (fun e _ _ r hr =>
    (show ∀ p ∈ starts posted.trace, p.2.userId = 1 by decide +kernel) _ hr.mem_starts) (by decide +kernel)
  have hno : ∀ u, fetched.trace = u ++ posted.trace → ∀ e ∈ u, ¬ Changes 1 1 e := fun u hu => by
    obtain rfl := List.append_cancel_right ((show fetched.trace = fetched.trace.take 9 ++ posted.trace
      from rfl).symm.trans hu)
    decide +kernel
  have hg : Requested 1 (Request.get 1 1) fetched.trace := (Run.pool_trace (h₁.trans h₂)).1 1 _ _ rfl
  exact get_after_write h₁ h₂ (by decide +kernel) hset hno
    (not_overtaken_of_not_called (by decide +kernel)) rfl hg (by decide +kernel)

/-- A `GET` has found no task in the database; then a `POST` inserts it and ends. -/
noncomputable def overtaking : Config (taskSystem exampleJson .defaults (fun _ => False) Environment) :=
  exampleRun _ _ (.start 0 (Request.get 1 1) :: (List.replicate 5 0).map .call ++
    [.start 1 examplePost, .call 1, .call 1, .call 1])

/-- The first `GET` goes on, and another one starts. -/
noncomputable def overtaken : Config (taskSystem exampleJson .defaults (fun _ => False) Environment) :=
  overtaking.schedule (State.serve Pick.first) [.call 0, .call 0, .start 2 (Request.get 1 1), .call 2]

/-- Without the last proviso the answer can be wrong: the `GET` that read before
the `POST` caches "not found" after the invalidation, and a `GET` that starts
later answers 404 for a task that exists. -/
theorem get_after_write_overtaken :
    ¬ ∀ (J : TaskJson) (settings : Settings) (s₀ : State)
      (c₁ c₂ : Config (taskSystem J settings (fun _ => False) Environment)) (o i : ℤ) (g : ℕ)
      (x : Except Exn (Option TaskResponse)), Interleaved (.init s₀) c₁ → Interleaved c₁ c₂ →
      (∀ t r, Requested t r c₂.trace → r.userId = o) → (∃ e ∈ c₁.trace, Changes o i e) →
      (∀ e ∈ c₁.trace, Changes o i e → ¬ c₁.Running e.act.thread) →
      (∀ u, c₂.trace = u ++ c₁.trace → ∀ e ∈ u, ¬ Changes o i e) → c₁.pool g = none →
      Requested g (Request.get o i) c₂.trace → c₂.result g = some x →
      ∃ a, Shows a (c₂.state.row o i) ∧ x = answerGet a := by
  intro claim
  have h₁ : Interleaved (.init State.new) overtaking := Interleaved.schedule (step_serve _ _) _ _
  have h₂ : Interleaved overtaking overtaken := Interleaved.schedule (step_serve _ _) _ _
  have howner : ∀ t r, Requested t r overtaken.trace → Request.userId r = 1 := fun t r hr =>
    (show ∀ p ∈ starts overtaken.trace, p.2.userId = 1 by decide +kernel) _ hr.mem_starts
  have hno : ∀ u, overtaken.trace = u ++ overtaking.trace → ∀ e ∈ u, ¬ Changes 1 1 e := fun u hu => by
    obtain rfl := List.append_cancel_right ((show overtaken.trace = overtaken.trace.take 4 ++ overtaking.trace
      from rfl).symm.trans hu)
    decide +kernel
  have hg : Requested 2 (Request.get 1 1) overtaken.trace := (Run.pool_trace (h₁.trans h₂)).1 2 _ _ rfl
  obtain ⟨a, hshows, answer⟩ := claim exampleJson .defaults State.new overtaking overtaken 1 1 2
    (.error taskNotFound) h₁ h₂ howner (by decide +kernel) (by decide +kernel) hno rfl hg (by decide +kernel)
  rw [hshows.eq] at answer
  exact absurd answer (by decide +kernel)

/-! ### One request after another -/

section

variable {J : TaskJson} {settings : Settings} {fails : Call → Prop} {s₀ : State}
  {c : Config (taskSystem J settings fails Environment)} {o i : ℤ}

/-- In a sequential run nobody is overtaken: between the query of a `GET` and its
write of the cache nobody else acts. -/
theorem sequential_not_overtaken (h : Sequential (.init s₀) c) : ¬ Overtaken o i c.trace := by
  rintro ⟨u, e, v, hl, u₁, d, u₂, rfl, -, t, ⟨f, hf, value, ex, w, hact⟩, q, hq, w', hq'⟩
  obtain ⟨a, a', rfl⟩ := List.append_of_mem hf
  rcases f with ⟨s, s', act⟩
  obtain rfl : act = .call t (.redisSet (TaskCache.buildKey o i) value ex) w := hact
  have htr : c.trace = a ++ ⟨s, s', .call t (.redisSet (TaskCache.buildKey o i) value ex) w⟩ ::
      (a' ++ d :: u₂ ++ e :: v) := by
    rw [hl.eq]
    simp
  obtain ⟨b, r, hb, -, hbt, hrun, hr, -, ha, -⟩ := taskCall h htr
  rw [← hbt] at hr
  obtain ⟨r₁, hhead⟩ := Sequential.running hb hrun
  -- the change happened between the query and the write
  obtain ⟨v₁, v₂, rfl⟩ := List.append_of_mem hq
  rcases q with ⟨s₂, s₃, act⟩
  obtain rfl : act = .call t (.findOwnedTask i o) w' := hq'
  have hread : b.trace = (a' ++ d :: u₂ ++ e :: v₁) ++ ⟨s₂, s₃, .call t (.findOwnedTask i o) w'⟩ :: v₂ := by
    rw [hbt]
    simp
  have he := Sequential.since_call hb hhead hread e (by simp)
  have hget : ∃ o' i', r = Request.get o' i' := by
    cases r with
    | get o' i' => exact ⟨o', i', rfl⟩
    | _ => exact ha.elim
  obtain ⟨o', i', rfl⟩ := hget
  rw [← he] at hr
  exact get_no_change hb (by rw [hbt]; simp) hr hl.prop

/-- In a sequential run, the row a write looked up is there until it commits. -/
theorem sequential_loaded (h : Sequential (.init s₀) c) : ∀ t r u i,
    (starts c.trace).head? = some (t, r) → Request.target r = some (u, i) →
    (phase (taskAutomaton J) t c.trace).committed = none →
    ∀ row, (phase (taskAutomaton J) t c.trace).answer = some (some row) → (c.state.row u i).isSome := by
  refine @taskInvariant J settings fails Environment _ s₀ c (fun s tr => ∀ t r u i,
    (starts tr).head? = some (t, r) → Request.target r = some (u, i) →
    (phase (taskAutomaton J) t tr).committed = none →
    ∀ row, (phase (taskAutomaton J) t tr).answer = some (some row) → (s.row u i).isSome) ?_ ?_ ?_ ?_ h
  · intro t r u i hhead
    cases hhead
  · intro b hb ih t r hn t' r' u i hhead htarget hc row hrow
    obtain ⟨rfl, rfl⟩ : t = t' ∧ r = r' := by simpa [starts] using hhead
    rw [phase_start, phase_eq_init _ (Run.not_acted hb hn)] at hrow
    cases hrow
  · intro b hb ih t r x v s' hrun hr ha hs t' r' u i hhead htarget hc row hrow
    -- only the latest request is running
    obtain ⟨r₀, hhead₀⟩ := Sequential.running hb hrun
    obtain ⟨rfl, rfl⟩ : t = t' ∧ r₀ = r' := by
      simpa using hhead₀.symm.trans hhead
    obtain rfl := hb.requested_unique (Sequential.requested hb hhead₀) hr
    rw [phase_call_self] at hc hrow
    have ih := ih t r₀ u i hhead₀ htarget
    by_cases hx : ∃ id o, x = .findOwnedTask id o
    · obtain ⟨id, o', rfl⟩ := hx
      obtain ⟨rfl, rfl⟩ : id = i ∧ o' = u := by
        cases r₀ <;> cases htarget <;> exact ⟨ha.1, ha.2.1⟩
      obtain rfl := step_findOwnedTask hs
      have hdb := step_db rfl hs
      have hrow : some (b.state.db.findOwnedTask id o') = some (some row) := hrow
      simp only [State.row, hdb, Option.some.inj hrow, Option.isSome_some]
    push Not at hx
    replace hrow := (Phase.next_answer hx).symm.trans hrow
    by_cases hcommit : x.isCommit = false
    · have hdb := step_db hcommit hs
      simp only [State.row, hdb]
      exact ih ((Phase.next_committed hcommit).symm.trans hc) row hrow
    · -- a commit that returned is over
      cases r₀ with
      | patch u' i' body =>
        cases x <;> first | exact absurd rfl hcommit | exact ha.elim | skip
        rcases step_commitUpdate hs with rfl | ⟨rfl, -⟩
        · exact ih ha.2.1.1 row hrow
        · cases hc
      | delete u' i' =>
        cases x <;> first | exact absurd rfl hcommit | exact ha.elim | skip
        obtain ⟨rfl, -⟩ := step_commitDelete hs
        cases hc
      | _ => cases htarget
  · intro b hb ih s' he t r u i h1 h2 h3 row h4
    simp only [State.row, he.db]
    exact ih t r u i h1 h2 h3 row h4

/-- In a sequential run a request changes its own user's rows only. -/
theorem sequential_owner (h : Sequential (.init s₀) c) {e : TaskEvent J settings fails Environment}
    (he : e ∈ c.trace) (hch : Changes o i e) {r : Request} (hr : Requested e.act.thread r c.trace) :
    r.userId = o := by
  obtain ⟨u, tr, he⟩ := List.append_of_mem he
  rcases e with ⟨s, s', ⟨t, r'⟩ | ⟨t, x, v⟩⟩
  · obtain rfl := Run.started h he
    exact absurd rfl hch
  obtain ⟨b, r', hb, rfl, rfl, hrun, hr', huniq, ha, hs⟩ := taskCall h he
  obtain rfl := huniq r hr
  obtain ⟨r₀, hhead⟩ := Sequential.running hb hrun
  obtain rfl := hb.requested_unique (Sequential.requested hb hhead) hr'
  obtain ⟨⟨hc, -⟩, -, ⟨⟨body, rfl⟩, -⟩ | ⟨u, htarget, ⟨row, hrow⟩, hsome⟩⟩ := changes_cases ha hs hch
  · rfl
  -- the row has the owner the request looked it up under
  obtain ⟨x, hx⟩ := Option.isSome_iff_exists.mp (sequential_loaded hb t r₀ u i hhead htarget hc row hrow)
  obtain ⟨y, hy⟩ := Option.isSome_iff_exists.mp hsome
  rw [TaskTable.findOwnedTask_eq_some_iff] at hx hy
  obtain rfl := Option.some.inj (hx.1.symm.trans hy.1)
  have hu : r₀.userId = u := by
    cases r₀ <;> cases htarget <;> rfl
  exact hu.trans (hx.2.symm.trans hy.2)

/-- What the entry of task `i` of owner `o` may be: absent, the marker while there
is no such task, or a serialization of a task with the fields of the row. -/
def EntryAgrees (J : TaskJson) (o i : ℤ) (s : State) : Prop :=
  ∀ e, s.redis (TaskCache.buildKey o i) = some e →
    (e.value = taskNotFoundCacheMarker ∧ s.row o i = none) ∨
    ∃ row task, s.row o i = some row ∧ J.modelValidateJson e.value = some task ∧ task.Represents row ∧
      e.value ≠ taskNotFoundCacheMarker

theorem coherent_iff {s : State} : Coherent J o i s ↔ EntryAgrees J o i s := by
  refine forall_congr' fun e => imp_congr_right fun _ => ?_
  unfold TaskJson.read
  cases hrow : s.row o i with
  | none => by_cases hm : e.value = taskNotFoundCacheMarker <;> simp [hm, taskOf]
  | some row =>
    obtain ⟨-, -, hread⟩ := TaskTable.findOwnedTask_some hrow
    have honly : ∀ task : TaskResponse, task.Represents row ↔ task = row.response hread := fun task =>
      ⟨fun h => h.unique (row.represents_response hread), fun h => h ▸ row.represents_response hread⟩
    by_cases hm : e.value = taskNotFoundCacheMarker <;> simp [hm, taskOf_some hread, honly]

/-- While a request runs alone, and once it has ended, the entries agree with the rows. -/
theorem sequential_coherent (h : Sequential (.init s₀) c) (hdel : InvalidationsSucceed c.trace)
    (hinit : Coherent J o i s₀) (hend : ∀ e ∈ c.trace, Changes o i e → ¬ c.Running e.act.thread) :
    Coherent J o i c.state :=
  coherent_of_settled h hdel
    (settled_of_ended h hdel (fun _ he hch _ hr => sequential_owner h he hch hr) hend)
    (sequential_not_overtaken h) (.inl hinit)

/-- **Exact coherence for requests that do not overlap.** One request runs after
another, entries expire at any moment, and Redis fails at anything but the
invalidations of the writes. After each request every entry agrees with its row,
and a `GET` that is the latest request has answered with the fields of its row, or
404 without one, if it has not ended with the error of a Redis call. -/
theorem cache_coherent (hinit : ∀ o i, EntryAgrees J o i s₀) (h : Sequential (.init s₀) c)
    (hdel : InvalidationsSucceed c.trace) :
    (c.Quiet → ∀ o i, EntryAgrees J o i c.state) ∧
    ∀ g o i x, (starts c.trace).head? = some (g, Request.get o i) → c.result g = some x →
      (∃ a, Shows a (c.state.row o i) ∧ x = answerGet a) ∨ x = .error .redisError := by
  refine ⟨fun hq o i => ?_, fun g o i x hhead hx => ?_⟩
  · exact coherent_iff.mp (sequential_coherent h hdel (coherent_iff.mpr (hinit o i)) fun e _ _ => hq _)
  · have hg := Sequential.requested h hhead
    refine (get_answers h hg hx fun u s s' y v tr he => ?_).imp (fun heq => ⟨_, c.state.shows_row o i, heq⟩) And.left
    constructor
    · intro e hu
      have hmine := Sequential.since_call h hhead he e hu
      exact get_no_change h (by rw [he]; exact List.mem_append_left _ hu) (by rw [hmine]; exact hg)
    · obtain ⟨b, r, hb, rfl, rfl, hrun, hr, huniq, -⟩ := taskCall h he
      obtain rfl := huniq _ hg
      refine sequential_coherent hb ?_ (coherent_iff.mpr (hinit o i)) fun e he' hch hrun' => ?_
      · rw [he, ← List.singleton_append, ← List.append_assoc] at hdel
        exact hdel.of_append
      · rw [Sequential.running_unique hb hrun hrun'] at hr
        exact get_no_change hb he' hr hch

end

/-- The `POST` and the `GET` one after the other, on a Redis that may fail at anything. -/
noncomputable def postedThenFetched : Config (taskSystem exampleJson .defaults (fun _ => True) Environment) :=
  (exampleRun _ _ (.start 0 examplePost :: (List.replicate 3 0).map .call)).schedule (State.serve Pick.first)
    (.start 1 (Request.get 1 1) :: (List.replicate 8 1).map .call)

theorem cache_coherent_posted :
    (∀ o i, EntryAgrees exampleJson o i postedThenFetched.state) ∧
      ∃ a, Shows a (postedThenFetched.state.row 1 1) ∧
        (.ok (some exampleTask) : Except Exn (Option TaskResponse)) = answerGet a := by
  have h₁ : Sequential (.init State.new) (exampleRun (fun _ => True) Environment
      (.start 0 examplePost :: (List.replicate 3 0).map .call)) :=
    Sequential.request (S := taskSystem exampleJson .defaults (fun _ => True) Environment) (c := .init State.new)
      (step_serve _ _) .refl (Config.quiet_init _) 0 examplePost 3
  have h₂ : Sequential (.init State.new) postedThenFetched :=
    Sequential.request (S := taskSystem exampleJson .defaults (fun _ => True) Environment) (step_serve _ _) h₁
      (Run.quiet h₁ (by decide +kernel)) 1 (Request.get 1 1) 8
  have hraised : ∀ e ∈ postedThenFetched.trace, e.act.raised = false := by decide +kernel
  obtain ⟨hq, hget⟩ := cache_coherent (fun o i e he => by cases he) h₂ fun e he t key err r hact hr => by
    have := hraised e he
    rw [hact] at this
    cases this
  refine ⟨hq (Run.quiet h₂ (by decide +kernel)), ?_⟩
  exact (hget 1 1 1 _ (by decide +kernel) (by decide +kernel)).resolve_right (by decide)

end TaskApi
