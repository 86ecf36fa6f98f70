/-
# PATCHes of one task

Any number of `PATCH` requests of one task, interleaved with any other requests
that do not delete it. A `PATCH` loads the row in one step and commits in
another, and its `UPDATE` writes only the columns whose new value differs from
the loaded one. So the row a run ends with is the first row with the bodies
applied in the order of their commits, each without the fields that name the
value it had loaded (`patches_commit_in_order`), and two requests can mix to a
row that no serial order of them has (`patches_not_serializable`).

Key definitions: `Snapshot`, `patchDiscipline`, `PatchCommit`, `patchCommits`,
`TaskUpdate.Untouched`.
Key theorems: `assign_changesFrom_eq_iff`, `patchInvariant`,
`patches_commit_in_order`.
-/
import TaskApi.Coherence

namespace TaskApi

open Conc

/-! ### What an `UPDATE` leaves out -/

/-- No field is assigned the value that was loaded while the row has another by now. -/
def TaskUpdate.Untouched (u : TaskUpdate) (loaded row : TaskRecord) : Prop :=
  (∀ x ∈ u.title, x.1 = loaded.title → row.title = loaded.title) ∧
  (∀ x ∈ u.description, x.map (·.1) = loaded.description → row.description = loaded.description) ∧
  (∀ x ∈ u.priority, x.1 = loaded.priority → row.priority = loaded.priority) ∧
  (∀ x ∈ u.completed, x = loaded.completed → row.completed = loaded.completed) ∧
  ∀ x ∈ u.dueDate, x = loaded.dueDate → row.dueDate = loaded.dueDate

/-- One field: leaving out the loaded value makes no difference if it still stands. -/
theorem getD_filter_eq_iff {α β : Type} [DecidableEq β] (f : α → β) (x : Option α) (loaded now : β) :
    ((x.filter (f · ≠ loaded)).map f).getD now = (x.map f).getD now ↔
      ∀ a ∈ x, f a = loaded → now = loaded := by
  cases x with
  | none => simp
  | some a =>
    by_cases ha : f a = loaded
    · simp [Option.filter_some, ha]
    · simp [Option.filter_some, ha]

theorem assign_changesFrom_eq_iff (u : TaskUpdate) (loaded row : TaskRecord) :
    row.assign (u.changesFrom loaded) = row.assign u ↔ u.Untouched loaded row := by
  have completed := getD_filter_eq_iff id u.completed loaded.completed row.completed
  have dueDate := getD_filter_eq_iff id u.dueDate loaded.dueDate row.dueDate
  simp only [Option.map_id, id_eq] at completed dueDate
  simp only [TaskRecord.assign, TaskUpdate.changesFrom, TaskRecord.mk.injEq, true_and,
    TaskUpdate.Untouched, getD_filter_eq_iff, completed, dueDate]

/-! ### Loads and commits -/

/-- What a request has loaded, and how its commit came back. -/
structure Snapshot where
  loaded : Option (Option TaskRecord) := none
  committed : Option (Except Exn Unit) := none

def Snapshot.next (q : Snapshot) : (c : Call) → calls.Out c → Snapshot
  | .findOwnedTask .., .ok x => { q with loaded := q.loaded.or (some x) }
  | .commitUpdate .., v => { q with committed := q.committed.or (some v) }
  | _, _ => q

/-- A `PATCH` loads its row once and commits once, and then only what differs
from the row it loaded. Of the other requests it matters which calls they make. -/
def Request.PatchAllows : Request → Snapshot → Call → Prop
  | .patch ownerId taskId _, q, .findOwnedTask taskId' ownerId' =>
    q.loaded = none ∧ taskId' = taskId ∧ ownerId' = ownerId
  | .patch _ taskId body, q, .commitUpdate id changes =>
    q.committed = none ∧ id = taskId ∧ ∃ row, q.loaded = some (some row) ∧ changes = body.changesFrom row
  | .create .., _, .commitInsert .. => True
  | .delete _ taskId, _, .commitDelete id => id = taskId
  | _, _, c => c.isCommit = false

/-- How a `PATCH` ends: it found no row, or it has committed. -/
def Request.PatchEnds : Request → Snapshot → Prop
  | .patch .., q => q.loaded = some none ∨ q.committed ≠ none
  | _, _ => True

abbrev patchAutomaton : Automaton calls := ⟨Snapshot, {}, Snapshot.next⟩

abbrev patchProtocol (r : Request) : Protocol calls where
  toAutomaton := patchAutomaton
  allows := r.PatchAllows

section Protocol

variable {J : TaskJson} {settings : Settings} {fails : Call → Prop} {r : Request}

/-- Requests other than `PATCH` are looked at through the protocol of their routes. -/
theorem other_follows (hr : ∀ u i b, r ≠ .patch u i b) :
    (r.body J settings).Follows (patchProtocol r) (Can fails) (fun q _ => r.PatchEnds q) {} := by
  have h := (taskDiscipline J settings fails (fun _ _ => False)).follows r
  have hcalls : ∀ q c, (taskProtocol J settings r).allows q c → ∀ q', (patchProtocol r).allows q' c := by
    intro q c ha q'
    cases r with
    | patch u i b => exact absurd rfl (hr u i b)
    | create u b => cases c <;> trivial
    | get u i => cases c <;> first | exact ha.elim | rfl
    | delete u i =>
      cases c with
      | commitDelete id => exact ha.1
      | _ => first | exact ha.elim | rfl
  refine (h.weaken hcalls ({} : Snapshot)).mono fun q x _ => ?_
  cases r with
  | patch u i b => exact absurd rfl (hr u i b)
  | _ => trivial

theorem patch_follows {u i : ℤ} {b : TaskUpdate} :
    (Request.body J settings (.patch u i b)).Follows (patchProtocol (.patch u i b)) (Can fails)
      (fun q _ => Request.PatchEnds (.patch u i b) q) {} := by
  -- after the commit nothing of the snapshot changes
  have committed : ∀ {v : Except Exn Unit} {row : TaskRecord},
      ((do
        invalidateCachedTask row.ownerId row.id
        let storedTask : TaskRecord ← perform (.refresh row.id)
        validateTask storedTask) : Act TaskResponse).Follows (patchProtocol (.patch u i b)) (Can fails)
        (fun q _ => Request.PatchEnds (.patch u i b) q) ⟨some (some row), some v⟩ := by
    intro v row
    refine Prog.follows_bind.mpr (Prog.follows_bind.mpr (follows_attemptRedis
      (Prog.follows_perform.mpr ⟨rfl, fun w ⟨s, s', hs⟩ => ?_⟩)))
    have refreshed : (perform (.refresh row.id) >>= validateTask).Follows (patchProtocol (.patch u i b))
        (Can fails) (fun q _ => Request.PatchEnds (.patch u i b) q) ⟨some (some row), some v⟩ := by
      refine Prog.follows_bind.mpr (Prog.follows_perform.mpr ⟨rfl, fun w ⟨s, s', hs⟩ => ?_⟩)
      rcases w with e | row'
      · exact .inr (by simp [Snapshot.next])
      · exact validateTask_follows fun _ => .inr (by simp [Snapshot.next])
    rcases w with e | _
    · obtain rfl := step_redis_error rfl hs
      exact refreshed
    · exact refreshed
  refine Prog.follows_bind.mpr (Prog.follows_bind.mpr (Prog.follows_bind.mpr
    (Prog.follows_perform.mpr ⟨⟨rfl, rfl, rfl⟩, fun v ⟨s, s', hs⟩ => ?_⟩)))
  obtain rfl := step_findOwnedTask hs
  cases hx : s.db.findOwnedTask i u with
  | none => exact .inl rfl
  | some row =>
    obtain ⟨rfl, rfl, -⟩ := TaskTable.findOwnedTask_some hx
    refine Prog.follows_bind.mpr (Prog.follows_perform.mpr ⟨⟨rfl, rfl, row, rfl, rfl⟩, fun v ⟨s, s', hs⟩ => ?_⟩)
    rcases v with e | _
    · exact .inr (by simp [Snapshot.next])
    · exact committed.mono fun q x hq => by cases x <;> exact hq

theorem patchRequest_follows (r : Request) :
    (r.body J settings).Follows (patchProtocol r) (Can fails) (fun q _ => r.PatchEnds q) {} := by
  cases r with
  | patch u i b => exact patch_follows
  | create u b => exact other_follows (by simp)
  | get u i => exact other_follows (by simp)
  | delete u i => exact other_follows (by simp)

end Protocol

/-- Every request follows its patch protocol, whatever Redis calls fail. -/
def patchDiscipline (J : TaskJson) (settings : Settings) (fails : Call → Prop)
    (env : State → State → Prop) : Discipline (taskSystem J settings fails env) where
  protocol := patchProtocol
  final r q _ := r.PatchEnds q
  follows r := patchRequest_follows r

/-! ### The order of the commits -/

/-- A committed `PATCH`: the request's thread and body, and the row it had loaded. -/
structure PatchCommit where
  thread : ℕ
  body : TaskUpdate
  loaded : TaskRecord

/-- What the commit makes of the row. -/
def PatchCommit.apply (row : TaskRecord) (p : PatchCommit) : TaskRecord :=
  row.assign (p.body.changesFrom p.loaded)

/-- What holds of each element and those before it still does with one more at the end. -/
theorem forall_before_concat {α : Type} {P : List α → α → Prop} {order : List α} {q : α}
    (h : ∀ l p l', order = l ++ p :: l' → P l p) (hlast : P order q) :
    ∀ l p l', order ++ [q] = l ++ p :: l' → P l p := by
  intro l p l' heq
  rcases List.eq_nil_or_concat l' with rfl | ⟨l'', q', rfl⟩
  · obtain ⟨rfl, hq⟩ := List.append_singleton_inj.mp heq
    cases hq
    exact hlast
  · have hsplit : l ++ p :: l''.concat q' = (l ++ p :: l'') ++ [q'] := by simp
    exact h l p l'' (List.append_singleton_inj.mp (heq.trans hsplit)).1

/-- The row after the commits, one after another. -/
def rowAfter (row : TaskRecord) (order : List PatchCommit) : TaskRecord := order.foldl PatchCommit.apply row

theorem rowAfter_concat (row : TaskRecord) (order : List PatchCommit) (p : PatchCommit) :
    rowAfter row (order ++ [p]) = p.apply (rowAfter row order) := by
  simp [rowAfter]

theorem rowAfter_id_ownerId (row : TaskRecord) (order : List PatchCommit) :
    (rowAfter row order).id = row.id ∧ (rowAfter row order).ownerId = row.ownerId := by
  induction order using List.reverseRecOn with
  | nil => exact ⟨rfl, rfl⟩
  | append_singleton order p ih =>
    rw [rowAfter_concat]
    exact ih

section Runs

variable {J : TaskJson} {settings : Settings} {fails : Call → Prop} {i : ℤ} {row₀ : TaskRecord}

/-- The threads whose commits of task `i` returned, in their order. -/
def patchCommits (i : ℤ) : List (TaskEvent J settings fails Environment) → List ℕ
  | [] => []
  | ⟨_, _, .call t (.commitUpdate id _) (.ok _)⟩ :: tr =>
    if id = i then patchCommits i tr ++ [t] else patchCommits i tr
  | _ :: tr => patchCommits i tr

/-- An `UPDATE` of a row that is there. -/
theorem step_commitUpdate_row {s s' : State} {changes : TaskUpdate} {v : Except Exn Unit} {row : TaskRecord}
    (hrow : s.db.get i = some row) (h : step fails (.commitUpdate i changes) s v s') :
    v = .ok () ∧ s'.db.get i = some (row.assign changes) := by
  rcases h with ⟨pick, h⟩ | ⟨hr, -⟩
  · simp only [State.serve] at h
    by_cases hempty : changes = {}
    · subst hempty
      rw [if_pos rfl] at h
      cases h
      exact ⟨rfl, hrow⟩
    · rw [if_neg hempty, if_neg (by simp [hrow])] at h
      cases h
      exact ⟨rfl, by simp [TaskTable.get_update, hrow]⟩
  · cases hr

/-- What holds of the row of task `i`, with the order of its commits so far. -/
structure PatchInv (i : ℤ) (row₀ : TaskRecord) (s : State) (tr : List (TaskEvent J settings fails Environment))
    (order : List PatchCommit) : Prop where
  threads : order.map (·.thread) = patchCommits i tr
  nodup : (order.map (·.thread)).Nodup
  made : ∀ p ∈ order, Requested p.thread (Request.patch row₀.ownerId i p.body) tr ∧
    (phase patchAutomaton p.thread tr).loaded = some (some p.loaded) ∧
    (phase patchAutomaton p.thread tr).committed ≠ none
  row : s.db.get i = some (rowAfter row₀ order)
  /-- Who has loaded the row is its owner, and has it as of some of the commits. -/
  loaded : ∀ t u body row, Requested t (Request.patch u i body) tr →
    (phase patchAutomaton t tr).loaded = some (some row) →
    u = row₀.ownerId ∧ ∃ l, l <+: order ∧ row = rowAfter row₀ l
  found : ∀ t body, Requested t (Request.patch row₀.ownerId i body) tr →
    (phase patchAutomaton t tr).loaded ≠ some none
  committed : ∀ t u body, Requested t (Request.patch u i body) tr →
    (phase patchAutomaton t tr).committed ≠ none → t ∈ patchCommits i tr
  /-- What a request committed had been loaded after some of the commits before it. -/
  earlier : ∀ l p l', order = l ++ p :: l' → ∃ m, m <+: l ∧ p.loaded = rowAfter row₀ m

namespace PatchInv

variable {s s' : State} {tr : List (TaskEvent J settings fails Environment)}
  {e : TaskEvent J settings fails Environment} {order : List PatchCommit}

/-- An event that is no load and no commit of the task. -/
theorem keep (h : PatchInv i row₀ s tr order) (hdb : s'.db.get i = s.db.get i)
    (hcommits : patchCommits i (e :: tr) = patchCommits i tr)
    (hphase : ∀ t u body, Requested t (Request.patch u i body) (e :: tr) →
      phase patchAutomaton t (e :: tr) = phase patchAutomaton t tr ∧
      (Requested t (Request.patch u i body) tr ∨ phase patchAutomaton t tr = {})) :
    PatchInv i row₀ s' (e :: tr) order := by
  refine ⟨hcommits ▸ h.threads, h.nodup, fun p hp => ?_, hdb ▸ h.row, ?_, ?_, ?_, h.earlier⟩
  · obtain ⟨hr, hload, hcommit⟩ := h.made p hp
    rw [(hphase _ _ _ (hr.cons e)).1]
    exact ⟨hr.cons e, hload, hcommit⟩
  · intro t u body row hr hload
    obtain ⟨hsame, hr | hinit⟩ := hphase t u body hr
    · exact h.loaded t u body row hr (hsame ▸ hload)
    · rw [hsame, hinit] at hload
      cases hload
  · intro t body hr hload
    obtain ⟨hsame, hr | hinit⟩ := hphase t _ body hr
    · exact h.found t body hr (hsame ▸ hload)
    · rw [hsame, hinit] at hload
      cases hload
  · intro t u body hr hcommit
    rw [hcommits]
    obtain ⟨hsame, hr | hinit⟩ := hphase t u body hr
    · exact h.committed t u body hr (hsame ▸ hcommit)
    · rw [hsame, hinit] at hcommit
      exact absurd rfl hcommit

variable {t : ℕ} {u : ℤ} {body : TaskUpdate}

/-- A `PATCH` of the task loads its row. -/
theorem load (h : PatchInv i row₀ s tr order) (hr : Requested t (Request.patch u i body) tr)
    (huniq : ∀ r, Requested t r tr → r = Request.patch u i body)
    (hq : (phase patchAutomaton t tr).loaded = none) (hdb : s'.db = s.db) :
    PatchInv i row₀ s' (⟨s, s', .call t (.findOwnedTask i u) (.ok (s.db.findOwnedTask i u))⟩ :: tr) order := by
  have hphase := phase_call_self patchAutomaton t (.findOwnedTask i u) (.ok (s.db.findOwnedTask i u)) s s' tr
  have hloaded : (patchAutomaton.next (phase patchAutomaton t tr) (.findOwnedTask i u)
      (.ok (s.db.findOwnedTask i u))).loaded = some (s.db.findOwnedTask i u) := by
    simp [Snapshot.next, hq]
  have hrow : s.db.findOwnedTask i u = (some (rowAfter row₀ order)).filter (·.ownerId = u) := by
    rw [TaskTable.findOwnedTask_eq, h.row]
  refine ⟨h.threads, h.nodup, fun p hp => ?_, hdb ▸ h.row, ?_, ?_, ?_, h.earlier⟩
  · obtain ⟨hreq, hload, hcommit⟩ := h.made p hp
    have hne : t ≠ p.thread := fun heq => by
      rw [← heq, hq] at hload
      cases hload
    rw [phase_call_ne _ hne]
    exact ⟨hreq.cons _, hload, hcommit⟩
  · intro t' u' body' row hr' hload
    rw [requested_call] at hr'
    by_cases ht : t = t'
    · subst ht
      cases huniq _ hr'
      rw [hphase, hloaded, Option.some.injEq, hrow, Option.filter_eq_some_iff, Option.some.injEq] at hload
      obtain ⟨rfl, howner⟩ := hload
      rw [decide_eq_true_eq, (rowAfter_id_ownerId _ _).2] at howner
      exact ⟨howner.symm, order, List.prefix_refl _, rfl⟩
    · rw [phase_call_ne _ ht] at hload
      exact h.loaded t' u' body' row hr' hload
  · intro t' body' hr' hload
    rw [requested_call] at hr'
    by_cases ht : t = t'
    · subst ht
      cases huniq _ hr'
      rw [hphase, hloaded, hrow] at hload
      simp [Option.filter_some, rowAfter_id_ownerId] at hload
    · rw [phase_call_ne _ ht] at hload
      exact h.found t' body' hr' hload
  · intro t' u' body' hr' hcommit
    rw [requested_call] at hr'
    by_cases ht : t = t'
    · subst ht
      rw [hphase] at hcommit
      exact h.committed t u' body' hr' hcommit
    · rw [phase_call_ne _ ht] at hcommit
      exact h.committed t' u' body' hr' hcommit

/-- A `PATCH` of the task commits. -/
theorem commit {row : TaskRecord} {v : Except Exn Unit} (h : PatchInv i row₀ s tr order)
    (hr : Requested t (Request.patch u i body) tr) (huniq : ∀ r, Requested t r tr → r = Request.patch u i body)
    (hq : (phase patchAutomaton t tr).committed = none)
    (hload : (phase patchAutomaton t tr).loaded = some (some row))
    (hs : step fails (.commitUpdate i (body.changesFrom row)) s v s') :
    PatchInv i row₀ s' (⟨s, s', .call t (.commitUpdate i (body.changesFrom row)) v⟩ :: tr)
      (order ++ [⟨t, body, row⟩]) := by
  obtain ⟨rfl, hrow⟩ := step_commitUpdate_row h.row hs
  have hphase := phase_call_self patchAutomaton t (.commitUpdate i (body.changesFrom row)) (.ok ()) s s' tr
  have hcommits : patchCommits i (⟨s, s', .call t (.commitUpdate i (body.changesFrom row)) (.ok ())⟩ :: tr) =
      patchCommits i tr ++ [t] := by
    simp [patchCommits]
  obtain ⟨rfl, l, hl, rfl⟩ := h.loaded t u body row hr hload
  have hfresh : ∀ p ∈ order, p.thread ≠ t := fun p hp heq => by
    have := (h.made p hp).2.2
    rw [heq] at this
    exact this hq
  refine ⟨?_, ?_, fun p hp => ?_, ?_, ?_, ?_, ?_, forall_before_concat h.earlier ⟨l, hl, rfl⟩⟩
  · rw [hcommits, List.map_append, h.threads]
    rfl
  · rw [List.map_append, List.nodup_append]
    refine ⟨h.nodup, List.nodup_singleton _, fun a ha b hb => ?_⟩
    obtain ⟨p, hp, rfl⟩ := List.mem_map.mp ha
    rw [List.mem_singleton.mp hb]
    exact hfresh p hp
  · rcases List.mem_append.mp hp with hp | hp
    · obtain ⟨hreq, hload', hcommit⟩ := h.made p hp
      rw [phase_call_ne _ (hfresh p hp).symm]
      exact ⟨hreq.cons _, hload', hcommit⟩
    · rw [List.mem_singleton.mp hp, hphase]
      exact ⟨hr.cons _, hload, by simp [Snapshot.next, hq]⟩
  · rw [rowAfter_concat]
    exact hrow
  · intro t' u' body' row' hr' hload'
    rw [requested_call] at hr'
    have hload' : (phase patchAutomaton t' tr).loaded = some (some row') := by
      by_cases ht : t = t'
      · subst ht
        rwa [hphase] at hload'
      · rwa [phase_call_ne _ ht] at hload'
    obtain ⟨hu, l', hl', hrow'⟩ := h.loaded t' u' body' row' hr' hload'
    exact ⟨hu, l', hl'.trans (List.prefix_append _ _), hrow'⟩
  · intro t' body' hr' hload'
    rw [requested_call] at hr'
    refine h.found t' body' hr' ?_
    by_cases ht : t = t'
    · subst ht
      rwa [hphase] at hload'
    · rwa [phase_call_ne _ ht] at hload'
  · intro t' u' body' hr' hcommit
    rw [requested_call] at hr'
    rw [hcommits]
    by_cases ht : t = t'
    · exact List.mem_append_right _ (List.mem_singleton.mpr ht.symm)
    · rw [phase_call_ne _ ht] at hcommit
      exact List.mem_append_left _ (h.committed t' u' body' hr' hcommit)

end PatchInv

variable {gate : Config (taskSystem J settings fails Environment) → Prop} {s₀ : State}
  {c : Config (taskSystem J settings fails Environment)}

theorem Snapshot.next_other {q : Snapshot} {x : Call} {v : calls.Out x} (hload : ∀ a b, x ≠ .findOwnedTask a b)
    (hcommit : ∀ a b, x ≠ .commitUpdate a b) : q.next x v = q := by
  cases x with
  | findOwnedTask a b => exact absurd rfl (hload a b)
  | commitUpdate a b => exact absurd rfl (hcommit a b)
  | _ => rcases v with e | v <;> rfl

theorem patchCommits_other {e : TaskEvent J settings fails Environment}
    {tr : List (TaskEvent J settings fails Environment)}
    (he : ∀ t changes v, e.act ≠ .call t (.commitUpdate i changes) v) :
    patchCommits i (e :: tr) = patchCommits i tr := by
  rcases e with ⟨s, s', ⟨t, r⟩ | ⟨t, x, v⟩⟩
  · rfl
  cases x with
  | commitUpdate id changes =>
    rcases v with e | v
    · rfl
    · refine if_neg ?_
      rintro rfl
      exact he _ _ _ rfl
  | _ => rfl

/-- The row a call of another request, or another row's, leaves as it is. -/
theorem step_other_row {r : Request} {q : Snapshot} {x : Call} {v : calls.Out x} {s s' : State} {row : TaskRecord}
    (hrow : s.db.get i = some row) (ha : r.PatchAllows q x) (hdel : ∀ u, r ≠ .delete u i)
    (hpatch : ∀ changes, x ≠ .commitUpdate i changes) (hs : step fails x s v s') :
    s'.db.get i = s.db.get i := by
  by_cases hx : x.isCommit = false
  · rw [step_db hx hs]
  cases x with
  | commitInsert body ownerId =>
    obtain ⟨id, hid, rfl, rfl⟩ := step_commitInsert hs
    rw [TaskTable.get_insert, if_neg]
    rintro rfl
    rw [hid] at hrow
    cases hrow
  | commitUpdate id changes =>
    rcases step_commitUpdate hs with rfl | ⟨-, rfl⟩
    · rfl
    · rw [TaskTable.get_update, if_neg]
      rintro rfl
      exact hpatch changes rfl
  | commitDelete id =>
    obtain ⟨-, rfl⟩ := step_commitDelete hs
    rw [TaskTable.get_delete, if_neg]
    rintro rfl
    cases r with
    | delete u i' =>
      obtain rfl : i = i' := ha
      exact hdel u rfl
    | _ => cases ha
  | _ => exact absurd rfl hx

/-- The row of a task and the order of its commits, in every run that does not delete it. -/
theorem patchInvariant (hrow : s₀.db.get i = some row₀) (h : Run gate (.init s₀) c)
    (hdel : ∀ t u, ¬ Requested t (Request.delete u i) c.trace) :
    ∃ order, PatchInv i row₀ c.state c.trace order := by
  refine @Run.invariant _ _ gate s₀ (patchDiscipline J settings fails Environment)
    (fun s tr => (∀ t u, ¬ Requested t (Request.delete u i) tr) → ∃ order, PatchInv i row₀ s tr order)
    ?_ ?_ ?_ ?_ c h hdel
  · refine fun _ => ⟨[], rfl, List.nodup_nil, fun p hp => ?_, hrow, ?_, ?_, ?_, fun l p l' heq => ?_⟩
    · cases hp
    · rintro t u body row ⟨s, hs⟩
      cases hs
    · rintro t body ⟨s, hs⟩
      cases hs
    · rintro t u body ⟨s, hs⟩
      cases hs
    · cases l <;> cases heq
  · intro b hb ih t r hn hdel
    obtain ⟨order, ih⟩ := ih fun t' u hr => hdel t' u (hr.cons _)
    refine ⟨order, ih.keep rfl (patchCommits_other (by simp)) fun t' u body hr => ?_⟩
    refine ⟨rfl, ?_⟩
    rcases requested_start.mp hr with ⟨-, rfl, -⟩ | hr
    · exact .inr (phase_eq_init _ (Run.not_acted hb hn))
    · exact .inl hr
  · intro b hb ih t r x v s' hrun hr ha hs hdel
    obtain ⟨order, ih⟩ := ih fun t' u hr => hdel t' u (hr.cons _)
    have huniq : ∀ r', Requested t r' b.trace → r' = r := fun r' hr' => hb.requested_unique hr' hr
    have hdel' : ∀ u, r ≠ .delete u i := fun u heq => hdel t u (heq ▸ hr.cons _)
    by_cases hcommit : ∃ changes, x = .commitUpdate i changes
    · obtain ⟨changes, rfl⟩ := hcommit
      cases r with
      | patch u i' body =>
        obtain ⟨hq, rfl, row, hload, rfl⟩ := ha
        exact ⟨_, ih.commit hr huniq hq hload hs⟩
      | _ => cases ha
    push Not at hcommit
    have hdb := step_other_row ih.row ha hdel' hcommit hs
    have hcommits : patchCommits i (⟨b.state, s', .call t x v⟩ :: b.trace) = patchCommits i b.trace :=
      patchCommits_other fun t' changes v' heq => by
        cases heq
        exact hcommit changes rfl
    by_cases hload : ∃ u body a o, r = .patch u i body ∧ x = .findOwnedTask a o
    · obtain ⟨u, body, a, o, rfl, rfl⟩ := hload
      obtain ⟨hq, rfl, rfl⟩ := ha
      obtain rfl := step_findOwnedTask hs
      exact ⟨order, ih.load hr huniq hq (step_db rfl hs)⟩
    push Not at hload
    refine ⟨order, ih.keep hdb hcommits fun t' u body hr' => ?_⟩
    rw [requested_call] at hr'
    refine ⟨?_, .inl hr'⟩
    by_cases ht : t = t'
    · subst ht
      obtain rfl := huniq _ hr'
      rw [phase_call_self]
      refine Snapshot.next_other (fun a o heq => hload u body a o rfl heq) fun a changes heq => ?_
      subst heq
      obtain ⟨-, rfl, -⟩ := ha
      exact hcommit changes rfl
    · exact phase_call_ne _ ht x v _ _ _
  · intro b hb ih s' he hdel
    obtain ⟨order, ih⟩ := ih hdel
    exact ⟨order, ih.threads, ih.nodup, ih.made, by rw [he.db]; exact ih.row, ih.loaded, ih.found, ih.committed,
      ih.earlier⟩

/-- Where the row a thread has loaded came from. -/
theorem loaded_event (h : Run gate (.init s₀) c) {t : ℕ} {u : ℤ} {body : TaskUpdate} {row : TaskRecord}
    (hr : Requested t (Request.patch u i body) c.trace)
    (hload : (phase patchAutomaton t c.trace).loaded = some (some row)) :
    ∃ e ∈ c.trace, e.act = .call t (.findOwnedTask i u) (.ok (some row)) := by
  obtain ⟨b, v, x, w, s', -, -, he, hnot, hnext, ha, hs⟩ :=
    Run.phase_made (patchDiscipline J settings fails Environment) h hr
      (P := fun q : Snapshot => q.loaded = some (some row)) (by rintro ⟨⟩) hload
  by_cases hx : ∃ a o, x = .findOwnedTask a o
  · obtain ⟨a, o, rfl⟩ := hx
    obtain ⟨hq, rfl, rfl⟩ := ha
    obtain rfl := step_findOwnedTask hs
    have hq : (phase patchAutomaton t b.trace).loaded = none := hq
    have hnext : (phase patchAutomaton t b.trace).loaded.or (some (b.state.db.findOwnedTask a o)) = some (some row) :=
      hnext
    rw [hq, Option.none_or, Option.some.injEq] at hnext
    exact ⟨_, he ▸ List.mem_append_right _ List.mem_cons_self, by rw [hnext]⟩
  · push Not at hx
    cases x with
    | findOwnedTask a o => exact absurd rfl (hx a o)
    | commitUpdate a changes => exact absurd hnext hnot
    | _ => rcases w with e | w <;> exact absurd hnext hnot

/-- Whole bodies do what their commits did, where none was assigned a value that it
had loaded and that had changed since. -/
theorem rowAfter_eq_foldl (order : List PatchCommit)
    (h : ∀ l p l', order = l ++ p :: l' → p.body.Untouched p.loaded (rowAfter row₀ l)) :
    rowAfter row₀ order = order.foldl (fun row p => row.assign p.body) row₀ := by
  induction order using List.reverseRecOn with
  | nil => rfl
  | append_singleton order p ih =>
    have ih := ih fun l p' l' heq => h l p' (l' ++ [p]) (by rw [heq]; simp)
    rw [rowAfter_concat, List.foldl_append, ← ih]
    exact (assign_changesFrom_eq_iff _ _ _).mpr (h order p [] rfl)

/-- **PATCHes take effect in the order of their commits**, each without the fields
it assigns the value it had loaded, and it had loaded the row that some of the
commits before its own left. Where none of these has changed since the load, that
is the whole bodies in that order. Once all requests have ended, every `PATCH` by
the owner has committed. -/
theorem patches_commit_in_order (hrow : s₀.db.get i = some row₀) (h : Interleaved (.init s₀) c)
    (hdel : ∀ t u, ¬ Requested t (Request.delete u i) c.trace) :
    ∃ order : List PatchCommit, order.map (·.thread) = patchCommits i c.trace ∧
      (order.map (·.thread)).Nodup ∧
      (∀ p ∈ order, Requested p.thread (Request.patch row₀.ownerId i p.body) c.trace ∧
        ∃ e ∈ c.trace, e.act = .call p.thread (.findOwnedTask i row₀.ownerId) (.ok (some p.loaded))) ∧
      (∀ l p l', order = l ++ p :: l' → ∃ m, m <+: l ∧ p.loaded = rowAfter row₀ m) ∧
      (c.Quiet → ∀ t body, Requested t (Request.patch row₀.ownerId i body) c.trace →
        t ∈ order.map (·.thread)) ∧
      c.state.db.get i = some (rowAfter row₀ order) ∧
      ((∀ l p l', order = l ++ p :: l' → p.body.Untouched p.loaded (rowAfter row₀ l)) →
        c.state.db.get i = some (order.foldl (fun row p => row.assign p.body) row₀)) := by
  obtain ⟨order, hinv⟩ := patchInvariant hrow h hdel
  refine ⟨order, hinv.threads, hinv.nodup, fun p hp => ?_, hinv.earlier, fun hq t body hr => ?_, hinv.row,
    fun huntouched => ?_⟩
  · obtain ⟨hr, hload, -⟩ := hinv.made p hp
    exact ⟨hr, loaded_event h hr hload⟩
  · obtain ⟨x, hx⟩ := Run.ended h hr (hq t)
    rw [hinv.threads]
    rcases Run.final (patchDiscipline J settings fails Environment) h hr hx with hnone | hcommit
    · exact absurd hnone (hinv.found t body hr)
    · exact hinv.committed t _ body hr hcommit
  · rw [hinv.row, rowAfter_eq_foldl order huntouched]

end Runs

/-! ### Two requests that mix -/

/-- The database has the example task. -/
def storedState : State where
  now := 0
  redis := fun _ => none
  db := TaskTable.empty.insert exampleBody 1 1 TaskTable.get_empty_one

def otherTitle : Title := ⟨"Buy bread", by decide⟩

def otherPriority : Priority := ⟨2, by decide⟩

/-- A new title, and the priority as it is. -/
def renamePatch : TaskUpdate := { title := some otherTitle, priority := some exampleBody.priority }

/-- The title as it is, and a new priority. -/
def raisePatch : TaskUpdate := { title := some exampleTitle, priority := some otherPriority }

/-- Both requests load the row before either commits. -/
noncomputable def mixedRun : Config (taskSystem exampleJson .defaults (fun _ => False) Environment) :=
  (Config.init storedState).schedule (State.serve Pick.first)
    (.start 0 (.patch 1 1 renamePatch) :: .start 1 (.patch 1 1 raisePatch) ::
      [0, 1, 0, 1, 0, 0, 1, 1].map .call)

theorem mixedRun_interleaved : Interleaved (.init storedState) mixedRun :=
  Interleaved.schedule (step_serve _ _) _ _

theorem mixedRun_starts :
    starts mixedRun.trace = [(1, .patch 1 1 raisePatch), (0, .patch 1 1 renamePatch)] := by
  rfl

theorem mixedRun_row : mixedRun.state.db.get 1 =
    some { exampleBody.record 1 1 with title := otherTitle.1, priority := otherPriority.1 } := by
  decide +kernel

theorem mixedRun_requests {t : ℕ} {r : Request} (hr : Requested t r mixedRun.trace) :
    ∃ body, r = .patch 1 1 body := by
  have := hr.mem_starts
  rw [mixedRun_starts] at this
  simp only [List.mem_cons, Prod.mk.injEq, List.not_mem_nil, or_false] at this
  rcases this with ⟨-, rfl⟩ | ⟨-, rfl⟩
  · exact ⟨_, rfl⟩
  · exact ⟨_, rfl⟩

theorem patches_commit_in_order_mixed :
    ∃ order : List PatchCommit, order.map (·.thread) = [0, 1] ∧
      mixedRun.state.db.get 1 = some (rowAfter (exampleBody.record 1 1) order) := by
  obtain ⟨order, hthreads, -, -, -, -, hrow, -⟩ := patches_commit_in_order
    (show storedState.db.get 1 = some (exampleBody.record 1 1) by rfl) mixedRun_interleaved fun t u hr => by
      obtain ⟨body, hbody⟩ := mixedRun_requests hr
      cases hbody
  exact ⟨order, hthreads.trans (by decide +kernel), hrow⟩

/-- The body of a `PATCH`. -/
def Request.patchBody : Request → Option TaskUpdate
  | .patch _ _ body => some body
  | _ => none

/-- Two `PATCH` requests can end in a row that they do not make one after the
other, in either order. -/
theorem patches_not_serializable :
    ¬ ∀ (J : TaskJson) (settings : Settings) (fails : Call → Prop) (s₀ : State)
      (c : Config (taskSystem J settings fails Environment)) (i : ℤ) (row₀ : TaskRecord),
      s₀.db.get i = some row₀ → Interleaved (.init s₀) c →
      (∀ t r, Requested t r c.trace → ∃ body, r = Request.patch row₀.ownerId i body) → c.Quiet →
      ∃ bodies : List TaskUpdate, bodies.Perm ((starts c.trace).filterMap fun p => p.2.patchBody) ∧
        c.state.db.get i = some (bodies.foldl TaskRecord.assign row₀) := by
  intro h
  obtain ⟨bodies, hperm, hrow⟩ := h exampleJson .defaults (fun _ => False) storedState mixedRun 1
    (exampleBody.record 1 1) (by rfl) mixedRun_interleaved (fun t r => mixedRun_requests)
    (Run.quiet mixedRun_interleaved (by rw [mixedRun_starts]; decide +kernel))
  rw [mixedRun_starts] at hperm
  rw [mixedRun_row] at hrow
  rcases List.perm_pair.mp hperm with rfl | rfl <;> revert hrow <;> decide +kernel

end TaskApi
