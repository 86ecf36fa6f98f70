/-
# The connection registry under interleaved broadcasts

A broadcast works on a snapshot: its sends complete one at a time, later, in any order,
while connections come and go and other broadcasts run. A connection is removed from two
places, by the failure of a send and by the `finally` block of its route. Still each
user's list is, after every step, exactly the connections connected under that user and
not disconnected since, in order (`registry_exact`).

`ConnectionManager` cannot hold a duplicate or an empty list. Here the dict is as the code
has it, and that it is a `ConnectionManager` is proved (`exists_manager`). A broadcast that
nothing interrupts is `broadcastToUser` (`after_broadcast`).

Key definitions: `Registry.connect`, `Registry.disconnect`, `RegistryEvent`,
`BroadcastState.step`, `BroadcastState.after`, `changes`.
Key theorems: `step_registry`, `registry_stored`, `registry_exact`, `mem_sending`,
`after_broadcast`.
-/
import TaskApi.ConnectionManager
import TaskApi.Lib.Membership

namespace TaskApi

open Membership

/-- `_connections_by_user` -/
abbrev Registry := ℤ → Option (List WebSocket)

namespace Registry

/-- `self._connections_by_user.get(user_id, ())` -/
def get (r : Registry) (userId : ℤ) : List WebSocket := (r userId).getD []

/-- `connect`, once `accept` has returned. -/
def connect (r : Registry) (userId : ℤ) (websocket : WebSocket) : Registry :=
  let userConnections := r.get userId
  Function.update r userId (some (userConnections ++ [websocket]))

def disconnect (r : Registry) (userId : ℤ) (websocket : WebSocket) : Registry :=
  match r userId with
  | none => r
  | some userConnections =>
    if websocket ∉ userConnections then r
    else if userConnections.erase websocket = [] then Function.update r userId none
    else Function.update r userId (some (userConnections.erase websocket))

/-- What a change does to the registry. -/
def apply (r : Registry) : Option (Change ℤ WebSocket) → Registry
  | some (.join userId websocket) => r.connect userId websocket
  | some (.leave userId websocket) => r.disconnect userId websocket
  | none => r

variable {r : Registry} {userId u : ℤ} {websocket : WebSocket}

theorem connect_self : r.connect userId websocket userId = some (r.get userId ++ [websocket]) :=
  Function.update_self ..

theorem connect_ne (h : u ≠ userId) : r.connect userId websocket u = r u := Function.update_of_ne h ..

theorem disconnect_ne (h : u ≠ userId) : r.disconnect userId websocket u = r u := by
  unfold disconnect
  cases r userId with
  | none => rfl
  | some userConnections =>
    simp only
    split_ifs <;> simp [Function.update_of_ne h]

/-- Who is not connected is not disconnected. -/
theorem disconnect_of_not_mem (h : websocket ∉ r.get userId) : r.disconnect userId websocket = r := by
  unfold disconnect
  cases hlist : r userId with
  | none => rfl
  | some userConnections =>
    have hmem : websocket ∉ userConnections := by simpa [get, hlist] using h
    simp [hmem]

end Registry

/-! ### Lists and keys -/

/-- How the registry keeps a list: the empty one has no key. -/
def stored : List WebSocket → Option (List WebSocket)
  | [] => none
  | connections => some connections

@[simp] theorem stored_getD (connections : List WebSocket) : (stored connections).getD [] = connections := by
  cases connections <;> rfl

theorem stored_of_ne_nil {connections : List WebSocket} (h : connections ≠ []) :
    stored connections = some connections := by
  cases connections with
  | nil => exact absurd rfl h
  | cons => rfl

theorem stored_eq_none {connections : List WebSocket} : stored connections = none ↔ connections = [] := by
  cases connections <;> simp [stored]

theorem Registry.disconnect_stored {r : Registry} {userId : ℤ} {connections : List WebSocket}
    (h : r userId = stored connections) (hnodup : connections.Nodup) (websocket : WebSocket) :
    r.disconnect userId websocket userId = stored (connections.filter (· ≠ websocket)) := by
  have hget : r.get userId = connections := by simp [get, h]
  by_cases hmem : websocket ∈ connections
  · have herase : connections.erase websocket = connections.filter (· ≠ websocket) := by
      rw [hnodup.erase_eq_filter]
      exact List.filter_congr fun x _ => by simp [bne, Bool.beq_eq_decide_eq]
    have hsome : r userId = some connections := h.trans (stored_of_ne_nil (List.ne_nil_of_mem hmem))
    unfold disconnect
    rw [hsome, ← herase]
    simp only [hmem, not_true_eq_false, if_false]
    split_ifs with hnil
    · simp [hnil, stored]
    · simp [stored_of_ne_nil hnil]
  · have hall : connections.filter (· ≠ websocket) = connections :=
      List.filter_eq_self.mpr fun x hx => by simpa using fun hw : x = websocket => hmem (hw ▸ hx)
    rw [disconnect_of_not_mem (by rwa [hget]), hall, h]

/-! ### Steps -/

/-- A child of a broadcast's task group: `_send_to_connection` with its arguments. -/
structure SendTask where
  userId : ℤ
  connection : WebSocket
  message : String
deriving DecidableEq

/-- The registry, the sends that have not completed, and what each connection has received. -/
structure BroadcastState where
  registry : Registry
  sending : List SendTask
  received : WebSocket → List String

/-- What can happen, each in one step of the event loop. A send is cancelled when its
task group is. -/
inductive RegistryEvent where
  | connect (userId : ℤ) (websocket : WebSocket)
  | disconnect (userId : ℤ) (websocket : WebSocket)
  | broadcastToUser (userId : ℤ) (message : String)
  | sendCompletes (task : SendTask) (outcome : SendOutcome)
  | sendCancelled (task : SendTask)
deriving DecidableEq

namespace BroadcastState

def new : BroadcastState := ⟨fun _ => none, [], fun _ => []⟩

/-- The rest of `_send_to_connection`, from where `send_text` has ended. -/
def sendToConnection (s : BroadcastState) (task : SendTask) : SendOutcome → BroadcastState
  | .success => { s with
      received := Function.update s.received task.connection (s.received task.connection ++ [task.message]) }
  | .webSocketDisconnect => { s with registry := s.registry.disconnect task.userId task.connection }
  | .raised _ => s

/-- Only a send in progress completes or is cancelled. -/
def step (s : BroadcastState) : RegistryEvent → Option BroadcastState
  | .connect userId websocket => some { s with registry := s.registry.connect userId websocket }
  | .disconnect userId websocket => some { s with registry := s.registry.disconnect userId websocket }
  | .broadcastToUser userId message =>
    let connectionsSnapshot := s.registry.get userId
    some { s with sending := s.sending ++ connectionsSnapshot.map (⟨userId, ·, message⟩) }
  | .sendCompletes task outcome =>
    if task ∈ s.sending then some ({ s with sending := s.sending.erase task }.sendToConnection task outcome)
    else none
  | .sendCancelled task =>
    if task ∈ s.sending then some { s with sending := s.sending.erase task } else none

variable {s s' : BroadcastState} {task : SendTask} {outcome : SendOutcome} {e : RegistryEvent}

theorem step_sendCompletes : s.step (.sendCompletes task outcome) = some s' ↔
    task ∈ s.sending ∧ s' = { s with sending := s.sending.erase task }.sendToConnection task outcome := by
  simp [step, eq_comm]

theorem step_sendCancelled : s.step (.sendCancelled task) = some s' ↔
    task ∈ s.sending ∧ s' = { s with sending := s.sending.erase task } := by
  simp [step, eq_comm]

@[simp] theorem sendToConnection_sending : (s.sendToConnection task outcome).sending = s.sending := by
  cases outcome <;> rfl

/-- The state after a history, newest event first. -/
def after (s : BroadcastState) : List RegistryEvent → Option BroadcastState
  | [] => some s
  | e :: history => (s.after history).bind (·.step e)

theorem after_cons {history : List RegistryEvent} :
    s.after (e :: history) = some s' ↔ ∃ b, s.after history = some b ∧ b.step e = some s' :=
  Option.bind_eq_some_iff

theorem after_append (s : BroadcastState) (u history : List RegistryEvent) :
    s.after (u ++ history) = (s.after history).bind (·.after u) := by
  induction u with
  | nil => simp [after]
  | cons e u ih => simp [after, ih, Option.bind_assoc]

end BroadcastState

/-- The change an event makes to a user's connections. -/
def RegistryEvent.change : RegistryEvent → Option (Change ℤ WebSocket)
  | .connect userId websocket => some (.join userId websocket)
  | .disconnect userId websocket => some (.leave userId websocket)
  | .sendCompletes task .webSocketDisconnect => some (.leave task.userId task.connection)
  | _ => none

/-- The changes of a history, newest first. -/
def changes (history : List RegistryEvent) : List (Change ℤ WebSocket) := history.filterMap RegistryEvent.change

open BroadcastState

variable {s s' : BroadcastState} {e : RegistryEvent} {history : List RegistryEvent}

/-- What a step does to the registry is its change. -/
theorem step_registry (h : s.step e = some s') : s'.registry = s.registry.apply e.change := by
  cases e with
  | sendCompletes task outcome =>
    obtain ⟨-, rfl⟩ := step_sendCompletes.mp h
    cases outcome <;> rfl
  | sendCancelled task =>
    obtain ⟨-, rfl⟩ := step_sendCancelled.mp h
    rfl
  | _ =>
    obtain rfl := Option.some.inj h
    rfl

/-- A step adds the sends of a broadcast, and no others. -/
theorem step_sending (h : s.step e = some s') {task : SendTask} (hmem : task ∈ s'.sending) :
    task ∈ s.sending ∨
      e = .broadcastToUser task.userId task.message ∧ task.connection ∈ s.registry.get task.userId := by
  cases e with
  | broadcastToUser userId message =>
    obtain rfl := Option.some.inj h
    simp only [List.mem_append, List.mem_map] at hmem
    rcases hmem with hold | ⟨connection, hconnection, rfl⟩
    · exact .inl hold
    · exact .inr ⟨rfl, hconnection⟩
  | sendCompletes task' outcome =>
    obtain ⟨-, rfl⟩ := step_sendCompletes.mp h
    rw [sendToConnection_sending] at hmem
    exact .inl (List.mem_of_mem_erase hmem)
  | sendCancelled task' =>
    obtain ⟨-, rfl⟩ := step_sendCancelled.mp h
    exact .inl (List.mem_of_mem_erase hmem)
  | _ =>
    obtain rfl := Option.some.inj h
    exact .inl hmem

/-! ### The invariant -/

/-- A change takes the lists of a log to those of the longer log. -/
theorem Registry.apply_stored {r : Registry} {log : List (Change ℤ WebSocket)} {change : Change ℤ WebSocket}
    (h : ∀ u, r u = stored (members u log)) (honce : JoinsOnce (change :: log)) (u : ℤ) :
    r.apply (some change) u = stored (members u (change :: log)) := by
  cases change with
  | join userId websocket =>
    by_cases hu : u = userId
    · subst hu
      have hget : r.get u = members u log := by simp [Registry.get, h u]
      calc r.connect u websocket u = some (members u log ++ [websocket]) := by rw [Registry.connect_self, hget]
        _ = stored (members u log ++ [websocket]) := (stored_of_ne_nil (by simp)).symm
        _ = stored (members u (.join u websocket :: log)) := by rw [members_join honce]
    · rw [members_join_ne (Ne.symm hu), ← h u]
      exact Registry.connect_ne hu
  | leave userId websocket =>
    by_cases hu : u = userId
    · subst hu
      rw [members_leave]
      exact Registry.disconnect_stored (h u) (members_nodup honce.of_cons u) websocket
    · rw [members_leave_ne (Ne.symm hu), ← h u]
      exact Registry.disconnect_ne hu

theorem registry_stored (h : BroadcastState.new.after history = some s) (honce : JoinsOnce (changes history))
    (u : ℤ) : s.registry u = stored (members u (changes history)) := by
  induction history generalizing s u with
  | nil =>
    obtain rfl := Option.some.inj h
    rfl
  | cons e history ih =>
    obtain ⟨b, hb, hstep⟩ := after_cons.mp h
    rw [step_registry hstep]
    unfold changes at honce ⊢
    cases hchange : e.change with
    | none =>
      rw [List.filterMap_cons_none hchange] at honce ⊢
      exact ih hb honce u
    | some change =>
      rw [List.filterMap_cons_some hchange] at honce ⊢
      exact Registry.apply_stored (ih hb honce.of_cons) honce u

theorem registry_get (h : BroadcastState.new.after history = some s) (honce : JoinsOnce (changes history)) (u : ℤ) :
    s.registry.get u = members u (changes history) := by
  simp [Registry.get, registry_stored h honce u]

/-- A failed send takes its own connection from its own user's list, and changes nothing else. -/
theorem failed_send_registry (h : BroadcastState.new.after history = some s) (honce : JoinsOnce (changes history))
    {task : SendTask} (hstep : s.step (.sendCompletes task .webSocketDisconnect) = some s') :
    s'.registry.get task.userId = (s.registry.get task.userId).filter (· ≠ task.connection) ∧
      ∀ u ≠ task.userId, s'.registry u = s.registry u := by
  have hregistry : s'.registry = s.registry.disconnect task.userId task.connection := step_registry hstep
  have hstored := registry_stored h honce task.userId
  have hdisconnect := Registry.disconnect_stored hstored (members_nodup honce task.userId) task.connection
  rw [hregistry]
  refine ⟨?_, fun u hu => Registry.disconnect_ne hu⟩
  simp only [Registry.get, hdisconnect, hstored, stored_getD]

/-- Who has been disconnected since connecting is not disconnected again. -/
theorem second_disconnect_registry (h : BroadcastState.new.after history = some s)
    (honce : JoinsOnce (changes history)) {u : ℤ} {w : WebSocket} (hstep : s.step e = some s')
    (hchange : e.change = some (.leave u w)) (hleft : LeftSince u w (changes history)) :
    s'.registry = s.registry := by
  have hnot : w ∉ s.registry.get u := by
    rw [registry_get h honce]
    exact hleft.not_mem
  rw [step_registry hstep, hchange]
  exact Registry.disconnect_of_not_mem hnot

/-- **The connection registry.** After any history of connects, disconnects, broadcasts and
sends completing, in which no connection is connected twice under a user, each user's list
is exactly the connections connected under that user and not disconnected since, in the
order in which they were connected, and the user has a key exactly if there are any. A
connection already disconnected is disconnected again without effect, and a failed send
removes only its own connection, only from its own user's list. -/
theorem registry_exact (hrun : BroadcastState.new.after history = some s) (honce : JoinsOnce (changes history)) :
    (∀ u, s.registry.get u = members u (changes history) ∧ (s.registry.get u).Nodup ∧
      ((s.registry u).isSome ↔ s.registry.get u ≠ [])) ∧
    (∀ e s' u w, s.step e = some s' → e.change = some (.leave u w) → LeftSince u w (changes history) →
      s'.registry = s.registry) ∧
    ∀ task s', s.step (.sendCompletes task .webSocketDisconnect) = some s' →
      s'.registry.get task.userId = (s.registry.get task.userId).filter (· ≠ task.connection) ∧
        ∀ u ≠ task.userId, s'.registry u = s.registry u := by
  refine ⟨fun u => ⟨registry_get hrun honce u, ?_, ?_⟩, fun e s' u w hstep hchange hleft => ?_,
    fun task s' hstep => ?_⟩
  · rw [registry_get hrun honce]
    exact members_nodup honce u
  · rw [registry_get hrun honce, registry_stored hrun honce, Option.isSome_iff_ne_none, ne_eq, stored_eq_none]
  · exact second_disconnect_registry hrun honce hstep hchange hleft
  · exact failed_send_registry hrun honce hstep

/-- Connection 0 of user 7 fails after connection 1, of the same snapshot, has gone. Then
its route disconnects it, too. Newest event first. -/
def exampleHistory : List RegistryEvent :=
  [.disconnect 7 0, .sendCompletes ⟨7, 0, "hi"⟩ .webSocketDisconnect, .disconnect 7 1, .connect 8 2,
    .broadcastToUser 7 "hi", .connect 7 1, .connect 7 0]

theorem registry_exact_example : ∃ s, BroadcastState.new.after exampleHistory = some s ∧
    s.registry.get 7 = members 7 (changes exampleHistory) ∧ s.registry.get 8 = [2] ∧
    ((s.registry 7).isSome ↔ s.registry.get 7 ≠ []) := by
  obtain ⟨s, hrun⟩ : ∃ s, BroadcastState.new.after exampleHistory = some s := Option.isSome_iff_exists.mp (by decide)
  have honce : JoinsOnce (changes exampleHistory) := by
    intro u
    simp only [changes, exampleHistory, RegistryEvent.change, List.filterMap, joined]
    split_ifs <;> simp
  have hexact := registry_exact hrun honce
  have hmembers : members 8 (changes exampleHistory) = [2] := by decide
  exact ⟨s, hrun, (hexact.1 7).1, (hexact.1 8).1.trans hmembers, (hexact.1 7).2.2⟩

/-- A send in progress is one of a broadcast that found its connection registered. -/
theorem mem_sending (h : BroadcastState.new.after history = some s) {task : SendTask} (hmem : task ∈ s.sending) :
    ∃ u v b, history = u ++ .broadcastToUser task.userId task.message :: v ∧
      BroadcastState.new.after v = some b ∧ task.connection ∈ b.registry.get task.userId := by
  induction history generalizing s with
  | nil =>
    obtain rfl := Option.some.inj h
    cases hmem
  | cons e history ih =>
    obtain ⟨b, hb, hstep⟩ := after_cons.mp h
    rcases step_sending hstep hmem with hold | ⟨rfl, hconnection⟩
    · obtain ⟨u, v, b', rfl, hb', hconnection⟩ := ih hb hold
      exact ⟨e :: u, v, b', rfl, hb', hconnection⟩
    · exact ⟨[], history, b, rfl, hb, hconnection⟩

/-! ### The manager's broadcasts are such histories -/

/-- The dict is always one that a `ConnectionManager` can hold. -/
theorem exists_manager (h : BroadcastState.new.after history = some s) (honce : JoinsOnce (changes history)) :
    ∃ m : ConnectionManager, m.connectionsByUser = s.registry := by
  have hlist : ∀ {u connections}, s.registry u = some connections →
      connections = members u (changes history) ∧ connections ≠ [] := by
    intro u connections hsome
    rw [registry_stored h honce] at hsome
    cases hmembers : members u (changes history) with
    | nil => simp [hmembers, stored] at hsome
    | cons w ws =>
      rw [hmembers] at hsome
      obtain rfl := Option.some.inj hsome
      simp
  refine ⟨⟨s.registry, fun u connections hsome => ?_, fun u connections hsome => (hlist hsome).2⟩, rfl⟩
  rw [(hlist hsome).1]
  exact members_nodup honce u

theorem ConnectionManager.connect_registry (m : ConnectionManager) (userId : ℤ) (websocket : WebSocket)
    (hnew : websocket ∉ m.connections userId) :
    (m.connect userId websocket hnew).connectionsByUser = Registry.connect m.connectionsByUser userId websocket := rfl

theorem ConnectionManager.disconnect_registry (m : ConnectionManager) (userId : ℤ) (websocket : WebSocket) :
    (m.disconnect userId websocket).connectionsByUser =
      Registry.disconnect m.connectionsByUser userId websocket := by
  unfold ConnectionManager.disconnect Registry.disconnect
  split
  · next hnone => simp [hnone]
  · next userConnections hsome =>
    simp only [hsome]
    split_ifs <;> rfl

/-- The manager's state, with sends in progress. -/
def RealtimeState.withSending (R : RealtimeState) (sending : List SendTask) : BroadcastState :=
  ⟨R.manager.connectionsByUser, sending, R.received⟩

section

variable (outcome : WebSocket → SendOutcome) (userId : ℤ) (message : String)

/-- What the sends of one broadcast do, if they complete in this order, newest event
first. Once one has raised, its task group cancels the others. -/
def groupEvents : List WebSocket → List RegistryEvent
  | [] => []
  | connection :: order =>
    (if (outcome connection).error = none then groupEvents order
      else (order.map (⟨userId, ·, message⟩)).map .sendCancelled) ++
    [.sendCompletes ⟨userId, connection, message⟩ (outcome connection)]

variable {outcome userId message} {R : RealtimeState} {sending others : List SendTask}

theorem step_sendToConnection {connection : WebSocket} (hmem : ⟨userId, connection, message⟩ ∈ sending) :
    (R.withSending sending).step (.sendCompletes ⟨userId, connection, message⟩ (outcome connection)) =
      some ((TaskApi.sendToConnection outcome userId message connection R).2.withSending
        (sending.erase ⟨userId, connection, message⟩)) := by
  rw [step_sendCompletes]
  refine ⟨hmem, ?_⟩
  unfold TaskApi.sendToConnection BroadcastState.sendToConnection RealtimeState.withSending
  cases outcome connection with
  | webSocketDisconnect => simp [ConnectionManager.disconnect_registry]
  | _ => rfl

/-- What is left in progress when the first of these sends has ended. -/
theorem erase_perm {task : SendTask} {tasks : List SendTask} (h : sending.Perm (task :: tasks ++ others)) :
    task ∈ sending ∧ (sending.erase task).Perm (tasks ++ others) := by
  have hmem : task ∈ sending := h.mem_iff.mpr (by simp)
  have herase : (sending.erase task).Perm ((task :: (tasks ++ others)).erase task) := h.erase task
  rw [List.erase_cons_head] at herase
  exact ⟨hmem, herase⟩

theorem after_cancelled {tasks : List SendTask} (h : sending.Perm (tasks ++ others)) :
    ∃ left, left.Perm others ∧
      (R.withSending sending).after (tasks.map .sendCancelled) = some (R.withSending left) := by
  induction tasks generalizing others with
  | nil => exact ⟨sending, h, rfl⟩
  | cons task tasks ih =>
    -- the rest is cancelled first
    have hrest : sending.Perm (tasks ++ (task :: others)) := h.trans List.perm_middle.symm
    obtain ⟨left, hleft, hafter⟩ := ih hrest
    obtain ⟨hmem, herase⟩ := @erase_perm left others task [] hleft
    refine ⟨left.erase task, herase, ?_⟩
    rw [List.map_cons, after_cons]
    exact ⟨_, hafter, step_sendCancelled.mpr ⟨hmem, rfl⟩⟩

theorem after_group {order : List WebSocket} (h : sending.Perm (order.map (⟨userId, ·, message⟩) ++ others)) :
    ∃ left, left.Perm others ∧ (R.withSending sending).after (groupEvents outcome userId message order) =
      some ((Conc.taskGroup (TaskApi.sendToConnection outcome userId message) order R).2.withSending left) := by
  induction order generalizing R sending with
  | nil => exact ⟨sending, h, rfl⟩
  | cons connection order ih =>
    obtain ⟨hmem, herase⟩ := erase_perm h
    have hfirst : (R.withSending sending).after [.sendCompletes ⟨userId, connection, message⟩ (outcome connection)] =
        some ((TaskApi.sendToConnection outcome userId message connection R).2.withSending
          (sending.erase ⟨userId, connection, message⟩)) := step_sendToConnection hmem
    unfold groupEvents Conc.taskGroup
    rw [after_append, hfirst, Option.bind_some]
    cases houtcome : outcome connection with
    | raised error =>
      obtain ⟨left, hleft, hafter⟩ := @after_cancelled R _ others _ herase
      refine ⟨left, hleft, ?_⟩
      simpa [houtcome, SendOutcome.error, TaskApi.sendToConnection] using hafter
    | success =>
      simpa [houtcome, SendOutcome.error, TaskApi.sendToConnection] using ih herase
    | webSocketDisconnect =>
      simpa [houtcome, SendOutcome.error, TaskApi.sendToConnection] using ih herase

/-- **A broadcast that nothing interrupts** is `broadcastToUser`, whichever of its sends
complete and in whatever order; it ends with the sends of the other broadcasts in progress. -/
theorem after_broadcast (completion : CompletionOrder) :
    ∃ left, left.Perm others ∧ (R.withSending others).after
        (groupEvents outcome userId message (completion.order (R.manager.connections userId)) ++
          [.broadcastToUser userId message]) =
      some ((broadcastToUser outcome userId message completion R).2.withSending left) := by
  have hperm := completion.perm (R.manager.connections userId)
  have hsnapshot := List.perm_append_comm.trans
    ((hperm.symm.map fun connection => (⟨userId, connection, message⟩ : SendTask)).append_right others)
  obtain ⟨left, hleft, hafter⟩ := @after_group outcome userId message R _ others _ hsnapshot
  exact ⟨left, hleft, (after_append ..).trans hafter⟩

end

end TaskApi
