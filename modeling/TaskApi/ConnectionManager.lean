/-
# Broadcasting to a user's connections

`connection_manager.py`, `realtime_models.py` and `realtime_event_handler.py`. A
websocket is its identity. How a send ends is given for each connection
(`SendOutcome`); what a connection has received is a list of messages.

A broadcast runs one child for each connection in a task group. A child does
nothing but wait for its send, and then at most disconnects, so it takes its one
step when its send completes (`Lib.TaskGroup`).

Key definitions: `ConnectionManager`, `sendToConnection`, `broadcastToUser`,
`handle`.
Key theorems: `broadcastToUser_returns_iff`, `broadcastToUser_received`,
`handle_delivers_iff`.
-/
import TaskApi.Lib.TaskGroup
import Mathlib

namespace TaskApi

open Conc

/-! ### The registry -/

abbrev WebSocket := ℕ

/-- `ConnectionManager`: the connections of each user, in the order in which they
were connected. A user without connections has no list. -/
structure ConnectionManager where
  connectionsByUser : ℤ → Option (List WebSocket)
  nodup : ∀ userId connections, connectionsByUser userId = some connections → connections.Nodup
  ne_nil : ∀ userId connections, connectionsByUser userId = some connections → connections ≠ []

namespace ConnectionManager

/-- `self._connections_by_user.get(user_id, ())` -/
def connections (m : ConnectionManager) (userId : ℤ) : List WebSocket :=
  (m.connectionsByUser userId).getD []

theorem connections_nodup (m : ConnectionManager) (userId : ℤ) : (m.connections userId).Nodup := by
  unfold connections
  cases h : m.connectionsByUser userId with
  | none => exact List.nodup_nil
  | some connections => exact m.nodup userId connections h

def empty : ConnectionManager :=
  ⟨fun _ => none, fun _ _ h => absurd h (by simp), fun _ _ h => absurd h (by simp)⟩

/-- The registry with a new list for one user. -/
def replace (m : ConnectionManager) (userId : ℤ) (list : Option (List WebSocket))
    (nodup : ∀ connections, list = some connections → connections.Nodup)
    (ne_nil : ∀ connections, list = some connections → connections ≠ []) : ConnectionManager where
  connectionsByUser := Function.update m.connectionsByUser userId list
  nodup u connections h := by
    by_cases hu : u = userId
    · subst hu
      exact nodup connections (by simpa using h)
    · exact m.nodup u connections (by simpa [Function.update_of_ne hu] using h)
  ne_nil u connections h := by
    by_cases hu : u = userId
    · subst hu
      exact ne_nil connections (by simpa using h)
    · exact m.ne_nil u connections (by simpa [Function.update_of_ne hu] using h)

/-- `connect`, once `accept` has returned: it does so once for each connection. -/
def connect (m : ConnectionManager) (userId : ℤ) (websocket : WebSocket)
    (hnew : websocket ∉ m.connections userId) : ConnectionManager :=
  m.replace userId (some (m.connections userId ++ [websocket]))
    (fun connections h => by
      cases h
      refine List.nodup_append.mpr ⟨m.connections_nodup userId, List.nodup_singleton _, fun a ha b hb => ?_⟩
      rintro rfl
      rw [List.mem_singleton.mp hb] at ha
      exact hnew ha)
    (fun connections h => by
      cases h
      simp)

def disconnect (m : ConnectionManager) (userId : ℤ) (websocket : WebSocket) : ConnectionManager :=
  match h : m.connectionsByUser userId with
  | none => m
  | some userConnections =>
    if websocket ∉ userConnections then m
    else if hnil : userConnections.erase websocket = [] then
      m.replace userId none (fun _ h => by cases h) (fun _ h => by cases h)
    else
      m.replace userId (some (userConnections.erase websocket))
        (fun connections h' => by
          cases h'
          exact (m.nodup userId userConnections h).erase websocket)
        (fun connections h' => by
          cases h'
          exact hnil)

theorem mem_connect {m : ConnectionManager} {userId : ℤ} {websocket : WebSocket}
    {hnew : websocket ∉ m.connections userId} {u : ℤ} {w : WebSocket} :
    w ∈ (m.connect userId websocket hnew).connections u ↔
      w ∈ m.connections u ∨ (userId = u ∧ websocket = w) := by
  unfold connections connect replace
  by_cases hu : u = userId
  · subst hu
    simp [connections, eq_comm]
  · simp [Function.update_of_ne hu, Ne.symm hu]

theorem mem_disconnect {m : ConnectionManager} {userId : ℤ} {websocket : WebSocket} {u : ℤ} {w : WebSocket} :
    w ∈ (m.disconnect userId websocket).connections u ↔
      w ∈ m.connections u ∧ ¬ (userId = u ∧ websocket = w) := by
  -- whatever the branch, the user's list without the connection is left
  have hlist : ∀ userConnections : List WebSocket, userConnections.Nodup →
      (w ∈ userConnections.erase websocket ↔ w ∈ userConnections ∧ ¬ websocket = w) := by
    intro userConnections hnodup
    rw [hnodup.mem_erase_iff, and_comm, ne_comm]
  have hother : ¬ userId = u → (w ∈ (m.disconnect userId websocket).connections u ↔ w ∈ m.connections u) := by
    intro hu
    unfold disconnect
    split
    · rfl
    · split_ifs <;> simp [connections, replace, Function.update_of_ne (Ne.symm hu)]
  by_cases hu : userId = u
  · subst hu
    unfold disconnect
    split
    · next hnone => simp [connections, hnone]
    · next userConnections hsome =>
      have hlist := hlist userConnections (m.nodup _ _ hsome)
      split_ifs with hmem hnil
      · rw [hnil] at hlist
        simpa [connections, replace, hsome] using hlist
      · simpa [connections, replace, hsome] using hlist
      · have hne : w ∈ userConnections → ¬ websocket = w := fun hw h => hmem (h ▸ hw)
        simpa [connections, hsome] using hne
  · rw [hother hu]
    simp [hu]

end ConnectionManager

/-! ### Broadcasts -/

/-- The exceptions a send or a handler raises, other than `WebSocketDisconnect`:
such as the `RuntimeError` of a send after close. -/
abbrev SendError := String

/-- How `connection.send_text(message)` ends. -/
inductive SendOutcome where
  | success
  | webSocketDisconnect
  | raised (error : SendError)
deriving DecidableEq

/-- The registry, and what each connection has received. -/
structure RealtimeState where
  manager : ConnectionManager
  received : WebSocket → List String

section

variable (outcome : WebSocket → SendOutcome) (userId : ℤ) (message : String)

/-- `_send_to_connection` -/
def sendToConnection (connection : WebSocket) (s : RealtimeState) : Except SendError Unit × RealtimeState :=
  match outcome connection with
  | .success =>
    (.ok (), { s with received := Function.update s.received connection (s.received connection ++ [message]) })
  | .webSocketDisconnect => (.ok (), { s with manager := s.manager.disconnect userId connection })
  | .raised error => (.error error, s)

/-- An order in which the children of a group complete. -/
structure CompletionOrder where
  order : List WebSocket → List WebSocket
  perm : ∀ connections, (order connections).Perm connections

variable (completion : CompletionOrder)

def broadcastToUser (s : RealtimeState) : Except (List SendError) Unit × RealtimeState :=
  let connectionsSnapshot := s.manager.connections userId
  taskGroup (sendToConnection outcome userId message) (completion.order connectionsSnapshot) s

end

section

variable {outcome : WebSocket → SendOutcome} {userId : ℤ} {message : String} {completion : CompletionOrder}

/-- What a child raises. -/
def SendOutcome.error : SendOutcome → Option SendError
  | .raised error => some error
  | _ => none

/-- A broadcast returns exactly if no send raises anything but
`WebSocketDisconnect`. -/
theorem broadcastToUser_returns_iff {s : RealtimeState} :
    (broadcastToUser outcome userId message completion s).1 = .ok () ↔
      ∀ connection ∈ s.manager.connections userId, (outcome connection).error = none := by
  have hok : ∀ connection s, (outcome connection).error = none →
      (sendToConnection outcome userId message connection s).1 = .ok () := fun connection s h => by
    unfold sendToConnection
    cases houtcome : outcome connection with
    | raised error =>
      rw [houtcome] at h
      cases h
    | _ => rfl
  have herror : ∀ connection s error, (outcome connection).error = some error →
      (sendToConnection outcome userId message connection s).1 = .error error := fun connection s error h => by
    unfold sendToConnection
    cases houtcome : outcome connection with
    | raised error' =>
      rw [houtcome] at h
      cases h
      rfl
    | _ =>
      rw [houtcome] at h
      cases h
  unfold broadcastToUser
  rw [taskGroup_returns_iff hok herror]
  exact forall_congr' fun connection => by rw [(completion.perm _).mem_iff]

/-- A send changes what its own connection has received, and nothing else. -/
theorem sendToConnection_received (connection w : WebSocket) (s : RealtimeState) :
    (sendToConnection outcome userId message connection s).2.received w =
      if w = connection ∧ outcome connection = .success then s.received w ++ [message] else s.received w := by
  unfold sendToConnection
  cases houtcome : outcome connection with
  | success =>
    by_cases hw : w = connection
    · subst hw
      simp
    · simp [hw]
  | _ => simp

/-- A broadcast that returns has delivered the message once to every connection of
the user whose send succeeds, and to nobody else. -/
theorem broadcastToUser_received {s : RealtimeState}
    (hok : (broadcastToUser outcome userId message completion s).1 = .ok ()) (w : WebSocket) :
    (broadcastToUser outcome userId message completion s).2.received w =
      if w ∈ s.manager.connections userId ∧ outcome w = .success then s.received w ++ [message]
      else s.received w := by
  have hperm := completion.perm (s.manager.connections userId)
  have hnodup : (completion.order (s.manager.connections userId)).Nodup :=
    hperm.nodup_iff.mpr (s.manager.connections_nodup userId)
  -- among the connections still to complete none has received the message yet
  have hrun := @taskGroup_invariant _ _ _ (sendToConnection outcome userId message)
    (fun order s' => order.Nodup ∧ (∀ x ∈ order, s'.received x = s.received x) ∧
      (∀ x ∉ order, s'.received x =
        if x ∈ s.manager.connections userId ∧ outcome x = .success then s.received x ++ [message]
        else s.received x) ∧ ∀ x ∈ order, x ∈ s.manager.connections userId)
    (fun connection order s' ⟨hnodup, hleft, hdone, hmem⟩ _ => ?_) _ s
    ⟨hnodup, fun _ _ => rfl, fun x hx => ?_, fun x hx => hperm.mem_iff.mp hx⟩ hok
  · exact hrun.2.2.1 w (by simp)
  · obtain ⟨hnot, hnodup⟩ := List.nodup_cons.mp hnodup
    refine ⟨hnodup, fun x hx => ?_, fun x hx => ?_, fun x hx => hmem x (List.mem_cons_of_mem _ hx)⟩
    · have hne : x ≠ connection := fun h => hnot (h ▸ hx)
      rw [sendToConnection_received, if_neg fun h => hne h.1]
      exact hleft x (List.mem_cons_of_mem _ hx)
    · rw [sendToConnection_received]
      by_cases hx' : x = connection
      · subst hx'
        rw [hleft x List.mem_cons_self]
        simp only [hmem x List.mem_cons_self, true_and]
      · rw [if_neg fun h => hx' h.1]
        exact hdone x (by simp [hx', hx])
  · rw [if_neg fun h => hx (hperm.mem_iff.mpr h.1)]

/-- A send that meets a closed connection unregisters it, and no other. -/
theorem mem_sendToConnection {connection : WebSocket} {s : RealtimeState} {u : ℤ} {w : WebSocket} :
    w ∈ (sendToConnection outcome userId message connection s).2.manager.connections u ↔
      w ∈ s.manager.connections u ∧
        ¬ (outcome connection = .webSocketDisconnect ∧ userId = u ∧ connection = w) := by
  unfold sendToConnection
  cases houtcome : outcome connection with
  | webSocketDisconnect =>
    rw [ConnectionManager.mem_disconnect]
    simp
  | _ => simp

/-- A broadcast that returns has unregistered the connections of the user whose
sends met a closed connection. -/
theorem mem_broadcastToUser {s : RealtimeState}
    (hok : (broadcastToUser outcome userId message completion s).1 = .ok ()) (u : ℤ) (w : WebSocket) :
    w ∈ (broadcastToUser outcome userId message completion s).2.manager.connections u ↔
      w ∈ s.manager.connections u ∧ ¬ (userId = u ∧ outcome w = .webSocketDisconnect) := by
  have hperm := completion.perm (s.manager.connections userId)
  have hnodup : (completion.order (s.manager.connections userId)).Nodup :=
    hperm.nodup_iff.mpr (s.manager.connections_nodup userId)
  -- the connections still to complete are registered as before
  have hrun := @taskGroup_invariant _ _ _ (sendToConnection outcome userId message)
    (fun order s' => order.Nodup ∧ ∀ x, x ∈ s'.manager.connections u ↔
      x ∈ s.manager.connections u ∧ ¬ (userId = u ∧ outcome x = .webSocketDisconnect ∧ x ∉ order))
    (fun connection order s' ⟨hnodup, hstate⟩ _ => ?_) _ s ⟨hnodup, fun x => ?_⟩ hok
  · have hleft := hrun.2 w
    simp only [List.not_mem_nil, not_false_eq_true, and_true] at hleft
    exact hleft
  · obtain ⟨hnot, hnodup⟩ := List.nodup_cons.mp hnodup
    refine ⟨hnodup, fun x => ?_⟩
    rw [mem_sendToConnection, hstate x]
    by_cases hx : connection = x
    · subst hx
      simp only [List.mem_cons, true_or, not_true_eq_false, and_false, not_false_eq_true, and_true, hnot]
      rw [and_comm (a := userId = u)]
    · simp [hx, Ne.symm hx]
  · rw [hperm.mem_iff]
    refine ⟨fun hx => ⟨hx, ?_⟩, And.left⟩
    rintro ⟨rfl, -, hnot⟩
    exact hnot hx

end

/-! ### Handling an event -/

/-- `RealtimeMessageEvent`; its `type` is always `"message"`. -/
structure RealtimeMessageEvent where
  content : String

structure UserRealtimeEventEnvelope where
  userId : ℤ
  event : RealtimeMessageEvent
  one_le_userId : 1 ≤ userId

/-- `UserRealtimeEventEnvelope.model_validate_json` (`none`: a `ValidationError`)
and `RealtimeMessageEvent.model_dump_json`. -/
structure RealtimeJson where
  modelValidateJson : String → Option UserRealtimeEventEnvelope
  modelDumpJson : RealtimeMessageEvent → String

/-- `RealtimeEventHandler.handle` -/
def handle (J : RealtimeJson) (outcome : WebSocket → SendOutcome) (completion : CompletionOrder)
    (serializedEvent : String) (s : RealtimeState) : Except (List SendError) Bool × RealtimeState :=
  match J.modelValidateJson serializedEvent with
  | none => (.ok false, s)
  | some envelope =>
    let broadcast := broadcastToUser outcome envelope.userId (J.modelDumpJson envelope.event) completion s
    (broadcast.1.map fun _ => true, broadcast.2)

/-- The handler returns, and the message has reached every connection of the user
whose send succeeds, exactly once. -/
def Delivered (J : RealtimeJson) (outcome : WebSocket → SendOutcome) (completion : CompletionOrder)
    (serializedEvent : String) (envelope : UserRealtimeEventEnvelope) (s : RealtimeState) : Prop :=
  (handle J outcome completion serializedEvent s).1 = .ok true ∧
  ∀ connection ∈ s.manager.connections envelope.userId, outcome connection = .success →
    (handle J outcome completion serializedEvent s).2.received connection =
      s.received connection ++ [J.modelDumpJson envelope.event]

/-- **Delivery.** In whatever order the sends complete, a valid event is delivered
exactly if no send to a connection of its user raises anything but
`WebSocketDisconnect`. -/
theorem handle_delivers_iff (J : RealtimeJson) (outcome : WebSocket → SendOutcome) (completion : CompletionOrder)
    (s : RealtimeState) {serializedEvent : String} {envelope : UserRealtimeEventEnvelope}
    (hvalid : J.modelValidateJson serializedEvent = some envelope) :
    Delivered J outcome completion serializedEvent envelope s ↔
      ∀ connection ∈ s.manager.connections envelope.userId, ∀ error, outcome connection ≠ .raised error := by
  have herror : ∀ connection, (outcome connection).error = none ↔ ∀ error, outcome connection ≠ .raised error :=
    fun connection => by cases outcome connection <;> simp [SendOutcome.error]
  have hiff := @broadcastToUser_returns_iff outcome envelope.userId (J.modelDumpJson envelope.event) completion s
  simp only [herror] at hiff
  rw [← hiff]
  unfold Delivered handle
  rw [hvalid]
  constructor
  · rintro ⟨hreturns, -⟩
    cases hbroadcast : (broadcastToUser outcome envelope.userId (J.modelDumpJson envelope.event) completion s).1 with
    | ok _ => rfl
    | error errors =>
      simp only [hbroadcast] at hreturns
      cases hreturns
  · intro hok
    refine ⟨?_, fun connection hmem hsuccess => ?_⟩
    · simp only [hok]
      rfl
    · show (broadcastToUser _ _ _ _ s).2.received connection = _
      rw [broadcastToUser_received hok, if_pos ⟨hmem, hsuccess⟩]

/-- The event of a message "hi" to user 7. -/
def exampleEvent : String :=
  "\x7b\"user_id\":7,\"event\":\x7b\"type\":\"message\",\"content\":\"hi\"\x7d\x7d"

def exampleEnvelope : UserRealtimeEventEnvelope := ⟨7, ⟨"hi"⟩, by decide⟩

/-- Reads `exampleEvent`, and writes contents without special characters. -/
def exampleRealtimeJson : RealtimeJson where
  modelValidateJson serializedEvent := if serializedEvent = exampleEvent then some exampleEnvelope else none
  modelDumpJson event := "\x7b\"type\":\"message\",\"content\":\"" ++ event.content ++ "\"\x7d"

theorem exampleRealtimeJson_valid : exampleRealtimeJson.modelValidateJson exampleEvent = some exampleEnvelope := by
  simp [exampleRealtimeJson]

/-- Connections 0 and 1 of user 7. -/
def exampleConnections : RealtimeState :=
  ⟨(ConnectionManager.empty.connect 7 0 (by decide)).connect 7 1 (by decide), fun _ => []⟩

/-- Connection 0 has been closed, and is still registered. -/
def closedFirst (connection : WebSocket) : SendOutcome :=
  if connection = 0 then .raised "RuntimeError" else .success

/-- Sends complete in the order in which they were started. -/
def CompletionOrder.started : CompletionOrder := ⟨id, fun _ => .refl _⟩

theorem handle_delivers_iff_closedFirst :
    Delivered exampleRealtimeJson closedFirst .started exampleEvent exampleEnvelope exampleConnections ↔
      ∀ connection ∈ exampleConnections.manager.connections 7, ∀ error, closedFirst connection ≠ .raised error :=
  handle_delivers_iff exampleRealtimeJson closedFirst .started exampleConnections exampleRealtimeJson_valid

/-- A send after close ends the handler. -/
theorem handle_raises :
    ¬ ∀ (J : RealtimeJson) (outcome : WebSocket → SendOutcome) (completion : CompletionOrder) (s : RealtimeState)
      (serializedEvent : String) (envelope : UserRealtimeEventEnvelope),
      J.modelValidateJson serializedEvent = some envelope →
      Delivered J outcome completion serializedEvent envelope s := by
  intro hall
  obtain ⟨hreturns, -⟩ := hall exampleRealtimeJson closedFirst .started exampleConnections exampleEvent
    exampleEnvelope exampleRealtimeJson_valid
  have hraised : (handle exampleRealtimeJson closedFirst .started exampleEvent exampleConnections).1 =
      .error ["RuntimeError"] := by decide +kernel
  rw [hraised] at hreturns
  cases hreturns

end TaskApi
