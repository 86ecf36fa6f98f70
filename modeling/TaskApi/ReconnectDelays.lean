/-
# How long `listen` waits

`ReconnectBackoff` is advanced where a session of `listen` ends, and reset from
inside the session, by the item that confirms the subscription. What `listen` draws
its wait from is the capped exponential in the number of waits since the latest
confirmation (`reconnect_delays`), however the sessions went: the next delay is the
value of a log with a reset for every confirmation and a wait for every sleep
(`backoff_eq`).

Key definitions: `SubscriberEvent.change`, `reconnectWaits`, `ListenControl.begun`.
Key theorems: `backoff_step`, `backoff_eq`, `reconnect_delays`.
-/
import TaskApi.Lib.CappedGrowth
import TaskApi.RealtimeSubscriber

namespace TaskApi

open CappedGrowth

/-- What an event is to the backoff. -/
def SubscriberEvent.change (channel : String) : SubscriberEvent → Option Change
  | .item m _ _ => if m.isConfirmation channel then some .reset else none
  | .slept => some .wait
  | _ => none

/-- The waits since the latest confirmation for the channel, newest event first. -/
def reconnectWaits (channel : String) (h : List SubscriberEvent) : ℕ :=
  (h.takeWhile fun event => !event.confirms channel).countP (·.isSlept)

/-- A wait that has begun. -/
def ListenControl.begun : ListenControl → List Change
  | .waiting _ => [.wait]
  | _ => []

theorem SubscriberEvent.change_eq (channel : String) (event : SubscriberEvent) : event.change channel =
    if event.confirms channel then some .reset else if event.isSlept then some .wait else none := by
  cases event <;> simp [change, confirms, isSlept]

theorem reconnectWaits_eq (channel : String) (h : List SubscriberEvent) :
    waitsSinceReset (h.filterMap (·.change channel)) = reconnectWaits channel h := by
  induction h with
  | nil => rfl
  | cons event h ih =>
    unfold reconnectWaits at ih ⊢
    have hchange := event.change_eq channel
    cases hconfirms : event.confirms channel with
    | true =>
      rw [if_pos hconfirms] at hchange
      simp [hchange, hconfirms, waitsSinceReset]
    | false =>
      rw [if_neg (by simp [hconfirms])] at hchange
      cases hslept : event.isSlept with
      | true =>
        rw [if_pos hslept] at hchange
        simp [hchange, hconfirms, hslept, waitsSinceReset, ih]
      | false =>
        rw [if_neg (by simp [hslept])] at hchange
        simp [hchange, hconfirms, hslept, ih]

namespace ListenerState

variable {J : RealtimeJson} {s s' : ListenerState} {event : SubscriberEvent}

theorem endSession_of_raises {error : Option ListenError} {e : ListenError} (jitter : ℚ → ℚ → ℚ)
    (hraises : s.raises error = some e) :
    (s.endSession error jitter).subscriber.backoff = s.subscriber.backoff ∧
      (s.endSession error jitter).control = .ended e := by
  simp [endSession, hraises]

/-- Unless `listen` is over, the end of a session draws a wait. -/
theorem endSession_of_not_raises {error : Option ListenError} (jitter : ℚ → ℚ → ℚ) (hraises : s.raises error = none) :
    (s.endSession error jitter).subscriber.backoff = s.subscriber.backoff.nextDelay.2 ∧
      (s.endSession error jitter).control = .waiting (jitter 0 s.subscriber.backoff.nextDelay.1) := by
  simp [endSession, hraises]

/-- What a step does to the backoff and the wait: a confirmation resets the backoff,
the end of a session draws a wait from it, and a sleep ends one. Nothing else changes
either, except that `listen` may be over. -/
theorem backoff_step (h : s.step J event = some s') :
    (event.change s.subscriber.channel = some .reset ∧ s.control = .listening ∧ s'.control = .listening ∧
        s'.subscriber.backoff = s.subscriber.backoff.reset) ∨
      (∃ error jitter, event = .sessionEnds error jitter ∧ s.control = .listening ∧
        s'.control = .waiting (jitter 0 s.subscriber.backoff.nextDelay.1) ∧
        s'.subscriber.backoff = s.subscriber.backoff.nextDelay.2) ∨
      (event = .slept ∧ s'.control = .listening ∧ s'.subscriber.backoff = s.subscriber.backoff ∧
        ∃ delay, s.control = .waiting delay) ∨
      (event.change s.subscriber.channel = none ∧ s'.subscriber.backoff = s.subscriber.backoff ∧
        ((event.endsSession = false ∧ s'.control = s.control) ∨
          (s.control = .listening ∧ ∃ e, s'.control = .ended e))) := by
  cases event with
  | item m outcome completion =>
    obtain ⟨hcontrol, hitem⟩ := listenItem_subscriber J m outcome completion s
    obtain ⟨hlistening, hstep⟩ := step_item h
    by_cases hconfirmation : m.isConfirmation s.subscriber.channel
    · rw [if_pos hconfirmation] at hitem
      rcases hstep with ⟨-, rfl⟩ | ⟨error, hraised, -⟩
      · exact .inl ⟨if_pos hconfirmation, hlistening, hcontrol.trans hlistening, congrArg (·.backoff) hitem.2⟩
      · rw [hitem.1] at hraised
        cases hraised
    · rw [if_neg hconfirmation] at hitem
      refine .inr (.inr (.inr ⟨if_neg hconfirmation, ?_⟩))
      rcases hstep with ⟨-, rfl⟩ | ⟨error, hraised, rfl⟩
      · exact ⟨congrArg (·.backoff) hitem.1, .inl ⟨rfl, hcontrol⟩⟩
      · obtain ⟨errors, rfl⟩ := hitem.2 error hraised
        obtain ⟨hbackoff, hended⟩ := endSession_of_raises (fun _ maximumDelay => maximumDelay)
          ((raises_eq_some (listenItem J m outcome completion s).2 _ (.exceptionGroup errors)).mpr ⟨rfl, by simp⟩)
        rw [hbackoff, hitem.1]
        exact ⟨rfl, .inr ⟨hlistening, _, hended⟩⟩
  | sessionEnds error jitter =>
    obtain ⟨hlistening, rfl⟩ := step_sessionEnds h
    cases hraises : s.raises error with
    | none =>
      obtain ⟨hbackoff, hwaiting⟩ := endSession_of_not_raises jitter hraises
      exact .inr (.inl ⟨error, jitter, rfl, hlistening, hwaiting, hbackoff⟩)
    | some e =>
      obtain ⟨hbackoff, hended⟩ := endSession_of_raises jitter hraises
      exact .inr (.inr (.inr ⟨rfl, hbackoff, .inr ⟨hlistening, e, hended⟩⟩))
  | slept =>
    obtain ⟨hwaiting, rfl⟩ := step_slept h
    exact .inr (.inr (.inl ⟨rfl, rfl, rfl, hwaiting⟩))
  | connects userId websocket =>
    obtain ⟨hnew, rfl⟩ := step_connects h
    exact .inr (.inr (.inr ⟨rfl, rfl, .inl ⟨rfl, rfl⟩⟩))
  | disconnects userId websocket =>
    obtain rfl := step_disconnects h
    exact .inr (.inr (.inr ⟨rfl, rfl, .inl ⟨rfl, rfl⟩⟩))

section

variable {channel : String} {initialDelay maximumDelay : ℚ} {subscriber : RedisRealtimeEventSubscriber}
  {realtime : RealtimeState} {h : List SubscriberEvent}

theorem init_backoff (hinit : RedisRealtimeEventSubscriber.init channel initialDelay maximumDelay = .ok subscriber) :
    subscriber.backoff.initialDelay = initialDelay ∧ subscriber.backoff.maximumDelay = maximumDelay ∧
      subscriber.backoff.next = initialDelay := by
  unfold RedisRealtimeEventSubscriber.init at hinit
  split_ifs at hinit
  cases hbackoff : ReconnectBackoff.init initialDelay maximumDelay with
  | error message =>
    rw [hbackoff] at hinit
    cases hinit
  | ok backoff =>
    rw [hbackoff] at hinit
    cases hinit
    unfold ReconnectBackoff.init at hbackoff
    split_ifs at hbackoff
    cases hbackoff
    exact ⟨rfl, rfl, rfl⟩

/-- Throughout a run the next delay is the initial one, doubled up to the maximum with
every wait, the one that has begun too, and back at the initial one with every
confirmation. -/
theorem backoff_eq (hinit : RedisRealtimeEventSubscriber.init channel initialDelay maximumDelay = .ok subscriber) :
    ∀ {h : List SubscriberEvent} {s : ListenerState},
    (⟨subscriber, .listening, realtime⟩ : ListenerState).after J h = some s →
      s.subscriber.backoff.initialDelay = initialDelay ∧ s.subscriber.backoff.maximumDelay = maximumDelay ∧
      s.subscriber.backoff.next =
        value (· * 2) initialDelay maximumDelay (s.control.begun ++ h.filterMap (·.change channel))
  | [], s, hs => by
    cases hs
    exact init_backoff hinit
  | event :: h, s, hs => by
    obtain ⟨s', hs', hstep⟩ := Option.bind_eq_some_iff.mp hs
    obtain ⟨hinitial, hmaximum, hnext⟩ := backoff_eq hinit hs'
    have hchannel : s'.subscriber.channel = channel := (generation_eq (init_starts hinit realtime) hs').1
    rcases backoff_step hstep with ⟨hchange, -, hcontrol, hbackoff⟩ |
        ⟨error, jitter, rfl, hlistening, hcontrol, hbackoff⟩ | ⟨rfl, hcontrol, hbackoff, delay, hwaiting⟩ |
        ⟨hchange, hbackoff, hcontrol⟩
    · rw [hchannel] at hchange
      rw [hbackoff, hcontrol, List.filterMap_cons_some hchange]
      exact ⟨hinitial, hmaximum, hinitial⟩
    · rw [hlistening] at hnext
      rw [hbackoff, hcontrol, List.filterMap_cons_none rfl]
      refine ⟨hinitial, hmaximum, ?_⟩
      show min (s'.subscriber.backoff.next * 2) s'.subscriber.backoff.maximumDelay = _
      rw [hnext, hmaximum]
      rfl
    · rw [hwaiting] at hnext
      rw [hbackoff, hcontrol]
      exact ⟨hinitial, hmaximum, hnext⟩
    · rw [hchannel] at hchange
      have hbegun : s.control.begun = s'.control.begun := by
        rcases hcontrol with ⟨-, hsame⟩ | ⟨hlistening, e, hended⟩
        · rw [hsame]
        · rw [hlistening, hended]
          rfl
      rw [hbackoff, hbegun, List.filterMap_cons_none hchange]
      exact ⟨hinitial, hmaximum, hnext⟩

/-- In a session the next delay is the capped exponential. -/
theorem nextDelay_eq
    (hinit : RedisRealtimeEventSubscriber.init channel initialDelay maximumDelay = .ok subscriber)
    (hs : (⟨subscriber, .listening, realtime⟩ : ListenerState).after J h = some s)
    (hlistening : s.control = .listening) :
    s.subscriber.backoff.nextDelay.1 = min (initialDelay * 2 ^ reconnectWaits channel h) maximumDelay := by
  obtain ⟨hinitial, hmaximum, hnext⟩ := backoff_eq hinit hs
  have hle : initialDelay ≤ maximumDelay := by
    rw [← hinitial, ← hmaximum]
    exact s.subscriber.backoff.initial_le_maximum
  have hpos : 0 < initialDelay := by
    rw [← hinitial]
    exact s.subscriber.backoff.initial_pos
  calc s.subscriber.backoff.next
      = value (· * 2) initialDelay maximumDelay (h.filterMap (·.change channel)) := by
        rw [hnext, hlistening]
        rfl
    _ = min (initialDelay * 2 ^ reconnectWaits channel h) maximumDelay := by
        rw [doubled_eq (hpos.le.trans hle) hle, reconnectWaits_eq]

/-- A wait was drawn where the latest session ended. -/
theorem waiting_since : ∀ {h : List SubscriberEvent} {s : ListenerState} {delay : ℚ},
    (⟨subscriber, .listening, realtime⟩ : ListenerState).after J h = some s → s.control = .waiting delay →
      ∃ u error jitter v s', h = u ++ .sessionEnds error jitter :: v ∧
        (∀ event ∈ u, event.endsSession = false ∧ event.isSlept = false) ∧
        (⟨subscriber, .listening, realtime⟩ : ListenerState).after J v = some s' ∧ s'.control = .listening ∧
        delay = jitter 0 s'.subscriber.backoff.nextDelay.1
  | [], s, delay, hs, hwaiting => by
    cases hs
    cases hwaiting
  | event :: h, s, delay, hs, hwaiting => by
    obtain ⟨s', hs', hstep⟩ := Option.bind_eq_some_iff.mp hs
    rcases backoff_step hstep with ⟨-, -, hcontrol, -⟩ | ⟨error, jitter, rfl, hlistening, hcontrol, -⟩ |
        ⟨rfl, hcontrol, -, -⟩ | ⟨hchange, -, ⟨hends, hcontrol⟩ | ⟨-, e, hcontrol⟩⟩
    · rw [hcontrol] at hwaiting
      cases hwaiting
    · rw [hcontrol] at hwaiting
      cases hwaiting
      exact ⟨[], error, jitter, h, s', rfl, by simp, hs', hlistening, rfl⟩
    · rw [hcontrol] at hwaiting
      cases hwaiting
    · obtain ⟨u, error, jitter, v, s₁, rfl, hu, hs₁, hlistening, hdelay⟩ :=
        waiting_since hs' (hcontrol.symm.trans hwaiting)
      have hslept : event.isSlept = false := by
        cases event <;> first | rfl | cases hchange
      exact ⟨event :: u, error, jitter, v, s₁, rfl, List.forall_mem_cons.mpr ⟨⟨hends, hslept⟩, hu⟩, hs₁, hlistening,
        hdelay⟩
    · rw [hcontrol] at hwaiting
      cases hwaiting

end

end ListenerState

open ListenerState

/-- **Reconnect delays.** Whatever the sessions of `listen` read and however they end:
where one ends, either `listen` is over, or it sleeps for just what the jitter draws
between 0 and the initial delay, doubled for every wait since the latest confirmation
and capped at the maximum; and it never waits but so. -/
theorem reconnect_delays (J : RealtimeJson) {channel : String} {initialDelay maximumDelay : ℚ}
    {subscriber : RedisRealtimeEventSubscriber}
    (hinit : RedisRealtimeEventSubscriber.init channel initialDelay maximumDelay = .ok subscriber)
    (realtime : RealtimeState) {h : List SubscriberEvent} {s : ListenerState}
    (hs : (⟨subscriber, .listening, realtime⟩ : ListenerState).after J h = some s) :
    (∀ error jitter v, h = .sessionEnds error jitter :: v →
      s.control = .waiting (jitter 0 (min (initialDelay * 2 ^ reconnectWaits channel v) maximumDelay)) ∨
        ∃ e, s.control = .ended e) ∧
      ∀ delay, s.control = .waiting delay → ∃ u error jitter v,
        h = u ++ .sessionEnds error jitter :: v ∧ (∀ event ∈ u, event.endsSession = false ∧ event.isSlept = false) ∧
        delay = jitter 0 (min (initialDelay * 2 ^ reconnectWaits channel v) maximumDelay) := by
  constructor
  · rintro error jitter v rfl
    obtain ⟨s', hs', hstep⟩ := Option.bind_eq_some_iff.mp hs
    rcases backoff_step hstep with ⟨hchange, -⟩ | ⟨error', jitter', hevent, hlistening, hcontrol, -⟩ | ⟨hevent, -⟩ |
        ⟨-, -, ⟨hends, -⟩ | ⟨-, hended⟩⟩
    · cases hchange
    · cases hevent
      rw [nextDelay_eq hinit hs' hlistening] at hcontrol
      exact .inl hcontrol
    · cases hevent
    · cases hends
    · exact .inr hended
  · intro delay hwaiting
    obtain ⟨u, error, jitter, v, s', hh, hu, hs', hlistening, hdelay⟩ := waiting_since hs hwaiting
    rw [nextDelay_eq hinit hs' hlistening] at hdelay
    exact ⟨u, error, jitter, v, hh, hu, hdelay⟩

/-- A session that is confirmed twice and ends, the wait after it, and a session that
is not confirmed. -/
def exampleSessions : List SubscriberEvent :=
  [.sessionEnds (some .connectionError) fun _ maximumDelay => maximumDelay / 4, .slept,
    .sessionEnds none fun _ maximumDelay => maximumDelay / 2, .item exampleConfirmation (fun _ => .success) .started,
    .item exampleConfirmation (fun _ => .success) .started]

/-- The second wait is drawn from up to two seconds. -/
theorem reconnect_delays_second :
    ∃ s, (⟨exampleSubscriber, .listening, exampleConnections⟩ : ListenerState).after exampleRealtimeJson
        exampleSessions = some s ∧ s.control = .waiting (min (1 * 2 ^ 1) 30 / 4) := by
  refine ⟨_, rfl, ?_⟩
  have hdelays := reconnect_delays exampleRealtimeJson exampleSubscriber_init exampleConnections
    (h := exampleSessions) rfl
  have hwaits : reconnectWaits realtimeEventsChannel exampleSessions.tail = 1 := by decide +kernel
  rcases hdelays.1 _ _ _ rfl with hwaiting | ⟨e, hended⟩
  · rw [hwaiting, ← hwaits]
    rfl
  · cases hended

end TaskApi
