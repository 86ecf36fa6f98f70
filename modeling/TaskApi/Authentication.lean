/-
# What a token stands for

What a login and a request with a token do, call by call, and what follows for every run of
the application. A login that is not limited verifies one password hash, the row's or the
dummy one, and all its failures are answered alike. A token it answers with is accepted for
the user that it was made for, from then on until its last whole second; a request that shows
one is answered for that user if the account is there and switched on.

Key definitions: `AccountPhase`, `AppRequest.Allows`, `Accepts`, `accessToken`, `AccountPhase.caller`,
`callerHosting`.
Key theorems: `accepts_accessToken`, `decodeAccessToken_follows`, `appRequest_follows`, `bearer_hosted`.
-/
import TaskApi.Application

namespace TaskApi

open Conc

/-! ### What a request does, call by call -/

/-- How the first calls of a route have ended. -/
structure AccountPhase where
  /-- What the select by username returned. -/
  selected : Option (Option UserRow) := none
  /-- How the verification of a password ended. -/
  verified : Option (Except AppExn Bool) := none
  verifications : ℕ := 0
  clock : Option ℚ := none
  /-- What `session.get` returned. -/
  user : Option (Option UserRow) := none

namespace AccountPhase

def next (q : AccountPhase) : (c : AppCall) → appCalls.Out c → AccountPhase
  | .scalarUser _, .ok row => { q with selected := q.selected.or (some row) }
  | .scalarUser _, .error _ => q
  | .verifyPassword .., v => { q with verified := q.verified.or (some v), verifications := q.verifications + 1 }
  | .utcNow, .ok now => { q with clock := q.clock.or (some now) }
  | .utcNow, .error _ => q
  | .getUser _, .ok row => { q with user := q.user.or (some row) }
  | .getUser _, .error _ => q
  | .limiter _, _ | .registration _, _ | .tickets _, _ | .tasks _, _ | .rollback, _ | .close, _ => q

/-- What a phase has it keeps. -/
theorem next_selected {q : AccountPhase} {selected : Option UserRow} (c : AppCall) (v : appCalls.Out c)
    (h : q.selected = some selected) : (q.next c v).selected = some selected := by
  cases c <;> first | exact h | (cases v <;> simp [next, h])

theorem next_clock {q : AccountPhase} {now : ℚ} (c : AppCall) (v : appCalls.Out c) (h : q.clock = some now) :
    (q.next c v).clock = some now := by
  cases c <;> first | exact h | (cases v <;> simp [next, h])

/-- A login has found an account that is on, and its password is right. -/
def Proven (q : AccountPhase) (row : UserRow) : Prop :=
  q.selected = some (some row) ∧ q.verified = some (.ok true) ∧ row.isActive = true

/-- A request has found the account of its token, and it is on. -/
def Authorised (q : AccountPhase) (row : UserRow) : Prop := q.user = some (some row) ∧ row.isActive = true

end AccountPhase

abbrev accountAutomaton : Automaton appCalls := ⟨AccountPhase, {}, AccountPhase.next⟩

section Protocol

variable (pkg : Packages) (settings : AppSettings pkg)

/-- At time `now` the token is accepted, for the user. -/
def Accepts (token : String) (now : ℚ) (userId : ℤ) : Prop :=
  ∃ payload subject, pkg.jwt.decode token settings.jwtSecretKey settings.jwtAlgorithm now = .ok payload ∧
    payload.sub = .string subject ∧ subject ≠ "" ∧ pkg.int.int subject = .ok userId

/-- The token that a login makes. -/
def accessToken (userId : ℤ) (issuedAt : ℚ) : String :=
  pkg.jwt.encode ⟨toString userId, issuedAt, issuedAt + settings.accessTokenExpireMinutes * 60⟩ settings.jwtSecretKey
    settings.jwtAlgorithm

/-- The calls of a login. -/
def loginAllows (username password : String) (q : AccountPhase) : AppCall → Prop
  | .limiter _ => True
  | .scalarUser name => name = username ∧ q = {}
  | .verifyPassword plainPassword hashedPassword =>
    plainPassword = password ∧ ((q = { selected := some none } ∧ hashedPassword = pkg.dummyPasswordHash) ∨
      ∃ row, q = { selected := some (some row) } ∧ hashedPassword = row.hashedPassword)
  | .utcNow => q.clock = none ∧ ∃ row, q.Proven row
  | .rollback | .close => True
  | _ => False

/-- The calls of a request that shows a token. -/
def bearerAllows (token : String) (q : AccountPhase) : AppCall → Prop
  | .utcNow => q = {}
  | .getUser userId => ∃ now, q = { clock := some now } ∧ Accepts pkg settings token now userId
  | .tickets _ | .tasks _ => ∃ row, q.Authorised row
  | .rollback | .close => True
  | _ => False

/-- The calls a request may make in a phase. -/
def AppRequest.Allows : AppRequest → AccountPhase → AppCall → Prop
  | .login _ username password, q, c => loginAllows pkg username password q c
  | .me token, q, c | .websocketTicket token, q, c | .task token _, q, c => bearerAllows pkg settings token q c
  | .register _, _, .registration _ => True
  | .websocket _, _, .tickets _ => True
  | _, _, _ => False

/-- How a login ends: refused by a limiter, with a token, with the one answer that every
failure has, or on a row whose hash is none. -/
def LoginEnds (q : AccountPhase) (x : Except AppExn AppAnswer) : Prop :=
  (∃ e, x = .error (.limiter e) ∧ q = {}) ∨
  (q.verifications = 1 ∧ ∃ row now, q.Proven row ∧ q.clock = some now ∧
    x = .ok (.token ⟨accessToken pkg settings row.id now, "bearer"⟩)) ∨
  (q.verifications = 1 ∧ (∃ verified, q.verified = some (.ok verified)) ∧ (∀ row, ¬ q.Proven row) ∧
    x = .error incorrectCredentials) ∨
  (q.verifications = 1 ∧ q.verified = some (.error .unknownHashError) ∧ x = .error .unknownHashError)

/-- The token of a request was looked at, and its account if it was accepted. -/
def Looked (token : String) (q : AccountPhase) : Prop :=
  ∃ now, q.clock = some now ∧ (q.user = none → ∀ userId, ¬ Accepts pkg settings token now userId)

/-- Without an account that is on there is one answer. -/
def BearerEnds (token : String) (q : AccountPhase) (x : Except AppExn AppAnswer) : Prop :=
  Looked pkg settings token q ∧ ((∀ row, ¬ q.Authorised row) → x = .error credentialsException)

/-- How a request ends. -/
def AppRequest.Ends : AppRequest → AccountPhase → Except AppExn AppAnswer → Prop
  | .login .., q, x => LoginEnds pkg settings q x
  | .me token, q, x =>
    BearerEnds pkg settings token q x ∧ ∀ row, q.Authorised row → x = .ok (.user row.response)
  | .websocketTicket token, q, x | .task token _, q, x => BearerEnds pkg settings token q x
  | _, _, _ => True

abbrev AppRequest.protocol (r : AppRequest) : Protocol appCalls where
  toAutomaton := accountAutomaton
  allows := r.Allows pkg settings

end Protocol

section

variable {pkg : Packages} {settings : AppSettings pkg}

/-- `str` writes no number as an empty string. -/
theorem str_ne_empty (n : ℤ) : toString n ≠ "" := by
  cases n with
  | ofNat n => exact Nat.repr_ne_empty
  | negSucc n =>
    have hlength : (toString (Int.negSucc n)).length = 1 + (n + 1).repr.length :=
      String.length_append "-" (n + 1).repr
    intro hempty
    rw [hempty, String.length_empty] at hlength
    omega

/-- **A token's lifetime.** A login's token is accepted for its user only, from the second it
was made in to its last whole second. -/
theorem accepts_accessToken {userId userId' : ℤ} {issuedAt now : ℚ} :
    Accepts pkg settings (accessToken pkg settings userId issuedAt) now userId' ↔
      userId' = userId ∧ ⌊issuedAt⌋ ≤ now ∧ now < ⌊issuedAt + settings.accessTokenExpireMinutes * 60⌋ := by
  unfold Accepts accessToken
  constructor
  · rintro ⟨payload, subject, hdecode, hsub, -, hint⟩
    rcases lt_or_ge now ⌊issuedAt⌋ with hearly | hearly
    · obtain ⟨message, herror⟩ := settings.jwt_signs.decode_early
        ⟨toString userId, issuedAt, issuedAt + settings.accessTokenExpireMinutes * 60⟩ now hearly
      rw [herror] at hdecode
      cases hdecode
    rcases lt_or_ge now ⌊issuedAt + settings.accessTokenExpireMinutes * 60⌋ with hlate | hlate
    · rw [settings.jwt_signs.decode_encode _ _ hearly hlate] at hdecode
      cases hdecode
      cases hsub
      rw [pkg.int.int_str] at hint
      cases hint
      exact ⟨rfl, hearly, hlate⟩
    · obtain ⟨message, herror⟩ := settings.jwt_signs.decode_late
        ⟨toString userId, issuedAt, issuedAt + settings.accessTokenExpireMinutes * 60⟩ now hlate
      rw [herror] at hdecode
      cases hdecode
  · rintro ⟨rfl, hearly, hlate⟩
    refine ⟨_, toString userId', settings.jwt_signs.decode_encode _ _ hearly hlate, rfl, fun hempty => ?_,
      pkg.int.int_str _⟩
    exact str_ne_empty userId' hempty

/-! ### What a step can do -/

namespace AppState

theorem can_scalarUser {username : String} {v : Except AppExn (Option UserRow)}
    (h : (appSystem pkg settings).Can (.scalarUser username) v) : ∃ row, v = .ok row := by
  obtain ⟨s, s', rfl, -⟩ := h
  exact ⟨_, rfl⟩

theorem can_getUser {userId : ℤ} {v : Except AppExn (Option UserRow)}
    (h : (appSystem pkg settings).Can (.getUser userId) v) : ∃ row, v = .ok row := by
  obtain ⟨s, s', rfl, -⟩ := h
  exact ⟨_, rfl⟩

theorem can_utcNow {v : Except AppExn ℚ} (h : (appSystem pkg settings).Can .utcNow v) : ∃ now, v = .ok now := by
  obtain ⟨s, s', rfl, -⟩ := h
  exact ⟨_, rfl⟩

theorem can_rollback {v : Except AppExn Unit} (h : (appSystem pkg settings).Can .rollback v) : v = .ok () := by
  obtain ⟨s, s', rfl, -⟩ := h
  rfl

theorem can_close {v : Except AppExn Unit} (h : (appSystem pkg settings).Can .close v) : v = .ok () := by
  obtain ⟨s, s', rfl, -⟩ := h
  rfl

theorem can_verifyPassword {plainPassword hashedPassword : String} {v : Except AppExn Bool}
    (h : (appSystem pkg settings).Can (.verifyPassword plainPassword hashedPassword) v) :
    (∃ verified, v = .ok verified) ∨ v = .error .unknownHashError := by
  obtain ⟨s, s', hverifies, -⟩ := h
  rcases hverifies with ⟨-, rfl⟩ | ⟨-, -, rfl⟩ | ⟨-, rfl⟩
  · exact .inl ⟨_, rfl⟩
  · exact .inl ⟨_, rfl⟩
  · exact .inr rfl

/-! The components raise no errors but their own. -/

theorem can_limiter {c : LoginCall} {v : Except AppExn c.Val} (h : (appSystem pkg settings).Can (.limiter c) v) :
    ∃ w, loginEmbedding.hears c v = .ok w ∧ (loginSystem settings.login).Can c w := by
  obtain ⟨s, s', w, x, hs, rfl, -⟩ := h
  exact ⟨w, AppExn.hear_mapError AppExn.ofLimiter .limiter (fun _ => rfl) w, _, _, hs⟩

theorem can_registration {c : RegistrationCall} {v : Except AppExn c.Val}
    (h : (appSystem pkg settings).Can (.registration c) v) :
    ∃ w, registrationEmbedding.hears c v = .ok w ∧ (registrationSystem pkg.passwordHash).Can c w := by
  obtain ⟨s, s', w, x, hs, rfl, -⟩ := h
  exact ⟨w, AppExn.hear_mapError AppExn.ofRegistration .registration (fun _ => rfl) w, _, _, hs⟩

theorem can_tickets {c : TicketCall} {v : Except AppExn c.Val} (h : (appSystem pkg settings).Can (.tickets c) v) :
    ∃ w, ticketEmbedding.hears c v = .ok w ∧ (ticketSystem pkg.int settings.ticketStore).Can c w := by
  obtain ⟨s, s', w, x, hs, rfl, -⟩ := h
  exact ⟨w, AppExn.hear_mapError AppExn.ofTickets .tickets (fun _ => rfl) w, _, _, hs⟩

theorem can_tasks {c : Call} {v : Except AppExn c.Val} (h : (appSystem pkg settings).Can (.tasks c) v) :
    ∃ w, taskEmbedding.hears c v = .ok w ∧ ∃ s s', TaskApi.step (fun _ => True) c s w s' := by
  obtain ⟨s, s', w, x, hs, rfl, -⟩ := h
  exact ⟨w, AppExn.hear_mapError AppExn.ofTasks .tasks (fun _ => rfl) w, _, _, hs⟩

end AppState

/-! ### The routes follow their protocol -/

/-- The session's cleanup leaves everything as the endpoint ended. -/
theorem withSession_follows {α : Type} {P : Protocol appCalls} {endpoint : AppAct α} {q : P.Phase}
    {Q : P.Phase → Except AppExn α → Prop}
    (hkeeps : ∀ q x, Q q x → ∀ c, c = AppCall.rollback ∨ c = AppCall.close → P.allows q c ∧ ∀ v, P.next q c v = q)
    (h : endpoint.Follows P (appSystem pkg settings).Can Q q) :
    (withSession endpoint).Follows P (appSystem pkg settings).Can Q q := by
  have hclose : ∀ q x, Q q x → (AppCall.close.perform).Follows P (appSystem pkg settings).Can
      (Prog.ends (fun q _ => Q q x) fun q e => Q q (.error e)) q := by
    intro q x hQ
    refine Prog.follows_perform.mpr ⟨(hkeeps q _ hQ _ (.inr rfl)).1, fun v hv => ?_⟩
    obtain rfl := AppState.can_close hv
    rw [(hkeeps q _ hQ _ (.inr rfl)).2]
    exact hQ
  refine Prog.follows_tryFinally.mpr (Prog.follows_tryCatch.mpr (h.mono fun q x hQ => ?_))
  cases x with
  | ok a => exact hclose q _ hQ
  | error error =>
    refine Prog.follows_bind.mpr (Prog.follows_perform.mpr ⟨(hkeeps q _ hQ _ (.inl rfl)).1, fun v hv => ?_⟩)
    obtain rfl := AppState.can_rollback hv
    rw [(hkeeps q _ hQ _ (.inl rfl)).2]
    exact hclose q _ hQ

theorem login_keeps {attempt : LoginAttempt} {username password : String} (q : AccountPhase) (c : AppCall)
    (hc : c = .rollback ∨ c = .close) : ((AppRequest.login attempt username password).protocol pkg settings).allows q c ∧
      ∀ v, ((AppRequest.login attempt username password).protocol pkg settings).next q c v = q := by
  rcases hc with rfl | rfl
  · exact ⟨trivial, fun _ => rfl⟩
  · exact ⟨trivial, fun _ => rfl⟩

theorem bearer_keeps {r : AppRequest} {token : String} (hr : r.bearer = some token) (q : AccountPhase) (c : AppCall)
    (hc : c = .rollback ∨ c = .close) : (r.protocol pkg settings).allows q c ∧
      ∀ v, (r.protocol pkg settings).next q c v = q := by
  rcases hc with rfl | rfl <;> cases r <;> cases hr <;> exact ⟨trivial, fun _ => rfl⟩

theorem loginForAccessToken_follows {attempt : LoginAttempt} {username password : String} :
    (loginForAccessToken pkg settings username password).Follows
      ((AppRequest.login attempt username password).protocol pkg settings) (appSystem pkg settings).Can
      (fun q x => LoginEnds pkg settings q (x.map .token)) {} := by
  unfold loginForAccessToken authenticateUser
  refine Prog.follows_bind.mpr (Prog.follows_bind.mpr (Prog.follows_perform.mpr ⟨⟨rfl, rfl⟩, fun v hv => ?_⟩))
  obtain ⟨selected, rfl⟩ := AppState.can_scalarUser hv
  cases selected with
  | none =>
    refine Prog.follows_bind.mpr (Prog.follows_perform.mpr ⟨⟨rfl, .inl ⟨rfl, rfl⟩⟩, fun v hv => ?_⟩)
    rcases AppState.can_verifyPassword hv with ⟨verified, rfl⟩ | rfl
    · refine .inr (.inr (.inl ⟨rfl, ⟨_, rfl⟩, fun row hrow => ?_, rfl⟩))
      cases hrow.1
    · exact .inr (.inr (.inr ⟨rfl, rfl, rfl⟩))
  | some row =>
    refine Prog.follows_bind.mpr (Prog.follows_perform.mpr ⟨⟨rfl, .inr ⟨row, rfl, rfl⟩⟩, fun v hv => ?_⟩)
    rcases AppState.can_verifyPassword hv with ⟨verified, rfl⟩ | rfl
    · cases hverified : verified with
      | false =>
        refine .inr (.inr (.inl ⟨rfl, ⟨_, rfl⟩, fun row hrow => ?_, rfl⟩))
        cases hrow.2.1
      | true =>
        simp only [Prog.ends_ok]
        cases hactive : row.isActive with
        | false =>
          refine .inr (.inr (.inl ⟨rfl, ⟨_, rfl⟩, fun row' hrow => ?_, rfl⟩))
          obtain ⟨hselected, -, hon⟩ := hrow
          cases hselected
          rw [hactive] at hon
          cases hon
        | true =>
          have hproven : AccountPhase.Proven
              { selected := some (some row), verified := some (.ok true), verifications := 1 } row :=
            ⟨rfl, rfl, hactive⟩
          refine Prog.follows_bind.mpr (Prog.follows_bind.mpr
            (Prog.follows_perform.mpr ⟨⟨rfl, row, hproven⟩, fun v hv => ?_⟩))
          obtain ⟨now, rfl⟩ := AppState.can_utcNow hv
          exact .inr (.inl ⟨rfl, row, now, ⟨rfl, rfl, hactive⟩, rfl, rfl⟩)
    · exact .inr (.inr (.inr ⟨rfl, rfl, rfl⟩))

/-- The calls of the three routes with a token are those of a request that shows it. -/
theorem allows_of_bearer {r : AppRequest} {token : String} (hr : r.bearer = some token) {q : AccountPhase} {c : AppCall}
    (hc : bearerAllows pkg settings token q c) : (r.protocol pkg settings).allows q c := by
  cases r <;> cases hr <;> exact hc

/-- A token that can be decoded is accepted for the user that its subject names. -/
theorem accepts_iff_of_decode {token : String} {now : ℚ} {payload : DecodedPayload} {userId : ℤ}
    (hdecode : pkg.jwt.decode token settings.jwtSecretKey settings.jwtAlgorithm now = .ok payload) :
    Accepts pkg settings token now userId ↔
      ∃ subject, payload.sub = .string subject ∧ subject ≠ "" ∧ pkg.int.int subject = .ok userId := by
  constructor
  · rintro ⟨payload', subject, hdecode', hsubject⟩
    rw [hdecode] at hdecode'
    cases hdecode'
    exact ⟨subject, hsubject⟩
  · rintro ⟨subject, hsubject⟩
    exact ⟨payload, subject, hdecode, hsubject⟩

/-- At the time that the clock shows, a token has a subject, which decides whom it is accepted
for, or it is accepted for nobody. -/
theorem decodeAccessToken_follows {r : AppRequest} {token : String} (hr : r.bearer = some token)
    {Q : AccountPhase → Except AppExn String → Prop}
    (herror : ∀ now message, (∀ userId, ¬ Accepts pkg settings token now userId) →
      Q { clock := some now } (.error (.invalidTokenError message)))
    (hok : ∀ now subject, (∀ userId, Accepts pkg settings token now userId ↔ pkg.int.int subject = .ok userId) →
      Q { clock := some now } (.ok subject)) :
    (decodeAccessToken pkg settings token).Follows (r.protocol pkg settings) (appSystem pkg settings).Can Q {} := by
  unfold decodeAccessToken
  refine Prog.follows_bind.mpr (Prog.follows_perform.mpr ⟨allows_of_bearer hr rfl, fun v hv => ?_⟩)
  obtain ⟨now, rfl⟩ := AppState.can_utcNow hv
  simp only [Prog.ends_ok]
  cases hdecode : pkg.jwt.decode token settings.jwtSecretKey settings.jwtAlgorithm now with
  | error message =>
    refine herror now message fun userId haccepts => ?_
    obtain ⟨payload, -, hdecode', -⟩ := haccepts
    rw [hdecode] at hdecode'
    cases hdecode'
  | ok payload =>
    have haccepts : ∀ userId, Accepts pkg settings token now userId ↔ ∃ subject, payload.sub = .string subject ∧
        subject ≠ "" ∧ pkg.int.int subject = .ok userId := fun userId => accepts_iff_of_decode hdecode
    cases hsub : payload.sub with
    | string subject =>
      simp only [hsub] at haccepts ⊢
      split_ifs with hempty
      · refine herror now _ fun userId h => ?_
        obtain ⟨subject', heq, hne, -⟩ := (haccepts userId).mp h
        cases heq
        exact hne hempty
      · refine hok now subject fun userId => (haccepts userId).trans ⟨?_, fun hint => ⟨subject, rfl, hempty, hint⟩⟩
        rintro ⟨subject', heq, -, hint⟩
        cases heq
        exact hint
    | _ =>
      simp only [hsub] at haccepts ⊢
      refine herror now _ fun userId h => ?_
      obtain ⟨subject', heq, -⟩ := (haccepts userId).mp h
      cases heq

/-- What comes before the endpoint of a request with a token: the current user, or the one
answer of all failures. -/
theorem getCurrentUser_follows {r : AppRequest} {token : String} (hr : r.bearer = some token)
    {Q : AccountPhase → Except AppExn UserRow → Prop}
    (herror : ∀ q, Looked pkg settings token q → (∀ row, ¬ q.Authorised row) → Q q (.error credentialsException))
    (hok : ∀ now row, row.isActive = true → Q { clock := some now, user := some (some row) } (.ok row)) :
    (getCurrentUser pkg settings token).Follows (r.protocol pkg settings) (appSystem pkg settings).Can Q {} := by
  -- a token that is not accepted is not looked up
  have hrejected : ∀ now, (∀ userId, ¬ Accepts pkg settings token now userId) →
      Q { clock := some now } (.error credentialsException) := by
    intro now hnot
    refine herror _ ⟨now, rfl, fun _ => hnot⟩ fun row hrow => ?_
    cases hrow.1
  unfold getCurrentUser resolveUserFromToken
  refine Prog.follows_tryCatch.mpr (Prog.follows_bind.mpr (Prog.follows_tryCatch.mpr (Prog.follows_bind.mpr
    (decodeAccessToken_follows hr (fun now message hnot => hrejected now hnot) fun now subject haccepts => ?_))))
  simp only [Prog.ends_ok]
  cases hint : pkg.int.int subject with
  | error message =>
    simp only [Prog.follows_raise]
    refine hrejected now fun userId h => ?_
    rw [haccepts, hint] at h
    cases h
  | ok userId =>
    have haccepts : Accepts pkg settings token now userId := (haccepts userId).mpr hint
    refine Prog.follows_bind.mpr (Prog.follows_perform.mpr ⟨allows_of_bearer hr ⟨now, rfl, haccepts⟩, fun v hv => ?_⟩)
    obtain ⟨user, rfl⟩ := AppState.can_getUser hv
    have hlooked : Looked pkg settings token { clock := some now, user := some user } :=
      ⟨now, rfl, fun hnone => by cases hnone⟩
    cases user with
    | none =>
      refine herror _ hlooked fun row hrow => ?_
      cases hrow.1
    | some row =>
      simp only [Prog.ends_ok]
      cases hactive : row.isActive with
      | false =>
        refine herror _ hlooked fun row' hrow => ?_
        obtain ⟨huser, hon⟩ := hrow
        cases huser
        rw [hactive] at hon
        cases hon
      | true => exact hok now row hactive

/-- With an account that is on, how a request ends is up to its endpoint. -/
theorem bearerEnds_of_active {token : String} {now : ℚ} {row : UserRow} (hactive : row.isActive = true)
    (x : Except AppExn AppAnswer) :
    BearerEnds pkg settings token { clock := some now, user := some (some row) } x :=
  ⟨⟨now, rfl, fun hnone => by cases hnone⟩, fun hnot => absurd ⟨rfl, hactive⟩ (hnot row)⟩

theorem appRequest_follows (r : AppRequest) : (r.body pkg settings).Follows (r.protocol pkg settings)
    (appSystem pkg settings).Can (r.Ends pkg settings) {} := by
  cases r with
  | register userCreate =>
    refine Prog.follows_bind.mpr (Prog.follows_lift_keeps (fun c => ⟨trivial, fun _ => rfl⟩) (fun c v hv => ?_)
      (fun x => ?_) _)
    · obtain ⟨w, hw, -⟩ := AppState.can_registration hv
      exact ⟨w, hw⟩
    · cases x <;> trivial
  | login attempt username password =>
    refine Prog.follows_bind.mpr (Prog.follows_lift_keeps (fun c => ⟨trivial, fun _ => rfl⟩) (fun c v hv => ?_)
      (fun x => ?_) _)
    · obtain ⟨w, hw, -⟩ := AppState.can_limiter hv
      exact ⟨w, hw⟩
    cases x with
    | error e => exact .inl ⟨e, rfl, rfl⟩
    | ok _ =>
      refine Prog.follows_bind.mpr ((withSession_follows (fun q _ _ => login_keeps q) loginForAccessToken_follows).mono
        fun q x hx => ?_)
      cases x with
      | ok response => exact hx
      | error e => exact hx
  | me token =>
    have hbearer : (AppRequest.me token).bearer = some token := rfl
    refine withSession_follows (fun q _ _ => bearer_keeps hbearer q) (Prog.follows_bind.mpr
      (getCurrentUser_follows hbearer (fun q hlooked hq => ?_) fun now row hactive => ?_))
    · exact ⟨⟨hlooked, fun _ => rfl⟩, fun row hrow => absurd hrow (hq row)⟩
    · refine ⟨bearerEnds_of_active hactive _, fun row' hrow => ?_⟩
      cases hrow.1
      rfl
  | websocketTicket token =>
    have hbearer : (AppRequest.websocketTicket token).bearer = some token := rfl
    refine withSession_follows (fun q _ _ => bearer_keeps hbearer q) (Prog.follows_bind.mpr
      (getCurrentUser_follows hbearer (fun q hlooked hq => ⟨hlooked, fun _ => rfl⟩) fun now row hactive => ?_))
    have hkeeps : ∀ c, ((AppRequest.websocketTicket token).protocol pkg settings).allows
        { clock := some now, user := some (some row) } (ticketEmbedding.call c) ∧ ∀ v,
          ((AppRequest.websocketTicket token).protocol pkg settings).next
            { clock := some now, user := some (some row) } (ticketEmbedding.call c) v = _ :=
      fun c => ⟨⟨row, rfl, hactive⟩, fun _ => rfl⟩
    refine Prog.follows_bind.mpr (Prog.follows_bind.mpr (Prog.follows_tryCatch.mpr ?_))
    refine Prog.follows_lift_keeps hkeeps (fun c v hv => ?_) (fun x => ?_) _
    · obtain ⟨w, hw, -⟩ := AppState.can_tickets hv
      exact ⟨w, hw⟩
    cases x with
    | error e => cases e <;> exact bearerEnds_of_active hactive _
    | ok ticket =>
      simp only [Except.mapError, Prog.ends_ok]
      split_ifs
      · exact bearerEnds_of_active hactive _
      · exact bearerEnds_of_active hactive _
  | websocket ticket =>
    refine Prog.follows_bind.mpr (Prog.follows_lift_keeps (fun c => ⟨trivial, fun _ => rfl⟩) (fun c v hv => ?_)
      (fun x => ?_) _)
    · obtain ⟨w, hw, -⟩ := AppState.can_tickets hv
      exact ⟨w, hw⟩
    · cases x <;> trivial
  | task token operation =>
    have hbearer : (AppRequest.task token operation).bearer = some token := rfl
    refine withSession_follows (fun q _ _ => bearer_keeps hbearer q) (Prog.follows_bind.mpr
      (getCurrentUser_follows hbearer (fun q hlooked hq => ⟨hlooked, fun _ => rfl⟩) fun now row hactive => ?_))
    have hkeeps : ∀ c, ((AppRequest.task token operation).protocol pkg settings).allows
        { clock := some now, user := some (some row) } (taskEmbedding.call c) ∧ ∀ v,
          ((AppRequest.task token operation).protocol pkg settings).next
            { clock := some now, user := some (some row) } (taskEmbedding.call c) v = _ :=
      fun c => ⟨⟨row, rfl, hactive⟩, fun _ => rfl⟩
    refine Prog.follows_bind.mpr ?_
    refine Prog.follows_lift_keeps hkeeps (fun c v hv => ?_) (fun x => ?_) _
    · obtain ⟨w, hw, -⟩ := AppState.can_tasks hv
      exact ⟨w, hw⟩
    · cases x <;> exact bearerEnds_of_active hactive _

end

/-- Every request follows its protocol. -/
def appDiscipline (pkg : Packages) (settings : AppSettings pkg) : Discipline (appSystem pkg settings) where
  protocol r := r.protocol pkg settings
  final r := r.Ends pkg settings
  follows r := appRequest_follows r

/-! ### What a component does for the caller -/

namespace AccountPhase

/-- The account that a request is for, once it is found. -/
def caller (q : AccountPhase) : Option UserRow := q.user.join.filter (·.isActive)

theorem caller_eq_some {q : AccountPhase} {row : UserRow} : q.caller = some row ↔ q.Authorised row := by
  simp [caller, Authorised, Option.filter_eq_some_iff, Option.join_eq_some_iff]

theorem next_authorised {q : AccountPhase} {row : UserRow} (c : AppCall) (v : appCalls.Out c)
    (h : q.Authorised row) : (q.next c v).Authorised row := by
  refine ⟨?_, h.2⟩
  cases c <;> first | exact h.1 | (cases v <;> simp [next, h.1])

end AccountPhase

/-- A component that is asked for something on behalf of the caller. -/
def callerHosting {I : Interface} (E : Embedding I appCalls) (A : System I) (request : UserRow → A.Req)
    (allows : AppCall → Prop) (hown : ∀ q c v, AccountPhase.next q (E.call c) v = q) : Hosting E A where
  automaton := accountAutomaton
  spawn q := q.caller.map request
  allows _ _ := allows
  next_own := hown

section Hosted

variable {pkg : Packages} {settings : AppSettings pkg} {I : Interface} {E : Embedding I appCalls}
  {A : System I} {request : UserRow → A.Req} {allows : AppCall → Prop}
  {hown : ∀ q c v, AccountPhase.next q (E.call c) v = q}

theorem callerHosting_settled : (callerHosting E A request allows hown).Settled := by
  intro q d v r h
  obtain ⟨row, hrow, rfl⟩ := Option.map_eq_some_iff.mp h
  refine Option.map_eq_some_iff.mpr ⟨row, ?_, rfl⟩
  exact AccountPhase.caller_eq_some.mpr (AccountPhase.next_authorised d v (AccountPhase.caller_eq_some.mp hrow))

/-- A request that shows a token asks the component once the caller is found, and not at all
if there is none. -/
theorem bearer_hosted [DecidableEq I.Call] {α : Type} {r : AppRequest} {token : String} (hr : r.bearer = some token)
    (hroute : ∀ d : AppCall, d.IsRoute → E.Foreign d ∧ allows d) {endpoint : UserRow → AppAct α}
    {Q : (callerHosting E A request allows hown).protocol.Phase → Except AppExn α → Prop}
    (herror : ∀ q e, Q q (.error e))
    (hendpoint : ∀ q row, AccountPhase.Authorised q row → (endpoint row).Follows
      (callerHosting E A request allows hown).protocol (appSystem pkg settings).Can (fun q x => q.2.isSome ∧ Q q x)
      (q, some (request row, A.body (request row)))) :
    (withSession do endpoint (← getCurrentUser pkg settings token)).Follows
      (callerHosting E A request allows hown).protocol (appSystem pkg settings).Can Q
      (callerHosting E A request allows hown).protocol.init := by
  let H := callerHosting E A request allows hown
  have hcurrent : (getCurrentUser pkg settings token).Follows (r.protocol pkg settings) (appSystem pkg settings).Can
      (fun q x => ∀ row, x = .ok row → q.Authorised row) {} := by
    refine getCurrentUser_follows hr (fun q _ _ row h => by cases h) fun now row hactive row' h => ?_
    cases h
    exact ⟨rfl, hactive⟩
  have hhosted := Hosting.follows_host (H := H) callerHosting_settled
    (fun d hd => ⟨(hroute d hd).1, fun _ _ => (hroute d hd).2⟩) (getCurrentUser_makes (fun _ hd => hd) token) hcurrent
  suffices h : ((do endpoint (← getCurrentUser pkg settings token)) : AppAct α).Follows H.protocol
      (appSystem pkg settings).Can (fun q x => H.settle q.1 q.2 = q.2 ∧ Q q x) H.protocol.init by
    refine (withSession_follows (fun q x hq c hc => ?_) h).mono fun q x hq => hq.2
    have hc' : c.IsRoute := by rcases hc with rfl | rfl <;> trivial
    refine ⟨⟨fun c' hc'' => absurd hc'' ((hroute c hc').1 c'), fun _ => (hroute c hc').2⟩, fun v => ?_⟩
    have hnext : H.automaton.next q.1 c v = q.1 := by rcases hc with rfl | rfl <;> rfl
    rw [H.next_foreign (hroute c hc').1, hnext, hq.1]
  refine Prog.follows_bind.mpr (hhosted.mono fun q x hq => ?_)
  obtain ⟨q, thread⟩ := q
  obtain ⟨hauthorised, rfl : thread = H.settle q none⟩ := hq
  cases x with
  | error e => exact ⟨by rw [H.settle_settle], herror _ e⟩
  | ok row =>
    have hspawn : H.settle q none = some (request row, A.body (request row)) := by
      have hcaller : H.spawn q = some (request row) :=
        Option.map_eq_some_iff.mpr ⟨row, AccountPhase.caller_eq_some.mpr (hauthorised row rfl), rfl⟩
      simp [Hosting.settle, hcaller]
    rw [hspawn]
    refine (hendpoint q row (hauthorised row rfl)).mono fun q x hq => ⟨?_, hq.2⟩
    obtain ⟨y, hy⟩ := Option.isSome_iff_exists.mp hq.1
    rw [hy, H.settle_some]

/-- A request that shows a token, and never uses the component. -/
theorem bearer_idle [DecidableEq I.Call] {α : Type} {token : String}
    (hroute : ∀ d : AppCall, d.IsRoute → E.Foreign d ∧ allows d) {endpoint : UserRow → AppAct α}
    (hendpoint : ∀ row, (endpoint row).Follows (Hosting.idle E A allows).protocol (appSystem pkg settings).Can
      (fun q _ => q = (Hosting.idle E A allows).protocol.init) (Hosting.idle E A allows).protocol.init) :
    (withSession do endpoint (← getCurrentUser pkg settings token)).Follows (Hosting.idle E A allows).protocol
      (appSystem pkg settings).Can (fun q _ => q = (Hosting.idle E A allows).protocol.init)
      (Hosting.idle E A allows).protocol.init := by
  let H := Hosting.idle E A allows
  have hquiet : ∀ d : AppCall, d.IsRoute →
      E.Foreign d ∧ allows d ∧ ∀ v : appCalls.Out d, H.automaton.next () d v = () :=
    fun d hd => ⟨(hroute d hd).1, (hroute d hd).2, fun _ => rfl⟩
  refine withSession_follows (fun q x hq c hc => ?_) (Prog.follows_bind.mpr ?_)
  · obtain rfl : q = H.protocol.init := hq
    have hc' : c.IsRoute := by rcases hc with rfl | rfl <;> trivial
    refine ⟨⟨fun c' hc'' => absurd hc'' ((hroute c hc').1 c'), fun _ => (hroute c hc').2⟩, fun v => ?_⟩
    rw [H.next_foreign (hroute c hc').1]
    rfl
  have hcurrent : (getCurrentUser pkg settings token).Follows H.protocol (appSystem pkg settings).Can
      (fun q _ => q = H.protocol.init) H.protocol.init :=
    Hosting.follows_quiet rfl hquiet (getCurrentUser_makes (fun _ hd => hd) token)
  refine hcurrent.mono fun q x hq => ?_
  subst hq
  cases x with
  | error e => rfl
  | ok row => exact hendpoint row

end Hosted

end TaskApi
