/-
# Logins, and what their tokens are good for

Runs of the whole application: registrations, logins and requests that show tokens at the same
time, with a limiter, a ticket store and task routes in between, and accounts that are
switched off and on. What an answer to a client can be traced back to, in the run: an answer
to a token to the login that made it, a login to the registration with its username and
password.

Key definitions: `AppState.Later`, `Registered`, `LoggedIn`, `LoginAnswers`, `Unforged`,
`BackedByLogin`, `LookedUp`, `currentUserAnswer`.
Key theorems: `rows_registered`, `login_outcome`, `login_registered`, `token_answers`,
`authorised_origin`, `bearer_origin`.
-/
import TaskApi.Authentication

namespace TaskApi

open Conc

variable {pkg : Packages} {settings : AppSettings pkg} {s₀ : AppState}

/-- An event of the application. -/
abbrev AppEvent (pkg : Packages) (settings : AppSettings pkg) := Event (appSystem pkg settings)

variable {gate : Config (appSystem pkg settings) → Prop} {c c' : Config (appSystem pkg settings)}
  {tr : List (AppEvent pkg settings)}

/-! ### Accounts stay -/

/-- The rows of one account, whether it is on or off. -/
def UserRow.SameAccount (row row' : UserRow) : Prop :=
  row'.id = row.id ∧ row'.username = row.username ∧ row'.hashedPassword = row.hashedPassword

theorem UserRow.SameAccount.trans {row row' row'' : UserRow} (h : row.SameAccount row')
    (h' : row'.SameAccount row'') : row.SameAccount row'' :=
  ⟨h'.1.trans h.1, h'.2.1.trans h.2.1, h'.2.2.trans h.2.2⟩

namespace AppState

variable {s s' : AppState} {x : AppCall} {v : appCalls.Out x}

/-- The row that a call of the application inserts. -/
def inserted : (x : AppCall) → appCalls.Out x → Option UserRow
  | .registration (.commit username hashedPassword isActive), .ok userId =>
    some ⟨⟨userId, isActive⟩, username, hashedPassword⟩
  | _, _ => none

/-- A step inserts its row into `users`, and changes nothing else there. -/
theorem step_users (h : step pkg x s v s') : s'.users.rows = s.users.rows ++ (inserted x v).toList := by
  cases x with
  | registration c =>
    obtain ⟨w, users, hs, rfl, rfl⟩ := h
    have hrows : users.rows = s.users.rows ++ (UsersTable.insertedRow c w).toList := UsersTable.step_rows hs
    have hinserted : inserted (.registration c) (w.mapError AppExn.registration) = UsersTable.insertedRow c w := by
      cases c <;> cases w <;> rfl
    rw [hinserted]
    exact hrows
  | limiter c =>
    obtain ⟨w, x, -, -, rfl⟩ := h
    exact (List.append_nil _).symm
  | tickets c =>
    obtain ⟨w, x, -, -, rfl⟩ := h
    exact (List.append_nil _).symm
  | tasks c =>
    obtain ⟨w, x, -, -, rfl⟩ := h
    exact (List.append_nil _).symm
  | _ =>
    obtain ⟨-, rfl⟩ := h
    exact (List.append_nil _).symm

theorem inserted_some {row : UserRow} (h : inserted x v = some row) :
    HEq v (Except.ok (ε := AppExn) row.id) ∧
      x = .registration (.commit row.username row.hashedPassword row.isActive) := by
  cases x with
  | registration c =>
    cases c with
    | commit username hashedPassword isActive =>
      cases v with
      | ok userId =>
        obtain rfl := Option.some.inj h
        exact ⟨HEq.rfl, rfl⟩
      | error e => cases h
    | _ => cases h
  | _ => cases h

end AppState

/-- What is so of any later moment: no account is lost, nor does its username or its hash
change, and the clock has not gone back. -/
structure AppState.Later (s s' : AppState) : Prop where
  now : s.now ≤ s'.now
  users : ∀ row ∈ s.users.rows, ∃ row' ∈ s'.users.rows, row.SameAccount row'

namespace AppState.Later

theorem refl (s : AppState) : s.Later s := ⟨le_rfl, fun row hrow => ⟨row, hrow, rfl, rfl, rfl⟩⟩

theorem trans {s s' s'' : AppState} (h : s.Later s') (h' : s'.Later s'') : s.Later s'' := by
  refine ⟨h.now.trans h'.now, fun row hrow => ?_⟩
  obtain ⟨row', hrow', hsame⟩ := h.users row hrow
  obtain ⟨row'', hrow'', hsame'⟩ := h'.users row' hrow'
  exact ⟨row'', hrow'', hsame.trans hsame'⟩

theorem of_step {s s' : AppState} {x : AppCall} {v : appCalls.Out x} (h : step pkg x s v s') : s.Later s' := by
  refine ⟨le_of_eq ?_, fun row hrow => ⟨row, ?_, rfl, rfl, rfl⟩⟩
  · cases x with
    | limiter c | registration c | tickets c | tasks c =>
      obtain ⟨w, x, -, -, rfl⟩ := h
      rfl
    | _ =>
      obtain ⟨-, rfl⟩ := h
      rfl
  · rw [step_users h]
    exact List.mem_append_left _ hrow

theorem of_elapses {s s' : AppState} (h : s.Elapses s') : s.Later s' := by
  refine ⟨h.now, fun row hrow => ?_⟩
  obtain ⟨isActive, hrows⟩ := h.users
  refine ⟨{ row with isActive := isActive row.id }, ?_, rfl, rfl, rfl⟩
  rw [hrows]
  exact List.mem_map_of_mem hrow

/-- Both moments know an account by one id. -/
theorem sameAccount {s s' : AppState} (h : s.Later s') {row row' : UserRow} (hrow : row ∈ s.users.rows)
    (hget : s'.users.get row.id = some row') : row.SameAccount row' := by
  obtain ⟨row'', hmem, hsame⟩ := h.users row hrow
  have hget' : s'.users.get row.id = some row'' := UsersTable.get_eq_some.mpr ⟨hmem, hsame.1⟩
  rw [hget] at hget'
  rwa [Option.some.inj hget']

end AppState.Later

theorem later (h : Run gate (.init s₀) c) : c.trace.Pairwise (fun e e' => e'.before.Later e.before) ∧
    ∀ e ∈ c.trace, e.before.Later c.state :=
  Run.pairwise (R := AppState.Later) AppState.Later.refl AppState.Later.trans AppState.Later.of_step
    AppState.Later.of_elapses h

/-! ### The calls behind a phase -/

section Calls

variable {t : ℕ} {r : AppRequest}

/-- The phase of a thread of the application. -/
abbrev accountPhase (t : ℕ) (tr : List (AppEvent pkg settings)) : AccountPhase := phase accountAutomaton t tr

theorem clock_made (h : Run gate (.init s₀) c) (hr : Requested t r c.trace) {now : ℚ}
    (hclock : (accountPhase t c.trace).clock = some now) :
    ∃ b u, Run gate (.init s₀) b ∧ c.trace = u ++ ⟨b.state, b.state, .call t .utcNow (.ok now)⟩ :: b.trace ∧
      b.state.now = now ∧ Requested t r b.trace ∧ r.Allows pkg settings (accountPhase t b.trace) .utcNow := by
  obtain ⟨b, u, x, v, s', hb, hrb, he, hnot, hnext, ha, hs⟩ := Run.phase_made (appDiscipline pkg settings) h hr
    (P := fun q : AccountPhase => q.clock = some now) (by rintro ⟨⟩) hclock
  cases x with
  | utcNow =>
    obtain ⟨rfl, rfl⟩ := hs
    have hnone : (accountPhase t b.trace).clock = none := by
      cases r with
      | login attempt username password => exact ha.1
      | register userCreate => exact ha.elim
      | websocket ticket => exact ha.elim
      | _ => exact congrArg AccountPhase.clock ha
    have hnext : (accountPhase t b.trace).clock.or (some b.state.now) = some now := hnext
    rw [hnone, Option.none_or] at hnext
    cases hnext
    exact ⟨b, u, hb, he, rfl, hrb, ha⟩
  | scalarUser username => cases v <;> exact absurd hnext hnot
  | getUser userId => cases v <;> exact absurd hnext hnot
  | verifyPassword plainPassword hashedPassword => cases v <;> exact absurd hnext hnot
  | _ => exact absurd hnext hnot

theorem selected_made (h : Run gate (.init s₀) c) {attempt : LoginAttempt} {username password : String}
    (hr : Requested t (AppRequest.login attempt username password) c.trace) {selected : Option UserRow}
    (hselected : (accountPhase t c.trace).selected = some selected) :
    ∃ b u, Run gate (.init s₀) b ∧
      c.trace = u ++ ⟨b.state, b.state, .call t (.scalarUser username) (.ok selected)⟩ :: b.trace ∧
      b.state.users.select username = selected := by
  obtain ⟨b, u, x, v, s', hb, -, he, hnot, hnext, ha, hs⟩ := Run.phase_made (appDiscipline pkg settings) h hr
    (P := fun q : AccountPhase => q.selected = some selected) (by rintro ⟨⟩) hselected
  cases x with
  | scalarUser name =>
    obtain ⟨rfl, hq⟩ := ha
    obtain ⟨rfl, rfl⟩ := hs
    have hnext : (accountPhase t b.trace).selected.or (some (b.state.users.select name)) = some selected := hnext
    rw [show accountPhase t b.trace = {} from hq, Option.none_or] at hnext
    cases hnext
    exact ⟨b, u, hb, he, rfl⟩
  | utcNow => cases v <;> exact absurd hnext hnot
  | getUser userId => cases v <;> exact absurd hnext hnot
  | verifyPassword plainPassword hashedPassword => cases v <;> exact absurd hnext hnot
  | _ => exact absurd hnext hnot

/-- The hash a login verifies its password against. -/
def Packages.hashFor (pkg : Packages) : Option UserRow → String
  | some row => row.hashedPassword
  | none => pkg.dummyPasswordHash

theorem verified_made (h : Run gate (.init s₀) c) {attempt : LoginAttempt} {username password : String}
    (hr : Requested t (AppRequest.login attempt username password) c.trace) {verified : Except AppExn Bool}
    (hverified : (accountPhase t c.trace).verified = some verified) :
    ∃ b u selected, Run gate (.init s₀) b ∧ Requested t (AppRequest.login attempt username password) b.trace ∧
      c.trace = u ++ ⟨b.state, b.state, .call t (.verifyPassword password (pkg.hashFor selected)) verified⟩ ::
        b.trace ∧
      (accountPhase t b.trace).selected = some selected ∧
      pkg.passwordHash.Verifies password (pkg.hashFor selected) verified := by
  obtain ⟨b, u, x, v, s', hb, hrb, he, hnot, hnext, ha, hs⟩ := Run.phase_made (appDiscipline pkg settings) h hr
    (P := fun q : AccountPhase => q.verified = some verified) (by rintro ⟨⟩) hverified
  cases x with
  | verifyPassword plainPassword hashedPassword =>
    obtain ⟨hverifies, rfl⟩ := hs
    obtain ⟨rfl, hq⟩ := ha
    have hnext : (accountPhase t b.trace).verified.or (some v) = some verified := hnext
    obtain ⟨selected, hselected, hnone, rfl⟩ : ∃ selected, (accountPhase t b.trace).selected = some selected ∧
        (accountPhase t b.trace).verified = none ∧ hashedPassword = pkg.hashFor selected := by
      rcases hq with ⟨hq, rfl⟩ | ⟨row, hq, rfl⟩
      · exact ⟨none, congrArg AccountPhase.selected hq, congrArg AccountPhase.verified hq, rfl⟩
      · exact ⟨some row, congrArg AccountPhase.selected hq, congrArg AccountPhase.verified hq, rfl⟩
    rw [hnone, Option.none_or] at hnext
    cases hnext
    exact ⟨b, u, selected, hb, hrb, he, hselected, hverifies⟩
  | scalarUser name => cases v <;> exact absurd hnext hnot
  | utcNow => cases v <;> exact absurd hnext hnot
  | getUser userId => cases v <;> exact absurd hnext hnot
  | _ => exact absurd hnext hnot

/-- Whom a token was looked up for, and when. -/
theorem user_made (h : Run gate (.init s₀) c) {token : String} (hr : Requested t r c.trace)
    (htoken : r.bearer = some token) {user : Option UserRow} (huser : (accountPhase t c.trace).user = some user) :
    ∃ b u userId now, Run gate (.init s₀) b ∧ Requested t r b.trace ∧
      c.trace = u ++ ⟨b.state, b.state, .call t (.getUser userId) (.ok user)⟩ :: b.trace ∧
      b.state.users.get userId = user ∧ (accountPhase t b.trace).clock = some now ∧
      Accepts pkg settings token now userId := by
  obtain ⟨b, u, x, v, s', hb, hrb, he, hnot, hnext, ha, hs⟩ := Run.phase_made (appDiscipline pkg settings) h hr
    (P := fun q : AccountPhase => q.user = some user) (by rintro ⟨⟩) huser
  cases x with
  | getUser userId =>
    obtain ⟨rfl, rfl⟩ := hs
    have ha : bearerAllows pkg settings token (accountPhase t b.trace) (.getUser userId) := by
      cases r <;> cases htoken <;> exact ha
    obtain ⟨now, hq, haccepts⟩ := ha
    have hnext : (accountPhase t b.trace).user.or (some (b.state.users.get userId)) = some user := hnext
    rw [hq, Option.none_or] at hnext
    cases hnext
    exact ⟨b, u, userId, now, hb, hrb, he, rfl, congrArg AccountPhase.clock hq, haccepts⟩
  | scalarUser name => cases v <;> exact absurd hnext hnot
  | utcNow => cases v <;> exact absurd hnext hnot
  | verifyPassword plainPassword hashedPassword => cases v <;> exact absurd hnext hnot
  | _ => exact absurd hnext hnot

end Calls

/-! ### Registered accounts -/

def RegistrationCall.Commits : RegistrationCall → Prop
  | .commit .. => True
  | _ => False

/-- A registration inserts its username with a hash of its password. -/
def UserCreate.Commits (H : PasswordHash) (userCreate : UserCreate) : RegistrationCall → Prop
  | .commit username hashed isActive =>
    username = userCreate.username ∧ hashed ∈ H.hashes userCreate.password ∧ isActive = true
  | _ => True

abbrev commitProtocol (H : PasswordHash) (userCreate : UserCreate) : Protocol registrationCalls where
  toAutomaton := ⟨Unit, (), fun _ _ _ => ()⟩
  allows _ c := userCreate.Commits H c

section Commits

variable {H : PasswordHash} {userCreate : UserCreate} {α : Type}

/-- All other calls are free. -/
theorem follows_commits {p : RegistrationAct α} (hp : p.Makes fun c : RegistrationCall => ¬ c.Commits)
    {Q : Unit → Except RegistrationExn α → Prop} (hQ : ∀ q x, Q q x) :
    p.Follows (commitProtocol H userCreate) (registrationSystem H).Can Q () := by
  refine (hp.keeps fun q c hc => ⟨?_, fun _ => rfl⟩).mono fun q x _ => hQ q x
  cases c with
  | commit username hashed isActive => exact absurd trivial hc
  | _ => trivial

theorem registerUser_commits : (getSession (registerUser userCreate)).Follows (commitProtocol H userCreate)
    (registrationSystem H).Can (fun _ _ => True) () := by
  have hquiet : ∀ c : RegistrationCall, ¬ c.Commits →
      c.perform.Makes (fun c : RegistrationCall => ¬ c.Commits) := fun c hc =>
    Prog.makes_perform (I := registrationCalls) hc
  have hclose : ∀ x : Except RegistrationExn UserResponse, (RegistrationCall.close.perform).Follows
      (commitProtocol H userCreate) (registrationSystem H).Can
      (Prog.ends (fun _ _ => True) fun _ _ => True) () := fun x =>
    follows_commits (hquiet _ id) fun q x => by cases x <;> trivial
  suffices hregister : (registerUser userCreate).Follows (commitProtocol H userCreate) (registrationSystem H).Can
      (fun _ _ => True) () by
    refine Prog.follows_tryFinally.mpr (Prog.follows_tryCatch.mpr (hregister.mono fun q x _ => ?_))
    cases x with
    | ok a => exact hclose (.ok a)
    | error error =>
      refine Prog.follows_bind.mpr (follows_commits (hquiet _ id) fun q x => ?_)
      cases x with
      | ok _ => exact hclose (.error error)
      | error e => exact hclose (.error e)
  unfold registerUser
  refine Prog.follows_bind.mpr (Prog.follows_perform.mpr ⟨trivial, fun v _ => ?_⟩)
  rcases v with e | _ | row
  · trivial
  · refine Prog.follows_bind.mpr (Prog.follows_perform.mpr ⟨trivial, fun v hv => ?_⟩)
    obtain ⟨users, users', ⟨hashed, hmem, rfl⟩, -⟩ := hv
    refine Prog.follows_bind.mpr (Prog.follows_tryCatch.mpr
      (Prog.follows_perform.mpr ⟨⟨rfl, hmem, rfl⟩, fun v _ => ?_⟩))
    have hrest : ∀ userId, ((do
        let userRecord ← (RegistrationCall.refresh userId).perform
        pure userRecord.response) : RegistrationAct UserResponse).Follows (commitProtocol H userCreate)
          (registrationSystem H).Can (fun _ _ => True) () := fun userId =>
      follows_commits (Prog.Makes.bind (fun _ => Prog.makes_ret _) (hquiet _ id)) fun _ _ => trivial
    rcases v with e | userId
    · refine follows_commits ?_ fun q x => ?_
      · cases e with
        | integrityError => exact Prog.Makes.bind (fun _ => Prog.makes_raise _) (hquiet _ id)
        | _ => exact Prog.makes_raise _
      · cases x with
        | ok userId => exact hrest userId
        | error e => trivial
    · exact hrest userId
  · trivial

end Commits

/-- What the calls of a request may insert. -/
def AppRequest.Commits (pkg : Packages) (r : AppRequest) : AppCall → Prop
  | .registration c => ∃ userCreate, r = .register userCreate ∧ userCreate.Commits pkg.passwordHash c
  | _ => True

abbrev AppRequest.commitProtocol (pkg : Packages) (r : AppRequest) : Protocol appCalls where
  toAutomaton := ⟨Unit, (), fun _ _ _ => ()⟩
  allows _ c := r.Commits pkg c

theorem appRequest_commits (r : AppRequest) : (r.body pkg settings).Follows (r.commitProtocol pkg)
    (appSystem pkg settings).Can (fun _ _ => True) () := by
  by_cases hr : ∃ userCreate, r = .register userCreate
  · obtain ⟨userCreate, rfl⟩ := hr
    have hallows : ∀ (q : Unit) c, userCreate.Commits pkg.passwordHash c →
        ((AppRequest.register userCreate).commitProtocol pkg).allows q (registrationEmbedding.call c) :=
      fun q c hc => ⟨userCreate, rfl, hc⟩
    have hlift : ((getSession (registerUser userCreate)).lift registrationEmbedding).Follows
        ((AppRequest.register userCreate).commitProtocol pkg) (appSystem pkg settings).Can (fun _ _ => True) () :=
      @Prog.Follows.lift _ _ registrationEmbedding _ (commitProtocol pkg.passwordHash userCreate)
        ((AppRequest.register userCreate).commitProtocol pkg) _ _ id hallows (fun q c v w _ => rfl)
        (fun c v hv => AppState.can_registration hv) _ _ (fun _ _ _ => trivial) _ () registerUser_commits
    refine Prog.follows_bind.mpr (hlift.mono fun q x _ => ?_)
    cases x <;> trivial
  · have hallows : ∀ q c, r.Allows pkg settings q c → ∀ q', (r.commitProtocol pkg).allows q' c := by
      intro q c hc q'
      cases c with
      | registration c =>
        cases r with
        | register userCreate => exact absurd ⟨userCreate, rfl⟩ hr
        | _ => exact hc.elim
      | _ => trivial
    exact (appRequest_follows r).weaken hallows ()

/-- The discipline of commits. -/
def commitDiscipline (pkg : Packages) (settings : AppSettings pkg) : Discipline (appSystem pkg settings) where
  protocol r := r.commitProtocol pkg
  final _ _ _ := True
  follows r := appRequest_commits r

/-- The account was made by the registration, with its username and a hash of its password. -/
def Registered (tr : List (AppEvent pkg settings)) (userCreate : UserCreate) (row : UserRow) : Prop :=
  row.username = userCreate.username ∧ row.hashedPassword ∈ pkg.passwordHash.hashes userCreate.password ∧
  ∃ t, Requested t (AppRequest.register userCreate) tr ∧ ∃ e ∈ tr,
    e.act = .call t (.registration (.commit userCreate.username row.hashedPassword true)) (.ok row.id)

theorem Registered.cons {userCreate : UserCreate} {row : UserRow} (h : Registered tr userCreate row)
    (e : AppEvent pkg settings) : Registered (e :: tr) userCreate row := by
  obtain ⟨hname, hhash, t, hr, e', he', hact⟩ := h
  exact ⟨hname, hhash, t, hr.cons e, e', List.mem_cons_of_mem _ he', hact⟩

theorem Registered.of_sameAccount {userCreate : UserCreate} {row row' : UserRow} (h : Registered tr userCreate row)
    (hsame : row.SameAccount row') : Registered tr userCreate row' := by
  obtain ⟨hid, hname, hhash⟩ := hsame
  obtain ⟨hname', hhash', t, hr, e, he, hact⟩ := h
  refine ⟨hname.trans hname', hhash ▸ hhash', t, hr, e, he, ?_⟩
  rw [hhash, hid]
  exact hact

/-- Where an account is from: it was there at first, or a registration made it. -/
def Origin (s₀ : AppState) (tr : List (AppEvent pkg settings)) (row : UserRow) : Prop :=
  (∃ row₀ ∈ s₀.users.rows, row₀.SameAccount row) ∨ ∃ userCreate, Registered tr userCreate row

theorem rows_registered (h : Run gate (.init s₀) c) : ∀ row ∈ c.state.users.rows, Origin s₀ c.trace row := by
  have hkept : ∀ {e : AppEvent pkg settings} {tr : List (AppEvent pkg settings)} {row : UserRow},
      Origin s₀ tr row → Origin s₀ (e :: tr) row := fun ho =>
    ho.imp_right fun ⟨userCreate, hregistered⟩ => ⟨userCreate, hregistered.cons _⟩
  refine @Run.invariant _ _ _ s₀ (commitDiscipline pkg settings)
    (fun s tr => ∀ row ∈ s.users.rows, Origin s₀ tr row) ?_ ?_ ?_ ?_ c h
  · exact fun row hrow => .inl ⟨row, hrow, rfl, rfl, rfl⟩
  · exact fun b hb ih t r hn row hrow => hkept (ih row hrow)
  · intro b hb ih t r x v s' hrun hr ha hs row hrow
    rw [AppState.step_users hs] at hrow
    rcases List.mem_append.mp hrow with hrow | hrow
    · exact hkept (ih row hrow)
    · obtain ⟨hv, rfl⟩ := AppState.inserted_some (Option.mem_toList.mp hrow)
      obtain ⟨userCreate, rfl, hname, hhash, hactive⟩ := ha
      cases hv
      refine .inr ⟨userCreate, hname, hhash, t, hr.cons _, _, List.mem_cons_self, ?_⟩
      rw [hname, hactive]
  · intro b hb ih s' he row hrow
    obtain ⟨isActive, hrows⟩ := he.users
    rw [hrows] at hrow
    obtain ⟨row', hrow', rfl⟩ := List.mem_map.mp hrow
    have hsame : row'.SameAccount { row' with isActive := isActive row'.id } := ⟨rfl, rfl, rfl⟩
    rcases ih row' hrow' with ⟨row₀, hrow₀, hsame₀⟩ | ⟨userCreate, hregistered⟩
    · exact .inl ⟨row₀, hrow₀, hsame₀.trans hsame⟩
    · exact .inr ⟨userCreate, hregistered.of_sameAccount hsame⟩

/-! ### Logins -/

/-- How often a thread has verified a password. -/
def verifications (t : ℕ) : List (AppEvent pkg settings) → ℕ
  | [] => 0
  | ⟨_, _, .call t' (.verifyPassword ..) _⟩ :: tr => (if t' = t then 1 else 0) + verifications t tr
  | _ :: tr => verifications t tr

theorem verifications_eq (t : ℕ) : ∀ tr : List (AppEvent pkg settings),
    (accountPhase t tr).verifications = verifications t tr
  | [] => rfl
  | ⟨s, s', .start t' r⟩ :: tr => verifications_eq t tr
  | ⟨s, s', .call t' x v⟩ :: tr => by
    have ih : (phase accountAutomaton t tr).verifications = verifications t tr := verifications_eq t tr
    by_cases ht : t' = t
    · subst ht
      rw [accountPhase, phase_call_self]
      cases x with
      | verifyPassword plainPassword hashedPassword =>
        have hnext : ∀ q : AccountPhase, (q.next (.verifyPassword plainPassword hashedPassword) v).verifications =
            q.verifications + 1 := fun q => by cases v <;> rfl
        simp only [verifications, if_true, hnext]
        omega
      | scalarUser username => cases v <;> exact ih
      | getUser userId => cases v <;> exact ih
      | utcNow => cases v <;> exact ih
      | _ => exact ih
    · rw [accountPhase, phase_call_ne accountAutomaton ht]
      cases x with
      | verifyPassword plainPassword hashedPassword =>
        simp only [verifications, if_neg ht]
        omega
      | _ => exact ih

/-- The account that the login found, if any, has the password and is on. -/
def PasswordHash.Right (H : PasswordHash) (password : String) (selected : Option UserRow) : Prop :=
  ∃ row, selected = some row ∧ row.hashedPassword ∈ H.hashes password ∧ row.isActive = true

/-- What a login did that made a token for the account at the given time. -/
structure LoggedIn (tr : List (AppEvent pkg settings)) (t : ℕ) (username password : String) (row : UserRow)
    (issuedAt : ℚ) : Prop where
  selected : ∃ e ∈ tr, e.act = .call t (.scalarUser username) (.ok (some row)) ∧
    e.before.users.select username = some row
  verified : ∃ e ∈ tr, e.act = .call t (.verifyPassword password row.hashedPassword) (.ok true)
  right : pkg.passwordHash.Right password (some row)
  issued : ∃ e ∈ tr, e.act = .call t .utcNow (.ok issuedAt) ∧ e.before.now = issuedAt

section Login

variable {t : ℕ} {attempt : LoginAttempt} {username password : String}

theorem PasswordHash.Verifies.of_ok {H : PasswordHash} {hashed : String} {verified : Bool}
    (h : H.Verifies password hashed (.ok verified)) :
    (verified = true ↔ hashed ∈ H.hashes password) ∧ ∃ other, hashed ∈ H.hashes other := by
  rcases h with ⟨hmem, hok⟩ | ⟨hmem, hother, hok⟩ | ⟨-, hok⟩
  · cases hok
    exact ⟨iff_of_true rfl hmem, password, hmem⟩
  · cases hok
    exact ⟨iff_of_false Bool.false_ne_true hmem, hother⟩
  · cases hok

theorem PasswordHash.Verifies.of_error {H : PasswordHash} {hashed : String} {e : AppExn}
    (h : H.Verifies password hashed (.error e)) : ∀ other, hashed ∉ H.hashes other := by
  rcases h with ⟨-, hok⟩ | ⟨-, -, hok⟩ | ⟨hmem, -⟩
  · cases hok
  · cases hok
  · exact hmem

/-- The select a login has made, and how the verification of its password has ended. -/
theorem verified_selected (h : Run gate (.init s₀) c)
    (hr : Requested t (AppRequest.login attempt username password) c.trace) {verified : Except AppExn Bool}
    (hverified : (accountPhase t c.trace).verified = some verified) :
    ∃ u e tr, c.trace = u ++ e :: tr ∧
      e.act = .call t (.scalarUser username) (.ok (e.before.users.select username)) ∧
      (∃ b, Run gate (.init s₀) b ∧ b.state = e.before ∧ b.trace = tr) ∧
      (accountPhase t c.trace).selected = some (e.before.users.select username) ∧
      pkg.passwordHash.Verifies password (pkg.hashFor (e.before.users.select username)) verified ∧
      ∃ e' ∈ c.trace, e'.act = .call t
        (.verifyPassword password (pkg.hashFor (e.before.users.select username))) verified := by
  obtain ⟨b, u, selected, hb, hrb, he, hselected, hverifies⟩ := verified_made h hr hverified
  obtain ⟨b', u', hb', he', rfl⟩ := selected_made hb hrb hselected
  let e : AppEvent pkg settings := ⟨b'.state, b'.state, .call t (.scalarUser username)
    (.ok (b'.state.users.select username))⟩
  let e' : AppEvent pkg settings := ⟨b.state, b.state, .call t
    (.verifyPassword password (pkg.hashFor (b'.state.users.select username))) verified⟩
  have htrace : c.trace = (u ++ e' :: u') ++ e :: b'.trace := by
    rw [he, he', List.append_assoc, List.cons_append]
  have hkept : (accountPhase t c.trace).selected = some (b'.state.users.select username) := by
    rw [accountPhase, he, ← List.singleton_append, ← List.append_assoc]
    exact phase_stable (A := accountAutomaton) (P := fun q : AccountPhase => q.selected = _)
      (fun q c v => AccountPhase.next_selected c v) hselected _
  exact ⟨_, e, b'.trace, htrace, rfl, ⟨b', hb', rfl, rfl⟩, hkept, hverifies, e',
    he ▸ List.mem_append_right _ List.mem_cons_self, rfl⟩

/-- The answer to a login that selected `selected`, and made a token at `issuedAt` if any. -/
def LoginAnswers (pkg : Packages) (settings : AppSettings pkg) (password : String) (selected : Option UserRow)
    (issuedAt : Option ℚ) (x : Except AppExn AppAnswer) : Prop :=
  (∃ row now, selected = some row ∧ issuedAt = some now ∧ pkg.passwordHash.Right password selected ∧
    x = .ok (.token ⟨accessToken pkg settings row.id now, "bearer"⟩)) ∨
  (¬ pkg.passwordHash.Right password selected ∧ (∃ other, pkg.hashFor selected ∈ pkg.passwordHash.hashes other) ∧
    x = .error incorrectCredentials) ∨
  ((∀ other, pkg.hashFor selected ∉ pkg.passwordHash.hashes other) ∧ x = .error .unknownHashError)

theorem login_answered (h : Run gate (.init s₀) c)
    (hr : Requested t (AppRequest.login attempt username password) c.trace) {x : Except AppExn AppAnswer}
    (hx : c.result t = some x) :
    (∃ e, x = .error (.limiter e) ∧ (accountPhase t c.trace).verifications = 0) ∨
    (accountPhase t c.trace).verifications = 1 ∧ ∃ u e tr, c.trace = u ++ e :: tr ∧
      e.act = .call t (.scalarUser username) (.ok (e.before.users.select username)) ∧
      (∃ b, Run gate (.init s₀) b ∧ b.state = e.before ∧ b.trace = tr) ∧
      (∃ e' ∈ c.trace, ∃ verified, e'.act = .call t
        (.verifyPassword password (pkg.hashFor (e.before.users.select username))) verified) ∧
      ∃ issuedAt, (∀ now, issuedAt = some now → ∃ e' ∈ c.trace, e'.act = .call t .utcNow (.ok now) ∧
          e'.before.now = now) ∧
        LoginAnswers pkg settings password (e.before.users.select username) issuedAt x := by
  have hends : LoginEnds pkg settings (accountPhase t c.trace) x := Run.final (appDiscipline pkg settings) h hr hx
  rcases hends with ⟨e, rfl, hq⟩ | ⟨hcount, row, now, ⟨hselected, hverified, hactive⟩, hclock, rfl⟩ |
    ⟨hcount, ⟨verified, hverified⟩, hnot, rfl⟩ | ⟨hcount, hverified, rfl⟩
  · exact .inl ⟨e, rfl, congrArg AccountPhase.verifications hq⟩
  all_goals
    refine .inr ⟨hcount, ?_⟩
    obtain ⟨u, e, tr, he, hact, hb, hselected', hverifies, e', he', hact'⟩ := verified_selected h hr hverified
    refine ⟨u, e, tr, he, hact, hb, ⟨e', he', _, hact'⟩, ?_⟩
  · obtain ⟨b, u', hb, hbtrace, hnow, -⟩ := clock_made h hr hclock
    have hselect : e.before.users.select username = some row := by
      rw [hselected] at hselected'
      exact (Option.some.inj hselected').symm
    rw [hselect] at hverifies ⊢
    have hright : pkg.passwordHash.Right password (some row) := ⟨row, rfl, hverifies.of_ok.1.mp rfl, hactive⟩
    refine ⟨some now, fun now' heq => ?_, .inl ⟨row, now, rfl, rfl, hright, rfl⟩⟩
    cases heq
    exact ⟨_, hbtrace ▸ List.mem_append_right _ List.mem_cons_self, rfl, hnow⟩
  · refine ⟨none, fun now heq => (by cases heq), .inr (.inl ⟨?_, hverifies.of_ok.2, rfl⟩)⟩
    rintro ⟨row, hselect, hmem, hactive⟩
    rw [hselect] at hverifies hselected'
    refine hnot row ⟨hselected', ?_, hactive⟩
    rw [hverified, hverifies.of_ok.1.mpr hmem]
  · exact ⟨none, fun now heq => (by cases heq), .inr (.inr ⟨hverifies.of_error, rfl⟩)⟩

/-- **What a login answers.** A login that the limiters let through looks its username up
and verifies its password exactly once, against a stored hash or the dummy one. It is answered
with a token of the account it found, if the password is right and the account is on, and
otherwise with the same error, whatever was wrong. -/
theorem login_outcome (h : Interleaved (.init s₀) c)
    (hr : Requested t (AppRequest.login attempt username password) c.trace) {x : Except AppExn AppAnswer}
    (hx : c.result t = some x) :
    (∃ e, x = .error (.limiter e) ∧ verifications t c.trace = 0) ∨
    verifications t c.trace = 1 ∧ ∃ e ∈ c.trace,
      e.act = .call t (.scalarUser username) (.ok (e.before.users.select username)) ∧
      (∃ e' ∈ c.trace, ∃ verified, e'.act = .call t
        (.verifyPassword password (pkg.hashFor (e.before.users.select username))) verified) ∧
      ∃ issuedAt, (∀ now, issuedAt = some now → ∃ e' ∈ c.trace, e'.act = .call t .utcNow (.ok now) ∧
          e'.before.now = now) ∧
        LoginAnswers pkg settings password (e.before.users.select username) issuedAt x := by
  rw [← verifications_eq]
  rcases login_answered h hr hx with hlimited | ⟨hcount, u, e, tr, he, hact, -, hverified, hanswers⟩
  · exact .inl hlimited
  · exact .inr ⟨hcount, e, he ▸ List.mem_append_right _ List.mem_cons_self, hact, hverified, hanswers⟩

theorem login_outcome_alice : verifications 1 (appRun registerAndLogin).trace = 1 ∧
    ∃ e ∈ (appRun registerAndLogin).trace,
      e.act = .call 1 (.scalarUser "alice") (.ok (e.before.users.select "alice")) := by
  have h := appRun_interleaved registerAndLogin
  have hx : (appRun registerAndLogin).result 1 = some (.ok (.token ⟨"0:1800:1", "bearer"⟩)) := by decide +kernel
  rcases login_outcome h ((Run.pool_trace h).1 1 _ _ rfl) hx with ⟨e, heq, -⟩ | ⟨hcount, e, he, hact, -⟩
  · cases heq
  · exact ⟨hcount, e, he, hact⟩

theorem UsersTable.select_row {users : UsersTable} {row : UserRow} (h : users.select username = some row) :
    row ∈ users.rows ∧ row.username = username := by
  have hname := List.find?_some h
  exact ⟨List.mem_of_find?_eq_some h, of_decide_eq_true hname⟩

/-- **Only the password an account was registered with.** A login for a username that was not
there at first, once the limiters let it through, is answered with a token exactly if a
registration made the account with this password before the login looked it up, and the account
was on then. Otherwise it is answered as any failed login. -/
theorem login_registered (hdistinct : ∀ p p' hashed, hashed ∈ pkg.passwordHash.hashes p →
      hashed ∈ pkg.passwordHash.hashes p' → p = p')
    (hnew : username ∉ s₀.users.usernames) (h : Interleaved (.init s₀) c)
    (hr : Requested t (AppRequest.login attempt username password) c.trace) {x : Except AppExn AppAnswer}
    (hx : c.result t = some x) (hlet : ∀ e, x ≠ .error (.limiter e)) :
    ∃ u e tr, c.trace = u ++ e :: tr ∧
      e.act = .call t (.scalarUser username) (.ok (e.before.users.select username)) ∧
      ((∃ response, x = .ok (.token response)) ↔ ∃ userCreate row, e.before.users.select username = some row ∧
        row.isActive = true ∧ Registered tr userCreate row ∧ userCreate.password = password) ∧
      ((∀ response, x ≠ .ok (.token response)) → x = .error incorrectCredentials) := by
  rcases login_answered h hr hx with ⟨e, rfl, -⟩ |
    ⟨-, u, e, tr, he, hact, ⟨b, hb, hstate, rfl⟩, -, issuedAt, -, hanswers⟩
  · exact absurd rfl (hlet e)
  refine ⟨u, e, b.trace, he, hact, ?_⟩
  -- the account that was found is from a registration
  have hregistered : ∀ row, e.before.users.select username = some row →
      ∃ userCreate, Registered b.trace userCreate row := by
    intro row hselect
    obtain ⟨hmem, hname⟩ := UsersTable.select_row hselect
    rcases rows_registered hb row (hstate ▸ hmem) with ⟨row₀, hrow₀, hsame⟩ | hregistered
    · exact absurd (List.mem_map.mpr ⟨row₀, hrow₀, hsame.2.1.symm.trans hname⟩) hnew
    · exact hregistered
  have hright : pkg.passwordHash.Right password (e.before.users.select username) ↔
      ∃ userCreate row, e.before.users.select username = some row ∧ row.isActive = true ∧
        Registered b.trace userCreate row ∧ userCreate.password = password := by
    constructor
    · rintro ⟨row, hselect, hmem, hactive⟩
      obtain ⟨userCreate, hreg⟩ := hregistered row hselect
      exact ⟨userCreate, row, hselect, hactive, hreg, hdistinct _ _ _ hreg.2.1 hmem⟩
    · rintro ⟨userCreate, row, hselect, hactive, hreg, rfl⟩
      exact ⟨row, hselect, hreg.2.1, hactive⟩
  -- and a hash of its password is a hash
  have hhash : ∃ other, pkg.hashFor (e.before.users.select username) ∈ pkg.passwordHash.hashes other := by
    cases hselect : e.before.users.select username with
    | none => exact ⟨_, pkg.dummy_mem⟩
    | some row =>
      obtain ⟨userCreate, hreg⟩ := hregistered row hselect
      exact ⟨_, hreg.2.1⟩
  rw [← hright]
  rcases hanswers with ⟨row, now, -, -, hyes, rfl⟩ | ⟨hno, -, rfl⟩ | ⟨hnone, rfl⟩
  · exact ⟨iff_of_true ⟨_, rfl⟩ hyes, fun hnot => absurd rfl (hnot _)⟩
  · exact ⟨iff_of_false (fun ⟨response, heq⟩ => by cases heq) hno, fun _ => rfl⟩
  · obtain ⟨other, hother⟩ := hhash
    exact absurd hother (hnone other)

theorem example_distinct (p p' hashed : String) (h : hashed ∈ examplePackages.passwordHash.hashes p)
    (h' : hashed ∈ examplePackages.passwordHash.hashes p') : p = p' :=
  markedHash_injective ((show hashed = markedHash p from h).symm.trans h')

theorem login_registered_alice : ∃ u e tr, (appRun registerAndLogin).trace = u ++ e :: tr ∧
    ∃ userCreate row, e.before.users.select "alice" = some row ∧ row.isActive = true ∧
      Registered tr userCreate row ∧ userCreate.password = "secure-password" := by
  have h := appRun_interleaved registerAndLogin
  have hx : (appRun registerAndLogin).result 1 = some (.ok (.token ⟨"0:1800:1", "bearer"⟩)) := by decide +kernel
  obtain ⟨u, e, tr, he, -, htoken, -⟩ := login_registered example_distinct
    (show "alice" ∉ AppState.new.users.usernames by decide) h ((Run.pool_trace h).1 1 _ _ rfl) hx fun e heq => by cases heq
  exact ⟨u, e, tr, he, htoken.mp ⟨_, rfl⟩⟩

/-- What a login did that made a token. -/
theorem signed_login (h : Run gate (.init s₀) c) (hr : Requested t (AppRequest.login attempt username password) c.trace)
    {row : UserRow} (hselected : (accountPhase t c.trace).selected = some (some row)) {issuedAt : ℚ}
    (hclock : (accountPhase t c.trace).clock = some issuedAt) : LoggedIn c.trace t username password row issuedAt := by
  obtain ⟨b, u, hb, he, hnow, hrb, -, row', hrow', hverified, hactive⟩ := clock_made h hr hclock
  -- the token was made for the row that was found
  have hkept : (accountPhase t c.trace).selected = some (some row') := by
    rw [accountPhase, he, ← List.singleton_append, ← List.append_assoc]
    exact phase_stable (A := accountAutomaton) (P := fun q : AccountPhase => q.selected = _)
      (fun q c v => AccountPhase.next_selected c v) hrow' _
  rw [hselected] at hkept
  cases hkept
  obtain ⟨u', e, tr, he', hact, -, hselect, hverifies, e', hmem', hact'⟩ := verified_selected hb hrb hverified
  have hselect : e.before.users.select username = some row := by
    rw [hrow'] at hselect
    exact (Option.some.inj hselect).symm
  rw [hselect] at hact hact' hverifies
  have hsub : ∀ e ∈ b.trace, e ∈ c.trace := fun e hmem => he ▸ List.mem_append_right _ (List.mem_cons_of_mem _ hmem)
  exact {
    selected := ⟨e, hsub e (he' ▸ List.mem_append_right _ List.mem_cons_self), hact, hselect⟩
    verified := ⟨e', hsub e' hmem', hact'⟩
    right := ⟨row, rfl, hverifies.of_ok.1.mp rfl, hactive⟩
    issued := ⟨_, he ▸ List.mem_append_right _ List.mem_cons_self, rfl, hnow⟩ }

end Login

/-! ### Requests with a token -/

section Bearer

variable {t : ℕ} {r : AppRequest} {token : String}

theorem bearer_ends (h : Run gate (.init s₀) c) (hr : Requested t r c.trace) (htoken : r.bearer = some token)
    {x : Except AppExn AppAnswer} (hx : c.result t = some x) :
    BearerEnds pkg settings token (accountPhase t c.trace) x := by
  have hends : r.Ends pkg settings (accountPhase t c.trace) x := Run.final (appDiscipline pkg settings) h hr hx
  cases r with
  | me token' =>
    cases htoken
    exact hends.1
  | websocketTicket token' =>
    cases htoken
    exact hends
  | task token' operation =>
    cases htoken
    exact hends
  | _ => cases htoken

/-- Whom the token of a request was looked up for, by the clock it read. -/
theorem bearer_lookup (h : Run gate (.init s₀) c) (hr : Requested t r c.trace) (htoken : r.bearer = some token)
    {user : Option UserRow} (huser : (accountPhase t c.trace).user = some user) :
    ∃ e ∈ c.trace, ∃ userId now, e.act = .call t (.getUser userId) (.ok user) ∧ e.before.users.get userId = user ∧
      (accountPhase t c.trace).clock = some now ∧ Accepts pkg settings token now userId := by
  obtain ⟨b, u, userId, now, hb, hrb, he, hget, hclock, haccepts⟩ := user_made h hr htoken huser
  have hkept : (accountPhase t c.trace).clock = some now := by
    rw [accountPhase, he, ← List.singleton_append, ← List.append_assoc]
    exact phase_stable (A := accountAutomaton) (P := fun q : AccountPhase => q.clock = some now)
      (fun q c v => AccountPhase.next_clock c v) hclock _
  exact ⟨_, he ▸ List.mem_append_right _ List.mem_cons_self, userId, now, rfl, hget, hkept, haccepts⟩

/-- What `GET /auth/me` answers for what `session.get` returned. -/
def currentUserAnswer : Option UserRow → Except AppExn AppAnswer
  | some row => if row.isActive then .ok (.user row.response) else .error credentialsException
  | none => .error credentialsException

/-- **How long a token is good.** With a token that a login made for a user, `GET /auth/me`
answers for that user, as the account is then, if the clock it reads is before the last whole
second of the token's lifetime; and with the one 401 otherwise. -/
theorem token_answers (h : Interleaved (.init s₀) c) {userId : ℤ} {issuedAt : ℚ}
    (hr : Requested t (AppRequest.me (accessToken pkg settings userId issuedAt)) c.trace)
    {x : Except AppExn AppAnswer} (hx : c.result t = some x) :
    ∃ e ∈ c.trace, e.act = .call t .utcNow (.ok e.before.now) ∧
      (⌊issuedAt⌋ ≤ e.before.now ∧ e.before.now < ⌊issuedAt + settings.accessTokenExpireMinutes * 60⌋ →
        ∃ e' ∈ c.trace, e'.act = .call t (.getUser userId) (.ok (e'.before.users.get userId)) ∧
          x = currentUserAnswer (e'.before.users.get userId)) ∧
      (¬ (⌊issuedAt⌋ ≤ e.before.now ∧ e.before.now < ⌊issuedAt + settings.accessTokenExpireMinutes * 60⌋) →
        x = .error credentialsException) := by
  have hends : AppRequest.Ends pkg settings (.me (accessToken pkg settings userId issuedAt))
      (accountPhase t c.trace) x := Run.final (appDiscipline pkg settings) h hr hx
  obtain ⟨⟨⟨now, hclock, hunknown⟩, hrefused⟩, hok⟩ := hends
  obtain ⟨b, u, -, he, rfl, -⟩ := clock_made h hr hclock
  refine ⟨_, he ▸ List.mem_append_right _ List.mem_cons_self, rfl, fun hlife => ?_, fun hlife => ?_⟩
  · cases huser : (accountPhase t c.trace).user with
    | none => exact absurd (accepts_accessToken.mpr ⟨rfl, hlife⟩) (hunknown huser userId)
    | some user =>
      obtain ⟨e', he', userId', now, hact, hget, -, haccepts⟩ := bearer_lookup h hr rfl huser
      obtain ⟨rfl, -⟩ := accepts_accessToken.mp haccepts
      refine ⟨e', he', by rw [hget]; exact hact, ?_⟩
      rw [hget]
      cases user with
      | none =>
        refine hrefused fun row hrow => ?_
        rw [AccountPhase.Authorised, huser] at hrow
        cases hrow.1
      | some row =>
        by_cases hactive : row.isActive = true
        · rw [currentUserAnswer, if_pos hactive]
          exact hok row ⟨huser, hactive⟩
        · rw [currentUserAnswer, if_neg hactive]
          refine hrefused fun row' hrow => ?_
          rw [AccountPhase.Authorised, huser] at hrow
          cases hrow.1
          exact hactive hrow.2
  · refine hrefused fun row hrow => ?_
    obtain ⟨e', -, userId', now, -, -, hclock', haccepts⟩ := bearer_lookup h hr rfl hrow.1
    rw [hclock] at hclock'
    cases hclock'
    exact hlife (accepts_accessToken.mp haccepts).2

/-- Alice's token, made at time 0. -/
noncomputable def aliceToken : String := accessToken examplePackages exampleSettings 1 0

/-- Alice registers, logs in, and makes a request. -/
noncomputable def withToken (r : AppRequest) (rest : List (Move (appSystem examplePackages exampleSettings))) :
    Config (appSystem examplePackages exampleSettings) := appRun (registerAndLogin ++ .start 2 r :: rest)

theorem withToken_interleaved (r : AppRequest) (rest : List (Move (appSystem examplePackages exampleSettings))) :
    Interleaved (.init AppState.new) (withToken r rest) := appRun_interleaved _

/-- She has logged in when she makes the request. -/
theorem withToken_trace (r : AppRequest) (rest : List (Move (appSystem examplePackages exampleSettings))) :
    ∃ v, (withToken r rest).trace = v ++ ⟨(appRun registerAndLogin).state, (appRun registerAndLogin).state,
      .start 2 r⟩ :: (appRun registerAndLogin).trace := by
  let c := Config.advance (S := appSystem examplePackages exampleSettings)
    (fun (c : AppCall) (s : AppState) => s.serve c) (appRun registerAndLogin) (.start 2 r)
  have hrest : withToken r rest = c.schedule (fun (c : AppCall) (s : AppState) => s.serve c) rest := by
    rw [withToken, appRun, Config.schedule, List.foldl_append]
    rfl
  have hrun : Run _ c (c.schedule (fun (c : AppCall) (s : AppState) => s.serve c) rest) :=
    Interleaved.schedule AppState.step_serve c rest
  obtain ⟨v, hv⟩ := Run.trace_suffix hrun
  exact ⟨v, hrest ▸ hv⟩

theorem withToken_requested (r : AppRequest) (rest : List (Move (appSystem examplePackages exampleSettings))) :
    Requested 2 r (withToken r rest).trace := by
  obtain ⟨v, hv⟩ := withToken_trace r rest
  exact ⟨_, hv ▸ List.mem_append_right _ List.mem_cons_self⟩

theorem token_answers_alice : ∃ e' ∈ (withToken (.me aliceToken) (List.replicate 3 (.call 2))).trace,
    e'.act = .call 2 (.getUser 1) (.ok (e'.before.users.get 1)) := by
  have h := withToken_interleaved (.me aliceToken) (List.replicate 3 (.call 2))
  have hx : (withToken (.me aliceToken) (List.replicate 3 (.call 2))).result 2 =
      some (.ok (.user ⟨1, "alice", true⟩)) := by decide +kernel
  have hnow : ∀ e ∈ (withToken (.me aliceToken) (List.replicate 3 (.call 2))).trace, e.before.now = 0 := by
    decide +kernel
  obtain ⟨e, he, -, hgood, -⟩ := token_answers h (withToken_requested (.me aliceToken) _) hx
  have hlife : ((⌊(0 : ℚ)⌋ : ℤ) : ℚ) ≤ 0 ∧
      (0 : ℚ) < ((⌊(0 : ℚ) + exampleSettings.accessTokenExpireMinutes * 60⌋ : ℤ) : ℚ) := by decide +kernel
  rw [hnow e he] at hgood
  obtain ⟨e', he', hact, -⟩ := hgood hlife
  exact ⟨e', he', hact⟩

/-- A login has made the token: it has found an account and read the clock. -/
def Signed (tr : List (AppEvent pkg settings)) (token : String) : Prop :=
  ∃ t attempt username password row issuedAt, Requested t (AppRequest.login attempt username password) tr ∧
    (accountPhase t tr).selected = some (some row) ∧ (accountPhase t tr).clock = some issuedAt ∧
    token = accessToken pkg settings row.id issuedAt

/-- Clients do not make up tokens: one that is ever accepted was made before it was sent. -/
def Unforged (tr : List (AppEvent pkg settings)) : Prop :=
  ∀ u s s' t r token tr', tr = u ++ ⟨s, s', .start t r⟩ :: tr' → AppRequest.bearer r = some token →
    (∃ now userId, Accepts pkg settings token now userId) → Signed tr' token

/-- What a thread does is later than all that was before it started. -/
theorem later_since_start (h : Run gate (.init s₀) c) {u tr : List (AppEvent pkg settings)} {s s' : AppState}
    (he : c.trace = u ++ ⟨s, s', .start t r⟩ :: tr) {e e' : AppEvent pkg settings} (he' : e' ∈ tr) (hmem : e ∈ c.trace)
    {x : AppCall} {v : appCalls.Out x} (hact : e.act = .call t x v) : e'.before.Later e.before := by
  have hpairwise := (later h).1
  have hfresh := Run.start_fresh h he
  rw [he] at hpairwise hmem
  rcases List.mem_append.mp hmem with hmem | hmem
  · exact (List.pairwise_append.mp hpairwise).2.2 e hmem e' (List.mem_cons_of_mem _ he')
  rcases List.mem_cons.mp hmem with rfl | hmem
  · cases hact
  · exact absurd (congrArg Act.thread hact) (hfresh e hmem)

theorem Unforged.of_append {u tr : List (AppEvent pkg settings)} (h : Unforged (u ++ tr)) : Unforged tr := by
  intro u' s s' t r token tr' hsplit
  refine h (u ++ u') s s' t r token tr' ?_
  rw [hsplit, List.append_assoc]

/-- Thread `t` shows the token that a login for the account had made before `t` started: it
gave the account's password, and `t` read the clock within the token's lifetime. -/
def BackedByLogin (c : Config (appSystem pkg settings)) (t : ℕ) (r : AppRequest) (user : UserRow) : Prop :=
  ∃ u s tr t' attempt username password row issuedAt, c.trace = u ++ ⟨s, s, .start t r⟩ :: tr ∧
    Requested t' (AppRequest.login attempt username password) tr ∧ LoggedIn tr t' username password row issuedAt ∧
    row.username = username ∧ row.SameAccount user ∧ r.bearer = some (accessToken pkg settings row.id issuedAt) ∧
    ∃ e ∈ c.trace, e.act = .call t .utcNow (.ok e.before.now) ∧ issuedAt ≤ e.before.now ∧
      e.before.now < issuedAt + settings.accessTokenExpireMinutes * 60

theorem BackedByLogin.of_append {b c : Config (appSystem pkg settings)} {user : UserRow} (h : BackedByLogin b t r user)
    {u : List (AppEvent pkg settings)} (he : c.trace = u ++ b.trace) : BackedByLogin c t r user := by
  obtain ⟨u', s, tr, t', attempt, username, password, row, issuedAt, hstart, hr, hlogged, hname, hsame, htoken, e,
    hmem, hclock⟩ := h
  refine ⟨u ++ u', s, tr, t', attempt, username, password, row, issuedAt, ?_, hr, hlogged, hname, hsame, htoken, e, ?_,
    hclock⟩
  · rw [he, hstart, List.append_assoc]
  · exact he ▸ List.mem_append_right _ hmem

/-- Thread `t` looked the account up, and it was on. -/
def LookedUp (tr : List (AppEvent pkg settings)) (t : ℕ) (user : UserRow) : Prop :=
  user.isActive = true ∧ ∃ e ∈ tr, e.act = .call t (.getUser user.id) (.ok (some user)) ∧
    e.before.users.get user.id = some user

/-- Whoever a request is let through for has logged in. -/
theorem authorised_origin (h : Interleaved (.init s₀) c) (hunforged : Unforged c.trace) (hr : Requested t r c.trace)
    (htoken : r.bearer = some token) {user : UserRow} (huser : (accountPhase t c.trace).Authorised user) :
    BackedByLogin c t r user ∧ LookedUp c.trace t user := by
  obtain ⟨e, he, userId, now, hact, hget, hclock, haccepts⟩ := bearer_lookup h hr htoken huser.1
  obtain ⟨b', u', -, hbtrace, rfl, -⟩ := clock_made h hr hclock
  -- the login behind the token
  obtain ⟨s, hs⟩ := hr
  obtain ⟨u, tr, hu⟩ := List.append_of_mem hs
  obtain ⟨b, b₂, hb, hstep, hrest, rfl, -⟩ := Run.split h hu
  obtain ⟨t', attempt, username, password, row, issuedAt, hr', hselected, hclock', rfl⟩ := hunforged u s s t r token
    b.trace hu htoken ⟨_, _, haccepts⟩
  have hlogged := signed_login hb hr' hselected hclock'
  obtain ⟨rfl, -, hlife⟩ := accepts_accessToken.mp haccepts
  obtain ⟨e₀, he₀, -, hselect⟩ := hlogged.selected
  obtain ⟨hrow, hname⟩ := UsersTable.select_row hselect
  obtain ⟨e₁, he₁, -, rfl⟩ := hlogged.issued
  let e' : AppEvent pkg settings := ⟨b'.state, b'.state, .call t .utcNow (.ok b'.state.now)⟩
  have he' : e' ∈ c.trace := hbtrace ▸ List.mem_append_right _ List.mem_cons_self
  have hissued : e₁.before.now ≤ b'.state.now := (later_since_start (e := e') h hu he₁ he' rfl).now
  have hexpires : b'.state.now < e₁.before.now + settings.accessTokenExpireMinutes * 60 :=
    hlife.trans_le (Int.floor_le _)
  have hsame : row.SameAccount user := (later_since_start h hu he₀ he hact).sameAccount hrow hget
  refine ⟨⟨u, s, b.trace, t', attempt, username, password, row, e₁.before.now, hu, hr', hlogged, hname, hsame, htoken,
    e', he', rfl, hissued, hexpires⟩, huser.2, e, he, ?_⟩
  rw [hsame.1]
  exact ⟨hact, hget⟩

/-- **Behind every answer is a login.** If clients make up no tokens, a request with a token
that is answered anything but the one 401 was made for an account that is on when it is looked
up, and whose password was given in a login that had made the token before the request was sent;
at most the lifetime of a token has passed since. -/
theorem bearer_origin (h : Interleaved (.init s₀) c) (hunforged : Unforged c.trace) (hr : Requested t r c.trace)
    (htoken : r.bearer = some token) {x : Except AppExn AppAnswer} (hx : c.result t = some x)
    (hanswered : x ≠ .error credentialsException) :
    ∃ user, BackedByLogin c t r user ∧ LookedUp c.trace t user ∧
      ∀ token, r = .me token → x = .ok (.user user.response) := by
  obtain ⟨-, hrefused⟩ := bearer_ends h hr htoken hx
  obtain ⟨user, huser⟩ : ∃ user, (accountPhase t c.trace).Authorised user := by
    by_contra hnone
    exact hanswered (hrefused fun row hrow => hnone ⟨row, hrow⟩)
  obtain ⟨hbacked, hlooked⟩ := authorised_origin h hunforged hr htoken huser
  refine ⟨user, hbacked, hlooked, fun token' heq => ?_⟩
  subst heq
  exact (Run.final (appDiscipline pkg settings) h hr hx).2 user huser

def aliceRow : UserRow := ⟨⟨1, true⟩, "alice", markedHash "secure-password"⟩

theorem signed_alice : Signed (appRun registerAndLogin).trace aliceToken :=
  ⟨1, ⟨some "10.0.0.1"⟩, "alice", "secure-password", aliceRow, 0,
    (Run.pool_trace (appRun_interleaved registerAndLogin)).1 1 _ _ rfl, by decide +kernel, by decide +kernel, rfl⟩

/-- No token but hers is shown. -/
theorem unforged_withToken {r : AppRequest} {rest : List (Move (appSystem examplePackages exampleSettings))}
    (hr : r.bearer = some aliceToken)
    (hone : ∀ p ∈ starts (withToken r rest).trace, p.2.bearer.isSome → p.1 = 2) : Unforged (withToken r rest).trace := by
  intro u s s' t r' token tr' he htoken haccepts
  have h := withToken_interleaved r rest
  obtain rfl := Run.started h he
  have hr' : Requested t r' (withToken r rest).trace := ⟨_, he ▸ List.mem_append_right _ List.mem_cons_self⟩
  obtain rfl : t = 2 := hone (t, r') hr'.mem_starts (by rw [htoken]; rfl)
  obtain ⟨v, hv⟩ := withToken_trace r rest
  obtain rfl := Run.start_unique h he hv
  have hr'' : Requested 2 r (withToken r rest).trace := ⟨_, hv ▸ List.mem_append_right _ List.mem_cons_self⟩
  obtain rfl := Run.requested_unique h hr' hr''
  rw [hr] at htoken
  cases htoken
  exact signed_alice

theorem bearer_origin_alice : ∃ user,
    BackedByLogin (withToken (.me aliceToken) (List.replicate 3 (.call 2))) 2 (.me aliceToken) user ∧
      LookedUp (withToken (.me aliceToken) (List.replicate 3 (.call 2))).trace 2 user := by
  have h := withToken_interleaved (.me aliceToken) (List.replicate 3 (.call 2))
  have hx : (withToken (.me aliceToken) (List.replicate 3 (.call 2))).result 2 =
      some (.ok (.user ⟨1, "alice", true⟩)) := by decide +kernel
  obtain ⟨user, hbacked, hlooked, -⟩ := bearer_origin h (unforged_withToken rfl (by decide +kernel))
    (withToken_requested (.me aliceToken) _) rfl hx (by simp)
  exact ⟨user, hbacked, hlooked⟩

end Bearer

end TaskApi
