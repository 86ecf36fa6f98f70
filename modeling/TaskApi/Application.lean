/-
# The application behind its tokens

`security.py`, `authentication.py`, `routers/auth.py` and the routes of `routers/tasks.py`
as one system: registrations, logins, requests that show a bearer token, and WebSocket
connections that show a ticket, any number of them at the same time, over one Redis, one
database and one process. The login limiter, the registrations, the ticket store and the
task routes are the systems of their own modules; their calls are among the calls here
(`loginEmbedding`, `ticketEmbedding`, …), and a request runs their programs as they are.

PyJWT and pwdlib are parameters, with what their documentation promises (`Jwt.Signs`,
`PasswordHash`). Operators may switch accounts off and on in the database; nothing else but
a registration writes the `users` table.

Key definitions: `Jwt.Signs`, `createAccessToken`, `decodeAccessToken`, `authenticateUser`,
`resolveUserFromToken`, `getCurrentUser`, `loginForAccessToken`, `issueWebsocketTicket`,
`AppRequest.body`, `AppState.step`, `appSystem`.
Key theorem: `AppRequest.body_makes`.
-/
import TaskApi.Lib.Components
import TaskApi.LoginRateLimit
import TaskApi.Registration
import TaskApi.RequestBodies
import TaskApi.TaskSystem

namespace TaskApi

open Conc

/-! ### Tokens and passwords -/

/-- What `create_access_token` signs; the two `datetime`s in seconds since the epoch. -/
structure TokenPayload where
  sub : String
  iat : ℚ
  exp : ℚ

/-- What `jwt.decode` returns, with `sub`, `iat` and `exp` required. -/
structure DecodedPayload where
  sub : JsonValue
  iat : ℤ
  exp : ℤ

/-- PyJWT: `encode` with a key and an algorithm, and `decode` at a time, which returns the claims
or raises an `InvalidTokenError` with a message. -/
structure Jwt where
  encode : TokenPayload → String → String → String
  decode : String → String → String → ℚ → Except String DecodedPayload

/-- PyJWT signs with the key and the algorithm. A `datetime` is written in whole seconds; a token
is not accepted before it was issued, nor from its expiry on. -/
structure Jwt.Signs (jwt : Jwt) (key algorithm : String) : Prop where
  decode_encode : ∀ p (now : ℚ), ⌊p.iat⌋ ≤ now → now < ⌊p.exp⌋ →
    jwt.decode (jwt.encode p key algorithm) key algorithm now = .ok ⟨.string p.sub, ⌊p.iat⌋, ⌊p.exp⌋⟩
  decode_early : ∀ p (now : ℚ), now < ⌊p.iat⌋ →
    ∃ message, jwt.decode (jwt.encode p key algorithm) key algorithm now = .error message
  decode_late : ∀ p (now : ℚ), ⌊p.exp⌋ ≤ now →
    ∃ message, jwt.decode (jwt.encode p key algorithm) key algorithm now = .error message

/-- The packages the routes call. -/
structure Packages where
  jwt : Jwt
  int : PyInt
  passwordHash : PasswordHash
  taskJson : TaskJson
  /-- `DUMMY_PASSWORD_HASH` -/
  dummyPasswordHash : String
  dummy_mem : dummyPasswordHash ∈ passwordHash.hashes "dummy-password-not-used-for-login"

/-- The settings that these routes read. -/
structure AppSettings (pkg : Packages) where
  jwtSecretKey : String
  jwtAlgorithm : String
  jwt_signs : pkg.jwt.Signs jwtSecretKey jwtAlgorithm
  accessTokenExpireMinutes : ℤ
  one_le_expire : 1 ≤ accessTokenExpireMinutes
  login : LoginSettings
  ticketStore : WebSocketTicketStore
  tasks : Settings

/-! ### Calls -/

/-- What a request asks for: the calls of the components, and those of the routes themselves. -/
inductive AppCall where
  | limiter (c : LoginCall)
  | registration (c : RegistrationCall)
  | tickets (c : TicketCall)
  | tasks (c : Call)
  /-- `session.scalar(select(UserRecord).where(UserRecord.username == username))` -/
  | scalarUser (username : String)
  /-- `session.get(UserRecord, user_id)` -/
  | getUser (userId : ℤ)
  | verifyPassword (plainPassword hashedPassword : String)
  | utcNow
  | rollback
  | close
deriving DecidableEq

abbrev AppCall.Val : AppCall → Type
  | .limiter c => c.Val
  | .registration c => c.Val
  | .tickets c => c.Val
  | .tasks c => c.Val
  | .scalarUser _ => Option UserRow
  | .getUser _ => Option UserRow
  | .verifyPassword .. => Bool
  | .utcNow => ℚ
  | .rollback => Unit
  | .close => Unit

inductive AppExn where
  | limiter (e : LoginExn)
  | registration (e : RegistrationExn)
  | tickets (e : TicketExn)
  | tasks (e : Exn)
  | httpException (statusCode : ℕ) (detail : String) (headers : List (String × String))
  | invalidTokenError (message : String)
  | valueError (message : String)
  | invalidCredentialsError
  | unknownHashError
  | validationError
deriving DecidableEq

abbrev appCalls : Interface := ⟨AppCall, AppCall.Val, AppExn⟩

abbrev AppAct (α : Type) := Prog appCalls α

abbrev AppCall.perform (c : AppCall) : AppAct c.Val := @Prog.perform appCalls c

namespace AppExn

def ofLimiter : AppExn → Option LoginExn
  | .limiter e => some e
  | _ => none

def ofRegistration : AppExn → Option RegistrationExn
  | .registration e => some e
  | _ => none

def ofTickets : AppExn → Option TicketExn
  | .tickets e => some e
  | _ => none

def ofTasks : AppExn → Option Exn
  | .tasks e => some e
  | _ => none

/-- A component catches its own errors. -/
def hear {ε α : Type} (own : AppExn → Option ε) : Except AppExn α → Except AppExn (Except ε α)
  | .ok a => .ok (.ok a)
  | .error e =>
    match own e with
    | some e' => .ok (.error e')
    | none => .error e

/-- What a component hears is what its call ended in. -/
theorem hear_mapError {ε α : Type} (own : AppExn → Option ε) (raise : ε → AppExn) (h : ∀ e, own (raise e) = some e)
    (w : Except ε α) : hear own (w.mapError raise) = .ok w := by
  cases w with
  | ok a => rfl
  | error e => simp [Except.mapError, hear, h]

theorem hear_ok {ε α : Type} {own : AppExn → Option ε} {v : Except AppExn α} {a : α} :
    hear own v = .ok (.ok a) ↔ v = .ok a := by
  cases v with
  | ok b => simp [hear]
  | error e => cases h : own e <;> simp [hear, h]

end AppExn

namespace AppCall

def sees {I : Interface} {c : I.Call} (heard : Except AppExn (I.Out c)) : Option (Σ c : I.Call, I.Out c) :=
  match heard with
  | .ok w => some ⟨c, w⟩
  | .error _ => none

theorem sees_ok {I : Interface} {c : I.Call} {heard : Except AppExn (I.Out c)} {w : I.Out c} (h : heard = .ok w) :
    sees heard = some ⟨c, w⟩ := by
  subst h
  rfl

theorem of_sees {I : Interface} {c : I.Call} {heard : Except AppExn (I.Out c)} {x : Σ c : I.Call, I.Out c}
    (h : sees heard = some x) : c = x.1 := by
  cases heard with
  | ok w =>
    obtain rfl := Option.some.inj h
    rfl
  | error e => cases h

def seesLimiter : (d : AppCall) → appCalls.Out d → Option (Σ c : LoginCall, loginCalls.Out c)
  | .limiter c, v => sees (I := loginCalls) (c := c) (AppExn.hear AppExn.ofLimiter v)
  | _, _ => none

def seesRegistration : (d : AppCall) → appCalls.Out d → Option (Σ c : RegistrationCall, registrationCalls.Out c)
  | .registration c, v => sees (I := registrationCalls) (c := c) (AppExn.hear AppExn.ofRegistration v)
  | _, _ => none

def seesTickets : (d : AppCall) → appCalls.Out d → Option (Σ c : TicketCall, ticketCalls.Out c)
  | .tickets c, v => sees (I := ticketCalls) (c := c) (AppExn.hear AppExn.ofTickets v)
  | _, _ => none

def seesTasks : (d : AppCall) → appCalls.Out d → Option (Σ c : Call, calls.Out c)
  | .tasks c, v => sees (I := calls) (c := c) (AppExn.hear AppExn.ofTasks v)
  | _, _ => none

theorem limiter_injective : Function.Injective AppCall.limiter := fun _ _ h => AppCall.limiter.inj h

theorem registration_injective : Function.Injective AppCall.registration := fun _ _ h => AppCall.registration.inj h

theorem tickets_injective : Function.Injective AppCall.tickets := fun _ _ h => AppCall.tickets.inj h

theorem tasks_injective : Function.Injective AppCall.tasks := fun _ _ h => AppCall.tasks.inj h

theorem of_seesLimiter {d : AppCall} {v : appCalls.Out d} {x : Σ c : LoginCall, loginCalls.Out c}
    (h : seesLimiter d v = some x) : d = .limiter x.1 := by
  cases d with
  | limiter c => exact congrArg _ (of_sees h)
  | _ => cases h

theorem of_seesRegistration {d : AppCall} {v : appCalls.Out d} {x : Σ c : RegistrationCall, registrationCalls.Out c}
    (h : seesRegistration d v = some x) : d = .registration x.1 := by
  cases d with
  | registration c => exact congrArg _ (of_sees h)
  | _ => cases h

theorem of_seesTickets {d : AppCall} {v : appCalls.Out d} {x : Σ c : TicketCall, ticketCalls.Out c}
    (h : seesTickets d v = some x) : d = .tickets x.1 := by
  cases d with
  | tickets c => exact congrArg _ (of_sees h)
  | _ => cases h

theorem of_seesTasks {d : AppCall} {v : appCalls.Out d} {x : Σ c : Call, calls.Out c}
    (h : seesTasks d v = some x) : d = .tasks x.1 := by
  cases d with
  | tasks c => exact congrArg _ (of_sees h)
  | _ => cases h

end AppCall

def loginEmbedding : Embedding loginCalls appCalls where
  call := .limiter
  call_injective := AppCall.limiter_injective
  hears _ v := AppExn.hear AppExn.ofLimiter v
  raise := .limiter
  sees := AppCall.seesLimiter
  sees_call := AppCall.sees_ok
  of_sees := AppCall.of_seesLimiter

def registrationEmbedding : Embedding registrationCalls appCalls where
  call := .registration
  call_injective := AppCall.registration_injective
  hears _ v := AppExn.hear AppExn.ofRegistration v
  raise := .registration
  sees := AppCall.seesRegistration
  sees_call := AppCall.sees_ok
  of_sees := AppCall.of_seesRegistration

def ticketEmbedding : Embedding ticketCalls appCalls where
  call := .tickets
  call_injective := AppCall.tickets_injective
  hears _ v := AppExn.hear AppExn.ofTickets v
  raise := .tickets
  sees := AppCall.seesTickets
  sees_call := AppCall.sees_ok
  of_sees := AppCall.of_seesTickets

def taskEmbedding : Embedding calls appCalls where
  call := .tasks
  call_injective := AppCall.tasks_injective
  hears _ v := AppExn.hear AppExn.ofTasks v
  raise := .tasks
  sees := AppCall.seesTasks
  sees_call := AppCall.sees_ok
  of_sees := AppCall.of_seesTasks

/-! ### Routes -/

section Routes

variable (pkg : Packages) (settings : AppSettings pkg)

/-- `security.create_access_token` -/
def createAccessToken (subject : String) (expiresDelta : Option ℚ) : AppAct String := do
  let issuedAt ← AppCall.utcNow.perform
  let expiresDelta := expiresDelta.getD (settings.accessTokenExpireMinutes * 60)
  pure (pkg.jwt.encode ⟨subject, issuedAt, issuedAt + expiresDelta⟩ settings.jwtSecretKey settings.jwtAlgorithm)

/-- `security.decode_access_token`; `jwt.decode` reads the clock. -/
def decodeAccessToken (token : String) : AppAct String := do
  let now ← AppCall.utcNow.perform
  match pkg.jwt.decode token settings.jwtSecretKey settings.jwtAlgorithm now with
  | .error message => Prog.raise (.invalidTokenError message)
  | .ok payload =>
    match payload.sub with
    | .string subject =>
      if subject = "" then Prog.raise (.invalidTokenError "Token subject is invalid") else pure subject
    | _ => Prog.raise (.invalidTokenError "Token subject is invalid")

def authenticateUser (username plainPassword : String) : AppAct (Option UserRow) := do
  let userRecord ← (AppCall.scalarUser username).perform
  match userRecord with
  | none => do
    let _ ← (AppCall.verifyPassword plainPassword pkg.dummyPasswordHash).perform
    pure none
  | some userRecord => do
    let verified ← (AppCall.verifyPassword plainPassword userRecord.hashedPassword).perform
    if !verified then pure none
    else if !userRecord.isActive then pure none
    else pure (some userRecord)

/-- `create_credentials_exception` -/
def credentialsException : AppExn :=
  .httpException 401 "Could not validate credentials" [("WWW-Authenticate", "Bearer")]

def resolveUserFromToken (token : String) : AppAct UserRow := do
  let userId ← Prog.tryCatch
    (do
      let subject ← decodeAccessToken pkg settings token
      match pkg.int.int subject with
      | .ok userId => pure userId
      | .error message => Prog.raise (.valueError message))
    fun
      | .invalidTokenError _ => Prog.raise .invalidCredentialsError
      | .valueError _ => Prog.raise .invalidCredentialsError
      | e => Prog.raise e
  let userRecord ← (AppCall.getUser userId).perform
  match userRecord with
  | none => Prog.raise .invalidCredentialsError
  | some userRecord => if !userRecord.isActive then Prog.raise .invalidCredentialsError else pure userRecord

def getCurrentUser (token : String) : AppAct UserRow :=
  (resolveUserFromToken pkg settings token).tryCatch fun
    | .invalidCredentialsError => Prog.raise credentialsException
    | e => Prog.raise e

/-- `get_session`, around the endpoint that uses the session. -/
def withSession {α : Type} (endpoint : AppAct α) : AppAct α :=
  (endpoint.tryCatch fun error => do
    AppCall.rollback.perform
    Prog.raise error).tryFinally AppCall.close.perform

structure TokenResponse where
  accessToken : String
  tokenType : String
deriving DecidableEq

structure WebSocketTicketResponse where
  ticket : String
  expiresIn : ℤ
deriving DecidableEq

def incorrectCredentials : AppExn :=
  .httpException 401 "Incorrect username or password" [("WWW-Authenticate", "Bearer")]

def loginForAccessToken (username password : String) : AppAct TokenResponse := do
  let userRecord ← authenticateUser pkg username password
  match userRecord with
  | none => Prog.raise incorrectCredentials
  | some userRecord => do
    let accessToken ← createAccessToken pkg settings (toString userRecord.id) none
    pure ⟨accessToken, "bearer"⟩

/-- `POST /auth/websocket-ticket` for the current user. The response has a `min_length` for
its ticket, and `ge=1` for a lifetime that the store has checked. -/
def issueWebsocketTicket (currentUser : UserRow) : AppAct WebSocketTicketResponse := do
  let ticket ← ((settings.ticketStore.issue currentUser.id).lift ticketEmbedding).tryCatch fun
    | .tickets .redisError => Prog.raise (.httpException 503 "WebSocket ticket service unavailable" [])
    | e => Prog.raise e
  if ticket.length < 1 then Prog.raise .validationError
  else pure ⟨ticket, settings.ticketStore.ttlSeconds⟩

/-- What a client asks of a task; the user is the one its token stands for. -/
inductive TaskOperation where
  | create (body : TaskCreate)
  | get (taskId : ℤ)
  | patch (taskId : ℤ) (body : TaskUpdate)
  | delete (taskId : ℤ)
deriving DecidableEq

def TaskOperation.request (userId : ℤ) : TaskOperation → Request
  | .create body => .create userId body
  | .get taskId => .get userId taskId
  | .patch taskId body => .patch userId taskId body
  | .delete taskId => .delete userId taskId

/-- A request, with the bearer token that `oauth2_scheme` has read off it. -/
inductive AppRequest where
  | register (userCreate : UserCreate)
  | login (attempt : LoginAttempt) (username password : String)
  | me (token : String)
  | websocketTicket (token : String)
  | websocket (ticket : String)
  | task (token : String) (operation : TaskOperation)
deriving DecidableEq

/-- What a request is answered with. -/
inductive AppAnswer where
  | user (response : UserResponse)
  | token (response : TokenResponse)
  | ticket (response : WebSocketTicketResponse)
  | connected (userRecord : UserRecord)
  | task (task : Option TaskResponse)
deriving DecidableEq

/-- The token a request shows. -/
def AppRequest.bearer : AppRequest → Option String
  | .me token | .websocketTicket token | .task token _ => some token
  | _ => none

/-- What a request with a token does for the current user. -/
def AppRequest.endpoint (currentUser : UserRow) : AppRequest → AppAct AppAnswer
  | .websocketTicket _ => do return .ticket (← issueWebsocketTicket pkg settings currentUser)
  | .task _ operation => do
    return .task (← ((operation.request currentUser.id).body pkg.taskJson settings.tasks).lift taskEmbedding)
  | _ => pure (.user currentUser.response)

def AppRequest.body : AppRequest → AppAct AppAnswer
  | .register userCreate => do
    return .user (← (getSession (registerUser userCreate)).lift registrationEmbedding)
  | .login attempt username password => do
    (enforceLoginRateLimit settings.login attempt).lift loginEmbedding
    return .token (← withSession (loginForAccessToken pkg settings username password))
  | .websocket ticket => do return .connected (← (websocketDependencies pkg.int ticket).lift ticketEmbedding)
  | .me token => withSession do (AppRequest.me token).endpoint pkg settings (← getCurrentUser pkg settings token)
  | .websocketTicket token => withSession do
    (AppRequest.websocketTicket token).endpoint pkg settings (← getCurrentUser pkg settings token)
  | .task token operation => withSession do
    (AppRequest.task token operation).endpoint pkg settings (← getCurrentUser pkg settings token)

end Routes

/-! ### The interleaved system -/

/-- The shared state: one clock, one Redis, the process's own limiter, and the database. -/
structure AppState where
  now : ℚ
  redis : Redis
  counters : RedisCounters
  fallback : FixedWindowRateLimiter
  users : UsersTable
  db : TaskTable

namespace AppState

/-- What the login limiters see of it. -/
def login (s : AppState) : LoginState := ⟨s.now, s.counters, s.fallback⟩

/-- What the ticket store and the WebSocket dependencies see of it. -/
def tickets (s : AppState) : TicketState := ⟨s.now, s.redis, s.users.records⟩

/-- What the task routes see of it. -/
def tasks (s : AppState) : State := ⟨s.now, s.redis, s.db⟩

end AppState

/-- `password_hasher.verify`: whether the hash is one of the password, if it is a hash. -/
def PasswordHash.Verifies (H : PasswordHash) (plainPassword hashedPassword : String) (v : Except AppExn Bool) : Prop :=
  (hashedPassword ∈ H.hashes plainPassword ∧ v = .ok true) ∨
  (hashedPassword ∉ H.hashes plainPassword ∧ (∃ other, hashedPassword ∈ H.hashes other) ∧ v = .ok false) ∨
  ((∀ other, hashedPassword ∉ H.hashes other) ∧ v = .error .unknownHashError)

/-- Accounts are switched off and on. -/
def UsersTable.Switches (users users' : UsersTable) : Prop :=
  ∃ isActive : ℤ → Bool, users'.rows = users.rows.map fun row => { row with isActive := isActive row.id }

namespace AppState

variable (pkg : Packages)

/-- One atomic step. A component's call does to its part of the state what it does there. -/
def step : (c : AppCall) → AppState → appCalls.Out c → AppState → Prop
  | .limiter c, s, v, s' => ∃ w x, LoginState.step c s.login w x ∧ v = w.mapError .limiter ∧
      s' = { s with counters := x.counters, fallback := x.fallback }
  | .registration c, s, v, s' => ∃ w users, UsersTable.step pkg.passwordHash c s.users w users ∧
      v = w.mapError .registration ∧ s' = { s with users := users }
  | .tickets c, s, v, s' => ∃ w x, TicketState.step c s.tickets w x ∧ v = w.mapError .tickets ∧
      s' = { s with redis := x.redis }
  | .tasks c, s, v, s' => ∃ w x, TaskApi.step (fun _ => True) c s.tasks w x ∧ v = w.mapError .tasks ∧
      s' = { s with redis := x.redis, db := x.db }
  | .scalarUser username, s, v, s' => v = .ok (s.users.select username) ∧ s' = s
  | .getUser userId, s, v, s' => v = .ok (s.users.get userId) ∧ s' = s
  | .verifyPassword plainPassword hashedPassword, s, v, s' =>
    pkg.passwordHash.Verifies plainPassword hashedPassword v ∧ s' = s
  | .utcNow, s, v, s' => v = .ok s.now ∧ s' = s
  | .rollback, s, v, s' => v = .ok () ∧ s' = s
  | .close, s, v, s' => v = .ok () ∧ s' = s

/-- Time passes, Redis loses entries, and operators switch accounts off and on. -/
structure Elapses (s s' : AppState) : Prop where
  now : s.now ≤ s'.now
  redis : ∃ keys : List String, s'.redis = keys.foldl Redis.delete s.redis
  counters : s'.counters = s.counters
  fallback : s'.fallback = s.fallback
  users : s.users.Switches s'.users
  db : s'.db = s.db

end AppState

/-- The application over one Redis and one database. -/
abbrev appSystem (pkg : Packages) (settings : AppSettings pkg) : System appCalls where
  State := AppState
  step := AppState.step pkg
  env := AppState.Elapses
  Req := AppRequest
  Res := AppAnswer
  body := AppRequest.body pkg settings

/-! ### The calls of each route -/

/-- The calls that are no component's. -/
def AppCall.IsRoute : AppCall → Prop
  | .limiter _ | .registration _ | .tickets _ | .tasks _ => False
  | _ => True

section Makes

variable {pkg : Packages} {settings : AppSettings pkg} {C : AppCall → Prop}

theorem withSession_makes {α : Type} {endpoint : AppAct α} (hroute : ∀ d : AppCall, d.IsRoute → C d)
    (h : endpoint.Makes C) : (withSession endpoint).Makes C := by
  refine Prog.Makes.tryFinally (Prog.makes_perform (hroute .close trivial)) (Prog.Makes.tryCatch (fun error => ?_) h)
  exact Prog.Makes.bind (fun _ => Prog.makes_raise error) (Prog.makes_perform (hroute .rollback trivial))

theorem loginForAccessToken_makes (hroute : ∀ d : AppCall, d.IsRoute → C d) (username password : String) :
    (loginForAccessToken pkg settings username password).Makes C := by
  refine Prog.Makes.bind (fun userRecord => ?_) (Prog.Makes.bind (fun selected => ?_)
    (Prog.makes_perform (hroute _ trivial)))
  · cases userRecord with
    | none => exact Prog.makes_raise _
    | some row =>
      refine Prog.Makes.bind (fun _ => Prog.makes_ret _) ?_
      exact Prog.Makes.bind (fun _ => Prog.makes_ret _) (Prog.makes_perform (hroute _ trivial))
  · cases selected with
    | none => exact Prog.Makes.bind (fun _ => Prog.makes_ret _) (Prog.makes_perform (hroute _ trivial))
    | some row =>
      refine Prog.Makes.bind (fun verified => ?_) (Prog.makes_perform (hroute _ trivial))
      split_ifs <;> exact Prog.makes_ret _

theorem getCurrentUser_makes (hroute : ∀ d : AppCall, d.IsRoute → C d) (token : String) :
    (getCurrentUser pkg settings token).Makes C := by
  refine Prog.Makes.tryCatch (fun e => by cases e <;> exact Prog.makes_raise _) (Prog.Makes.bind (fun userId => ?_)
    (Prog.Makes.tryCatch (fun e => by cases e <;> exact Prog.makes_raise _) (Prog.Makes.bind (fun subject => ?_)
      (Prog.Makes.bind (fun now => ?_) (Prog.makes_perform (hroute _ trivial))))))
  · refine Prog.Makes.bind (fun user => ?_) (Prog.makes_perform (hroute _ trivial))
    cases user with
    | none => exact Prog.makes_raise _
    | some row =>
      dsimp only
      split_ifs
      · exact Prog.makes_raise _
      · exact Prog.makes_ret _
  · cases pkg.int.int subject with
    | ok userId => exact Prog.makes_ret _
    | error message => exact Prog.makes_raise _
  · cases pkg.jwt.decode token settings.jwtSecretKey settings.jwtAlgorithm now with
    | error message => exact Prog.makes_raise _
    | ok payload =>
      dsimp only
      split
      · split_ifs
        · exact Prog.makes_raise _
        · exact Prog.makes_ret _
      · exact Prog.makes_raise _

/-- A request makes the calls of the routes, and those of the components it is for. -/
theorem AppRequest.body_makes (hroute : ∀ d : AppCall, d.IsRoute → C d) (r : AppRequest)
    (hlimiter : ∀ attempt username password c, r = .login attempt username password → C (.limiter c))
    (hregistration : ∀ userCreate c, r = .register userCreate → C (.registration c))
    (htickets : ∀ text c, r = .websocketTicket text ∨ r = .websocket text → C (.tickets c))
    (htasks : ∀ token operation c, r = .task token operation → C (.tasks c)) :
    (r.body pkg settings).Makes C := by
  cases r with
  | register userCreate =>
    exact Prog.Makes.bind (fun _ => Prog.makes_ret _) (Prog.makes_lift (fun c => hregistration _ c rfl) _)
  | login attempt username password =>
    refine Prog.Makes.bind (fun _ => ?_) (Prog.makes_lift (fun c => hlimiter _ _ _ c rfl) _)
    exact Prog.Makes.bind (fun _ => Prog.makes_ret _)
      (withSession_makes hroute (loginForAccessToken_makes hroute username password))
  | me token =>
    exact withSession_makes hroute (Prog.Makes.bind (fun _ => Prog.makes_ret _) (getCurrentUser_makes hroute token))
  | websocketTicket token =>
    refine withSession_makes hroute (Prog.Makes.bind (fun currentUser => ?_) (getCurrentUser_makes hroute token))
    refine Prog.Makes.bind (fun _ => Prog.makes_ret _) (Prog.Makes.bind (fun ticket => ?_) (Prog.Makes.tryCatch
      (fun e => ?_) (Prog.makes_lift (fun c => htickets _ c (.inl rfl)) _)))
    · split_ifs
      · exact Prog.makes_raise _
      · exact Prog.makes_ret _
    · split <;> exact Prog.makes_raise _
  | websocket ticket =>
    exact Prog.Makes.bind (fun _ => Prog.makes_ret _) (Prog.makes_lift (fun c => htickets _ c (.inr rfl)) _)
  | task token operation =>
    refine withSession_makes hroute (Prog.Makes.bind (fun currentUser => ?_) (getCurrentUser_makes hroute token))
    exact Prog.Makes.bind (fun _ => Prog.makes_ret _) (Prog.makes_lift (fun c => htasks _ _ c rfl) _)

end Makes

/-! ### Concrete runs -/

/-- The number that decimal digits, with a sign or without, stand for. -/
def readInt : List Char → Option ℤ
  | '-' :: ds => if ds.all Char.isDigit then some (-(Nat.ofDigitChars 10 ds 0 : ℤ)) else none
  | ds => if ds.all Char.isDigit then some (Nat.ofDigitChars 10 ds 0) else none

theorem all_digits_repr (m : ℕ) : (Nat.repr m).toList.all Char.isDigit := by
  rw [List.all_eq_true]
  intro c hc
  simp only [Nat.repr, String.toList_ofList] at hc
  exact Nat.isDigit_of_mem_toDigits (by decide) (by decide) hc

theorem ofDigitChars_repr (m : ℕ) : Nat.ofDigitChars 10 (Nat.repr m).toList 0 = m := by simp [Nat.repr]

theorem readInt_repr (n : ℤ) : readInt n.repr.toList = some n := by
  cases n with
  | ofNat m =>
    have hdigits := all_digits_repr m
    have hvalue := ofDigitChars_repr m
    rw [Int.repr]
    unfold readInt
    split
    next ds heq =>
      rw [heq] at hdigits
      exact absurd (List.all_eq_true.mp hdigits '-' List.mem_cons_self) (by decide)
    next => rw [if_pos hdigits, hvalue]; rfl
  | negSucc m =>
    have hrepr : (Int.negSucc m).repr.toList = '-' :: (Nat.repr (m + 1)).toList := by simp [Int.repr]
    rw [hrepr, readInt, if_pos (all_digits_repr (m + 1)), ofDigitChars_repr]
    rfl

/-- `int` on the decimal literals of a Redis value. -/
def exampleInt : PyInt where
  int s :=
    match readInt s.toList with
    | some n => .ok n
    | none => .error s!"invalid literal for int() with base 10: {s}"
  int_str n := by
    have hn : readInt (toString n).toList = some n := readInt_repr n
    rw [hn]

/-- A token as plain text: its times and its subject. -/
def exampleEncode (p : TokenPayload) (_ _ : String) : String :=
  String.ofList ((⌊p.iat⌋ : ℤ).repr.toList ++ ':' :: ((⌊p.exp⌋ : ℤ).repr.toList ++ ':' :: p.sub.toList))

def untilColon (l : List Char) : List Char := l.takeWhile (· ≠ ':')

def afterColon (l : List Char) : List Char := (l.dropWhile (· ≠ ':')).drop 1

theorem untilColon_append {l r : List Char} (h : ':' ∉ l) : untilColon (l ++ ':' :: r) = l := by
  have hall : ∀ a ∈ l, decide (a ≠ ':') = true := fun a ha => decide_eq_true fun heq => h (heq ▸ ha)
  rw [untilColon, List.takeWhile_append_of_pos hall]
  simp

theorem afterColon_append {l r : List Char} (h : ':' ∉ l) : afterColon (l ++ ':' :: r) = r := by
  have hall : ∀ a ∈ l, decide (a ≠ ':') = true := fun a ha => decide_eq_true fun heq => h (heq ▸ ha)
  rw [afterColon, List.dropWhile_append_of_pos hall]
  simp

def exampleDecode (token _ _ : String) (now : ℚ) : Except String DecodedPayload :=
  let iat := readInt (untilColon token.toList)
  let exp := readInt (untilColon (afterColon token.toList))
  match iat, exp with
  | some iat, some exp =>
    if now < iat then .error "The token is not yet valid (iat)"
    else if exp ≤ now then .error "Signature has expired"
    else .ok ⟨.string (String.ofList (afterColon (afterColon token.toList))), iat, exp⟩
  | _, _ => .error "Not enough segments"

def exampleJwt : Jwt := ⟨exampleEncode, exampleDecode⟩

theorem exampleJwt_decode (p : TokenPayload) (key algorithm : String) (now : ℚ) :
    exampleJwt.decode (exampleJwt.encode p key algorithm) key algorithm now =
      if now < (⌊p.iat⌋ : ℤ) then .error "The token is not yet valid (iat)"
      else if ((⌊p.exp⌋ : ℤ) : ℚ) ≤ now then .error "Signature has expired"
      else .ok ⟨.string p.sub, ⌊p.iat⌋, ⌊p.exp⌋⟩ := by
  unfold exampleJwt exampleDecode exampleEncode
  simp only [String.toList_ofList, untilColon_append (colon_notMem_repr _), afterColon_append (colon_notMem_repr _),
    String.ofList_toList, readInt_repr]

theorem exampleJwt_signs (key algorithm : String) : exampleJwt.Signs key algorithm where
  decode_encode p now hiat hexp := by
    rw [exampleJwt_decode, if_neg (not_lt.mpr hiat), if_neg (not_le.mpr hexp)]
  decode_early p now hiat := ⟨_, by rw [exampleJwt_decode, if_pos hiat]⟩
  decode_late p now hexp := by
    rw [exampleJwt_decode]
    by_cases hiat : now < (⌊p.iat⌋ : ℤ)
    · exact ⟨_, if_pos hiat⟩
    · exact ⟨_, (if_neg hiat).trans (if_pos hexp)⟩

/-- A hasher that only marks the password. -/
def markedHash (plainPassword : String) : String := "hash:" ++ plainPassword

def markedPasswordHash : PasswordHash where
  hashes plainPassword := {markedHash plainPassword}
  nonempty plainPassword := Set.singleton_nonempty (markedHash plainPassword)

theorem markedHash_injective : markedHash.Injective := fun _ _ h => (String.append_right_inj "hash:").mp h

theorem dummy_marked : markedHash "dummy-password-not-used-for-login" ∈
    markedPasswordHash.hashes "dummy-password-not-used-for-login" := Set.mem_singleton _

noncomputable def examplePackages : Packages :=
  ⟨exampleJwt, exampleInt, markedPasswordHash, exampleJson, markedHash "dummy-password-not-used-for-login", dummy_marked⟩

theorem one_le_thirty : (1 : ℤ) ≤ 30 := by decide

/-- Tokens for half an hour. -/
def exampleSettings : AppSettings examplePackages :=
  ⟨"secret", "HS256", exampleJwt_signs _ _, 30, one_le_thirty, .defaults, exampleTicketStore, .defaults⟩

namespace AppState

/-- A new database, an empty Redis and a new process. -/
def new : AppState :=
  ⟨0, fun _ => none, fun _ => none, fallbackLoginRateLimiter .defaults, .empty, .empty⟩

def verify (plainPassword hashedPassword : String) : Except AppExn Bool :=
  if hashedPassword = markedHash plainPassword then .ok true
  else if hashedPassword = markedHash (String.ofList (hashedPassword.toList.drop 5)) then .ok false
  else .error .unknownHashError

theorem verify_verifies (plainPassword hashedPassword : String) :
    markedPasswordHash.Verifies plainPassword hashedPassword (verify plainPassword hashedPassword) := by
  unfold verify
  by_cases hright : hashedPassword = markedHash plainPassword
  · exact .inl ⟨hright, if_pos hright⟩
  rw [if_neg hright]
  by_cases hhash : hashedPassword = markedHash (String.ofList (hashedPassword.toList.drop 5))
  · exact .inr (.inl ⟨hright, ⟨_, hhash⟩, if_pos hhash⟩)
  · refine .inr (.inr ⟨?_, if_neg hhash⟩)
    rintro other rfl
    refine hhash (congrArg markedHash ?_)
    simp [markedHash]

/-- The effect of a call on which nothing fails. -/
def serve : (c : AppCall) → AppState → appCalls.Out c × AppState
  | .limiter c, s => ((s.login.serve c).1.mapError .limiter,
    { s with counters := (s.login.serve c).2.counters, fallback := (s.login.serve c).2.fallback })
  | .registration c, s => ((s.users.serve markedHash c).1.mapError .registration,
    { s with users := (s.users.serve markedHash c).2 })
  | .tickets c, s => ((s.tickets.serve "a" c).1.mapError .tickets, { s with redis := (s.tickets.serve "a" c).2.redis })
  | .tasks c, s => ((s.tasks.serve Pick.first c).1.mapError .tasks,
    { s with redis := (s.tasks.serve Pick.first c).2.redis, db := (s.tasks.serve Pick.first c).2.db })
  | .scalarUser username, s => (.ok (s.users.select username), s)
  | .getUser userId, s => (.ok (s.users.get userId), s)
  | .verifyPassword plainPassword hashedPassword, s => (verify plainPassword hashedPassword, s)
  | .utcNow, s => (.ok s.now, s)
  | .rollback, s => (.ok (), s)
  | .close, s => (.ok (), s)

theorem step_serve (c : AppCall) (s : AppState) : step examplePackages c s (s.serve c).1 (s.serve c).2 := by
  cases c with
  | limiter c => exact ⟨_, _, LoginState.step_serve c s.login, rfl, rfl⟩
  | registration c => exact ⟨_, _, UsersTable.step_serve (fun _ => Set.mem_singleton _) c s.users, rfl, rfl⟩
  | tickets c => exact ⟨_, _, TicketState.step_serve "a" c s.tickets, rfl, rfl⟩
  | tasks c => exact ⟨_, _, TaskApi.step_serve _ Pick.first c s.tasks, rfl, rfl⟩
  | verifyPassword plainPassword hashedPassword => exact ⟨verify_verifies plainPassword hashedPassword, rfl⟩
  | _ => exact ⟨rfl, rfl⟩

end AppState

/-- A schedule of requests to a new application, on which nothing fails. -/
noncomputable def appRun (moves : List (Move (appSystem examplePackages exampleSettings))) :
    Config (appSystem examplePackages exampleSettings) :=
  Config.schedule (S := appSystem examplePackages exampleSettings) (fun c s => s.serve c) (.init AppState.new) moves

theorem appRun_interleaved (moves : List (Move (appSystem examplePackages exampleSettings))) :
    Interleaved (.init AppState.new) (appRun moves) := Interleaved.schedule AppState.step_serve _ _

/-- Alice registers, and logs in. -/
def registerAndLogin : List (Move (appSystem examplePackages exampleSettings)) :=
  .start 0 (.register alice) :: (List.replicate 5 0).map .call ++
    .start 1 (.login ⟨some "10.0.0.1"⟩ "alice" "secure-password") :: (List.replicate 5 1).map .call

end TaskApi
