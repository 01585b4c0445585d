import RagQs.Platform.Value

/-!
# The session of a browser tab

The store of the authentication state in one tab.  The code runs on an event loop: an entry point
runs until it awaits a response or returns, and where it sets the state it calls the listeners,
which may call entry points themselves before it goes on.  So the state holds, beside the fields,
what is left to run after the listeners (`frames`) and what awaits a response (`pending`).

## Main definitions

* `AuthStore` — the fields and what is left to run.
* `BusMessage`, `readBus` — the messages between tabs, and what is made of an untrusted one.
* `AuthStore.resume`, `AuthStore.settle`, `AuthStore.deliver` — after the listeners, after a
  response and on a message.
* `Call`, `Move`, `AuthStore.step` — the entry points, what may happen, and what it does.
-/

namespace RagQs.Auth

/-- `AuthStatus` -/
inductive Status
  | unknown
  | authenticated
  | unauthenticated
  deriving DecidableEq

/-- `User` -/
structure User where
  id : String
  username : String
  displayName : String
  realName : String
  department : Val
  role : String
  avatarUrl : Option String

/-- `LifecycleKey` -/
structure LifecycleKey where
  authSessionId : Option String
  lifecycleEpoch : ℕ
  deriving DecidableEq

/-- What the store posts to the other tabs. -/
inductive BusMessage
  | login (token : String) (user : User) (authSessionId : String)
  | refresh (token authSessionId : String)
  | logout (authSessionId : String)
  | sessionRevoked (id : String) (current : Option String)
  | sessionsRevokedAll (authSessionId : String)

/-! ### The messages as they arrive -/

/-- A field of an object. -/
def Val.field (v : Val) (name : String) : Option Val :=
  match v with
  | .dict l => (l.find? fun e => e.1 = name).map Prod.snd
  | _ => none

/-- A text. -/
def Val.text : Val → Option String
  | .str s => some s
  | _ => none

/-- A text that is not empty. -/
def Val.nonempty (v : Val) (name : String) : Option String :=
  ((Val.field v name).bind Val.text).filter (· ≠ "")

/-- `isBusUser`, and the user -/
def readUser (v : Val) : Option User := do
  let id ← (Val.field v "id").bind Val.text
  let username ← (Val.field v "username").bind Val.text
  let displayName ← (Val.field v "display_name").bind Val.text
  let realName ← (Val.field v "real_name").bind Val.text
  let role ← (Val.field v "role").bind Val.text
  let avatarUrl ← match Val.field v "avatar_url" with
    | some .null => some none
    | some (.str s) => some (some s)
    | _ => none
  let department ← match Val.field v "department" with
    | some .null => some .null
    | some (.dict l) => some (.dict l)
    | some (.list l) => some (.list l)
    | _ => none
  return { id, username, displayName, realName, department, role, avatarUrl }

/-- What a message that is handled says. -/
inductive BusEvent
  | login (token : String) (user : User) (authSessionId : String)
  | refresh (token authSessionId : String)
  /-- A logout, or the revocation of the device or of all devices. -/
  | ended (authSessionId : String)

/-- The checks of `onBusMessage` on an untrusted message. -/
def readBus (payload : Val) : Option BusEvent := do
  let type ← (Val.field payload "type").bind Val.text
  if type = "login" then
    let token ← Val.nonempty payload "token"
    let authSessionId ← Val.nonempty payload "authSessionId"
    let user ← (Val.field payload "user").bind readUser
    return .login token user authSessionId
  else if type = "refresh" then
    let token ← Val.nonempty payload "token"
    let authSessionId ← Val.nonempty payload "authSessionId"
    return .refresh token authSessionId
  else if type = "logout" || type = "sessions-revoked-all" then
    return .ended (← Val.nonempty payload "authSessionId")
  else if type = "session-revoked" then
    match Val.field payload "current" with
    | some (.bool true) => return .ended (← Val.nonempty payload "authSessionId")
    | _ => none
  else none

/-- A user as it is posted. -/
def User.payload (u : User) : Val :=
  .dict [("id", .str u.id), ("username", .str u.username), ("display_name", .str u.displayName),
    ("real_name", .str u.realName), ("department", u.department), ("role", .str u.role),
    ("avatar_url", .optStr u.avatarUrl)]

/-- A message as it is posted. -/
def BusMessage.payload : BusMessage → Val
  | .login token user authSessionId => .dict [("type", .str "login"), ("token", .str token),
      ("user", user.payload), ("authSessionId", .str authSessionId)]
  | .refresh token authSessionId => .dict [("type", .str "refresh"), ("token", .str token),
      ("authSessionId", .str authSessionId)]
  | .logout authSessionId => .dict [("type", .str "logout"), ("authSessionId", .str authSessionId)]
  | .sessionRevoked id (some authSessionId) => .dict [("type", .str "session-revoked"),
      ("id", .str id), ("current", .bool true), ("authSessionId", .str authSessionId)]
  | .sessionRevoked id none => .dict [("type", .str "session-revoked"), ("id", .str id),
      ("current", .bool false)]
  | .sessionsRevokedAll authSessionId => .dict [("type", .str "sessions-revoked-all"),
      ("authSessionId", .str authSessionId)]

/-! ### The store -/

/-- What is left to run once the listeners have been called. -/
inductive Frame
  /-- Nothing. -/
  | rest
  /-- The rest of `login`. -/
  | login (token : String) (user : User)
  /-- The rest of a login in another tab. -/
  | busLogin
  /-- The rest of a refresh that was applied under the key. -/
  | refreshed (flight : ℕ) (appliedKey : LifecycleKey) (token authSessionId : String)
  /-- The rest of a refresh that failed. -/
  | refreshFailed (flight : ℕ)
  /-- The rest of a refresh in another tab that was applied under the key. -/
  | busRefresh (appliedKey : LifecycleKey)

/-- What awaits a response. -/
inductive Pending
  | login
  | logout (initiated : Option String)
  | refresh (flight : ℕ)
  | me
  | revokeSession (id : String) (current : Bool) (initiated : Option String)
  | revokeAll (initiated : Option String)
  /-- `bootstrap`, for the outcome of the refresh. -/
  | bootstrap (flight : ℕ)
  /-- `bootstrap`, once the refresh has been applied. -/
  | bootstrapped
  /-- A save that may hand in a patch of the user of the session instance. -/
  | presentation (userId : String) (sessionInstance : ℕ)

/-- What awaits a response, with its number and the key it was started under. -/
structure Operation where
  number : ℕ
  key : LifecycleKey
  pending : Pending

/-- What becomes of an operation with the outcome of a flight. -/
def Operation.outcome (flight : ℕ) (applied : Bool) (o : Operation) : Option Operation :=
  match o.pending with
  | .bootstrap f =>
    if f = flight then if applied then some { o with pending := .bootstrapped } else none
    else some o
  | _ => some o

/-- `AuthSessionStore` -/
structure AuthStore where
  status : Status := .unknown
  token : Option String := none
  user : Option User := none
  /-- The single-flight slot: the key and the number of the refresh. -/
  inflightRefresh : Option (LifecycleKey × ℕ) := none
  /-- The timer that was set, and whether it is still to fire. -/
  refreshTimer : Option Bool := none
  isBootstrapped : Bool := false
  lifecycleEpoch : ℕ := 0
  presentationSessionInstance : ℕ := 0
  authSessionId : Option String := none
  freshLoginLandingPending : Bool := false
  /-- What is left to run, the innermost first. -/
  frames : List Frame := []
  /-- What awaits a response. -/
  operations : List Operation := []
  /-- How many operations have been started. -/
  started : ℕ := 0
  /-- What has been posted, the latest last. -/
  posted : List BusMessage := []

namespace AuthStore

variable (s : AuthStore)

/-- `captureLifecycleKey` -/
def key : LifecycleKey := ⟨s.authSessionId, s.lifecycleEpoch⟩

/-- `isAuthenticatedLifecycle` -/
def isAuthenticatedLifecycle (key : LifecycleKey) : Bool :=
  s.status = .authenticated && s.key = key

/-- The state has been set: the listeners are called, and then the rest runs. -/
def notify (f : Frame) : AuthStore := { s with frames := f :: s.frames }

/-- `bus.post` -/
def post (m : BusMessage) : AuthStore := { s with posted := s.posted ++ [m] }

/-- An operation awaits a response. -/
def await (p : Pending) : AuthStore :=
  { s with
    operations := s.operations ++ [⟨s.started, s.key, p⟩]
    started := s.started + 1 }

/-- `advancePresentationSessionInstance`, `advanceLifecycleEpoch` and the new identity -/
def enter (authSessionId : Option String) : AuthStore :=
  { s with
    presentationSessionInstance := s.presentationSessionInstance + 1
    lifecycleEpoch := s.lifecycleEpoch + 1
    authSessionId }

/-- `scheduleRefresh` -/
def scheduleRefresh : AuthStore := { s with refreshTimer := some true }

/-- The state that `clearAuth` sets. -/
def cleared : AuthStore :=
  { s.enter none with
    refreshTimer := none, status := .unauthenticated, token := none, user := none }

/-- `clearAuth`, up to the listeners -/
def clearAuth : AuthStore := s.cleared.notify .rest

/-- `refreshForCurrentLifecycle`: the number of the flight -/
def refreshForCurrentLifecycle : AuthStore × ℕ :=
  match s.inflightRefresh.filter fun f => f.1 = s.key with
  | some f => (s, f.2)
  | none =>
    ({ s with inflightRefresh := some (s.key, s.started) }.await (.refresh s.started), s.started)

/-- `ensureUser`, up to the response -/
def ensureUser : AuthStore := if s.user.isSome then s else s.await .me

/-- `bootstrap`, up to the outcome of the refresh -/
def bootstrap : AuthStore :=
  if s.isBootstrapped then s
  else
    let r := { s with isBootstrapped := true }.refreshForCurrentLifecycle
    r.1.await (.bootstrap r.2)

/-- `handleServerAllSessionsRevoked` -/
def handleServerAllSessionsRevoked (expected : Option (Option String)) : AuthStore :=
  match expected.getD s.authSessionId with
  | none => s
  | some target =>
    if s.authSessionId = some target then (s.post (.sessionsRevokedAll target)).clearAuth
    else s.post (.sessionsRevokedAll target)

/-- The end of a logout, or of the revocation of the device, that was started under an
identity. -/
def endSession (initiated : Option String) (message : String → BusMessage) : AuthStore :=
  match initiated with
  | none => if s.authSessionId = none then s.clearAuth else s
  | some id =>
    if s.authSessionId = some id then (s.post (message id)).clearAuth else s.post (message id)

/-- The outcome of a flight, for the `bootstrap` that awaits it, if there is one. -/
def outcome (flight : ℕ) (applied : Bool) : AuthStore :=
  { s with operations := s.operations.filterMap (Operation.outcome flight applied) }

/-- The `finally` of a flight, and its outcome. -/
def finish (flight : ℕ) (applied : Bool) : AuthStore :=
  { s with inflightRefresh := s.inflightRefresh.filter fun f => f.2 ≠ flight }.outcome flight
    applied

/-- The state that a refresh sets, with the identity and the key it is applied under. -/
def refreshApplied (key : LifecycleKey) (token : String) : AuthStore × String × LifecycleKey :=
  if s.status = .authenticated then
    let authSessionId := s.authSessionId.getD token
    ({ s with authSessionId := some authSessionId, token := some token }, authSessionId, key)
  else
    -- a session that is established begins a lifecycle of its own
    ({ s.enter (some token) with status := .authenticated, token := some token }, token,
      (s.enter (some token)).key)

/-- A refresh that has returned a token. -/
def refreshSucceeded (flight : ℕ) (key : LifecycleKey) (token : String) : AuthStore :=
  if s.key = key then
    let (applied, authSessionId, appliedKey) := s.refreshApplied key token
    applied.notify (.refreshed flight appliedKey token authSessionId)
  else s.finish flight false

/-- A refresh that has failed. -/
def refreshRejected (flight : ℕ) (key : LifecycleKey) : AuthStore :=
  if s.key = key then s.cleared.notify (.refreshFailed flight) else s.finish flight false

/-- What runs after the listeners. -/
def afterNotify : Frame → AuthStore
  | .rest => s
  | .login token user => s.scheduleRefresh.post (.login token user token)
  | .busLogin => s.scheduleRefresh
  | .refreshed flight appliedKey token authSessionId =>
    if s.isAuthenticatedLifecycle appliedKey then
      (s.scheduleRefresh.post (.refresh token authSessionId)).finish flight true
    else s.finish flight false
  | .refreshFailed flight => s.finish flight false
  | .busRefresh appliedKey =>
    if s.isAuthenticatedLifecycle appliedKey then s.scheduleRefresh.ensureUser else s

/-- A session that another login has made, in this tab or another. -/
def signIn (token : String) (user : User) (authSessionId : String) : AuthStore :=
  { s.enter (some authSessionId) with
    status := .authenticated, token := some token, user := some user }

/-- A message of another tab. -/
def deliver (payload : Val) : AuthStore :=
  match readBus payload with
  | some (.login token user authSessionId) => (s.signIn token user authSessionId).notify .busLogin
  | some (.refresh token authSessionId) =>
    if s.status = .unknown ∧ s.authSessionId = none then
      let s := { s.enter (some authSessionId) with status := .authenticated, token := some token }
      s.notify (.busRefresh s.key)
    else if s.status = .authenticated ∧ s.authSessionId = some authSessionId then
      { s with token := some token }.notify (.busRefresh s.key)
    else s
  | some (.ended authSessionId) => if s.authSessionId = some authSessionId then s.clearAuth else s
  | none => s

end AuthStore

/-- A patch of the fields that are shown of the user. -/
structure Patch where
  displayName : Option String
  avatarUrl : Option (Option String)

/-- The user with the patch. -/
def User.patch (u : User) (p : Patch) : User :=
  { u with
    displayName := p.displayName.getD u.displayName
    avatarUrl := p.avatarUrl.getD u.avatarUrl }

/-- A response. -/
inductive Response
  | loggedIn (token : String) (user : User)
  | refreshed (token : String)
  | user (user : User)
  | done
  | failed

/-- The entry points, which the page or a listener calls. -/
inductive Call
  | bootstrap
  | login
  | logout
  | refresh
  | ensureUser
  | revokeSession (id : String) (current : Bool)
  | revokeAllSessions
  | handleServerAllSessionsRevoked (expected : Option (Option String))
  | createCurrentUserPresentationSync
  /-- The patch of a save that was given the number. -/
  | sync (number : ℕ) (patch : Patch)
  | clearFreshLoginLanding

/-- What may happen. -/
inductive Move
  /-- An entry point is called. -/
  | call (c : Call)
  /-- The listeners have been called: what is left of the innermost call runs. -/
  | resume
  /-- The operation with the number has its response. -/
  | settle (number : ℕ) (r : Response)
  /-- The timer fires. -/
  | fire
  /-- A message arrives. -/
  | deliver (payload : Val)

namespace AuthStore

variable (s : AuthStore)

/-- The operation with a number. -/
def operation (number : ℕ) : Option Operation := s.operations.find? fun o => o.number = number

/-- A response to an operation, which awaits it no longer. -/
def settled (number : ℕ) : AuthStore :=
  { s with operations := s.operations.filter fun o => o.number ≠ number }

/-- The patch of a save, which is handed in any number of times. -/
def sync (userId : String) (sessionInstance : ℕ) (p : Patch) : AuthStore :=
  match s.user with
  | some u =>
    if s.status = .authenticated ∧ u.id = userId ∧
        s.presentationSessionInstance = sessionInstance ∧
        ¬ (p.displayName = none ∧ p.avatarUrl = none) then
      { s with user := some (u.patch p) }.notify .rest
    else s
  | none => s

/-- An entry point, up to the listeners or the response. -/
def call : Call → Option AuthStore
  | .bootstrap => some s.bootstrap
  | .login => some (s.await .login)
  | .logout => some (s.await (.logout s.authSessionId))
  | .refresh => some s.refreshForCurrentLifecycle.1
  | .ensureUser => some s.ensureUser
  | .revokeSession id current =>
    some (s.await (.revokeSession id current (if current then s.authSessionId else none)))
  | .revokeAllSessions => some (s.await (.revokeAll s.authSessionId))
  | .handleServerAllSessionsRevoked expected => some (s.handleServerAllSessionsRevoked expected)
  | .createCurrentUserPresentationSync =>
    match s.user with
    | some u =>
      if s.status = .authenticated then
        some (s.await (.presentation u.id s.presentationSessionInstance))
      else some s
    | none => some s
  | .sync number p =>
    match s.operation number with
    | some ⟨_, _, .presentation userId sessionInstance⟩ => some (s.sync userId sessionInstance p)
    | _ => none
  | .clearFreshLoginLanding => some { s with freshLoginLandingPending := false }

/-- A response, up to the listeners. -/
def settle (o : Operation) (r : Response) : Option AuthStore :=
  let s := s.settled o.number
  match o.pending, r with
  | .login, .loggedIn token user =>
    some ({ s.signIn token user token with freshLoginLandingPending := true }.notify
      (.login token user))
  | .login, .failed => some s
  | .logout initiated, .done => some (s.endSession initiated .logout)
  | .logout initiated, .failed => some (s.endSession initiated .logout)
  | .refresh flight, .refreshed token => some (s.refreshSucceeded flight o.key token)
  | .refresh flight, .failed => some (s.refreshRejected flight o.key)
  | .me, .user user =>
    some (if s.isAuthenticatedLifecycle o.key then { s with user := some user }.notify .rest else s)
  | .me, .failed => some s
  | .revokeSession id true initiated, .done =>
    some (s.endSession initiated fun target => .sessionRevoked id (some target))
  | .revokeSession id false _, .done => some (s.post (.sessionRevoked id none))
  | .revokeSession _ _ _, .failed => some s
  | .revokeAll initiated, .done => some (s.handleServerAllSessionsRevoked (some initiated))
  | .revokeAll _, .failed => some s
  | .bootstrapped, .done => some s.ensureUser
  | _, _ => none

/-- What happens to the store. -/
def step : Move → Option AuthStore
  | .call c => s.call c
  | .resume =>
    match s.frames with
    | f :: frames => some ({ s with frames }.afterNotify f)
    | [] => none
  | .settle number r =>
    -- the event loop goes on once everything has returned
    if s.frames.isEmpty then (s.operation number).bind fun o => s.settle o r else none
  | .fire =>
    if s.frames.isEmpty ∧ s.refreshTimer = some true then
      some { s with refreshTimer := some false }.refreshForCurrentLifecycle.1
    else none
  | .deliver payload => if s.frames.isEmpty then some (s.deliver payload) else none

end AuthStore

end RagQs.Auth
