import RagQs.Identity.Schema
import RagQs.Txn.Under

/-!
# Login

A login reads the throttle row of its username, then the account, both under a lock, and either
opens a device session or counts the failure.  All of it is one transaction; a refusal is raised
after it has committed.

## Main definitions

* `AuthEnv`, `LoginCall`, `LoginResult` — the settings, what a login is called with and comes to.
* `recordFailedLogin` — counts a failure, and locks the username.
* `authenticate`, `login` — the transaction from the account on, and all of it.
-/

namespace RagQs.Identity

open Txn

/-- What the service is configured with: the settings of the login, the check of a password
against a hash (or against a hash that no password has), and the hash of refresh tokens. -/
structure AuthEnv where
  loginMaxAttempts : ℕ
  loginLockSeconds : ℕ
  refreshTtlSeconds : ℕ
  verifyPassword : String → Option String → Bool
  hashRefreshToken : String → String

/-- A call of `login`: the normalized username, the password and the device, what the clock
reads, and the new identifiers. -/
structure LoginCall where
  normalizedUsername : String
  password : String
  device : Option String
  now : Time
  sessionId : String
  refreshToken : String

/-- What the transaction of a login comes to. -/
inductive LoginResult
  /-- The username was locked. -/
  | locked (lockedUntil : Time)
  /-- The password was wrong, or the account may not log in. -/
  | failed (attempts : ℕ) (lockedUntil : Option Time)
  /-- The account is logged in. -/
  | succeeded (userId : String)
  deriving DecidableEq

/-- A lock that is in force. -/
def ThrottleRow.lockedAt (r : ThrottleRow) (now : Time) : Bool := r.lockedUntil.any (now < ·)

/-- The row after one more failure. -/
def ThrottleRow.fail (r : ThrottleRow) (env : AuthEnv) (now : Time) : ThrottleRow where
  failedAttempts := r.failedAttempts + 1
  lockedUntil :=
    if env.loginMaxAttempts ≤ r.failedAttempts + 1 then
      some (now + 1000000 * env.loginLockSeconds)
    else none
  updatedAt := now

/-- The failed login that the row was read for. -/
def recordOn (env : AuthEnv) (name : String) (now : Time) (r : ThrottleRow)
    (again : Tx (ℕ × Option Time)) : Tx (ℕ × Option Time) :=
  if r.lockedAt now then return (r.failedAttempts, r.lockedUntil)
  else do
    let updated ← updateWhere (.throttle name)
      (fun r' : ThrottleRow =>
        r'.failedAttempts = r.failedAttempts && r'.lockedUntil = r.lockedUntil)
      fun _ => r.fail env now
    if updated = 1 then return ((r.fail env now).failedAttempts, (r.fail env now).lockedUntil)
    else again

/-- The first failed login, unless another one has inserted the row. -/
def recordFirst (name : String) (now : Time) (again : Tx (ℕ × Option Time)) :
    Tx (ℕ × Option Time) := do
  let inserted ← insertOrSkip .integrity (.throttle name) []
    [⟨.throttle name, some (⟨1, none, now⟩ : ThrottleRow)⟩]
  if inserted then return (1, none) else again

/-- `_record_failed_login`, with the tries that are left. -/
def recordFailedLogin (env : AuthEnv) (name : String) (now : Time) : ℕ → Tx (ℕ × Option Time)
  | 0 => throw (unavailable "login_throttle_unavailable" "Login throttle could not be updated")
  | tries + 1 => do
    let throttle : Option ThrottleRow ← lockRow (Key.throttle name)
    match throttle with
    | none => recordFirst name now (recordFailedLogin env name now tries)
    | some r => recordOn env name now r (recordFailedLogin env name now tries)

/-- The account of a username, with its identifier. -/
def userOf (name : String) (v : Db) : Option (String × UserRow) :=
  (v.get (.username name)).bind fun userId => (v.get (.user userId)).map fun r => (userId, r)

/-- The account of a username, `FOR UPDATE`. -/
def lockUserOf (name : String) : Tx (Option (String × UserRow)) :=
  Prog.selectForUpdate (fun v => (userOf name v).toList.map fun u => .user u.1) (userOf name)

/-- The device of a new session. -/
def deviceName (device : Option String) : String :=
  let name := String.ofList ((strip (device.getD "Unknown device")).toList.take 256)
  if name = "" then "Unknown device" else name

/-- The session that a login opens. -/
def LoginCall.session (call : LoginCall) (env : AuthEnv) (userId : String) (u : UserRow) :
    SessionRow where
  userId
  device := deviceName call.device
  currentSequence := 1
  familyExpiresAt := call.now + 1000000 * env.refreshTtlSeconds
  lastActiveAt := call.now
  createdAt := call.now
  revokedAt := none
  revokedReason := none
  identityTransitionVersion := u.transitionVersion

/-- The first token of a session. -/
def LoginCall.token (call : LoginCall) (env : AuthEnv) : TokenRow where
  tokenHash := env.hashRefreshToken call.refreshToken
  issuedAt := call.now
  consumedAt := none
  replayPayload := none
  replayExpiresAt := none

/-- The login of an account whose password was right. -/
def openSession (env : AuthEnv) (call : LoginCall) (userId : String) (u : UserRow) :
    Tx LoginResult := do
  deleteRow (.throttle call.normalizedUsername)
  insert .integrity [.session call.sessionId]
    [⟨.session call.sessionId, some (call.session env userId u)⟩]
  insert .integrity
    [.refreshToken call.sessionId 1, .tokenHash (env.hashRefreshToken call.refreshToken)]
    [⟨.refreshToken call.sessionId 1, some (call.token env)⟩,
      ⟨.tokenHash (env.hashRefreshToken call.refreshToken), some (call.sessionId, 1)⟩]
  return .succeeded userId

/-- The password is right, and the account may log in. -/
def valid (env : AuthEnv) (call : LoginCall) (user : Option (String × UserRow)) : Bool :=
  env.verifyPassword call.password (user.map fun u => u.2.passwordHash) &&
    user.any fun u => u.2.lifecycleStatus = .active

/-- A login whose password was wrong. -/
def failLogin (env : AuthEnv) (call : LoginCall) (tries : ℕ) : Tx LoginResult := do
  let counted ← recordFailedLogin env call.normalizedUsername call.now tries
  return .failed counted.1 counted.2

/-- The login, once the account has been read. -/
def judge (env : AuthEnv) (call : LoginCall) (user : Option (String × UserRow)) : Tx LoginResult :=
  match user with
  | some u =>
    if valid env call (some u) then openSession env call u.1 u.2 else failLogin env call 4
  | none => failLogin env call 4

/-- The login from the account on: the password is evaluated. -/
def authenticate (env : AuthEnv) (call : LoginCall) : Tx LoginResult := do
  let user ← lockUserOf call.normalizedUsername
  judge env call user

/-- The transaction of `login`. -/
def login (env : AuthEnv) (call : LoginCall) : Tx LoginResult := do
  let throttle : Option ThrottleRow ← lockRow (Key.throttle call.normalizedUsername)
  match throttle.bind fun r => r.lockedUntil.filter (call.now < ·) with
  | some lockedUntil => return .locked lockedUntil
  | none => authenticate env call

end RagQs.Identity
