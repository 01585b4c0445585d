import RagQs.Platform.Value
import RagQs.Txn.Statement

/-!
# The tables of the identity domain

Departments and accounts with their spaces, the device sessions with the refresh tokens, the login
throttle, the commands that revoke generations, the deletion workflows, the results of idempotent
commands and the audit.  Of an account there is what a modelled function reads or writes; what is
shown of it is a row of its own.  The digest that is the primary key of a revocation command, and
the keyed digest of a request, are taken to be what they are made of.

## Main definitions

* `UserRow`, `SessionRow`, `TokenRow`, `ThrottleRow` — the rows of accounts and sessions.
* `DepartmentRow`, `ProfileRow`, `SpaceRow`, `InboxRow`, `WorkflowRow`, `CommandRow`,
  `IdempotencyRow`, `AuditRow` — the other rows.
* `Request`, `Stored` — what a command asks for, and what is kept of its outcome.
* `Key`, `Row`, `Db` — the keys of all tables with their unique indexes, and the database.
-/

namespace RagQs.Identity

open Txn

/-- `Role` -/
inductive Role
  | user
  | minister
  | ops
  | admin

/-- The lifecycle of an account. -/
inductive Lifecycle
  | active
  | pendingDelete
  | deleted
  deriving DecidableEq

/-- An account. -/
structure UserRow where
  username : String
  passwordHash : String
  departmentId : Option String
  role : Role
  lifecycleStatus : Lifecycle
  version : ℕ
  transitionVersion : ℕ
  updatedAt : Time
  deletionRequestedAt : Option Time
  purgeAfterAt : Option Time

/-- A device session. -/
structure SessionRow where
  userId : String
  device : String
  currentSequence : ℕ
  familyExpiresAt : Time
  lastActiveAt : Time
  createdAt : Time
  revokedAt : Option Time
  revokedReason : Option String
  identityTransitionVersion : ℕ

/-- A refresh token of a session. -/
structure TokenRow where
  tokenHash : String
  issuedAt : Time
  consumedAt : Option Time
  replayPayload : Option String
  replayExpiresAt : Option Time

/-- The failed logins under one username. -/
structure ThrottleRow where
  failedAttempts : ℕ
  lockedUntil : Option Time
  updatedAt : Time
  deriving DecidableEq

/-- Whether a department is in use. -/
inductive DepartmentStatus
  | active
  | inactive

/-- A department. -/
structure DepartmentRow where
  name : String
  normalizedName : String
  status : DepartmentStatus
  version : ℕ
  createdAt : Time
  updatedAt : Time
  deactivatedAt : Option Time

/-- What a new account prefers. -/
structure Preferences where
  theme : String
  chatFontSize : String
  abOptOut : Bool

/-- What is shown of an account. -/
structure ProfileRow where
  realName : String
  displayName : String
  directorySearchText : String
  avatarUrl : Option String
  preferences : Option Preferences
  createdAt : Time

/-- What a space is for. -/
inductive SpaceKind
  | personal
  | department
  | publicSpace

/-- A space. -/
structure SpaceRow where
  kind : SpaceKind
  name : String
  ownerUserId : Option String
  departmentId : Option String
  createdAt : Time

/-- The notification inbox of an account. -/
structure InboxRow where
  nextNotificationSeq : ℕ
  readThroughSeq : ℕ
  readAllAt : Option Time
  version : ℕ
  retired : Bool

/-- How far the deletion of an account has got. -/
inductive WorkflowStatus
  | pending
  | completed

/-- The deletion workflow of an account. -/
structure WorkflowRow where
  status : WorkflowStatus
  requestedAt : Time
  purgeAfterAt : Time
  cleanupOperationId : String
  archiveDirSnapshot : Option String
  archiveRef : Option String
  archiveChecksum : Option String
  retirementReceiptId : Option String
  cleanupReference : Option String
  cleanupCompletedAt : Option Time
  completedAt : Option Time

/-- How far a revocation has got in the domain of the generations. -/
inductive ReceiptState
  | accepted
  | completed

/-- A recorded command to revoke generations: of one session, or of all of an account. -/
structure CommandRow where
  userId : String
  authSessionId : Option String
  reason : String
  identityTransitionVersion : ℕ
  receiptReference : String
  receiptState : ReceiptState
  createdAt : Time

/-- What an idempotent command asks for, as far as its digest goes. -/
inductive Request
  | createDepartment (name : String)
  | renameDepartment (expectedVersion : ℤ) (name : String)
  | deactivateDepartment (expectedVersion : ℤ)
  | createUser (username realName displayName : String) (role : Role) (departmentId : Option String)
      (initialPasswordFingerprint : String)
  | updateUser (expectedVersion : ℤ) (role : Option Role) (departmentId : Option String)
  | deleteUser (expectedVersion : ℤ)

/-- The response of a command. -/
abbrev Response := List (String × Val)

/-- What is kept of the outcome of a command: its response, or its error. -/
inductive Stored
  | response (fields : Response)
  | error (code message : String) (details : List (String × Val)) (statusCode : ℕ)

/-- The record of an idempotent command. -/
structure IdempotencyRow where
  requestHash : Request
  completed : Bool
  responseJson : Option Stored
  createdAt : Time

/-- An entry of the audit. -/
structure AuditRow where
  actorId : String
  resourceType : String
  resourceId : String
  occurredAt : Time
  result : String

/-- The primary keys of the tables, and the entries of the unique indexes. -/
inductive Key
  | user (userId : String)
  | username (normalizedUsername : String)
  | session (sessionId : String)
  | refreshToken (sessionId : String) (sequence : ℕ)
  | tokenHash (hash : String)
  | throttle (normalizedUsername : String)
  | department (departmentId : String)
  | departmentName (normalizedName : String)
  | profile (userId : String)
  | space (spaceId : String)
  | inbox (recipientUserId : String)
  | workflow (userId : String)
  | cleanupOperation (operationId : String)
  | command (userId : String) (sessionId : Option String) (reason : String) (version : ℕ)
  | idempotency (actorId endpoint targetId idempotencyKey : String)
  | audit (auditId : ℕ)
  | work (workId : String)
  deriving DecidableEq

/-- The row of a key; that of an index entry is the primary key of its row, and of what a caller
writes for a space there is the space. -/
abbrev Row : Key → Type
  | .user _ => UserRow
  | .username _ => String
  | .session _ => SessionRow
  | .refreshToken _ _ => TokenRow
  | .tokenHash _ => String × ℕ
  | .throttle _ => ThrottleRow
  | .department _ => DepartmentRow
  | .departmentName _ => String
  | .profile _ => ProfileRow
  | .space _ => SpaceRow
  | .inbox _ => InboxRow
  | .workflow _ => WorkflowRow
  | .cleanupOperation _ => String
  | .command _ _ _ _ => CommandRow
  | .idempotency _ _ _ _ => IdempotencyRow
  | .audit _ => AuditRow
  | .work _ => String

/-- The tables. -/
abbrev Db := Store Row

/-- A transaction. -/
abbrev Tx (α : Type) := Prog Row Err α

/-- An error of the application that may be tried again. -/
def unavailable (code message : String) : Err :=
  .platform
    { code, message, details := [("retryable", .bool true)], statusCode := 503, retryable := true }

end RagQs.Identity
