import RagQs.Platform.Json
import RagQs.Txn.Statement

/-!
# The chat tables

The rows of a conversation's generations and the keys they are stored under.  A generation
has one assistant message and at most one A/B pair, both unique by the generation, so they are
kept under it; an execution and an event are kept under their generation and their own number.
The window, the revocation commands and the subscription leases have the columns the chat reads.

## Main definitions

* `GenerationStatus`, `ExecutionStatus`, `MessageStatus`, `PairStatus` — the states.
* `EventType` — what an entry of the event log is.
* `GenerationRow`, `ExecutionRow`, `MessageRow`, `EventRow`, `PairRow` and so on — the rows.
* `Key`, `Row`, `Tx` — the keys of the database, the rows under them, and the transactions.
-/

namespace RagQs.Chat

open Txn

/-! ### States -/

/-- The status of a generation. -/
inductive GenerationStatus
  | running
  | stopRequested
  | completed
  | failed
  | stopped
  deriving DecidableEq

/-- The text of a status. -/
def GenerationStatus.text : GenerationStatus → String
  | .running => "running"
  | .stopRequested => "stop_requested"
  | .completed => "completed"
  | .failed => "failed"
  | .stopped => "stopped"

/-- A generation in this status does not go on. -/
def GenerationStatus.terminal : GenerationStatus → Bool
  | .completed | .failed | .stopped => true
  | .running | .stopRequested => false

/-- The status of an execution. -/
inductive ExecutionStatus
  | queued
  | running
  | retryWait
  | expired
  | providerReconciling
  | completed
  | failed
  | cancelled
  deriving DecidableEq

/-- The status of an assistant message. -/
inductive MessageStatus
  | generating
  | completed
  | failed
  | stopped

/-- The status of the message of a generation. -/
def GenerationStatus.message : GenerationStatus → MessageStatus
  | .running | .stopRequested => .generating
  | .completed => .completed
  | .failed => .failed
  | .stopped => .stopped

/-- Why a generation was stopped. -/
inductive StopReason
  | manualRequest
  | clientDisconnected
  | authorizationRevoked

/-- The text of a reason. -/
def StopReason.text : StopReason → String
  | .manualRequest => "manual_request"
  | .clientDisconnected => "client_disconnected"
  | .authorizationRevoked => "authorization_revoked"

/-- What an entry of the event log is. -/
inductive EventType
  | start
  | abStart
  | stage
  | step
  | delta
  | notice
  | answer
  | stopRequested
  | done
  | error
  | stopped
  | citationClick
  deriving DecidableEq

/-- `terminal_event_type` -/
def EventType.terminal : EventType → Bool
  | .done | .error | .stopped => true
  | _ => false

/-- The status of an A/B pair. -/
inductive PairStatus
  | pending
  | opened
  | voted
  | expired
  deriving DecidableEq

/-- The status of one side of a pair. -/
inductive CandidateStatus
  | planned
  | published
  | discarded
  deriving DecidableEq

/-- The choice of a vote. -/
inductive Choice
  | first
  | second
  | neither

/-- The number of the chosen side. -/
def Choice.candidate : Choice → Option ℕ
  | .first => some 0
  | .second => some 1
  | .neither => none

/-! ### Rows -/

/-- A conversation. -/
structure ConversationRow where
  ownerUserId : String
  title : String
  effortLevel : String
  lastActiveAt : Time

/-- A generation. -/
structure GenerationRow where
  conversationId : String
  ownerUserId : String
  rootGenerationId : String
  retryOfGenerationId : Option String
  attemptNumber : ℕ
  status : GenerationStatus
  stopReason : Option StopReason
  requestedEffortLevel : String
  effectiveEffortLevel : String
  upgradedFrom : Option String
  absoluteDeadline : Time
  authSessionId : String
  requestId : Option String
  controlVersion : ℕ
  requestContent : String
  requestScope : JsonObject
  windowId : Option String
  disconnectDeadline : Option Time
  lastErrorCode : Option String
  createdAt : Time

/-- The assistant message of a generation. -/
structure MessageRow where
  ownerUserId : String
  content : String
  answerMode : Option String
  citations : Option (List Json)
  notices : List Json
  status : MessageStatus
  stopReason : Option StopReason

/-- One physical execution of a generation. -/
structure ExecutionRow where
  executionAttemptNumber : ℕ
  status : ExecutionStatus
  leaseOwner : Option String
  leaseExpiresAt : Option Time
  heartbeatAt : Option Time
  fencingToken : ℕ
  checkpointVersion : ℕ
  checkpoint : Option JsonObject
  nextAttemptAt : Option Time
  lastErrorClassification : Option String

/-- An entry of the event log. -/
structure EventRow where
  eventType : EventType
  data : JsonObject

/-- An A/B pair. -/
structure PairRow where
  pairId : String
  windowId : Option String
  ownerUserId : String
  spaceId : String
  status : PairStatus
  voted : Bool
  choice : Option Choice
  expiresAt : Option Time
  closeDeadlineAt : Option Time

/-- One side of a pair. -/
structure CandidateRow where
  configVersion : Option String
  status : CandidateStatus
  content : String
  citations : List Json
  answerMode : String

/-- A vote. -/
structure VoteRow where
  choice : Choice
  idempotencyKey : String

/-- A calibration window: how many of its pairs were voted. -/
structure WindowRow where
  pairsCollected : ℕ

/-- A subscription lease on a generation. -/
structure LeaseRow where
  generationId : String
  authSessionId : String
  expiresAt : Time

/-- A recorded request: the hash of the request and what it was answered with. -/
structure IdempotencyRow where
  requestHash : String
  responseTarget : String

/-- A durable command of the identity domain to revoke a session or a user. -/
structure RevocationRow where
  userId : String
  authSessionId : Option String
  accepted : Bool

/-! ### The database -/

/-- The keys of the database. -/
inductive Key
  | conversation (id : String)
  | generation (id : String)
  | message (generationId : String)
  | execution (generationId executionId : String)
  /-- The unique index of the attempts of a generation. -/
  | attempt (generationId : String) (executionAttemptNumber : ℕ)
  | event (generationId : String) (eventSeq : ℕ)
  | pair (generationId : String)
  | candidate (generationId : String) (candidate : ℕ)
  | vote (generationId voterUserId : String)
  /-- The unique index of the idempotency keys of votes. -/
  | voteKey (voterUserId idempotencyKey : String)
  | window (windowId : String)
  | lease (leaseToken : String)
  | idempotency (userId kind targetId idempotencyKey : String)
  | revocation (operationId : String)
  | consumption (operationId : String)
  deriving DecidableEq

/-- The row under a key. -/
@[reducible] def Row : Key → Type
  | .conversation _ => ConversationRow
  | .generation _ => GenerationRow
  | .message _ => MessageRow
  | .execution _ _ => ExecutionRow
  | .attempt _ _ => Unit
  | .event _ _ => EventRow
  | .pair _ => PairRow
  | .candidate _ _ => CandidateRow
  | .vote _ _ => VoteRow
  | .voteKey _ _ => Unit
  | .window _ => WindowRow
  | .lease _ => LeaseRow
  | .idempotency _ _ _ _ => IdempotencyRow
  | .revocation _ => RevocationRow
  | .consumption _ => Unit

/-- The database. -/
abbrev Db := Store Row

/-- A transaction. -/
abbrev Tx := Prog Row Err

/-- The generation a row belongs to. -/
def Key.owner : Key → Option String
  | .generation g | .message g | .execution g _ | .attempt g _ | .event g _ | .pair g
  | .candidate g _ | .vote g _ => some g
  | _ => none

end RagQs.Chat
