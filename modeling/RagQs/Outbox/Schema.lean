import RagQs.Platform.Json
import RagQs.Txn.Statement

/-!
# The outbox tables

The rows of the outbox and of the notifications, and the keys they are stored under.  The
entries of a unique index are rows of their own, under the indexed values; an advisory lock
is a key without a row.  The accounts and the documents belong to other domains and have the
columns the outbox reads.

## Main definitions

* `EventType` — what an event is about.
* `EventRow`, `RecipientRow`, `DeliveryRow`, `AttemptRow` — an event and its delivery.
* `NotificationRow`, `InboxRow`, `SuppressionRow`, `ReceiptRow` — what a recipient gets.
* `Key`, `Row` — the keys of the database and the rows under them.
-/

namespace RagQs.Outbox

/-! ### Events -/

/-- What an event is about. -/
inductive EventType
  | ingestionCompleted
  | ingestionFailed
  | ingestionCancelled
  | ocrLowConfidence
  | submissionApproved
  | submissionRejected
  | submissionInvalidated
  | quotaApproved
  | quotaRejected
  | calibrationWindowSuggested
  | graphBuildCompleted
  | evaluationJudgeConfigurationMissing
  | usageLedgerInvariantConflict
  | publicGraphSourceChanged
  | retrievalContextHardGateExceeded
  deriving DecidableEq

/-- The text of an event type. -/
def EventType.text : EventType → String
  | .ingestionCompleted => "ingestion_completed"
  | .ingestionFailed => "ingestion_failed"
  | .ingestionCancelled => "ingestion_cancelled"
  | .ocrLowConfidence => "ocr_low_confidence"
  | .submissionApproved => "submission_approved"
  | .submissionRejected => "submission_rejected"
  | .submissionInvalidated => "submission_invalidated"
  | .quotaApproved => "quota_approved"
  | .quotaRejected => "quota_rejected"
  | .calibrationWindowSuggested => "calibration_window_suggested"
  | .graphBuildCompleted => "graph_build_completed"
  | .evaluationJudgeConfigurationMissing => "evaluation_judge_configuration_missing"
  | .usageLedgerInvariantConflict => "usage_ledger_invariant_conflict"
  | .publicGraphSourceChanged => "public_graph_source_changed"
  | .retrievalContextHardGateExceeded => "retrieval_context_hard_gate_exceeded"

/-- `OUTBOX_ONLY_EVENT_TYPES`: the events nobody is notified of. -/
def EventType.outboxOnly : EventType → Bool
  | .publicGraphSourceChanged | .retrievalContextHardGateExceeded => true
  | _ => false

/-- `V1_CONSUMER` -/
def v1Consumer : String := "in_app_notification"

/-- The transition an event is about: at most one event for each. -/
structure EventKey where
  eventType : EventType
  aggregateType : String
  aggregateId : String
  transitionVersion : ℤ
  deriving DecidableEq

/-- Whether an event still has its payload. -/
inductive StorageState
  | full
  | compacted

/-- What a delivery came to, as a compacted event keeps it. -/
structure DeliverySummary where
  consumerName : String
  version : ℤ
  deliveredAt : Option Time
  attemptNumber : ℤ
  replayGeneration : ℤ

/-- An event. -/
structure EventRow where
  key : EventKey
  schemaVersion : Option ℤ
  occurredAtUtc : Time
  payloadJson : Option JsonObject
  payloadFingerprint : String
  traceId : Option String
  createdAtUtc : Time
  storageState : StorageState
  compactAfterAtUtc : Option Time
  compactedAtUtc : Option Time
  compactedDeliverySummary : Option (List DeliverySummary)

/-- How a recipient was chosen. -/
inductive RecipientKind
  | identity
  | roleSnapshot
  deriving DecidableEq

/-- A recipient of an event. -/
structure RecipientRow where
  recipientKind : RecipientKind
  requiredRole : Option String
  selectionReason : String
  roleSnapshot : String
  lifecycleSnapshot : String
  selectedAtUtc : Time

/-! ### Deliveries -/

/-- The state of a delivery. -/
inductive DeliveryStatus
  | pending
  | running
  | retryWait
  | delivered
  | deadLetter

/-- What kind of error an attempt ended with. -/
inductive ErrorCategory
  | retryable
  | permanent
  | leaseExpired

/-- The delivery of an event to one consumer. -/
structure DeliveryRow where
  status : DeliveryStatus
  version : ℤ
  replayGeneration : ℤ
  attemptNumber : ℤ
  cycleAttemptNumber : ℤ
  errorCategory : Option ErrorCategory
  errorCode : Option String
  nextAttemptAtUtc : Option Time
  leaseOwner : Option String
  leaseExpiresAtUtc : Option Time
  fenceToken : Option ℤ
  deliveredAtUtc : Option Time

/-- The state of an attempt. -/
inductive AttemptStatus
  | running
  | delivered
  | failed
  | expired

/-- An attempt at a delivery. -/
structure AttemptRow where
  eventId : String
  consumerName : String
  replayGeneration : ℤ
  attemptNumber : ℤ
  cycleAttemptNumber : ℤ
  fenceToken : ℤ
  startedAtUtc : Time
  endedAtUtc : Option Time
  status : AttemptStatus
  errorCategory : Option ErrorCategory
  errorCode : Option String

/-- The answer to a replay, stored with its idempotency key. -/
structure ReplayReceipt where
  eventId : String
  consumerName : String
  replayGeneration : ℤ
  version : ℤ

/-- An idempotency key of a replay. -/
structure ReplayRow where
  requestHash : String
  completed : Bool
  responseJson : Option ReplayReceipt
  createdAtUtc : Time

/-! ### Notifications -/

/-- A notification of a recipient. -/
structure NotificationRow where
  eventId : String
  recipientUserId : String
  notificationType : String
  title : String
  payloadJson : JsonObject
  documentId : Option String
  documentVersionId : Option String
  eventOccurredAtUtc : Time
  materializedAtUtc : Time
  notificationSeq : ℤ
  readAtUtc : Option Time
  retireAfterAtUtc : Time
  redacted : Bool

/-- The inbox of a user. -/
structure InboxRow where
  nextNotificationSeq : ℤ
  readThroughSeq : ℤ
  readAllAtUtc : Option Time
  version : ℤ
  retired : Bool

/-- What the inbox of a retired account had come to. -/
structure AccountTombstoneRow where
  nextNotificationSeq : ℤ
  readThroughSeq : ℤ
  retiredAtUtc : Time

/-- Why a recipient gets no notification. -/
inductive SuppressionReason
  | recipientInactive
  | recipientUnauthorized

/-- A recipient that gets no notification. -/
structure SuppressionRow where
  reason : SuppressionReason
  suppressedAtUtc : Time

/-- What a receipt attests. -/
inductive Outcome
  | materialized
  | recipientInactive
  | recipientUnauthorized

/-- The permanent receipt of an outcome. -/
structure ReceiptRow where
  outcome : Outcome
  originalNotificationSeq : Option ℤ
  occurredAtUtc : Time
  materializedAtUtc : Option Time
  retiredAtUtc : Option Time
  fingerprint : String

/-! ### Lifecycle commands -/

/-- The state of a lifecycle command. -/
inductive CommandState
  | pending
  | accepted
  | completed

/-- The receipt of a redaction. -/
structure RedactionRow where
  deletionId : String
  documentId : String
  documentVersionIds : List String
  inputFingerprint : String
  state : CommandState
  redactedNotificationCount : ℤ
  alreadyRedactedCount : ℤ
  createdAtUtc : Time

/-- A version of a document that has been deleted. -/
structure DocumentTombstoneRow where
  deletionId : String
  createdAtUtc : Time

/-- An account, as far as the outbox reads it. -/
structure IdentityUserRow where
  role : String
  lifecycleStatus : String

/-- A document, as far as the outbox reads it. -/
structure DocumentRow where
  name : Option String
  lifecycleStatus : String

/-! ### The database -/

/-- The keys of the database. -/
inductive Key
  | event (eventId : String)
  | eventKey (key : EventKey)
  | recipient (eventId userId : String)
  | delivery (eventId consumerName : String)
  | attempt (attemptId : String)
  | replay (eventId consumerName idempotencyKey : String)
  | notification (id : String)
  | notificationOf (eventId userId : String)
  | notificationSeq (userId : String) (seq : ℤ)
  | inbox (userId : String)
  | accountTombstone (userId : String)
  | suppression (eventId userId : String)
  | ack (eventId userId : String)
  | receipt (eventId userId : String)
  | redaction (operationId : String)
  | documentTombstone (documentId versionId : String)
  | identityUser (id : String)
  | document (id : String)
  /-- `ragqs:documents:redact:{document_id}` -/
  | documentLock (documentId : String)
  /-- `ragqs:notifications:read-all:{user_id}` -/
  | userLock (userId : String)
  deriving DecidableEq

/-- The row under a key; an index entry is the primary key of its row. -/
@[reducible] def Row : Key → Type
  | .event _ => EventRow
  | .eventKey _ => String
  | .recipient _ _ => RecipientRow
  | .delivery _ _ => DeliveryRow
  | .attempt _ => AttemptRow
  | .replay _ _ _ => ReplayRow
  | .notification _ => NotificationRow
  | .notificationOf _ _ => String
  | .notificationSeq _ _ => String
  | .inbox _ => InboxRow
  | .accountTombstone _ => AccountTombstoneRow
  | .suppression _ _ => SuppressionRow
  | .ack _ _ => Time
  | .receipt _ _ => ReceiptRow
  | .redaction _ => RedactionRow
  | .documentTombstone _ _ => DocumentTombstoneRow
  | .identityUser _ => IdentityUserRow
  | .document _ => DocumentRow
  | .documentLock _ => Unit
  | .userLock _ => Unit

/-- The database. -/
abbrev Db := Txn.Store Row

/-- The transactions. -/
abbrev Tx := Txn.Prog Row Err

end RagQs.Outbox
