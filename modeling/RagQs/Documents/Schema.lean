import RagQs.Platform.Json
import RagQs.Txn.Under

/-!
# The documents tables

The rows of a document, of its versions, its ingestion jobs, their attempts and the publications
they stage, with the keys they are stored under.  What belongs to a document is kept under it,
and so is the lease of an attempt, which a renewal writes without the lock of the document and
which is therefore a row of its own.  The unique indexes of the schema that a transaction can run
into are checked by the statement that writes the row.

## Main definitions

* `Lifecycle`, `VersionState`, `PublicationState`, `JobState`, `AttemptState` — the states.
* `DocumentRow`, `VersionRow`, `JobRow`, `AttemptRow`, `PublicationRow` and so on — the rows.
* `Key`, `Row`, `Tx` — the keys of the database, the rows under them, and the transactions.
* `guards` — the document a row belongs to, whose row is locked before it is touched.
-/

namespace RagQs.Documents

open Txn

/-! ### States -/

/-- `DocumentLifecycle` -/
inductive Lifecycle
  | active
  | pendingDelete
  | deleted
  deriving DecidableEq

/-- `DocumentVersionState` -/
inductive VersionState
  | pending
  | active
  | superseded
  | failed
  | cancelled
  | purging
  | purged
  deriving DecidableEq

/-- `PublicationState` -/
inductive PublicationState
  | staged
  | active
  | superseded
  | discarded
  deriving DecidableEq

/-- `IngestionJobState` -/
inductive JobState
  | pending
  | running
  | retryWait
  | succeeded
  | failed
  | cancelled
  | deadLetter
  deriving DecidableEq

/-- A job in this state is not over. -/
def JobState.live : JobState → Bool
  | .pending | .running | .retryWait => true
  | .succeeded | .failed | .cancelled | .deadLetter => false

/-- `IngestionAttemptState` -/
inductive AttemptState
  | running
  | succeeded
  | failed
  | expired
  | cancelled
  deriving DecidableEq

/-- What a job does to its document. -/
inductive Operation
  | initial
  | replace
  | reindex
  deriving DecidableEq

/-- The job brings a version of its own: `operation in {"initial", "replace"}`. -/
def Operation.versioned : Operation → Bool
  | .initial | .replace => true
  | .reindex => false

/-- The type of an index change. -/
inductive ChangeType
  | publish
  | replace
  | reindex
  | delete

/-- `job["operation"] if job["operation"] != "initial" else "publish"` -/
def Operation.changeType : Operation → ChangeType
  | .initial => .publish
  | .replace => .replace
  | .reindex => .reindex

/-- The result of an item of an upload batch. -/
inductive ItemState
  | pending
  | running
  | retryWait
  | succeeded
  | failed
  | cancelled
  | deadLetter
  | rejected
  | deduplicated
  deriving DecidableEq

/-- The result of an item whose job is in the state. -/
def JobState.item : JobState → ItemState
  | .pending => .pending
  | .running => .running
  | .retryWait => .retryWait
  | .succeeded => .succeeded
  | .failed => .failed
  | .cancelled => .cancelled
  | .deadLetter => .deadLetter

/-- The state of an upload batch. -/
inductive BatchState
  | pending
  | running
  | succeeded
  | partiallyDone
  | failed

/-- The state of an accepted deletion. -/
inductive DeletionStatus
  | pendingDelete
  | cleaning
  | completed

/-- The state of a cleanup target. -/
inductive TargetState
  | pending
  | failed
  | completed

/-- The state of a generation of the index. -/
inductive GenerationStatus
  | staging
  | active
  | retired
  | failed
  | purging
  | purged
  deriving DecidableEq

/-- How the quota of a publication was settled. -/
inductive ChargeStatus
  | pending
  | charged
  | exempt
  | notCharged
  | notApplicable
  deriving DecidableEq

/-! ### Rows -/

/-- A document. -/
structure DocumentRow where
  spaceId : String
  lifecycleStatus : Lifecycle
  activeVersionId : Option String
  pendingVersionId : Option String
  activeOperationJobId : Option String
  deletionId : Option String
  version : ℕ
  name : String
  normalizedName : String
  mediaKind : String

/-- A version of a document; the texts of a purged one are empty. -/
structure VersionRow where
  versionNumber : ℕ
  status : VersionState
  contentHash : String
  originalObjectKey : String
  fileName : String
  mediaKind : String
  sizeBytes : ℕ
  activatedAt : Option Time
  terminalAt : Option Time
  supersededAt : Option Time
  purgeAfterAt : Option Time
  restoredFromVersionId : Option String

/-- An ingestion job; the quota fields are those of the user it is charged to. -/
structure JobRow where
  documentVersionId : String
  operation : Operation
  state : JobState
  baseActiveVersionId : Option String
  uploadBatchId : Option String
  activeAttemptId : Option String
  activePublicationId : String
  version : ℕ
  replayGeneration : ℕ
  nextAttemptAt : Option Time
  failureReason : Option String
  createdByUserId : String
  replayedByUserId : Option String
  quotaRoleSnapshot : String
  quotaExemptReason : Option String
  quotaChargeStatus : ChargeStatus
  quotaChargeReason : Option String

/-- What a worker is authorized by. -/
inductive AuthorizationFence
  | directIngest (actorId : String)
  | submissionGrant (grantId submissionId : String)
  deriving DecidableEq

/-- The request a claimed attempt is staged with. -/
structure StagingRequest where
  publicationId : String
  operation : Operation
  baseActiveVersionId : Option String
  expectedGenerationId : String
  indexRevisionAtStart : ℕ
  authorizationFence : AuthorizationFence
  inputManifestHash : Option String

/-- What a worker hands in for an attempt, as the documents service reads it. -/
structure Receipt where
  jobId : String
  attemptId : String
  fencingToken : ℕ
  documentId : String
  documentVersionId : String
  publicationId : String
  generationId : String
  inputContentHash : Option String
  contentManifestId : String
  contentManifestHash : String
  processingListId : Option String
  pages : ℕ
  chunkCount : Option ℕ
  stageResources : List (String × String)

/-- An attempt of a job. -/
structure AttemptRow where
  attemptNumber : ℕ
  cycleAttemptNumber : ℕ
  replayGeneration : ℕ
  state : AttemptState
  fencingToken : ℕ
  publicationId : Option String
  stagingRequest : Option StagingRequest
  receipt : Option Receipt
  failureReason : Option String

/-- The lease columns of an attempt. -/
structure AttemptLeaseRow where
  owner : String
  expiresAt : Option Time

/-- A publication; the manifest is empty until the publication is active. -/
structure PublicationRow where
  documentVersionId : String
  jobId : String
  attemptId : Option String
  generationId : String
  status : PublicationState
  resourceManifest : Option Receipt
  quotaChargeStatus : ChargeStatus
  quotaChargeReason : Option String
  activatedAt : Option Time
  supersededAt : Option Time

/-- Who holds the name and content of an upload in a space. -/
structure ClaimRow where
  documentId : String
  documentVersionId : String
  deriving DecidableEq

/-- The version a restore job copies from. -/
structure HoldRow where
  documentVersionId : String

/-- What an approved submission is executed by. -/
structure GrantRow where
  grantId : String
  submissionId : String
  documentVersionId : String
  spaceIdSnapshot : String

/-- The debit of a job, in pages; its identity is the job. -/
structure DebitRow where
  debitId : String
  publicationId : String
  subjectUserId : String
  pages : ℕ

/-- The item of an upload batch that a job ingests. -/
structure ItemRow where
  uploadBatchId : String
  resultState : ItemState

/-- An item of an upload batch without a job: rejected, or already there. -/
structure PlainItemRow where
  resultState : ItemState
  documentId : Option String

/-- An upload batch. -/
structure BatchRow where
  actorUserId : String
  spaceId : String
  state : BatchState

/-- A revision of the index. -/
structure IndexRevisionRow where
  documentId : String
  generationId : String

/-- The change a revision of the index makes. -/
structure IndexChangeRow where
  documentId : String
  documentVersionId : Option String
  publicationId : Option String
  changeType : ChangeType
  spaceId : String

/-- A publication of the public space, as the graph source lists it. -/
structure SourcePublication where
  documentId : String
  documentVersionId : String
  publicationId : String
  contentManifestId : String
  contentManifestHash : String

/-- The head of the public graph source. -/
structure SourceHeadRow where
  sourceRevision : ℕ
  sourceManifestId : Option String
  sourceManifestHash : Option String
  sourceHeadFence : ℕ

/-- A manifest of the public graph source. -/
structure SourceManifestRow where
  sourceRevision : ℕ
  sourceManifestHash : String
  publications : List SourcePublication
  sourceHeadFence : ℕ

/-- A change of the public graph source. -/
structure SourceChangeRow where
  documentId : String
  changeType : ChangeType
  manifestId : String

/-- An accepted deletion; once its manifest is sealed, with the time and the number of targets. -/
structure DeletionRow where
  deletionId : String
  version : ℕ
  status : DeletionStatus
  requestedAt : Time
  completedAt : Option Time
  sealedAt : Option (Time × ℕ)

/-- A resource that a deletion has to clean up. -/
structure TargetRow where
  state : TargetState
  attemptCount : ℕ

/-- A recorded request: its fingerprint, and the answer once it is completed. -/
structure IdempotencyRow where
  requestFingerprint : String
  response : Option JsonObject

/-! ### The database -/

/-- The counters of an instance. -/
inductive Counter
  | indexRevision
  | publicSourceRevision
  | publicSourceHeadFence
  deriving DecidableEq

/-- The keys of the database. -/
inductive Key
  | document (documentId : String)
  | version (documentId versionId : String)
  | job (documentId jobId : String)
  | attempt (documentId jobId attemptId : String)
  | attemptLease (documentId jobId attemptId : String)
  | publication (documentId publicationId : String)
  | hold (documentId jobId : String)
  | grant (documentId jobId : String)
  | debit (documentId jobId : String)
  | item (documentId jobId : String)
  | deletion (documentId : String)
  | claim (spaceId normalizedFilename contentHash : String)
  | plainItem (batchId itemId : String)
  | batch (batchId : String)
  | deletionTarget (deletionId backendKind resourceId : String)
  | counter (name : Counter)
  | indexRevision (revision : ℕ)
  | indexChange (revision : ℕ)
  | generation (generationId : String)
  | generationChange (generationId : String) (revision : ℕ)
  | generationHead
  | sourceHead
  | sourceManifest (manifestId : String)
  /-- The unique index of the revisions of the manifests. -/
  | sourceRevision (revision : ℕ)
  /-- The unique index of the hashes of the manifests. -/
  | sourceHash (hash : String)
  | sourceChange (revision : ℕ)
  | idempotency (actorId endpoint targetId key : String)
  deriving DecidableEq

/-- The row under a key. -/
@[reducible] def Row : Key → Type
  | .document _ => DocumentRow
  | .version _ _ => VersionRow
  | .job _ _ => JobRow
  | .attempt _ _ _ => AttemptRow
  | .attemptLease _ _ _ => AttemptLeaseRow
  | .publication _ _ => PublicationRow
  | .hold _ _ => HoldRow
  | .grant _ _ => GrantRow
  | .debit _ _ => DebitRow
  | .item _ _ => ItemRow
  | .deletion _ => DeletionRow
  | .claim _ _ _ => ClaimRow
  | .plainItem _ _ => PlainItemRow
  | .batch _ => BatchRow
  | .deletionTarget _ _ _ => TargetRow
  | .counter _ => ℕ
  | .indexRevision _ => IndexRevisionRow
  | .indexChange _ => IndexChangeRow
  | .generation _ => GenerationStatus
  | .generationChange _ _ => Unit
  | .generationHead => String
  | .sourceHead => SourceHeadRow
  | .sourceManifest _ => SourceManifestRow
  | .sourceRevision _ => Unit
  | .sourceHash _ => Unit
  | .sourceChange _ => SourceChangeRow
  | .idempotency _ _ _ _ => IdempotencyRow

/-- The database. -/
abbrev Db := Store Row

/-- A transaction. -/
abbrev Tx := Prog Row Err

/-! ### The lock of a document -/

/-- The document a row belongs to; a lease is left to whoever renews it. -/
def owner : (k : Key) → Row k → Option String
  | .document d, _ => some d
  | .version d _, _ => some d
  | .job d _, _ => some d
  | .attempt d _ _, _ => some d
  | .publication d _, _ => some d
  | .hold d _, _ => some d
  | .grant d _, _ => some d
  | .debit d _, _ => some d
  | .item d _, _ => some d
  | .deletion d, _ => some d
  | .claim _ _ _, r => some r.documentId
  | _, _ => none

/-- Whoever touches what belongs to a document locks the row of the document first. -/
def guards : Guards Row String where
  under := owner
  lock := .document

end RagQs.Documents
