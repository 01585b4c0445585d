import RagQs.Documents.Uploads

/-!
# Ingestion jobs

The transactions that take a job through its attempts: a worker claims it, renews its lease,
hands in a receipt or reports a failure; expired leases are reclaimed; a job is cancelled, or
replayed by an operator.  What the indexing handoff, the authorization and the notifications
answer, the clock and the new identifiers are arguments.

## Main definitions

* `retryDelay` — how long a job waits before its next attempt.
* `claimJob`, `renewLease`, `reclaimExpired` — attempts and their leases.
* `replaceDedupClaim`, `recordPublicationQuota`, `acceptReceipt` — the publication of a version.
* `failJob`, `cancelJob`, `replayJob` — the other ends of a job, and its new beginning.
-/

namespace RagQs.Documents

open Txn

/-! ### Reads of the attempts of a job -/

/-- The row is an attempt of the job in a replay generation of it. -/
def attemptOf (documentId jobId : String) (replayGeneration : ℕ) : (k : Key) → Row k → Bool
  | .attempt d j _, r => d = documentId ∧ j = jobId ∧ r.replayGeneration = replayGeneration
  | _, _ => false

/-- `func.count()` over the attempts of a job in a replay generation. -/
def attemptCount (v : Db) (documentId jobId : String) (replayGeneration : ℕ) : ℕ :=
  (table v fun k r =>
    if attemptOf documentId jobId replayGeneration k r then some k else none).length

/-- A column of the attempts of a job. -/
def attemptColumn (v : Db) (documentId jobId : String) (column : AttemptRow → ℕ) : List ℕ :=
  table v fun
    | .attempt d j _, r => if d = documentId ∧ j = jobId then some (column r) else none
    | _, _ => none

/-- `func.max` of a column, zero where there is no row. -/
def maxOf (l : List ℕ) : ℕ := l.foldr max 0

/-- `(1, 5, 30)[attempt_count - 1]`; the index -1 is that of the last entry. -/
def retryMinutes (attemptCount : ℕ) : Except Err ℕ :=
  match attemptCount with
  | 0 => .ok 30
  | n + 1 =>
    match [1, 5, 30][n]? with
    | some minutes => .ok minutes
    | none => .error (.internal "tuple index out of range")

/-- `timedelta(seconds=base_minutes * 60 * (80 + jitter) / 100)` -/
def retryDelay (attemptCount jitter : ℕ) : Except Err Time :=
  (retryMinutes attemptCount).map fun minutes => minutes * 60 * (80 + jitter) * 10000

/-! ### Claims and leases -/

/-- The claim of a job by a worker; `picked` is the runnable job the database returns first. -/
structure ClaimCall where
  workerId : String
  picked : Option (String × String)
  newPublicationId : String
  attemptId : String
  now : Time

/-- The job waits for a worker, and its time has come. -/
def claimable (v : Db) (documentId jobId : String) (now : Time) : Option JobRow :=
  (v.get (.job documentId jobId)).filter fun r =>
    (r.state = .pending ∨ r.state = .retryWait) ∧ r.nextAttemptAt.all fun t => t ≤ now

/-- `job_unavailable` -/
def jobUnavailable : Err :=
  refused "job_unavailable" "No runnable ingestion job was found" 409

/-- What a worker holds. -/
structure JobLease where
  jobId : String
  attemptId : String
  attemptNumber : ℕ
  fencingToken : ℕ
  publicationId : String
  expectedGenerationId : String
  restorePending : Bool

/-- The publication of a claim: the staged one of the job, or a new one. -/
def claimPublication (documentId jobId : String) (job : JobRow) (newPublicationId : String) :
    Tx (String × String) := do
  let publication ← readRow (Key.publication documentId job.activePublicationId)
  match publication.filter fun r => r.status = .staged with
  | some r => pure (job.activePublicationId, r.generationId)
  | none => do
    let generationId ← currentIndexGeneration
    insertPublication documentId newPublicationId
      (stagedPublication job.documentVersionId jobId generationId)
    let _ ← updateWhere (Key.job documentId jobId) (fun _ => true)
      fun r => { r with activePublicationId := newPublicationId }
    pure (newPublicationId, generationId)

/-- The attempt of a claim, with the staged publication it works on. -/
def startAttempt (env : Env) (a : ClaimCall) (d j : String) (document : DocumentRow) (job : JobRow)
    (lastNumber lastFence : ℕ) (publicationId generationId : String) : Tx JobLease := do
  let activeGenerationId ← currentIndexGeneration
  (if generationId ≠ activeGenerationId then
    updatePublication d publicationId fun r => { r with generationId := activeGenerationId }
  else pure ())
  let version ← readRow (Key.version d job.documentVersionId)
  let indexRevision ← currentIndexRevision
  let authorizationFence ← workerAuthorizationFence d j job document
  let cycle ← Prog.select fun v : Db => attemptCount v d j job.replayGeneration
  let staging : StagingRequest :=
    { publicationId, operation := job.operation,
      baseActiveVersionId := job.baseActiveVersionId,
      expectedGenerationId := activeGenerationId, indexRevisionAtStart := indexRevision,
      authorizationFence, inputManifestHash := version.map (·.contentHash) }
  insert .integrity [.attempt d j a.attemptId]
    [⟨.attempt d j a.attemptId, some
      { attemptNumber := lastNumber + 1, cycleAttemptNumber := cycle + 1,
        replayGeneration := job.replayGeneration, state := .running,
        fencingToken := lastFence + 1, publicationId := some publicationId,
        stagingRequest := some staging, receipt := none, failureReason := none }⟩]
  insert .integrity [] [⟨.attemptLease d j a.attemptId, some
    ⟨a.workerId, some (a.now + env.leaseTtl)⟩⟩]
  let _ ← updateWhere (Key.job d j) (fun r => r.state = .pending ∨ r.state = .retryWait)
    fun r => { r with state := .running, activeAttemptId := some a.attemptId,
                      nextAttemptAt := none }
  updatePublication d publicationId fun r => { r with attemptId := some a.attemptId }
  recordItemState d j job.uploadBatchId .running
  let hold ← readRow (Key.hold d j)
  pure ⟨j, a.attemptId, lastNumber + 1, lastFence + 1, publicationId, activeGenerationId,
    hold.isSome⟩

/-- The claim transaction of `DocumentsJobCoordinator.claim`. -/
def claimJob (env : Env) (a : ClaimCall) : Tx JobLease := do
  let candidate ← Prog.select fun v : Db =>
    a.picked.filter fun x => (claimable v x.1 x.2 a.now).isSome
  let x ← orRaise candidate jobUnavailable
  let document ← lockedDocument x.1
  let document ← orRaise document jobUnavailable
  let job ← Prog.selectForUpdate
    (fun v : Db => (claimable v x.1 x.2 a.now).toList.map fun _ => Key.job x.1 x.2)
    fun v => claimable v x.1 x.2 a.now
  let job ← orRaise job jobUnavailable
  let lastNumber ← Prog.select fun v : Db => maxOf (attemptColumn v x.1 x.2 (·.attemptNumber))
  let lastFence ← Prog.select fun v : Db => maxOf (attemptColumn v x.1 x.2 (·.fencingToken))
  let publication ← claimPublication x.1 x.2 job a.newPublicationId
  startAttempt env a x.1 x.2 document job lastNumber lastFence publication.1 publication.2

/-- The claim a lease is renewed for. -/
structure RenewCall where
  documentId : String
  jobId : String
  attemptId : String
  owner : String
  fencingToken : ℕ
  ttl : Time
  now : Time

/-- The lease of the attempt may be renewed, as far as the attempt itself says. -/
def renewable (v : Db) (a : RenewCall) : Bool :=
  (v.get (.attempt a.documentId a.jobId a.attemptId)).any (fun r =>
    r.state = .running ∧ r.fencingToken = a.fencingToken) ∧
  (v.get (.attemptLease a.documentId a.jobId a.attemptId)).any fun r =>
    r.owner = a.owner ∧ r.expiresAt.any fun t => a.now < t

/-- The job still runs the attempt. -/
def runs (v : Db) (documentId jobId attemptId : String) : Bool :=
  (v.get (.job documentId jobId)).any fun r =>
    r.state = .running ∧ r.activeAttemptId = some attemptId

/-- `DocumentsJobCoordinator.renew`: whether the lease was renewed. -/
def renewLease (a : RenewCall) : Tx Bool := do
  let held := fun v : Db => renewable v a && runs v a.documentId a.jobId a.attemptId
  let attempt ← Prog.selectForUpdate
    (fun v : Db => if held v then [Key.attempt a.documentId a.jobId a.attemptId,
      Key.attemptLease a.documentId a.jobId a.attemptId, Key.job a.documentId a.jobId] else [])
    held
  if attempt then
    Prog.update
      (fun v : Db => if renewable v a then
        (v.get (.attemptLease a.documentId a.jobId a.attemptId)).toList.map fun r =>
          ⟨.attemptLease a.documentId a.jobId a.attemptId,
            some { r with expiresAt := some (a.now + a.ttl) }⟩ else [])
      fun v => renewable v a
  else pure false

/-- An attempt with its lease, locked. -/
def lockedAttempt (documentId jobId attemptId : String) :
    Tx (Option (AttemptRow × Option Time)) :=
  Prog.selectForUpdate
    (fun v : Db => (v.get (.attempt documentId jobId attemptId)).toList.flatMap fun _ =>
      [Key.attempt documentId jobId attemptId, Key.attemptLease documentId jobId attemptId])
    fun v => (v.get (.attempt documentId jobId attemptId)).map fun r =>
      (r, (v.get (.attemptLease documentId jobId attemptId)).bind (·.expiresAt))

/-- The lease of an attempt ends with it. -/
def endLease (documentId jobId attemptId : String) : Tx Unit := do
  let _ ← updateWhere (Key.attemptLease documentId jobId attemptId) (fun _ => true)
    fun r => { r with expiresAt := none }

/-! ### The end of a job's operation -/

/-- The version of a job that did not succeed. -/
def retireVersion (env : Env) (documentId versionId : String) (status : VersionState)
    (now : Time) : Tx Unit := do
  let _ ← updateWhere (Key.version documentId versionId) (fun _ => true) fun r =>
    { r with status, terminalAt := some now, purgeAfterAt := some (now + env.versionRetention) }

/-- The retry of a job that is to be retried: how long it waits. -/
def retryIn (willRetry : Bool) (attemptCount jitter : ℕ) : Tx (Option Time) :=
  if willRetry then some <$> check (retryDelay attemptCount jitter) else pure none

/-- The document has no operation any more; only `where` the operation is still that of the job
when the caller asks for it. -/
def releaseDocument (documentId : String) (document : DocumentRow) (versioned : Bool)
    (guardedBy : Option String) : Tx Unit := do
  let _ ← updateWhere (Key.document documentId)
    (fun d => guardedBy.all fun j => d.activeOperationJobId = some j) fun d =>
    { d with
      pendingVersionId := if versioned then none else d.pendingVersionId
      activeOperationJobId := none
      version := document.version + 1 }

/-- The dedup claims of a document for a version. -/
def claimsOf (documentId : String) (versionId : Option String) :
    (k : Key) → Row k → Option (Option (Row k))
  | .claim _ _ _, r =>
    if r.documentId = documentId ∧ versionId.all fun v => r.documentVersionId = v then some none
    else none
  | _, _ => none

/-- `upload_dedup_claims_table.delete()` of the claims of a version. -/
def deleteClaims (documentId : String) (versionId : Option String) : Tx Unit := do
  let _ ← updateAll (claimsOf documentId versionId)

/-- A job is over without having succeeded: its version and the document. -/
def closeJob (env : Env) (documentId : String) (document : DocumentRow) (job : JobRow)
    (status : VersionState) (guardedBy : Option String) (now : Time) : Tx Unit :=
  if job.operation.versioned then do
    retireVersion env documentId job.documentVersionId status now
    releaseDocument documentId document true guardedBy
  else releaseDocument documentId document false guardedBy

/-- The dedup claims for the version of a job that is over. -/
def disclaimJob (documentId : String) (job : JobRow) : Tx Unit :=
  if job.operation.versioned then deleteClaims documentId (some job.documentVersionId)
  else pure ()

/-! ### Leases that expired -/

/-- What the reclaim of an expired attempt writes. -/
def expireAttempt (env : Env) (now : Time) (jitter : ℕ) (discarded : Except Err Unit)
    (d j attemptId : String) (document : DocumentRow) (job : JobRow) (attempt : AttemptRow) :
    Tx Unit := do
  let count ← Prog.select fun v : Db => attemptCount v d j job.replayGeneration
  let willRetry : Bool := count < 4
  let delay ← retryIn willRetry count jitter
  let next : JobState := if willRetry then .retryWait else .deadLetter
  discardIndexingAttempt d j (some attemptId) discarded
  let _ ← updateWhere (Key.attempt d j attemptId)
    (fun r => r.state = .running ∧ r.fencingToken = attempt.fencingToken) fun r =>
    { r with state := .expired, publicationId := none, failureReason := some "lease_expired" }
  endLease d j attemptId
  deleteStaged d (some j)
  let _ ← updateWhere (Key.job d j)
    (fun r => r.state = .running ∧ r.activeAttemptId = some attemptId) fun r =>
    { r with state := next, activeAttemptId := none, failureReason := some "lease_expired",
             nextAttemptAt := delay.map fun t => now + t }
  (if willRetry then pure () else closeJob env d document job .failed (some j) now)
  recordItemState d j job.uploadBatchId next.item

/-- One job of `_reclaim_expired_attempts`. -/
def reclaimJob (env : Env) (now : Time) (jitter : ℕ) (discarded : Except Err Unit)
    (d j : String) : Tx Unit := do
  let document ← lockedDocument d
  match document with
  | none => pure ()
  | some document => do
    let job ← lockedJob d j
    let job ← orRaise job (.internal "No row was found when one was required")
    match job.activeAttemptId with
    | none => pure ()
    | some attemptId =>
      if job.state = .running then do
        let attempt ← lockedAttempt d j attemptId
        match attempt with
        | none => pure ()
        | some (attempt, expiresAt) =>
          if attempt.state = .running ∧ expiresAt.any (fun t => t ≤ now) then
            expireAttempt env now jitter discarded d j attemptId document job attempt
          else pure ()
      else pure ()

/-- The jobs that run. -/
def runningJobs (v : Db) : List (String × String) :=
  table v fun
    | .job d j, r => if r.state = .running then some (d, j) else none
    | _, _ => none

/-- The jobs of `_reclaim_expired_attempts`, one after the other. -/
def reclaimJobs (env : Env) (now : Time) (jitter : String → ℕ)
    (discarded : String → Except Err Unit) : List (String × String) → Tx Unit
  | [] => pure ()
  | (d, j) :: jobs => do
    reclaimJob env now (jitter j) (discarded j) d j
    reclaimJobs env now jitter discarded jobs

/-- `_reclaim_expired_attempts` -/
def reclaimExpired (env : Env) (now : Time) (jitter : String → ℕ)
    (discarded : String → Except Err Unit) : Tx Unit := do
  let jobs ← Prog.select runningJobs
  reclaimJobs env now jitter discarded jobs

/-! ### The acceptance of a receipt -/

/-- `fence_conflict` -/
def fenceConflict : Err :=
  refused "fence_conflict" "The processing attempt is no longer current" 409

/-- `processing_receipt_conflict` -/
def receiptConflict : Err :=
  refused "processing_receipt_conflict" "Processing receipt does not match the job" 409

/-- `document_version_changed` -/
def versionChanged : Err :=
  refused "document_version_changed"
    "The document active version has changed since this job was created" 409

/-- `duplicate_document` -/
def duplicateDocument : Err :=
  refused "duplicate_document" "A document with the same name and content already exists" 409

/-- A claim of the document other than the one it keeps. -/
def otherClaims (documentId spaceId normalizedFilename contentHash : String) :
    (k : Key) → Row k → Option (Option (Row k))
  | .claim s n h, r =>
    if r.documentId = documentId ∧ ¬ (s = spaceId ∧ n = normalizedFilename ∧ h = contentHash) then
      some none
    else none
  | _, _ => none

/-- What `_replace_dedup_claim` makes of the claim there is: whether it is the document's own.
That of a document that has gone is deleted. -/
def keepDedupClaim (documentId : String) (claim : Key) (target : Option ClaimRow) : Tx Bool :=
  match target with
  | none => pure false
  | some target =>
    if target.documentId = documentId then pure true
    else do
      let owner ← readRow (Key.document target.documentId)
      raiseIf (!gone (owner.map (·.lifecycleStatus))) duplicateDocument
      deleteRow claim
      pure false

/-- `_replace_dedup_claim` -/
def replaceDedupClaim (env : Env) (documentId versionId : String) (document : DocumentRow)
    (version : VersionRow) : Tx Unit := do
  let name ← check (normalizeFilename env version.fileName)
  let claim := claimKey document.spaceId name.2 version.contentHash
  let row : ClaimRow := ⟨documentId, versionId⟩
  let target ← lockRow (Key.claim document.spaceId name.2 version.contentHash)
  let kept ← keepDedupClaim documentId claim target
  (if kept then do
    let _ ← updateWhere (Key.claim document.spaceId name.2 version.contentHash) (fun _ => true)
      fun r => { r with documentVersionId := versionId }
  else do
    let claimed ← insertOrSkip .integrity claim []
      [⟨Key.claim document.spaceId name.2 version.contentHash, some row⟩]
    raiseIf (!claimed) duplicateDocument)
  let _ ← updateAll (otherClaims documentId document.spaceId name.2 version.contentHash)

/-- The receipt of a worker.  Arguments are: whether the receipt is well formed and fits the
staging request, the authorization at both times it is asked for, the answer of the handoff, the
input checks of the quota service, the notifications, and the outbox of the graph source. -/
structure ReceiptCall where
  documentId : String
  jobId : String
  receipt : Receipt
  checkedAt : Time
  now : Time
  wellFormed : Except Err Unit
  fits : Except Err Unit
  authorized : Except Err Unit
  authorizedAgain : Except Err Unit
  published : Except Err Bool
  quotaInput : Except Err Unit
  debitId : String
  notified : Except Err Unit
  sourceManifestId : String
  sourcePublished : Except Err Unit

/-- The roles without a quota. -/
def unlimitedRole (role : String) : Bool := role ∈ ["ops", "admin"]

/-- `append_debit`: none where the job is exempt, else the debit of the job. -/
def appendDebit (d : String) (a : ReceiptCall) (job : JobRow) : Tx (Option String) := do
  check a.quotaInput
  if job.quotaExemptReason.isSome ∨ unlimitedRole job.quotaRoleSnapshot ∨ 0 < job.replayGeneration
  then pure none
  else do
    let debit ← readRow (Key.debit d a.jobId)
    match debit with
    | some r =>
      if r.publicationId = a.receipt.publicationId ∧ r.subjectUserId = job.executionActor
          ∧ r.pages = a.receipt.pages then pure (some r.debitId)
      else throw (refused "ledger_invariant_conflict" "The debit conflicts with a recorded one" 409)
    | none => do
      insert .integrity [.debit d a.jobId]
        [⟨.debit d a.jobId, some
          ⟨a.debitId, a.receipt.publicationId, job.executionActor, a.receipt.pages⟩⟩]
      pure (some a.debitId)

/-- `_record_publication_quota` with the status the caller records. -/
def recordPublicationQuota (env : Env) (d : String) (a : ReceiptCall) (job : JobRow) :
    Tx (ChargeStatus × Option String) :=
  if !env.quotaService then pure (.notApplicable, some "quota_service_unavailable")
  else do
    raiseIf a.receipt.processingListId.isNone (refused "validation_error"
      "Processing receipt has no frozen processing list" 422)
    let debit ← appendDebit d a job
    if debit.isSome then pure (.charged, none)
    else if job.quotaExemptReason.isSome then pure (.exempt, job.quotaExemptReason)
    else if unlimitedRole job.quotaRoleSnapshot then pure (.exempt, some "unlimited_role")
    else if 0 < job.replayGeneration then pure (.exempt, some "replay_generation")
    else pure (.notCharged, some "quota_debit_not_recorded")

/-- The lifecycle and the operation of the document still allow the receipt of the job. -/
def DocumentRow.assertOperation (document : DocumentRow) (jobId : String) (job : JobRow) :
    Except Err Unit :=
  match document.lifecycleStatus with
  | .pendingDelete =>
    .error (refused "document_pending_delete" "Document is pending deletion" 409)
  | .deleted => .error (refused "document_deleted" "Document has been deleted" 410)
  | .active =>
    if document.activeOperationJobId ≠ some jobId then .error fenceConflict
    else if job.operation.versioned then
      if document.pendingVersionId ≠ some job.documentVersionId then .error versionChanged
      else .ok ()
    else if document.pendingVersionId.isSome then .error versionChanged
    else .ok ()

/-- The checks of a receipt up to the publication by the handoff. -/
def checkReceipt (d : String) (a : ReceiptCall) (document : DocumentRow) (job : JobRow)
    (attemptId : String) : Tx Unit := do
  let r := a.receipt
  let attempt ← lockedAttempt d a.jobId attemptId
  match attempt.filter fun x => x.1.state = .running with
  | none => throw fenceConflict
  | some (attempt, expiresAt) => do
    raiseIf (!expiresAt.any fun t => a.checkedAt < t) fenceConflict
    check a.wellFormed
    raiseIf (r.fencingToken ≠ attempt.fencingToken) fenceConflict
    let expected ← workerAuthorizationFence d a.jobId job document
    let staging ← orRaise attempt.stagingRequest receiptConflict
    raiseIf (staging.authorizationFence ≠ expected) receiptConflict
    check a.authorized
    raiseIf (r.generationId ≠ staging.expectedGenerationId) (refused "generation_conflict"
      "The processing receipt generation is no longer current" 409)
    raiseIf (¬ (r.jobId = a.jobId ∧ r.documentId = d
      ∧ r.documentVersionId = job.documentVersionId
      ∧ r.publicationId = job.activePublicationId)) receiptConflict
    let publication ← lockRow (Key.publication d r.publicationId)
    check (document.assertOperation a.jobId job)
    let version ← lockRow (Key.version d job.documentVersionId)
    let version ← orRaise version receiptConflict
    raiseIf (r.inputContentHash.any fun h => h ≠ version.contentHash) receiptConflict
    raiseIf (!publication.any fun x => x.status = .staged) receiptConflict
    check a.fits
    let published ← check a.published
    raiseIf (!published)
      (refused "indexing_publish_failed" "The indexing handoff did not confirm publication" 409)

/-- The version that was active before. -/
def supersedeVersion (env : Env) (d versionId : String) (old : Option String) (now : Time) :
    Tx Unit :=
  match old with
  | none => pure ()
  | some old =>
    if old ≠ versionId then do
      let _ ← updateWhere (Key.version d old) (fun _ => true) fun r =>
        { r with status := .superseded, supersededAt := some now, terminalAt := some now,
                 purgeAfterAt := some (now + env.versionRetention) }
    else pure ()

/-- The version of a receipt becomes the active one of its document. -/
def activateVersion (env : Env) (d : String) (a : ReceiptCall) (document : DocumentRow)
    (job : JobRow) : Tx Unit := do
  let version ← readRow (Key.version d job.documentVersionId)
  let version ← orRaise version (.internal "No row was found when one was required")
  replaceDedupClaim env d job.documentVersionId document version
  let _ ← updateWhere (Key.version d job.documentVersionId) (fun _ => true)
    fun r => { r with status := .active, activatedAt := some a.now }
  supersedeVersion env d job.documentVersionId document.activeVersionId a.now
  let name ← check (normalizeFilename env version.fileName)
  let _ ← updateWhere (Key.document d) (fun _ => true) fun r =>
    { r with
      activeVersionId := some job.documentVersionId
      pendingVersionId := none
      activeOperationJobId := none
      version := document.version + 1
      name := version.fileName
      normalizedName := name.2
      mediaKind := version.mediaKind }

/-- The attempt of a receipt. -/
def succeedAttempt (d : String) (a : ReceiptCall) (job : JobRow) (attemptId : String) :
    Tx Unit := do
  let existing ← readRow (Key.attempt d a.jobId attemptId)
  if existing.isSome then do
    let _ ← updateWhere (Key.attempt d a.jobId attemptId) (fun _ => true)
      fun r => { r with state := .succeeded, receipt := some a.receipt }
    endLease d a.jobId attemptId
  else
    insert .integrity [.attempt d a.jobId attemptId]
      [⟨.attempt d a.jobId attemptId, some
        { attemptNumber := 1, cycleAttemptNumber := 1, replayGeneration := job.replayGeneration,
          state := .succeeded, fencingToken := 1, publicationId := some a.receipt.publicationId,
          stagingRequest := none, receipt := some a.receipt, failureReason := none }⟩]

/-- What the acceptance of a receipt writes. -/
def publishReceipt (env : Env) (d : String) (a : ReceiptCall) (document : DocumentRow)
    (job : JobRow) (attemptId : String) : Tx Unit := do
  succeedAttempt d a job attemptId
  updatePublication d a.receipt.publicationId fun r =>
    { r with status := .active, attemptId := some attemptId,
             generationId := a.receipt.generationId, resourceManifest := some a.receipt,
             activatedAt := some a.now }
  supersedePublications d (some a.receipt.publicationId) a.now
  (if job.operation.versioned then activateVersion env d a document job
  else do
    let _ ← updateWhere (Key.document d) (fun _ => true) fun r =>
      { r with activeOperationJobId := none, version := document.version + 1 })
  let charge ← recordPublicationQuota env d a job
  let _ ← updateWhere (Key.publication d a.receipt.publicationId) (fun _ => true)
    fun r => { r with quotaChargeStatus := charge.1, quotaChargeReason := charge.2 }
  check a.notified
  let _ ← updateWhere (Key.job d a.jobId) (fun _ => true) fun r =>
    { r with state := .succeeded, activeAttemptId := some attemptId,
             quotaChargeStatus := charge.1, quotaChargeReason := charge.2 }
  recordItemState d a.jobId job.uploadBatchId .succeeded
  appendIndexChange env a.receipt.generationId a.sourceManifestId
    ⟨d, some job.documentVersionId, some a.receipt.publicationId, job.operation.changeType,
      document.spaceId⟩ a.sourcePublished

/-- `_accept_processing_receipt_transaction` -/
def acceptReceipt (env : Env) (a : ReceiptCall) : Tx JobState := do
  let d := a.documentId
  let found ← readRow (Key.job d a.jobId)
  let _ ← orRaise found (refused "job_not_found" "Ingestion job was not found" 404)
  let document ← lockedDocument d
  let document ← orRaise document documentNotFound
  let job ← lockedJob d a.jobId
  let job ← orRaise job (refused "job_not_found" "Ingestion job was not found" 404)
  if job.state = .succeeded then pure .succeeded
  else do
    raiseIf (job.state ≠ .running) (refused "fence_conflict"
      "The processing job does not have a current running attempt" 409)
    let attemptId ← orRaise job.activeAttemptId (refused "fence_conflict"
      "The processing job does not have a current running attempt" 409)
    raiseIf (a.receipt.attemptId ≠ attemptId) fenceConflict
    checkReceipt d a document job attemptId
    let final ← lockedDocument d
    let final ← orRaise final documentNotFound
    let finalJob ← lockedJob d a.jobId
    let finalJob ← orRaise finalJob fenceConflict
    raiseIf (¬ (finalJob.state = .running ∧ finalJob.activeAttemptId = some attemptId))
      fenceConflict
    check (final.assertOperation a.jobId finalJob)
    raiseIf (final.activeVersionId ≠ finalJob.baseActiveVersionId) versionChanged
    let _ ← workerAuthorizationFence d a.jobId finalJob final
    check a.authorizedAgain
    publishReceipt env d a final finalJob attemptId
    pure .succeeded

/-! ### The other ends of a job -/

/-- The failure of an attempt, as its worker reports it. -/
structure FailCall where
  documentId : String
  jobId : String
  reason : String
  retryable : Bool
  attemptId : Option String
  fencingToken : Option ℕ
  jitter : ℕ
  now : Time
  notified : Except Err Unit
  discarded : Except Err Unit

/-- `fail_job` -/
def failJob (env : Env) (a : FailCall) : Tx JobState := do
  let d := a.documentId
  let found ← readRow (Key.job d a.jobId)
  let _ ← orRaise found (refused "job_not_found" "Ingestion job was not found" 404)
  let document ← lockedDocument d
  let document ← orRaise document documentNotFound
  let job ← lockedJob d a.jobId
  let job ← orRaise job (refused "job_not_found" "Ingestion job was not found" 404)
  raiseIf (job.state.live = false)
    (refused "job_not_failable" "The ingestion job is already terminal" 409)
  raiseIf (job.state ≠ .running)
    (refused "fence_conflict" "The ingestion job has no current running attempt" 409)
  let attemptId ← orRaise job.activeAttemptId
    (refused "fence_conflict" "The ingestion job has no current running attempt" 409)
  let attempt ← lockedAttempt d a.jobId attemptId
  let attempt ← orRaise attempt fenceConflict
  raiseIf (¬ (attempt.1.state = .running ∧ a.attemptId = some attemptId
    ∧ a.fencingToken = some attempt.1.fencingToken)) fenceConflict
  let count ← Prog.select fun v : Db => attemptCount v d a.jobId job.replayGeneration
  let willRetry : Bool := a.retryable && count < 4
  let next : JobState :=
    if willRetry then .retryWait else if a.retryable then .deadLetter else .failed
  let delay ← retryIn willRetry count a.jitter
  (if willRetry then pure () else check a.notified)
  discardIndexingAttempt d a.jobId (some attemptId) a.discarded
  let _ ← updateWhere (Key.attempt d a.jobId attemptId) (fun _ => true) fun r =>
    { r with state := .failed, publicationId := none, failureReason := some a.reason }
  endLease d a.jobId attemptId
  let _ ← updateWhere (Key.job d a.jobId)
    (fun r => r.state = .running ∧ r.activeAttemptId = some attemptId) fun r =>
    { r with state := next, activeAttemptId := none, failureReason := some a.reason,
             nextAttemptAt := delay.map fun t => a.now + t }
  deleteStaged d (some a.jobId)
  (if willRetry then pure () else do
    closeJob env d document job .failed none a.now
    disclaimJob d job)
  recordItemState d a.jobId job.uploadBatchId next.item
  pure next

/-- The cancellation of a job; whether it is allowed, and the notification, are arguments. -/
structure CancelCall where
  documentId : String
  jobId : String
  now : Time
  allowed : Bool
  notified : Except Err Unit
  discarded : Except Err Unit

/-- The attempt of a cancelled job, with a fence no worker holds. -/
def cancelAttempt (d j : String) (attemptId : Option String) : Tx Unit :=
  match attemptId with
  | none => pure ()
  | some attemptId => do
    let lastFence ← Prog.select fun v : Db => maxOf (attemptColumn v d j (·.fencingToken))
    let _ ← updateWhere (Key.attempt d j attemptId) (fun _ => true) fun r =>
      { r with state := .cancelled, fencingToken := lastFence + 1, publicationId := none }
    endLease d j attemptId

/-- `cancel_job` -/
def cancelJob (env : Env) (a : CancelCall) : Tx JobState := do
  let d := a.documentId
  let found ← readRow (Key.job d a.jobId)
  let _ ← orRaise found (refused "job_not_found" "Ingestion job was not found" 404)
  let document ← lockedDocument d
  let document ← orRaise document documentNotFound
  let job ← lockedJob d a.jobId
  let job ← orRaise job (refused "job_not_found" "Ingestion job was not found" 404)
  raiseIf (!a.allowed) (refused "space_action_forbidden" "Space action is not allowed" 403)
  if job.state = .cancelled then pure .cancelled
  else do
    raiseIf (job.state.live = false)
      (refused "job_not_cancellable" "The ingestion job cannot be cancelled" 409)
    check a.notified
    discardIndexingAttempt d a.jobId job.activeAttemptId a.discarded
    let _ ← updateWhere (Key.job d a.jobId) (fun r => r.state = job.state) fun r =>
      { r with state := .cancelled, activeAttemptId := none }
    cancelAttempt d a.jobId job.activeAttemptId
    deleteStaged d (some a.jobId)
    closeJob env d document job .cancelled none a.now
    disclaimJob d job
    recordItemState d a.jobId job.uploadBatchId .cancelled
    pure .cancelled

/-- The replay of a job by an operator. -/
structure ReplayCall where
  principal : Principal
  documentId : String
  jobId : String
  key : String
  fingerprint : String
  publicationId : String
  now : Time
  authorized : Except Err Unit

/-- `_assert_replay_eligible` -/
def assertReplayEligible (d : String) (a : ReplayCall) (job : JobRow) (document : DocumentRow) :
    Tx Unit := do
  let purged := refused "document_version_purged" "Document version content was purged" 410
  check a.authorized
  match document.lifecycleStatus with
  | .pendingDelete =>
    throw (refused "document_pending_delete" "Document is pending deletion" 409)
  | .deleted => throw (refused "document_deleted" "Document has been deleted" 410)
  | .active => do
    raiseIf (document.activeOperationJobId.any fun j => j ≠ a.jobId)
      (refused "document_operation_in_progress" "A document operation is active" 409)
    raiseIf (document.activeVersionId ≠ job.baseActiveVersionId) versionChanged
    let _ ← workerAuthorizationFence d a.jobId job document
    let version ← readRow (Key.version d job.documentVersionId)
    let version ← orRaise version purged
    raiseIf (version.status = .purged) purged
    raiseIf (version.purgeAfterAt.any fun t => t ≤ a.now) purged
    raiseIf ((strip version.originalObjectKey).isEmpty ∨ (strip version.contentHash).isEmpty) purged

/-- A job in this state may be replayed. -/
def JobState.replayable : JobState → Bool
  | .failed | .deadLetter | .cancelled => true
  | _ => false

/-- What the replay of a job writes. -/
def beginReplay (d : String) (a : ReplayCall) (job : JobRow) (document : DocumentRow) :
    Tx Unit := do
  (if job.operation.versioned then do
    let _ ← updateWhere (Key.version d job.documentVersionId) (fun _ => true) fun r =>
      { r with status := .pending, terminalAt := none, purgeAfterAt := none }
  else pure ())
  let generationId ← currentIndexGeneration
  insertPublication d a.publicationId
    (stagedPublication job.documentVersionId a.jobId generationId)
  let _ ← updateWhere (Key.job d a.jobId)
    (fun r => r.state.replayable ∧ r.replayGeneration = job.replayGeneration) fun r =>
    { r with
      state := .pending
      activeAttemptId := none
      activePublicationId := a.publicationId
      replayGeneration := job.replayGeneration + 1
      failureReason := none
      nextAttemptAt := none
      replayedByUserId := some a.principal.userId
      quotaRoleSnapshot := if job.submission then r.quotaRoleSnapshot else a.principal.role }
  let _ ← updateWhere (Key.document d) (fun _ => true) fun r =>
    { r with
      activeOperationJobId := some a.jobId
      version := document.version + 1
      pendingVersionId :=
        if job.operation.versioned then some job.documentVersionId else r.pendingVersionId }
  recordItemState d a.jobId job.uploadBatchId .pending

/-- `replay_job` -/
def replayJob (a : ReplayCall) : Tx JsonObject := do
  let d := a.documentId
  raiseIf (a.principal.role ≠ "ops") (refused "forbidden" "Ops access is required" 403)
  let found ← readRow (Key.job d a.jobId)
  let _ ← orRaise found (refused "job_not_found" "Ingestion job was not found" 404)
  let document ← lockedDocument d
  let document ← orRaise document documentNotFound
  let job ← lockedJob d a.jobId
  let job ← orRaise job (refused "job_not_found" "Ingestion job was not found" 404)
  withIdempotency ⟨a.principal.userId, "documents.job_replay", a.jobId, a.key, a.fingerprint⟩ do
    raiseIf (!job.state.replayable)
      (refused "job_not_replayable" "The ingestion job cannot be replayed" 409)
    assertReplayEligible d a job document
    beginReplay d a job document
    pure [("job_id", .str a.jobId), ("state", .str "pending"),
      ("replay_generation", .int (job.replayGeneration + 1)),
      ("publication_id", .str a.publicationId)]

end RagQs.Documents
