import RagQs.Documents.Shared

/-!
# Uploads, replacements, restores and reindexes

The transactions that give a document a job: the initial upload of a batch of files, the
replacement of the active version, its restoration from an earlier one, and a reindex.

## Main definitions

* `FileInfo`, `fileFingerprint` — a file that was accepted, under its normalized name.
* `createInitialUpload` — a batch of files, of which those that are already there are
  deduplicated.
* `replaceVersion`, `restoreVersion`, `reindex` — a further job of a document.
-/

namespace RagQs.Documents

open Txn

/-- Who makes a request, and under which role. -/
structure Principal where
  userId : String
  role : String

/-! ### Files -/

/-- A file that was accepted; its name is normalized. -/
structure FileInfo (env : Env) where
  filename : String
  normalizedFilename : String
  mediaKind : String
  sizeBytes : ℕ
  contentHash : String
  named : normalizeFilename env filename = .ok (filename, normalizedFilename)

/-! ### The initial upload -/

/-- The identifiers of a new document. -/
structure NewDocument where
  documentId : String
  versionId : String
  jobId : String
  publicationId : String
  itemId : String

/-- A file of a batch: rejected before the transaction, or accepted. -/
inductive UploadState (env : Env)
  | rejected (itemId filename code : String)
  | file (info : FileInfo env) (new : NewDocument)

/-- An initial upload; the authorization and the quota check are arguments. -/
structure UploadCall (env : Env) where
  principal : Principal
  spaceId : String
  files : List (UploadState env)
  key : String
  fingerprint : String
  batchId : String
  authorized : Except Err Unit
  quota : Except Err Unit

/-- The key under which a dedup claim is kept. -/
def claimKey (spaceId normalizedFilename contentHash : String) : Key :=
  .claim spaceId normalizedFilename contentHash

/-- `_deduplicated_upload_item` -/
def deduplicatedUploadItem {env : Env} (a : UploadCall env) (info : FileInfo env) (itemId : String)
    (claim : ClaimRow) : Tx JsonObject := do
  let existing ← readRow (Key.document claim.documentId)
  let versionId := existing.bind fun d => d.activeVersionId.or d.pendingVersionId
  insert .integrity [.plainItem a.batchId itemId]
    [⟨.plainItem a.batchId itemId, some ⟨.deduplicated, some claim.documentId⟩⟩]
  pure [("accepted", .bool true), ("name", .str info.filename), ("space_id", .str a.spaceId),
    ("document_id", .str claim.documentId),
    ("document_version_id", (versionId.map Json.str).getD .null), ("job_id", .null),
    ("publication_id", .null), ("deduplicated", .bool true), ("status", .str "deduplicated")]

/-- The version of an accepted file. -/
def FileInfo.version {env : Env} (info : FileInfo env) (documentId versionId : String)
    (versionNumber : ℕ) : VersionRow :=
  { versionNumber, status := .pending, contentHash := info.contentHash,
    originalObjectKey := "documents/" ++ documentId ++ "/" ++ versionId ++ "/original",
    fileName := info.filename, mediaKind := info.mediaKind, sizeBytes := info.sizeBytes,
    activatedAt := none, terminalAt := none, supersededAt := none, purgeAfterAt := none,
    restoredFromVersionId := none }

/-- A new job that waits for a worker. -/
def newJob (documentVersionId : String) (operation : Operation)
    (baseActiveVersionId uploadBatchId : Option String) (activePublicationId : String)
    (version : ℕ) (principal : Principal) : JobRow :=
  { documentVersionId, operation, state := .pending, baseActiveVersionId, uploadBatchId,
    activeAttemptId := none, activePublicationId, version, replayGeneration := 0,
    nextAttemptAt := none, failureReason := none, createdByUserId := principal.userId,
    replayedByUserId := none, quotaRoleSnapshot := principal.role, quotaExemptReason := none,
    quotaChargeStatus := .pending, quotaChargeReason := none }

/-- The document of an accepted file, with its version, job and staged publication: whether it
got the dedup claim of the file.  Without the claim nothing of it stays. -/
def createDocument {env : Env} (a : UploadCall env) (info : FileInfo env) (new : NewDocument) :
    Tx Bool := do
  insert .integrity [.document new.documentId]
    [⟨.document new.documentId, some
      { spaceId := a.spaceId, lifecycleStatus := .active, activeVersionId := none,
        pendingVersionId := some new.versionId, activeOperationJobId := some new.jobId,
        deletionId := none, version := 1, name := info.filename,
        normalizedName := info.normalizedFilename, mediaKind := info.mediaKind }⟩]
  insert .integrity [.version new.documentId new.versionId]
    [⟨.version new.documentId new.versionId, some (info.version new.documentId new.versionId 1)⟩]
  insert .integrity [.job new.documentId new.jobId]
    [⟨.job new.documentId new.jobId, some (newJob new.versionId .initial none (some a.batchId)
      new.publicationId 1 a.principal)⟩]
  let generationId ← currentIndexGeneration
  insertPublication new.documentId new.publicationId
    (stagedPublication new.versionId new.jobId generationId)
  let claim := claimKey a.spaceId info.normalizedFilename info.contentHash
  let claimed ← insertOrSkip .integrity claim []
    [⟨Key.claim a.spaceId info.normalizedFilename info.contentHash,
      some ⟨new.documentId, new.versionId⟩⟩]
  if claimed then do
    insert .integrity [.item new.documentId new.jobId]
      [⟨.item new.documentId new.jobId, some ⟨a.batchId, .pending⟩⟩]
    pure true
  else do
    deleteRow (Key.publication new.documentId new.publicationId)
    deleteRow (Key.job new.documentId new.jobId)
    deleteRow (Key.version new.documentId new.versionId)
    deleteRow (Key.document new.documentId)
    pure false

/-- One file of a batch. -/
def uploadFile {env : Env} (a : UploadCall env) : UploadState env → Tx JsonObject
  | .rejected itemId filename code => do
    insert .integrity [.plainItem a.batchId itemId]
      [⟨.plainItem a.batchId itemId, some ⟨.rejected, none⟩⟩]
    pure [("accepted", .bool false), ("name", .str filename), ("code", .str code)]
  | .file info new => do
    let claim ← readRow (Key.claim a.spaceId info.normalizedFilename info.contentHash)
    match claim with
    | some claim => deduplicatedUploadItem a info new.itemId claim
    | none => do
      let created ← createDocument a info new
      if created then
        pure [("accepted", .bool true), ("name", .str info.filename),
          ("space_id", .str a.spaceId), ("document_id", .str new.documentId),
          ("document_version_id", .str new.versionId), ("job_id", .str new.jobId),
          ("publication_id", .str new.publicationId), ("deduplicated", .bool false),
          ("status", .str "pending")]
      else do
        let claim ← readRow (Key.claim a.spaceId info.normalizedFilename info.contentHash)
        let claim ← orRaise claim (.internal "No row was found when one was required")
        deduplicatedUploadItem a info new.itemId claim

/-- The files of a batch, one after the other. -/
def uploadFiles {env : Env} (a : UploadCall env) : List (UploadState env) → Tx (List JsonObject)
  | [] => pure []
  | file :: files => do
    let item ← uploadFile a file
    let items ← uploadFiles a files
    pure (item :: items)

/-- `create_initial_upload` -/
def createInitialUpload {env : Env} (a : UploadCall env) : Tx JsonObject := do
  raiseIf a.files.isEmpty (refused "validation_error" "At least one file is required" 422)
  check a.authorized
  withIdempotency ⟨a.principal.userId, "documents.initial_upload", a.spaceId, a.key, a.fingerprint⟩
    do
      check a.quota
      insert .integrity [.batch a.batchId]
        [⟨.batch a.batchId, some ⟨a.principal.userId, a.spaceId, .running⟩⟩]
      let items ← uploadFiles a a.files
      refreshUploadBatch (some a.batchId)
      pure [("upload_batch_id", .str a.batchId), ("items", .list (items.map Json.dict))]

/-! ### Further jobs of a document -/

/-- `_assert_document_writable` -/
def DocumentRow.assertWritable (document : DocumentRow) (expectedVersion : ℕ) : Except Err Unit :=
  match document.lifecycleStatus with
  | .pendingDelete =>
    .error (refused "document_pending_delete" "Document is pending deletion" 409)
  | .deleted => .error (refused "document_deleted" "Document has been deleted" 410)
  | .active =>
    if document.version ≠ expectedVersion then
      .error (refused "document_version_conflict" "The document version does not match" 409)
    else if document.activeOperationJobId.isSome then
      .error (refused "document_operation_in_progress" "A document operation is active" 409)
    else .ok ()

/-- The owner of a claim has gone, or is going. -/
def gone (owner : Option Lifecycle) : Bool :=
  owner ≠ some .active

/-- `_assert_replacement_claim_available` -/
def assertReplacementClaimAvailable (documentId spaceId normalizedFilename contentHash : String) :
    Tx Unit := do
  let claim ← lockRow (Key.claim spaceId normalizedFilename contentHash)
  match claim with
  | none => pure ()
  | some claim =>
    if claim.documentId = documentId then pure ()
    else do
      let owner ← readRow (Key.document claim.documentId)
      raiseIf (!gone (owner.map (·.lifecycleStatus))) (refused "duplicate_document"
        "A document with the same name and content already exists" 409)

/-- `func.max(version_number)` over the versions of a document. -/
def maxVersionNumber (v : Db) (documentId : String) : ℕ :=
  (table v fun
    | .version d _, r => if d = documentId then some r.versionNumber else none
    | _, _ => none).foldr max 0

/-- The identifiers of a new job of a document. -/
structure NewOperation where
  versionId : String
  jobId : String
  publicationId : String

/-- The request for a further job of a document; the authorization and the quota check are
arguments. -/
structure OperationCall where
  principal : Principal
  documentId : String
  expectedVersion : ℕ
  key : String
  fingerprint : String
  new : NewOperation
  authorized : Except Err Unit
  quota : Except Err Unit

/-- The recorded request. -/
def OperationCall.request (a : OperationCall) (endpoint : String) : Request :=
  ⟨a.principal.userId, endpoint, a.documentId, a.key, a.fingerprint⟩

/-- The job of the operation becomes the operation of the document. -/
def beginOperation (a : OperationCall) (document : DocumentRow) (job : JobRow)
    (pending : Option String) : Tx Unit := do
  let generationId ← currentIndexGeneration
  insertPublication a.documentId a.new.publicationId
    (stagedPublication job.documentVersionId a.new.jobId generationId)
  let _ ← updateWhere (Key.document a.documentId) (fun _ => true) fun d =>
    { d with
      pendingVersionId := pending
      activeOperationJobId := some a.new.jobId
      version := document.version + 1 }

/-- The answer to a request for a further job. -/
def OperationCall.response (a : OperationCall) (document : DocumentRow) (versionId : String) :
    JsonObject :=
  [("document_id", .str a.documentId), ("document_version_id", .str versionId),
    ("job_id", .str a.new.jobId), ("publication_id", .str a.new.publicationId),
    ("version", .int (document.version + 1)), ("status", .str "pending")]

/-- A version with its job, after the version they are based on. -/
def insertReplacement (a : OperationCall) (document : DocumentRow) (version : VersionRow) :
    Tx Unit := do
  insert .integrity [.version a.documentId a.new.versionId]
    [⟨.version a.documentId a.new.versionId, some version⟩]
  insert .integrity [.job a.documentId a.new.jobId]
    [⟨.job a.documentId a.new.jobId, some (newJob a.new.versionId .replace
      document.activeVersionId none a.new.publicationId (document.version + 1) a.principal)⟩]

/-- The active version of a document. -/
def lockedActiveVersion (documentId : String) (versionId : Option String) :
    Tx (Option VersionRow) :=
  match versionId with
  | none => pure none
  | some versionId => lockRow (Key.version documentId versionId)

/-- `replace_version` -/
def replaceVersion {env : Env} (a : OperationCall) (info : FileInfo env) : Tx JsonObject := do
  let document ← lockedDocument a.documentId
  let document ← orRaise document documentNotFound
  check a.authorized
  withIdempotency (a.request "documents.replace_version") do
    check (document.assertWritable a.expectedVersion)
    assertReplacementClaimAvailable a.documentId document.spaceId info.normalizedFilename
      info.contentHash
    let active ← lockedActiveVersion a.documentId document.activeVersionId
    if active.any fun r => r.contentHash = info.contentHash then
      pure [("document_id", .str a.documentId),
        ("document_version_id", .str (document.activeVersionId.getD "")), ("job_id", .null),
        ("version", .int document.version), ("deduplicated", .bool true),
        ("status", .str "active")]
    else do
      check a.quota
      let versionNumber ← Prog.select fun v : Db => maxVersionNumber v a.documentId
      insertReplacement a document (info.version a.documentId a.new.versionId (versionNumber + 1))
      beginOperation a document (newJob a.new.versionId .replace document.activeVersionId none
        a.new.publicationId (document.version + 1) a.principal) (some a.new.versionId)
      pure (a.response document a.new.versionId)

/-- `restore_version` -/
def restoreVersion (env : Env) (a : OperationCall) (documentVersionId : String) (now : Time) :
    Tx JsonObject := do
  let document ← lockedDocument a.documentId
  let document ← orRaise document documentNotFound
  check a.authorized
  withIdempotency (a.request "documents.restore_version") do
    check (document.assertWritable a.expectedVersion)
    check a.quota
    let source ← readRow (Key.version a.documentId documentVersionId)
    let source ← orRaise source
      (refused "document_version_not_found" "Document version was not found" 404)
    raiseIf (source.status ≠ .superseded)
      (refused "document_version_not_restorable" "The version cannot be restored" 409)
    let name ← check (normalizeFilename env source.fileName)
    assertReplacementClaimAvailable a.documentId document.spaceId name.2 source.contentHash
    raiseIf (source.purgeAfterAt.any fun t => t ≤ now)
      (refused "document_version_purged" "Document version content was purged" 409)
    let versionNumber ← Prog.select fun v : Db => maxVersionNumber v a.documentId
    insertReplacement a document
      { versionNumber := versionNumber + 1, status := .pending, contentHash := source.contentHash,
        originalObjectKey := "documents/" ++ a.documentId ++ "/" ++ a.new.versionId ++ "/original",
        fileName := source.fileName, mediaKind := source.mediaKind, sizeBytes := source.sizeBytes,
        activatedAt := none, terminalAt := none, supersededAt := none, purgeAfterAt := none,
        restoredFromVersionId := some documentVersionId }
    insert .integrity [.hold a.documentId a.new.jobId]
      [⟨.hold a.documentId a.new.jobId, some ⟨documentVersionId⟩⟩]
    beginOperation a document (newJob a.new.versionId .replace document.activeVersionId none
      a.new.publicationId (document.version + 1) a.principal) (some a.new.versionId)
    pure (a.response document a.new.versionId)

/-- `reindex` -/
def reindex (a : OperationCall) : Tx JsonObject := do
  let document ← lockedDocument a.documentId
  let document ← orRaise document documentNotFound
  check a.authorized
  withIdempotency (a.request "documents.reindex") do
    check (document.assertWritable a.expectedVersion)
    check a.quota
    let versionId ← orRaise document.activeVersionId
      (refused "document_not_published" "Document has no active version" 409)
    let job := newJob versionId .reindex document.activeVersionId none a.new.publicationId
      (document.version + 1) a.principal
    insert .integrity [.job a.documentId a.new.jobId]
      [⟨.job a.documentId a.new.jobId, some job⟩]
    beginOperation a document job document.pendingVersionId
    pure (a.response document versionId)

end RagQs.Documents
