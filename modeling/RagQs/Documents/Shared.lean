import RagQs.Documents.Schema

/-!
# What the documents transactions share

The reads and writes that several transactions of the documents service make: the lock of a
document, the staging of a publication, the state of an upload batch, the authorization a worker
runs under, recorded requests, and the revisions of the index with the source of the public
graph.  The answers of the authorization, of the quota check and of the indexing handoff are
arguments, as are the clock and the new identifiers.

## Main definitions

* `Env` — the configuration and the functions of the standard library that are left open.
* `normalizeFilename` — the name a file is kept and found under.
* `lockedDocument`, `currentIndexGeneration`, `discardIndexingAttempt` — shared statements.
* `insertPublication`, `updatePublication`, `supersedePublications` — writes that run into the
  unique index of publications.
* `batchState`, `refreshUploadBatch` — the state of a batch from its items.
* `idempotencyReplay`, `completeIdempotency` — recorded requests.
* `nextIndexRevision`, `recordSourceChange`, `appendIndexChange` — the revisions of the index.
-/

namespace RagQs.Documents

open Txn

/-- The configuration, and functions of the standard library. -/
structure Env where
  /-- `str.casefold` -/
  casefold : String → String
  /-- `canonical_request_fingerprint` of the payload of a source manifest. -/
  sourceHash : (sourceRevision : ℕ) → (manifestId : String) → List SourcePublication → String
  leaseTtl : Time
  versionRetention : Time
  /-- A quota service is configured. -/
  quotaService : Bool

/-- An error of the application. -/
def refused (code message : String) (statusCode : ℕ) : Err :=
  .platform { code, message, details := [], statusCode }

/-! ### Names of files -/

/-- The words of a text, `str.split()`. -/
def splitWords : List Char → List Char → List (List Char)
  | word, [] => if word.isEmpty then [] else [word.reverse]
  | word, c :: cs =>
    if isSpace c then (if word.isEmpty then splitWords [] cs else word.reverse :: splitWords [] cs)
    else splitWords (c :: word) cs

/-- `" ".join(filename.strip().split())` -/
def joinedName (filename : String) : String :=
  String.ofList (List.intercalate [' '] (splitWords [] filename.toList))

/-- `_normalize_filename` -/
def normalizeFilename (env : Env) (filename : String) : Except Err (String × String) :=
  let normalized := joinedName filename
  if normalized.isEmpty ∨ '/' ∈ normalized.toList ∨ '\\' ∈ normalized.toList
      ∨ Char.ofNat 0 ∈ normalized.toList then
    .error (refused "validation_error" "filename is invalid" 422)
  else .ok (normalized, env.casefold normalized)

/-! ### Documents, publications and attempts -/

/-- `_locked_document` -/
def lockedDocument (documentId : String) : Tx (Option DocumentRow) :=
  lockRow (Key.document documentId)

/-- `document_not_found` -/
def documentNotFound : Err := refused "document_not_found" "Document was not found" 404

/-- `_current_index_generation` -/
def currentIndexGeneration : Tx String :=
  Prog.select fun v => (v.get .generationHead).getD "generation_initial"

/-- The job that the document's row names, or another: `_locked_document` and the row of the job
under the lock. -/
def lockedJob (documentId jobId : String) : Tx (Option JobRow) := lockRow (Key.job documentId jobId)

/-- Another publication of the document has the version, generation and status of the row. -/
def publicationClash (v : Db) (documentId publicationId : String) (row : PublicationRow) : Bool :=
  !(table v fun
    | .publication d p, r =>
      if d = documentId ∧ p ≠ publicationId ∧ r.documentVersionId = row.documentVersionId
          ∧ r.generationId = row.generationId ∧ r.status = row.status then some () else none
    | _, _ => none).isEmpty

/-- `publications_table.insert()` -/
def insertPublication (documentId publicationId : String) (row : PublicationRow) : Tx Unit :=
  let bad := fun v : Db => (v.get (.publication documentId publicationId)).isSome
    || publicationClash v documentId publicationId row
  .stmt (fun _ => [])
    (fun v => if bad v then [] else [⟨.publication documentId publicationId, some row⟩])
    fun v => if bad v then .fail .integrity else .done ()

/-- `update(publications_table)` of one row. -/
def updatePublication (documentId publicationId : String) (f : PublicationRow → PublicationRow) :
    Tx Unit :=
  let row := fun v : Db => v.get (.publication documentId publicationId)
  let bad := fun v : Db => (row v).any fun r =>
    publicationClash v documentId publicationId (f r)
  .stmt (fun _ => [])
    (fun v => if bad v then []
      else (row v).toList.map fun r => ⟨.publication documentId publicationId, some (f r)⟩)
    fun v => if bad v then .fail .integrity else .done ()

/-- Superseding an active publication of the document that is not the one to keep. -/
def superseding (documentId : String) (keep : Option String) (now : Time) :
    (k : Key) → Row k → Option (Option (Row k))
  | .publication d p, r =>
    if d = documentId ∧ r.status = .active ∧ some p ≠ keep then
      some (some { r with status := .superseded, supersededAt := some now })
    else none
  | _, _ => none

/-- `update(publications_table)` of the active ones to `superseded`. -/
def supersedePublications (documentId : String) (keep : Option String) (now : Time) : Tx Unit :=
  let bad := fun v : Db => (table v fun
    | .publication d p, r =>
      match superseding documentId keep now (.publication d p) r with
      | some (some r') => if publicationClash v d p r' then some () else none
      | _ => none
    | _, _ => none).isEmpty = false
  .stmt (fun _ => [])
    (fun v => if bad v then []
      else table v fun k r => (superseding documentId keep now k r).map (Sigma.mk k))
    fun v => if bad v then .fail .integrity else .done ()

/-- The deletion of a staged publication of the document, or of one job of it. -/
def unstaging (documentId : String) (jobId : Option String) :
    (k : Key) → Row k → Option (Option (Row k))
  | .publication d _, r =>
    if d = documentId ∧ r.status = .staged ∧ (jobId = none ∨ jobId = some r.jobId) then some none
    else none
  | _, _ => none

/-- `publications_table.delete()` of the staged ones. -/
def deleteStaged (documentId : String) (jobId : Option String) : Tx Unit := do
  let _ ← updateAll (unstaging documentId jobId)

/-- A publication that is staged for a job. -/
def stagedPublication (documentVersionId jobId generationId : String) : PublicationRow :=
  { documentVersionId, jobId, attemptId := none, generationId, status := .staged,
    resourceManifest := none, quotaChargeStatus := .pending, quotaChargeReason := none,
    activatedAt := none, supersededAt := none }

/-- `_discard_indexing_attempt`: what the handoff answers is an argument. -/
def discardIndexingAttempt (documentId jobId : String) (attemptId : Option String)
    (discarded : Except Err Unit) : Tx Unit :=
  match attemptId with
  | none => pure ()
  | some a => do
    let attempt ← readRow (Key.attempt documentId jobId a)
    if attempt.isSome then check discarded

/-! ### Upload batches -/

/-- `_refresh_upload_batch`, `_batch_state`: the state of a batch from those of its items. -/
def batchState (states : List ItemState) : BatchState :=
  if states.isEmpty then .pending
  else if states.any fun s => s = .running ∨ s = .retryWait then .running
  else if states.any (· = .pending) then .pending
  else if states.all fun s => s = .succeeded ∨ s = .deduplicated then .succeeded
  else if states.any fun s => s = .succeeded ∨ s = .deduplicated then .partiallyDone
  else .failed

/-- The results of the items of a batch. -/
def itemStates (v : Db) (batchId : String) : List ItemState :=
  table v fun
    | .item _ _, r => if r.uploadBatchId = batchId then some r.resultState else none
    | .plainItem b _, r => if b = batchId then some r.resultState else none
    | _, _ => none

/-- `_refresh_upload_batch` -/
def refreshUploadBatch (batchId : Option String) : Tx Unit :=
  match batchId with
  | none => pure ()
  | some b => do
    let states ← Prog.select fun v : Db => itemStates v b
    let _ ← updateWhere (Key.batch b) (fun _ => true) fun r => { r with state := batchState states }

/-- The item of a job follows the job, and its batch the item. -/
def recordItemState (documentId jobId : String) (batchId : Option String) (state : ItemState) :
    Tx Unit :=
  if batchId.isSome then do
    let _ ← updateWhere (Key.item documentId jobId) (fun _ => true)
      fun r => { r with resultState := state }
    refreshUploadBatch batchId
  else pure ()

/-! ### Authorization of a worker -/

/-- `_job_execution_actor` -/
def JobRow.executionActor (job : JobRow) : String :=
  if 0 < job.replayGeneration then job.replayedByUserId.getD job.createdByUserId
  else job.createdByUserId

/-- The job ingests an approved submission. -/
def JobRow.submission (job : JobRow) : Bool :=
  job.quotaExemptReason = some "shared_library_submission"

/-- `_worker_authorization_fence` -/
def workerAuthorizationFence (documentId jobId : String) (job : JobRow) (document : DocumentRow) :
    Tx AuthorizationFence :=
  if !job.submission then pure (.directIngest job.executionActor)
  else do
    let grant ← lockRow (Key.grant documentId jobId)
    match grant with
    | some g =>
      if g.documentVersionId = job.documentVersionId ∧ g.spaceIdSnapshot = document.spaceId then
        pure (.submissionGrant g.grantId g.submissionId)
      else throw (refused "submission_grant_invalid"
        "The submission execution grant is no longer valid" 409)
    | none => throw (refused "submission_grant_invalid"
        "The submission execution grant is no longer valid" 409)

/-! ### Recorded requests -/

/-- A request under an idempotency key. -/
structure Request where
  actorId : String
  endpoint : String
  targetId : String
  key : String
  fingerprint : String

/-- The key a request is recorded under. -/
def Request.row (q : Request) : Key := .idempotency q.actorId q.endpoint q.targetId q.key

/-- The answer to a request that is recorded. -/
def Request.resolve (q : Request) (row : IdempotencyRow) : Except Err JsonObject :=
  if row.requestFingerprint ≠ q.fingerprint then
    .error (refused "idempotency_key_conflict"
      "The idempotency key conflicts with a previous request" 409)
  else match row.response with
    | none => .error (refused "idempotency_in_progress" "The request is still in progress" 409)
    | some response => .ok response

/-- `_idempotency_replay` -/
def idempotencyReplay (q : Request) : Tx (Option JsonObject) := do
  let row ← readRow (Key.idempotency q.actorId q.endpoint q.targetId q.key)
  match row with
  | some row => do
    let response ← check (q.resolve row)
    pure (some response)
  | none => do
    let inserted ← insertOrSkip .integrity q.row [] [⟨q.row, some ⟨q.fingerprint, none⟩⟩]
    if inserted then pure none
    else do
      let row ← readRow (Key.idempotency q.actorId q.endpoint q.targetId q.key)
      let row ← orRaise row
        (refused "idempotency_in_progress" "The request is still in progress" 409)
      let response ← check (q.resolve row)
      pure (some response)

/-- `_complete_idempotency` -/
def completeIdempotency (q : Request) (response : JsonObject) : Tx Unit := do
  let updated ← updateWhere (Key.idempotency q.actorId q.endpoint q.targetId q.key)
    (fun r => r.requestFingerprint = q.fingerprint ∧ r.response.isNone)
    fun r => { r with response := some response }
  raiseIf (updated ≠ 1) (refused "idempotency_key_conflict"
    "The idempotency key conflicts with a previous request" 409)

/-- A transaction that is not run again under the same key: an earlier answer is given again,
and its own is recorded. -/
def withIdempotency (q : Request) (p : Tx JsonObject) : Tx JsonObject := do
  let earlier ← idempotencyReplay q
  match earlier with
  | some response => pure response
  | none => do
    let response ← p
    completeIdempotency q response
    pure response

/-! ### Revisions of the index and the source of the public graph -/

/-- `_next_index_revision`, `_next_counter` -/
def nextCounter (name : Counter) : Tx ℕ := do
  let _ ← insertOrSkip .integrity (Key.counter name) [] [⟨.counter name, some 0⟩]
  let counter ← lockRow (Key.counter name)
  let current ← orRaise counter (.internal "No row was found when one was required")
  let updated ← updateWhere (Key.counter name) (fun value => value = current) fun _ => current + 1
  raiseIf (updated ≠ 1) (.internal "Could not allocate the next revision")
  pure (current + 1)

/-- `_current_index_revision` -/
def currentIndexRevision : Tx ℕ :=
  Prog.select fun v => (v.get (.counter .indexRevision)).getD 0

/-- What the graph source lists of a publication: nothing when it carries no manifest. -/
def sourcePublication (documentId versionId publicationId : String) (row : PublicationRow) :
    Option SourcePublication :=
  row.resourceManifest.bind fun m =>
    let manifestId := strip m.contentManifestId
    let manifestHash := strip m.contentManifestHash
    if manifestId.isEmpty ∨ manifestHash.isEmpty then none
    else some ⟨documentId, versionId, publicationId, manifestId, manifestHash⟩

/-- The publication is the active one of an active document of the public space. -/
def publiclyActive (v : Db) (documentId : String) (row : PublicationRow) : Bool :=
  match v.get (.document documentId) with
  | some document =>
    document.spaceId = "public" ∧ document.lifecycleStatus = .active ∧ row.status = .active
      ∧ document.activeVersionId = some row.documentVersionId
      ∧ ((v.get (.version documentId row.documentVersionId)).any fun r => r.status = .active)
  | none => false

/-- `_current_public_source_publications`, by document and publication. -/
def publicSources (v : Db) : List SourcePublication :=
  (table v fun
    | .publication d p, r =>
      if publiclyActive v d r then sourcePublication d r.documentVersionId p r else none
    | _, _ => none).insertionSort
      fun x y => x.documentId < y.documentId
        ∨ x.documentId = y.documentId ∧ x.publicationId ≤ y.publicationId

/-- `PublicGraphSourceService._record_source_change` with the publications there are now. -/
def recordSourceChange (env : Env) (manifestId documentId : String) (changeType : ChangeType)
    (published : Except Err Unit) : Tx Unit := do
  let publications ← Prog.select fun v : Db => publicSources v
  let _ ← insertOrSkip .integrity Key.sourceHead [] [⟨.sourceHead, some ⟨0, none, none, 0⟩⟩]
  let head ← lockRow Key.sourceHead
  let _ ← orRaise head (.internal "No row was found when one was required")
  let revision ← nextCounter .publicSourceRevision
  let fence ← nextCounter .publicSourceHeadFence
  let manifestHash := env.sourceHash revision manifestId publications
  insert .integrity [.sourceManifest manifestId, .sourceRevision revision, .sourceHash manifestHash]
    [⟨.sourceManifest manifestId, some ⟨revision, manifestHash, publications, fence⟩⟩,
      ⟨.sourceRevision revision, some ()⟩, ⟨.sourceHash manifestHash, some ()⟩]
  insert .integrity [.sourceChange revision]
    [⟨.sourceChange revision, some ⟨documentId, changeType, manifestId⟩⟩]
  let _ ← updateWhere Key.sourceHead (fun _ => true)
    fun _ => ⟨revision, some manifestId, some manifestHash, fence⟩
  check published

/-- `_append_index_change`, `_append_delete_index_change`: the next revision of the index with
its change, and the source of the public graph when the space is public. -/
def appendIndexChange (env : Env) (generationId sourceManifestId : String)
    (change : IndexChangeRow) (published : Except Err Unit) : Tx Unit := do
  let revision ← nextCounter .indexRevision
  insert .integrity [.indexRevision revision]
    [⟨.indexRevision revision, some ⟨change.documentId, generationId⟩⟩]
  insert .integrity [.indexChange revision] [⟨.indexChange revision, some change⟩]
  if change.spaceId = "public" then
    recordSourceChange env sourceManifestId change.documentId change.changeType published

end RagQs.Documents
