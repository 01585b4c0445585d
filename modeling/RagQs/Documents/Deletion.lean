import RagQs.Documents.Jobs

/-!
# The deletion of a document

A deletion is accepted in one transaction: whatever the document was doing is cancelled, nothing
of it stays active, and the resources that have to be cleaned up are listed.

## Main definitions

* `cleanupResources` — the resources of a version.
* `stageDeletionTargets` — the manifest of a deletion.
* `deleteDocument` — the acceptance of a deletion.
-/

namespace RagQs.Documents

open Txn

/-! ### The manifest of a deletion -/

/-- `_cleanup_phase` -/
def cleanupPhase (backendKind : String) : ℕ :=
  if backendKind ∈ ["cache", "index"] then 0
  else if backendKind ∈ ["parsing", "chunk"] then 1
  else if backendKind ∈ ["publication", "staging"] then 2
  else 3

/-- The order in which resources are cleaned up. -/
def cleanupBefore (x y : String × String) : Prop :=
  cleanupPhase x.1 < cleanupPhase y.1 ∨ cleanupPhase x.1 = cleanupPhase y.1 ∧
    (x.1 < y.1 ∨ x.1 = y.1 ∧ x.2 ≤ y.2)

instance : DecidableRel cleanupBefore := fun _ _ =>
  inferInstanceAs (Decidable (_ ∨ _ ∧ (_ ∨ _ ∧ _)))

/-- The resources of a publication. -/
def PublicationRow.resources (publicationId : String) (r : PublicationRow) :
    List (String × String) :=
  ("publication", publicationId) :: (r.resourceManifest.toList.flatMap fun m =>
    ("content_manifest", m.contentManifestId) :: m.stageResources)

/-- `_cleanup_resources_for_version` -/
def cleanupResources (v : Db) (documentId versionId : String) (version : VersionRow) :
    List (String × String) :=
  let publications := table v fun
    | .publication d p, r =>
      if d = documentId ∧ r.documentVersionId = versionId then some (r.resources p) else none
    | _, _ => none
  ((publications.flatten ++ [("object_store", version.originalObjectKey)]).filter fun x =>
    !(strip x.1).isEmpty ∧ !(strip x.2).isEmpty).dedup.insertionSort cleanupBefore

/-- The versions of a document. -/
def versionsOf (v : Db) (documentId : String) : List (String × VersionRow) :=
  table v fun
    | .version d version, r => if d = documentId then some (version, r) else none
    | _, _ => none

/-- The grants and submissions of a document. -/
def submissionTargets (v : Db) (documentId : String) : List (String × String) :=
  (table v fun
    | .grant d _, r =>
      if d = documentId then
        some [("submission_grant", r.grantId), ("submission_record", r.submissionId)]
      else none
    | _, _ => none).flatten

/-- The generations of the index, not yet purged, that have a change of the document. -/
def generationsOf (v : Db) (documentId : String) : List String :=
  (table v fun
    | .generationChange g revision, _ =>
      if (v.get (.indexRevision revision)).any (fun r => r.documentId = documentId)
          ∧ (v.get (.generation g)).any (fun s => s ≠ .purged) then some g
      else none
    | _, _ => none).dedup

/-- The row of a cleanup target, unless there is one. -/
def insertTargets (deletionId : String) : List (String × String) → Tx Unit
  | [] => pure ()
  | x :: targets => do
    let _ ← insertOrSkip .integrity (Key.deletionTarget deletionId x.1 x.2) []
      [⟨.deletionTarget deletionId x.1 x.2, some ⟨.pending, 0⟩⟩]
    insertTargets deletionId targets

/-- The targets of the versions of a document. -/
def stageVersions (deletionId documentId : String) : List (String × VersionRow) → Tx ℕ
  | [] => pure 0
  | (versionId, version) :: versions => do
    let resources ← Prog.select fun v : Db => cleanupResources v documentId versionId version
    insertTargets deletionId resources
    let derived ← stageVersions deletionId documentId versions
    pure (resources.length + derived)

/-- `_stage_deletion_targets` -/
def stageDeletionTargets (deletionId documentId : String) : Tx ℕ := do
  let versions ← Prog.select fun v : Db => versionsOf v documentId
  let derived ← stageVersions deletionId documentId versions
  let submissions ← Prog.select fun v : Db => submissionTargets v documentId
  insertTargets deletionId submissions
  let generations ← Prog.select fun v : Db => generationsOf v documentId
  insertTargets deletionId (generations.map fun g => ("index", "index_generation:" ++ g))
  pure (derived + submissions.length + generations.length)

/-! ### The acceptance -/

/-- The request to delete a document, by a user or on behalf of an account deletion; the
authorization, the redaction of notifications, what the handoff answers for an attempt and the
outbox of the graph source are arguments. -/
structure DeleteCall where
  principal : Principal
  systemActor : Option String
  documentId : String
  expectedVersion : ℕ
  key : String
  fingerprint : String
  deletionId : String
  now : Time
  authorized : Except Err Unit
  redacted : Except Err Unit
  discarded : String → Except Err Unit
  sourceManifestId : String
  sourcePublished : Except Err Unit

/-- The manifest of a publication names what the graph source lists. -/
def PublicationRow.listable (r : PublicationRow) : Bool :=
  r.resourceManifest.any fun m =>
    !(strip m.contentManifestId).isEmpty ∧ !(strip m.contentManifestHash).isEmpty

/-- `_assert_public_source_manifest` -/
def assertPublicSourceManifest (documentId : String) (versionId : Option String) : Tx Unit := do
  let publications ← Prog.select fun v : Db => table v fun
    | .publication d _, r =>
      if d = documentId ∧ some r.documentVersionId = versionId ∧ r.status = .active then some r
      else none
    | _, _ => none
  match publications with
  | [] => pure ()
  | [r] => raiseIf (!r.listable) (refused "public_source_manifest_invalid"
      "Public document source manifest is incomplete" 409)
  | _ => throw (.internal "Multiple rows were found when one or none was required")

/-- The running attempts of the jobs of a document that are not over. -/
def activeAttempts (v : Db) (documentId : String) : List (String × String) :=
  table v fun
    | .attempt d j a, r =>
      if d = documentId ∧ r.state = .running
          ∧ (v.get (.job d j)).any (fun job => job.state.live) then some (j, a)
      else none
    | _, _ => none

/-- The end of each running attempt. -/
def cancelAttempts (documentId : String) (discarded : String → Except Err Unit) :
    List (String × String) → Tx Unit
  | [] => pure ()
  | (j, a) :: attempts => do
    discardIndexingAttempt documentId j (some a) (discarded a)
    let _ ← updateWhere (Key.attempt documentId j a) (fun _ => true)
      fun r => { r with state := .cancelled }
    endLease documentId j a
    cancelAttempts documentId discarded attempts

/-- Cancelling a job of the document that is not over. -/
def cancelling (documentId : String) : (k : Key) → Row k → Option (Option (Row k))
  | .job d _, r =>
    if d = documentId ∧ r.state.live then some (some { r with state := .cancelled }) else none
  | _, _ => none

/-- The staged publications of a document. -/
def stagedOf (v : Db) (documentId : String) : List String :=
  table v fun
    | .publication d p, r => if d = documentId ∧ r.status = .staged then some p else none
    | _, _ => none

/-- Taking the staged publications of the document from the attempts that have them. -/
def detaching (documentId : String) (v : Db) : (k : Key) → Row k → Option (Option (Row k))
  | .attempt d _ _, r =>
    if d = documentId ∧ r.publicationId.any (· ∈ stagedOf v documentId) then
      some (some { r with publicationId := none })
    else none
  | _, _ => none

/-- Superseding the active version of the document. -/
def supersedingVersion (env : Env) (documentId : String) (now : Time) :
    (k : Key) → Row k → Option (Option (Row k))
  | .version d _, r =>
    if d = documentId ∧ r.status = .active then
      some (some { r with
        status := .superseded, supersededAt := some now, terminalAt := some now,
        purgeAfterAt := some (now + env.versionRetention) })
    else none
  | _, _ => none

/-- Cancelling the pending version of the document. -/
def cancellingVersion (env : Env) (documentId : String) (now : Time) :
    (k : Key) → Row k → Option (Option (Row k))
  | .version d _, r =>
    if d = documentId ∧ r.status = .pending then
      some (some { r with
        status := .cancelled, terminalAt := some now,
        purgeAfterAt := some (now + env.versionRetention) })
    else none
  | _, _ => none

/-- What the acceptance of a deletion writes. -/
def acceptDeletion (env : Env) (a : DeleteCall) (document : DocumentRow) : Tx Unit := do
  let d := a.documentId
  let attempts ← Prog.selectForUpdate
    (fun v : Db => (activeAttempts v d).map fun x => Key.attempt d x.1 x.2)
    fun v => activeAttempts v d
  cancelAttempts d a.discarded attempts
  insert .integrity [.deletion d]
    [⟨.deletion d, some ⟨a.deletionId, document.version + 1, .pendingDelete, a.now, none, none⟩⟩]
  let _ ← updateWhere (Key.document d) (fun _ => true) fun r =>
    { r with
      lifecycleStatus := .pendingDelete
      deletionId := some a.deletionId
      activeVersionId := none
      pendingVersionId := none
      activeOperationJobId := none
      version := document.version + 1 }
  let _ ← updateAll (cancelling d)
  let _ ← updateAllOf (detaching d)
  deleteStaged d none
  supersedePublications d none a.now
  let _ ← updateAll (supersedingVersion env d a.now)
  let _ ← updateAll (cancellingVersion env d a.now)
  deleteClaims d none
  let _ ← stageDeletionTargets a.deletionId d
  appendIndexChange env "delete" a.sourceManifestId
    ⟨d, document.activeVersionId, none, .delete, document.spaceId⟩ a.sourcePublished

/-- The answer to an accepted deletion. -/
def DeleteCall.response (a : DeleteCall) (version : ℕ) (deletionId : String)
    (state : String) : JsonObject :=
  [("document_id", .str a.documentId), ("deletion_id", .str deletionId), ("state", .str state),
    ("version", .int version), ("lifecycle_status", .str state)]

/-- The checks of a deletion and its acceptance. -/
def beginDeletion (env : Env) (a : DeleteCall) (document : DocumentRow) : Tx JsonObject := do
  match document.lifecycleStatus with
  | .pendingDelete =>
    if a.systemActor.isSome then
      pure (a.response document.version (document.deletionId.getD "") "pending_delete")
    else throw (refused "document_pending_delete" "Document is pending deletion" 409)
  | .deleted =>
    if a.systemActor.isSome then
      pure (a.response document.version (document.deletionId.getD "") "deleted")
    else throw (refused "document_deleted" "Document has been deleted" 410)
  | .active => do
    (if a.systemActor.isNone then check a.authorized else pure ())
    raiseIf (document.version ≠ a.expectedVersion)
      (refused "document_version_conflict" "The document version does not match" 409)
    (if document.spaceId = "public" then
      assertPublicSourceManifest a.documentId document.activeVersionId
    else pure ())
    let _ ← Prog.selectForUpdate
      (fun v : Db => (versionsOf v a.documentId).map fun x => Key.version a.documentId x.1)
      fun _ => ()
    check a.redacted
    acceptDeletion env a document
    pure (a.response (document.version + 1) a.deletionId "pending_delete")

/-- `delete_document` -/
def deleteDocument (env : Env) (a : DeleteCall) : Tx JsonObject := do
  raiseIf (a.expectedVersion < 1) (refused "validation_error" "expected_version is invalid" 422)
  let document ← lockedDocument a.documentId
  let document ← orRaise document documentNotFound
  if a.systemActor.isSome then beginDeletion env a document
  else withIdempotency ⟨a.principal.userId, "documents.delete", a.documentId, a.key,
    a.fingerprint⟩ (beginDeletion env a document)

end RagQs.Documents
