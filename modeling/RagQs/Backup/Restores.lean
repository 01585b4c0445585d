import RagQs.Backup.Sets
import RagQs.Txn.Under

/-!
# Restore sessions

A restore runs its seven stages in a fixed order, and closes the maintenance gate until it is
completed.  A call advances it by one stage at most.  What a rebuild or a validation of facts finds
wrong becomes a repair target; a session with open ones does not complete.

What the ports answer in a call is a parameter of the call.

## Main definitions

* `Answers` — what the ports answer during one call.
* `startRestore`, `advanceRestore`, `retryTarget`, `retryRepairTarget` — the operations, each the
  transaction it makes.
* `RestoreOp`, `RestoreOp.body` — all of them.
-/

namespace RagQs.Backup

open Txn

/-! ### The ports -/

/-- What a rebuild raised: the name of the type, and the text. -/
structure RebuildFailure where
  classification : String
  message : String

/-- The port of the derived stages. -/
structure DerivedRebuild where
  listResources : Stage → Except Err (List String)
  rebuild : Stage → String → Option RebuildFailure

/-- What the ports answer during one call; facts are validated more than once in it. -/
structure Answers where
  restorePostgres : String → Except Err Unit
  restoreObjects : String → Except Err Unit
  factValidation : Option (ℕ → Except Err (List ObjectFact × List ObjectFact))
  derivedRebuild : Option DerivedRebuild
  postGateValidation : Option (Except Err (List String))

/-! ### Starting -/

/-- The entry of the index for a status, if it is an active one. -/
def activeEntries (status : SessionStatus) (o : Option String) : List (Write Row) :=
  if status.isActive then [⟨Key.activeSession status, o⟩] else []

/-- Another session has the status. -/
def statusTaken (v : Db) (restoreId : String) (status : SessionStatus) : Bool :=
  status.isActive && (v.get (Key.activeSession status)).any (· ≠ restoreId)

/-- The identities of the sessions with a status. -/
def sessionsWith (v : Db) (statuses : List SessionStatus) : List String :=
  table v fun
    | .session restoreId, row => if row.status ∈ statuses then some restoreId else none
    | _, _ => none

/-- `_ACTIVE_RESTORE_STATUSES` of the service. -/
def activeRestoreStatuses : List SessionStatus := [.accepted, .running]

/-- `_ACTIVE_RESTORE_STATUSES` of the operations service. -/
def opsActiveRestoreStatuses : List SessionStatus := [.accepted, .running, .blocked]

/-- A restore is active. -/
def restoreInProgress (active : String) : Err :=
  refused "restore_in_progress" "Another restore is already active" 409
    [("active_restore_id", .str active)]

/-- The check that no session has one of the statuses. -/
def requireNoActive (statuses : List SessionStatus) : Tx Unit := do
  let active ← Prog.select fun v => sessionsWith v statuses
  match active with
  | [] => return ()
  | restoreId :: _ => throw (restoreInProgress restoreId)

/-- The text of a component's status. -/
def Progress.text : Progress → String
  | .pending => "pending"
  | .running => "running"
  | .succeeded => "succeeded"
  | .failed => "failed"

/-- The set lacks components. -/
def backupNotRestorable (v : Db) (backupId : String) : Err :=
  refused "backup_not_restorable" "Backup set is missing required components" 409
    [("backup_id", .str backupId), ("components", .dict (ComponentKind.all.filterMap fun kind =>
      (v.get (Key.component backupId kind)).map fun row => (kind.text, .str row.status.text)))]

/-- The check that the set is complete. -/
def requireComplete (backupId : String) : Tx Unit := do
  let backup ← readRow (Key.set backupId)
  let backup ← orRaise backup (refused "backup_not_found" "Backup set was not found" 404)
  let incomplete ← Prog.select fun v => backupNotRestorable v backupId
  raiseIf (backup.status ≠ .complete) incomplete

/-- The inserts of the stages of a new session. -/
def insertStages (restoreId : String) : List Stage → Tx Unit
  | [] => return ()
  | stage :: stages => do
    insert .integrity [Key.stage restoreId stage]
      [⟨Key.stage restoreId stage, some (⟨stage.position, .pending, false, none, none⟩ : StageRow)⟩]
    insertStages restoreId stages

/-- The maintenance gate is closed for the session. -/
def closeReads (restoreId : String) (now : Time) : Tx Unit := do
  let gateUpdated ← updateWhere Key.maintenance (fun _ => true) fun _ => ⟨true, some restoreId, now⟩
  if gateUpdated = 0 then
    insert .integrity [Key.maintenance]
      [⟨Key.maintenance, some (⟨true, some restoreId, now⟩ : MaintenanceRow)⟩]
  else return ()

/-- `start_restore`; a session gets the identity that is drawn. -/
def startRestore (backupId restoreId : String) (now : Time) : Tx Unit := do
  requireComplete backupId
  requireNoActive activeRestoreStatuses
  insert .integrity [Key.session restoreId, Key.activeSession .accepted]
    [⟨Key.session restoreId, some (⟨backupId, .accepted, now, now, none, none⟩ : SessionRow)⟩,
      ⟨Key.activeSession .accepted, some restoreId⟩]
  insertStages restoreId Stage.all
  closeReads restoreId now

/-- The checks of `start_restore`. -/
def startChecks (backupId : String) : Tx Unit := do
  requireComplete backupId
  requireNoActive activeRestoreStatuses

/-- What `start_restore` writes. -/
def startWrites (backupId restoreId : String) (now : Time) : Tx Unit := do
  insert .integrity [Key.session restoreId, Key.activeSession .accepted]
    [⟨Key.session restoreId, some (⟨backupId, .accepted, now, now, none, none⟩ : SessionRow)⟩,
      ⟨Key.activeSession .accepted, some restoreId⟩]
  insertStages restoreId Stage.all
  closeReads restoreId now

theorem startRestore_eq (backupId restoreId : String) (now : Time) :
    startRestore backupId restoreId now
      = startChecks backupId >>= fun _ => startWrites backupId restoreId now := by
  unfold startChecks
  rw [Prog.bind_assoc]
  rfl

/-- `BackupOpsService.start_restore`: the check comes first, in a transaction of its own. -/
def opsStartRestore (backupId restoreId : String) (now : Time) : Tx Unit := do
  requireNoActive opsActiveRestoreStatuses
  startRestore backupId restoreId now

/-! ### Sessions and stages -/

/-- What an update of a session writes, with its entries in the index. -/
def sessionWrites (restoreId : String) (f : SessionRow → SessionRow) (v : Db) : List (Write Row) :=
  match v.get (Key.session restoreId) with
  | none => []
  | some r =>
    if statusTaken v restoreId (f r).status then []
    else ⟨Key.session restoreId, some (f r)⟩ ::
      (activeEntries r.status none ++ activeEntries (f r).status (some restoreId))

/-- `UPDATE restore_sessions` -/
def updateSession (restoreId : String) (f : SessionRow → SessionRow) : Tx Unit :=
  .stmt (fun _ => []) (sessionWrites restoreId f) fun v =>
    if (v.get (Key.session restoreId)).any fun r => statusTaken v restoreId (f r).status then
      .fail .integrity
    else .done ()

/-- `_locked_session` -/
def lockedSession (restoreId : String) : Tx SessionRow := do
  let session ← lockRow (Key.session restoreId)
  orRaise session (refused "restore_not_found" "Restore was not found" 404)

/-- `UPDATE restore_stages` of one stage. -/
def updateStage (restoreId : String) (stage : Stage) (f : StageRow → StageRow) : Tx Unit := do
  let _ ← updateWhere (Key.stage restoreId stage) (fun _ => true) f
  return ()

/-- `_complete_stage` -/
def completeStage (restoreId : String) (stage : Stage) (now : Time) (validated : Bool) : Tx Unit :=
  updateStage restoreId stage fun r =>
    { r with status := if validated then .succeeded else .failed, validated,
             completedAt := some now }

/-- The stages of a session, ordered by their position. -/
def stagesOf (v : Db) (restoreId : String) : List (Stage × StageRow) :=
  (Stage.all.filterMap fun stage => (v.get (Key.stage restoreId stage)).map fun r => (stage, r))
    |>.insertionSort fun x y => x.2.position ≤ y.2.position

/-- The stage the loop over the stages stops at. -/
def runnableStage (stages : List (Stage × StageRow)) : Option (Stage × Progress) :=
  (stages.find? fun x => x.2.status = .failed ∨ (x.2.status = .running ∧ x.1.isFact = false) ∨
    x.2.status = .pending).map fun x => (x.1, x.2.status)

/-- All stages have succeeded. -/
def allSucceeded (stages : List (Stage × StageRow)) : Bool :=
  stages.all fun x => x.2.status = .succeeded

/-! ### Repair targets -/

/-- A new repair target, if it fits its columns. -/
def repairRow (resourceId classification detail : String) (now : Time) : Except Err RepairRow := do
  let _ ← columnText 128 resourceId
  let failureClassification ← columnText 64 classification
  let detail ← columnText 512 detail
  .ok ⟨failureClassification, detail, .open, 0, now, now, some now, none⟩

/-- `_open_repair_target`: a target that is there already is left as it is. -/
def openRepairTarget (restoreId : String) (stage : Stage)
    (resourceId classification detail : String) (now : Time) : Tx Unit := do
  let existing ← Prog.select fun v : Db => (v.get (Key.repair restoreId stage resourceId)).isSome
  if existing then return ()
  else do
    let row ← check (repairRow resourceId classification detail now)
    insert .integrity [Key.repair restoreId stage resourceId]
      [⟨Key.repair restoreId stage resourceId, some row⟩]

/-- `_resolve_repair_target` -/
def resolveRepairTarget (restoreId : String) (stage : Stage) (resourceId : String) (now : Time) :
    Tx Unit := do
  let _ ← updateWhere (Key.repair restoreId stage resourceId) (fun _ => true) fun r =>
    { r with status := .succeeded, resolvedAt := some now, updatedAt := now }
  return ()

/-- There are open repair targets. -/
def anyOpenRepair (v : Db) (restoreId : String) : Bool :=
  (table v fun
    | .repair restoreId' _ _, row =>
      if restoreId' = restoreId ∧ row.status = .open then some () else none
    | _, _ => none) ≠ []

/-- `_has_open_repair_targets` -/
def hasOpenRepairTargets (restoreId : String) : Tx Bool :=
  Prog.select fun v => anyOpenRepair v restoreId

/-! ### Facts -/

/-- The fact a dictionary made of the facts has under a key: the last one. -/
def factOf (facts : List ObjectFact) (objectKey : String) : Option ObjectFact :=
  facts.reverse.find? fun fact => fact.objectKey = objectKey

/-- The keys of that dictionary; nothing depends on their order. -/
def keysOf (facts : List ObjectFact) : List String := (facts.map ObjectFact.objectKey).dedup

/-- Size and checksum are the same. -/
def agrees (fact observed : ObjectFact) : Bool :=
  observed.sizeBytes = fact.sizeBytes && observed.sha256 = fact.sha256

/-- What is found of a key: how it is classified, and the detail. -/
def findingOf (expected actual : List ObjectFact) (objectKey : String) : Option (String × String) :=
  match factOf expected objectKey, factOf actual objectKey with
  | some _, none =>
    some ("object_missing", "object " ++ objectKey ++ " missing from object storage")
  | some fact, some observed =>
    if agrees fact observed then none
    else some ("object_checksum_mismatch", "object " ++ objectKey ++
      " size/sha256 mismatch (expected " ++ toString fact.sizeBytes ++ "/" ++ fact.sha256 ++
      ", actual " ++ toString observed.sizeBytes ++ "/" ++ observed.sha256 ++ ")")
  | none, some _ =>
    some ("object_orphan", "object " ++ objectKey ++ " absent from manifest records")
  | none, none => none

/-- The keys that are looked at: those that are expected, then the others. -/
def keysToCompare (expected actual : List ObjectFact) : List String :=
  keysOf expected ++ (keysOf actual).filter fun objectKey => objectKey ∉ keysOf expected

/-- The keys that agree. -/
def consistentKeys (expected actual : List ObjectFact) : List String :=
  (keysOf expected).filter fun objectKey => (findingOf expected actual objectKey).isNone

/-- The repair targets of what is found. -/
def openFindings (restoreId : String) (expected actual : List ObjectFact) (now : Time) :
    List String → Tx Unit
  | [] => return ()
  | objectKey :: objectKeys =>
    match findingOf expected actual objectKey with
    | none => openFindings restoreId expected actual now objectKeys
    | some (classification, detail) => do
      openRepairTarget restoreId .objectStore objectKey classification detail now
      openFindings restoreId expected actual now objectKeys

/-- The repair targets of the keys that agree are resolved. -/
def resolveAll (restoreId : String) (now : Time) : List String → Tx Unit
  | [] => return ()
  | objectKey :: objectKeys => do
    resolveRepairTarget restoreId .objectStore objectKey now
    resolveAll restoreId now objectKeys

/-- What a validation of the facts writes. -/
def compareFacts (restoreId : String) (expected actual : List ObjectFact) (now : Time) :
    Tx Unit := do
  openFindings restoreId expected actual now (keysToCompare expected actual)
  resolveAll restoreId now (consistentKeys expected actual)

/-- `_validate_facts`, the `n`-th time in a call. -/
def validateFacts (restoreId : String) (answers : Answers) (n : ℕ) (now : Time) : Tx Unit :=
  match answers.factValidation with
  | none => return ()
  | some facts => do
    let (expected, actual) ← check (facts n)
    compareFacts restoreId expected actual now

/-- `_retry_repair_targets`: apart from audit records, the validation. -/
def retryRepairTargets (restoreId : String) (answers : Answers) (n : ℕ) (now : Time) : Tx Unit :=
  validateFacts restoreId answers n now

/-! ### Targets of derived stages -/

/-- There is no port for derived stages. -/
def rebuildUnavailable (stage : String) : Err :=
  refused "restore_rebuild_unavailable" "No derived rebuild port is configured" 500
    [("stage", .str stage)]

/-- `_upsert_target` for every resource. -/
def upsertTargets (restoreId : String) (stage : Stage) (now : Time) : List String → Tx Unit
  | [] => return ()
  | resourceId :: resourceIds => do
    let existing ← Prog.select fun v : Db => (v.get (Key.target restoreId stage resourceId)).isSome
    if existing then upsertTargets restoreId stage now resourceIds
    else do
      let _ ← check (columnText 128 resourceId)
      insert .integrity [Key.target restoreId stage resourceId]
        [⟨Key.target restoreId stage resourceId,
          some (⟨.pending, 0, 0, now, now, none, none, none⟩ : TargetRow)⟩]
      upsertTargets restoreId stage now resourceIds

/-- `UPDATE restore_targets` of one target. -/
def updateTarget (restoreId : String) (stage : Stage) (resourceId : String)
    (f : TargetRow → TargetRow) : Tx Unit := do
  let _ ← updateWhere (Key.target restoreId stage resourceId) (fun _ => true) f
  return ()

/-- A rebuild of a target has failed. -/
def targetFailed (restoreId : String) (stage : Stage) (resourceId : String)
    (failure : RebuildFailure) (now : Time) : Tx Unit := do
  let classification ← check (columnText 64 failure.classification)
  updateTarget restoreId stage resourceId fun r =>
    { r with status := .failed, failureClassification := some classification,
             nextRetryAt := some now, updatedAt := now }
  openRepairTarget restoreId stage resourceId classification
    (if failure.message = "" then failure.classification else failure.message) now

/-- A rebuild of a target has succeeded. -/
def targetSucceeded (restoreId : String) (stage : Stage) (resourceId : String) (now : Time) :
    Tx Unit :=
  updateTarget restoreId stage resourceId fun r =>
    { r with status := .succeeded, completedAt := some now, updatedAt := now }

/-- A target that was read starts to run. -/
def startTarget (restoreId : String) (stage : Stage) (resourceId : String) (target : TargetRow)
    (now : Time) : Tx Unit :=
  updateTarget restoreId stage resourceId fun r =>
    { r with status := .running, attempt := target.attempt + 1,
             fencingEpoch := target.fencingEpoch + 1, nextRetryAt := none, updatedAt := now }

/-- The targets of a stage that have not succeeded. -/
def unfinishedTargets (v : Db) (restoreId : String) (stage : Stage) : List (String × TargetRow) :=
  table v fun
    | .target restoreId' stage' resourceId, row =>
      if restoreId' = restoreId ∧ stage' = stage ∧ (row.status = .pending ∨ row.status = .failed)
      then some (resourceId, row) else none
    | _, _ => none

/-- What the rebuild of a target makes of it. -/
def settleTarget (restoreId : String) (stage : Stage) (resourceId : String)
    (rebuild : DerivedRebuild) (now : Time) : Tx Unit :=
  match rebuild.rebuild stage resourceId with
  | some failure => targetFailed restoreId stage resourceId failure now
  | none => targetSucceeded restoreId stage resourceId now

/-- The loop over the targets of a stage. -/
def runTargets (restoreId : String) (stage : Stage) (rebuild : DerivedRebuild) (now : Time) :
    List (String × TargetRow) → Tx Unit
  | [] => return ()
  | (resourceId, target) :: targets => do
    startTarget restoreId stage resourceId target now
    settleTarget restoreId stage resourceId rebuild now
    runTargets restoreId stage rebuild now targets

/-- `_execute_targets` -/
def executeTargets (restoreId : String) (stage : Stage) (rebuild : DerivedRebuild) (now : Time) :
    Tx Unit := do
  let targets ← Prog.select fun v => unfinishedTargets v restoreId stage
  runTargets restoreId stage rebuild now targets

/-- A target of the stage has failed. -/
def anyFailedTarget (v : Db) (restoreId : String) (stage : Stage) : Bool :=
  (table v fun
    | .target restoreId' stage' _, row =>
      if restoreId' = restoreId ∧ stage' = stage ∧ row.status = .failed then some () else none
    | _, _ => none) ≠ []

/-! ### Advancing -/

/-- `_component_reference` of the set of a session. -/
def componentReference (restoreId : String) (kind : ComponentKind) : Tx String := do
  let backupId ← Prog.select fun v : Db =>
    (v.get (Key.session restoreId)).map SessionRow.backupId
  let backupId ← orRaise backupId (.internal "No row was found when one was required")
  let component ← Prog.select fun v : Db => v.get (Key.component backupId kind)
  let component ← orRaise component (.internal "No row was found when one was required")
  return component.reference.getD "None"

/-- The stage `postgres`. -/
def executePostgres (restoreId : String) (answers : Answers) (now : Time) : Tx Unit := do
  let reference ← componentReference restoreId .postgresSnapshot
  check (answers.restorePostgres reference)
  completeStage restoreId .postgres now true

/-- The stage `object_store`. -/
def executeObjectStore (restoreId : String) (answers : Answers) (now : Time) : Tx Unit := do
  let reference ← componentReference restoreId .objectStoreSnapshot
  check (answers.restoreObjects reference)
  validateFacts restoreId answers 1 now
  let mismatched ← hasOpenRepairTargets restoreId
  completeStage restoreId .objectStore now (!mismatched)

/-- A derived stage. -/
def executeDerived (restoreId : String) (stage : Stage) (answers : Answers) (now : Time) :
    Tx Unit := do
  let rebuild ← orRaise answers.derivedRebuild (rebuildUnavailable stage.text)
  let resourceIds ← check (rebuild.listResources stage)
  upsertTargets restoreId stage now resourceIds
  executeTargets restoreId stage rebuild now
  let failed ← Prog.select fun v => anyFailedTarget v restoreId stage
  completeStage restoreId stage now (!failed)

/-- `_execute_stage` -/
def executeStage (restoreId : String) (stage : Stage) (answers : Answers) (now : Time) :
    Tx Unit := do
  updateStage restoreId stage fun r => { r with status := .running, startedAt := some now }
  match stage with
  | .postgres => executePostgres restoreId answers now
  | .objectStore => executeObjectStore restoreId answers now
  | stage => executeDerived restoreId stage answers now

/-- A session gets a status. -/
def setStatus (restoreId : String) (status : SessionStatus) (now : Time) : Tx Unit :=
  updateSession restoreId fun r => { r with status, updatedAt := now }

/-- The end of `_run_post_gate`: the gate is opened. -/
def finishRestore (restoreId : String) (now : Time) : Tx Unit := do
  let _ ← updateWhere Key.maintenance (fun _ => true) fun _ => ⟨false, none, now⟩
  updateSession restoreId fun r =>
    { r with status := .completed, completedAt := some now, updatedAt := now }

/-- `_run_post_gate` -/
def runPostGate (restoreId : String) (answers : Answers) (now : Time) : Tx Unit := do
  let findings ← check (answers.postGateValidation.getD (.ok []))
  let stillOpen ← hasOpenRepairTargets restoreId
  if findings = [] ∧ stillOpen = false then finishRestore restoreId now
  else do
    let blocking := if stillOpen then findings ++ ["repair_targets_open"] else findings
    let failureReason ← check (columnText 512 (String.intercalate ";" blocking))
    updateSession restoreId fun r =>
      { r with status := .blocked, failureReason := some failureReason, updatedAt := now }

/-- A fact stage that failed is not run again: what is to be repaired is looked at. -/
def retryFactStage (restoreId : String) (stage : Stage) (answers : Answers) (now : Time) :
    Tx Unit := do
  retryRepairTargets restoreId answers 1 now
  let stillOpen ← hasOpenRepairTargets restoreId
  if stillOpen then setStatus restoreId .blocked now
  else completeStage restoreId stage now true

/-- A stage is run, and the gate is tried if it was the last. -/
def runStage (restoreId : String) (stage : Stage) (answers : Answers) (now : Time) : Tx Unit := do
  setStatus restoreId .running now
  executeStage restoreId stage answers now
  let refreshed ← Prog.select fun v => stagesOf v restoreId
  if refreshed ≠ [] ∧ allSucceeded refreshed = true then runPostGate restoreId answers now
  else return ()

/-- What `advance_restore` does for a session that is not blocked. -/
def advanceStages (restoreId : String) (answers : Answers) (now : Time) : Tx Unit := do
  let stages ← Prog.select fun v => stagesOf v restoreId
  match runnableStage stages with
  | none => if allSucceeded stages then runPostGate restoreId answers now else return ()
  | some (stage, status) =>
    if status = .failed ∧ stage.isFact = true then retryFactStage restoreId stage answers now
    else runStage restoreId stage answers now

/-- What `advance_restore` does for a session that is blocked. -/
def advanceBlocked (restoreId : String) (answers : Answers) (now : Time) : Tx Unit := do
  retryRepairTargets restoreId answers 0 now
  let stillOpen ← hasOpenRepairTargets restoreId
  if stillOpen then return ()
  else do
    setStatus restoreId .running now
    advanceStages restoreId answers now

/-- `advance_restore` -/
def advanceRestore (restoreId : String) (answers : Answers) (now : Time) : Tx Unit := do
  let session ← lockedSession restoreId
  match session.status with
  | .completed | .failed => return ()
  | .blocked => advanceBlocked restoreId answers now
  | .accepted | .running => advanceStages restoreId answers now

/-! ### Retries -/

/-- The rebuild of a target that is tried again. -/
def rebuildTarget (restoreId : String) (stage : Stage) (resourceId : String) (target : TargetRow)
    (rebuild : DerivedRebuild) (now : Time) : Tx Unit := do
  startTarget restoreId stage resourceId target now
  match rebuild.rebuild stage resourceId with
  | some failure => targetFailed restoreId stage resourceId failure now
  | none => do
    targetSucceeded restoreId stage resourceId now
    resolveRepairTarget restoreId stage resourceId now

/-- What `retry_target` does under the lock. -/
def retryLockedTarget (restoreId stageText resourceId : String) (answers : Answers) (now : Time) :
    Tx Unit := do
  let target ← Prog.select fun v : Db => (Stage.ofText stageText).bind fun stage =>
    (v.get (Key.target restoreId stage resourceId)).map fun row => (stage, row)
  let (stage, target) ← orRaise target
    (refused "restore_target_not_found" "Restore target was not found" 404)
  if target.status = .succeeded then return ()
  else do
    let rebuild ← orRaise answers.derivedRebuild (rebuildUnavailable stageText)
    rebuildTarget restoreId stage resourceId target rebuild now

/-- `retry_target` -/
def retryTarget (restoreId stageText resourceId : String) (answers : Answers) (now : Time) :
    Tx Unit := do
  let _ ← lockedSession restoreId
  retryLockedTarget restoreId stageText resourceId answers now

/-- What the retry of a repair target does: the facts are validated, and the target is resolved if
it is not open any more. -/
def retryRepair (restoreId : String) (stage : Stage) (resourceId : String) (repair : RepairRow)
    (answers : Answers) (now : Time) : Tx Unit := do
  let _ ← updateWhere (Key.repair restoreId stage resourceId) (fun _ => true) fun r =>
    { r with attempts := repair.attempts + 1, updatedAt := now }
  validateFacts restoreId answers 0 now
  let resolved ← Prog.select fun v : Db =>
    (v.get (Key.repair restoreId stage resourceId)).all (·.status ≠ .open)
  if resolved then resolveRepairTarget restoreId stage resourceId now else return ()

/-- What `retry_repair_target` does under the lock. -/
def retryLockedRepair (restoreId stageText resourceId : String) (answers : Answers) (now : Time) :
    Tx Unit := do
  let repair ← Prog.select fun v : Db => (Stage.ofText stageText).bind fun stage =>
    (v.get (Key.repair restoreId stage resourceId)).map fun row => (stage, row)
  let (stage, repair) ← orRaise repair
    (refused "repair_target_not_found" "Repair target was not found" 404)
  if repair.status = .succeeded then return ()
  else retryRepair restoreId stage resourceId repair answers now

/-- `retry_repair_target` -/
def retryRepairTarget (restoreId stageText resourceId : String) (answers : Answers) (now : Time) :
    Tx Unit := do
  let _ ← lockedSession restoreId
  retryLockedRepair restoreId stageText resourceId answers now

/-- The operations on restores. -/
inductive RestoreOp
  | start (backupId restoreId : String) (now : Time)
  | opsStart (backupId restoreId : String) (now : Time)
  | advance (restoreId : String) (answers : Answers) (now : Time)
  | retryTarget (restoreId stage resourceId : String) (answers : Answers) (now : Time)
  | retryRepairTarget (restoreId stage resourceId : String) (answers : Answers) (now : Time)

/-- The transaction of an operation. -/
def RestoreOp.body : RestoreOp → Tx Unit
  | .start backupId restoreId now => startRestore backupId restoreId now
  | .opsStart backupId restoreId now => opsStartRestore backupId restoreId now
  | .advance restoreId answers now => advanceRestore restoreId answers now
  | .retryTarget restoreId stage resourceId answers now =>
    Backup.retryTarget restoreId stage resourceId answers now
  | .retryRepairTarget restoreId stage resourceId answers now =>
    Backup.retryRepairTarget restoreId stage resourceId answers now

/-- The session an operation is about. -/
def RestoreOp.restoreId : RestoreOp → String
  | .start _ restoreId _ | .opsStart _ restoreId _ | .advance restoreId _ _
  | .retryTarget restoreId _ _ _ _ | .retryRepairTarget restoreId _ _ _ _ => restoreId

end RagQs.Backup
