import RagQs.Backup.Schema

/-!
# Backup sets

A backup set has three components, and is complete once they have succeeded.  An operation records
the result of one component and reads all of them; a failed component fails the set.

## Main definitions

* `createBackupSet`, `recordManifestObjects`, `completeSnapshotComponent`, `failComponent` — the
  operations, each the transaction it makes.
* `SetOp`, `SetOp.body` — all of them.
-/

namespace RagQs.Backup

open Txn

/-- An object identity with its size and checksum. -/
structure ObjectFact where
  objectKey : String
  sizeBytes : ℤ
  sha256 : String
  metadata : JsonObject := []

/-- The set, or its component, is not there. -/
def componentNotFound : Err :=
  refused "backup_not_found" "Backup set or component was not found" 404

/-- `_require_component` -/
def requireComponent (backupId kind : String) : Tx ComponentKind := do
  let found ← Prog.select fun v : Db => (ComponentKind.ofText kind).filter fun k =>
    (v.get (Key.component backupId k)).isSome
  orRaise found componentNotFound

/-- `UPDATE backup_components` of one kind of a set. -/
def updateComponent (backupId : String) (kind : ComponentKind) (f : ComponentRow → ComponentRow) :
    Tx Unit := do
  let _ ← updateWhere (Key.component backupId kind) (fun _ => true) f
  return ()

/-- `UPDATE backup_sets` -/
def updateSet (backupId : String) (f : BackupSetRow → BackupSetRow) : Tx Unit := do
  let _ ← updateWhere (Key.set backupId) (fun _ => true) f
  return ()

/-- The components of a set. -/
def componentsOf (v : Db) (backupId : String) : List ComponentRow :=
  ComponentKind.all.filterMap fun kind => v.get (Key.component backupId kind)

/-- `_maybe_complete_backup_set`: a set is complete once all its components have succeeded. -/
def maybeCompleteBackupSet (backupId : String) (now : Time) : Tx Unit := do
  let components ← Prog.select fun v => componentsOf v backupId
  if components = [] ∨ components.any (fun c => c.status ≠ .succeeded) = true then return ()
  else updateSet backupId fun r => { r with status := .complete, completedAt := some now }

/-- The inserts of the components of a new set. -/
def insertComponents (backupId : String) (now : Time) : List ComponentKind → Tx Unit
  | [] => return ()
  | kind :: kinds => do
    insert .integrity [Key.component backupId kind]
      [⟨Key.component backupId kind, some (⟨.pending, now, none, none, none⟩ : ComponentRow)⟩]
    insertComponents backupId now kinds

/-- `create_backup_set` -/
def createBackupSet (backupId : String) (now : Time) : Tx Unit := do
  insert .integrity [Key.set backupId]
    [⟨Key.set backupId, some (⟨.creating, now, none, none⟩ : BackupSetRow)⟩]
  insertComponents backupId now ComponentKind.all

/-- The row of an object, if it fits its columns. -/
def objectRow (backupId : String) (fact : ObjectFact) : Except Err ObjectRow := do
  let _ ← columnText 512 fact.objectKey
  let sha256 ← columnText 64 fact.sha256
  if fact.sizeBytes < -2 ^ 31 ∨ 2 ^ 31 ≤ fact.sizeBytes then
    .error (.internal "integer out of range")
  else if fact.sizeBytes < 0 then .error .integrity
  else .ok ⟨backupId, fact.sizeBytes, sha256, fact.metadata⟩

/-- The inserts of the objects of a manifest. -/
def insertObjects (backupId : String) : List ObjectFact → Tx Unit
  | [] => return ()
  | fact :: facts => do
    let row ← check (objectRow backupId fact)
    insert .integrity [Key.object fact.objectKey] [⟨Key.object fact.objectKey, some row⟩]
    insertObjects backupId facts

/-- A component has succeeded. -/
def succeed (backupId : String) (kind : ComponentKind) (reference : String) (now : Time) :
    Tx Unit := do
  let reference ← check (columnText 512 reference)
  updateComponent backupId kind fun c =>
    { c with status := .succeeded, reference := some reference, completedAt := some now }
  maybeCompleteBackupSet backupId now

/-- `record_manifest_objects` -/
def recordManifestObjects (backupId : String) (facts : List ObjectFact) (now : Time) : Tx Unit := do
  let _ ← requireComponent backupId "object_manifest"
  insertObjects backupId facts
  succeed backupId .objectManifest ("manifest:" ++ toString facts.length) now

/-- The kinds that `complete_snapshot_component` accepts. -/
def snapshotKind (kind : String) : Except Err Unit :=
  if kind = "postgres_snapshot" ∨ kind = "object_store_snapshot" then .ok ()
  else .error (refused "backup_component_invalid" "Unknown backup component kind" 422)

/-- `complete_snapshot_component` -/
def completeSnapshotComponent (backupId kind reference : String) (now : Time) : Tx Unit := do
  check (snapshotKind kind)
  let kind ← requireComponent backupId kind
  succeed backupId kind reference now

/-- `fail_component` -/
def failComponent (backupId kind reason : String) (now : Time) : Tx Unit := do
  let kind ← requireComponent backupId kind
  let reason ← check (columnText 512 reason)
  updateComponent backupId kind fun c =>
    { c with status := .failed, failureReason := some reason, completedAt := some now }
  updateSet backupId fun r => { r with status := .failed, completedAt := some now }

/-- The operations on backup sets; `create_backup_set` gives a set the identity it draws. -/
inductive SetOp
  | create (backupId : String) (now : Time)
  | record (backupId : String) (facts : List ObjectFact) (now : Time)
  | complete (backupId kind reference : String) (now : Time)
  | fail (backupId kind reason : String) (now : Time)

/-- The transaction of an operation. -/
def SetOp.body : SetOp → Tx Unit
  | .create backupId now => createBackupSet backupId now
  | .record backupId facts now => recordManifestObjects backupId facts now
  | .complete backupId kind reference now => completeSnapshotComponent backupId kind reference now
  | .fail backupId kind reason now => failComponent backupId kind reason now

/-- The set an operation is about. -/
def SetOp.backupId : SetOp → String
  | .create backupId _ | .record backupId _ _ | .complete backupId _ _ _ | .fail backupId _ _ _ =>
    backupId

end RagQs.Backup
