import RagQs.Platform.Json
import RagQs.Txn.Statement

/-!
# The tables of the backup domain

Backup sets with their components and the objects of their manifests, restore sessions with their
stages and targets, the repair targets and the maintenance gate.  Of a component the primary key is
its set and its kind, and so on for the other tables with a unique key beside a random one.  Audit
records and the lease tokens of targets are left out: nothing that is modelled reads them.

## Main definitions

* `BackupSetRow`, `ComponentRow`, `ObjectRow` — backup sets.
* `SessionRow`, `StageRow`, `TargetRow`, `RepairRow`, `MaintenanceRow` — restores.
* `Key`, `Row`, `Db` — the keys of all tables, and the database.
-/

namespace RagQs.Backup

open Txn

/-! ### Backup sets -/

/-- How far a backup set has got. -/
inductive SetStatus
  | creating
  | complete
  | failed
  deriving DecidableEq

/-- A backup set. -/
structure BackupSetRow where
  status : SetStatus
  createdAt : Time
  completedAt : Option Time := none
  purgedAt : Option Time := none

/-- `BACKUP_COMPONENT_KINDS` -/
inductive ComponentKind
  | postgresSnapshot
  | objectStoreSnapshot
  | objectManifest
  deriving DecidableEq

namespace ComponentKind

/-- The kinds in their order. -/
def all : List ComponentKind := [.postgresSnapshot, .objectStoreSnapshot, .objectManifest]

/-- The text of a kind. -/
def text : ComponentKind → String
  | .postgresSnapshot => "postgres_snapshot"
  | .objectStoreSnapshot => "object_store_snapshot"
  | .objectManifest => "object_manifest"

/-- The kind of a text. -/
def ofText (s : String) : Option ComponentKind := all.find? fun k => k.text = s

theorem mem_all (k : ComponentKind) : k ∈ all := by
  cases k <;> decide

@[simp] theorem ofText_text (k : ComponentKind) : ofText k.text = some k := by
  cases k <;> decide

end ComponentKind

/-- How far a component, a stage or a target has got. -/
inductive Progress
  | pending
  | running
  | succeeded
  | failed
  deriving DecidableEq

/-- A component of a backup set. -/
structure ComponentRow where
  status : Progress
  createdAt : Time
  reference : Option String := none
  failureReason : Option String := none
  completedAt : Option Time := none

/-- An object of a manifest. -/
structure ObjectRow where
  backupId : String
  sizeBytes : ℤ
  sha256 : String
  metadata : JsonObject

/-! ### Restores -/

/-- How far a restore session has got. -/
inductive SessionStatus
  | accepted
  | running
  | blocked
  | completed
  | failed
  deriving DecidableEq

/-- The statuses the index `uq_restore_sessions_active` is about. -/
def SessionStatus.isActive : SessionStatus → Bool
  | .accepted | .running | .blocked => true
  | .completed | .failed => false

/-- A restore session. -/
structure SessionRow where
  backupId : String
  status : SessionStatus
  createdAt : Time
  updatedAt : Time
  failureReason : Option String := none
  completedAt : Option Time := none

/-- `RESTORE_STAGES` -/
inductive Stage
  | postgres
  | objectStore
  | milvus
  | sparse
  | summary
  | graph
  | cache
  deriving DecidableEq

namespace Stage

/-- The stages in their order. -/
def all : List Stage := [.postgres, .objectStore, .milvus, .sparse, .summary, .graph, .cache]

/-- The text of a stage. -/
def text : Stage → String
  | .postgres => "postgres"
  | .objectStore => "object_store"
  | .milvus => "milvus"
  | .sparse => "sparse"
  | .summary => "summary"
  | .graph => "graph"
  | .cache => "cache"

/-- The stage of a text. -/
def ofText (s : String) : Option Stage := all.find? fun stage => stage.text = s

/-- `FACT_STAGES` -/
def isFact : Stage → Bool
  | .postgres | .objectStore => true
  | _ => false

/-- The position of a stage in the order. -/
def position : Stage → ℕ
  | .postgres => 0
  | .objectStore => 1
  | .milvus => 2
  | .sparse => 3
  | .summary => 4
  | .graph => 5
  | .cache => 6

theorem mem_all (stage : Stage) : stage ∈ all := by
  cases stage <;> decide

end Stage

/-- A stage of a restore. -/
structure StageRow where
  position : ℕ
  status : Progress
  validated : Bool
  startedAt : Option Time := none
  completedAt : Option Time := none

/-- A resource that a derived stage rebuilds. -/
structure TargetRow where
  status : Progress
  attempt : ℕ
  fencingEpoch : ℕ
  createdAt : Time
  updatedAt : Time
  failureClassification : Option String := none
  completedAt : Option Time := none
  nextRetryAt : Option Time := none

/-- Whether a repair is still needed. -/
inductive RepairStatus
  | open
  | succeeded
  deriving DecidableEq

/-- A repair target. -/
structure RepairRow where
  failureClassification : String
  detail : String
  status : RepairStatus
  attempts : ℕ
  createdAt : Time
  updatedAt : Time
  nextRetryAt : Option Time := none
  resolvedAt : Option Time := none

/-- The single row of the maintenance gate. -/
structure MaintenanceRow where
  readsClosed : Bool
  restoreId : Option String
  updatedAt : Time

/-! ### The database -/

/-- The primary keys of the tables, and the entries of the index of the active sessions. -/
inductive Key
  | set (backupId : String)
  | component (backupId : String) (kind : ComponentKind)
  | object (objectKey : String)
  | session (restoreId : String)
  | activeSession (status : SessionStatus)
  | stage (restoreId : String) (stage : Stage)
  | target (restoreId : String) (stage : Stage) (resourceId : String)
  | repair (restoreId : String) (stage : Stage) (resourceId : String)
  | maintenance
  deriving DecidableEq

/-- The row of a key; that of an index entry is the primary key of its row. -/
abbrev Row : Key → Type
  | .set _ => BackupSetRow
  | .component _ _ => ComponentRow
  | .object _ => ObjectRow
  | .session _ => SessionRow
  | .activeSession _ => String
  | .stage _ _ => StageRow
  | .target _ _ _ => TargetRow
  | .repair _ _ _ => RepairRow
  | .maintenance => MaintenanceRow

/-- The tables. -/
abbrev Db := Store Row

/-- A transaction. -/
abbrev Tx (α : Type) := Prog Row Err α

/-- An error of the application. -/
def refused (code message : String) (statusCode : ℕ) (details : List (String × Val) := []) : Err :=
  .platform { code, message, details, statusCode }

/-- What a text column stores. -/
def columnText (limit : ℕ) (s : String) : Except Err String :=
  if limit < s.length then .error (.internal "value too long for type character varying")
  else .ok s

theorem columnText_ok {limit : ℕ} {s t : String} (h : columnText limit s = .ok t) : t = s := by
  unfold columnText at h
  split at h
  · cases h
  · cases h
    rfl

theorem columnText_fits {limit : ℕ} {s : String} (h : s.length ≤ limit) :
    columnText limit s = .ok s := by
  unfold columnText
  rw [if_neg (Nat.not_lt.mpr h)]

end RagQs.Backup
