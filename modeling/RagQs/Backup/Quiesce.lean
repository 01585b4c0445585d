import RagQs.Backup.Sets
import RagQs.Txn.Sequential
import Mathlib.Logic.Function.Basic

/-!
# Executions of backups

An executor closes the write gate for its set, takes the snapshots that are missing, records each,
and opens the gate.  What it finds closed for its set it takes over from an executor that has crashed;
the lease that is to keep other executors away may have expired.

Every statement that is committed on its own, every transaction of the service and every call of a
port is a step; each may raise, before or after it has had its effect.  Any executor may stop between
two steps for as long as it likes, or crash.  Beside them, gates that are held for sets that are not
creating any more are recovered.

How long an executor waits for the writes to drain is left to the step; audit records, and the cleanup
target of a failed execution, touch nothing that is modelled here.

## Main definitions

* `GateRow`, `GateState` — the write gate.
* `ExecutorPhase`, `Executor`, `Recovery` — where an executor, and a recovery, stands.
* `Backups` — the database, the gate, and when the recorded snapshots were taken.
* `executorStep` — a step of `_execute_backup`.
* `quiesceStep` — a move of the system.
-/

namespace RagQs.Backup

open Txn Function

/-! ### The gate -/

/-- `WRITE_GATE_OPEN`, `WRITE_GATE_CLOSING`, `WRITE_GATE_CLOSED` -/
inductive GateState
  | open
  | closing
  | closed
  deriving DecidableEq

/-- The single row of the write gate. -/
structure GateRow where
  state : GateState
  backupId : Option String
  deriving DecidableEq

/-- The gate at a time, and how often it had changed. -/
structure Stamp where
  gate : Option GateRow
  changes : ℕ

/-! ### Executors -/

/-- What a port of the snapshots has returned. -/
inductive Shot
  | postgres (reference : String)
  | objects (reference : String)
  | manifest (facts : List ObjectFact)

/-- The component a result is of. -/
def Shot.kind : Shot → ComponentKind
  | .postgres _ => .postgresSnapshot
  | .objects _ => .objectStoreSnapshot
  | .manifest _ => .objectManifest

/-- The operation that records a result. -/
def Shot.op (backupId : String) (now : Time) : Shot → SetOp
  | .postgres reference => .complete backupId "postgres_snapshot" reference now
  | .objects reference => .complete backupId "object_store_snapshot" reference now
  | .manifest facts => .record backupId facts now

/-- Where an executor stands: the next thing it does. -/
inductive ExecutorPhase
  | status
  | ensure
  | acquire
  | drain
  | close
  | kinds
  | snapshot (kinds : List ComponentKind)
  | record (shot : Shot) (since : Stamp) (kinds : List ComponentKind)
  | lookup (reason : String)
  | fail (kind : ComponentKind) (reason : String)
  | release

/-- An executor of a set. -/
structure Executor where
  backupId : String
  phase : ExecutorPhase

/-- Where a recovery of the gate stands, with the set it has read. -/
inductive Recovery
  | status (backupId : Option String)
  | update (backupId : Option String)

/-- The database, the gate, between which times the recorded snapshots were taken, the executors and
the recoveries. -/
structure Backups where
  db : Db
  gate : Option GateRow
  changes : ℕ
  taken : String → ComponentKind → Option (Stamp × Stamp)
  executors : ℕ → Option Executor
  recoveries : ℕ → Option Recovery

/-- How a step goes: it has its effect, or raises, before or after it has had it. -/
inductive Outcome
  | ok
  | raised
  | raisedAfter
  deriving DecidableEq

/-- How a step goes, with the text of what it raises, whether the writes do not drain in time, and
what a port returns. -/
structure Answer where
  outcome : Outcome
  error : String
  timeout : Bool
  reference : String
  facts : List ObjectFact
  now : Time

/-- What the port of a kind returns. -/
def Answer.shot (a : Answer) : ComponentKind → Shot
  | .postgresSnapshot => .postgres a.reference
  | .objectStoreSnapshot => .objects a.reference
  | .objectManifest => .manifest a.facts

/-! ### The statements on the gate -/

/-- The gate, and how often it has changed. -/
def Backups.stamp (s : Backups) : Stamp := ⟨s.gate, s.changes⟩

/-- The gate is written. -/
def Backups.setGate (s : Backups) (row : GateRow) : Backups :=
  { s with gate := some row, changes := s.changes + 1 }

/-- The gate is closing or closed, for the set. -/
def GateRow.heldFor (row : GateRow) (backupId : Option String) : Bool :=
  row.state ≠ .open && row.backupId = backupId

/-- `_ensure_gate_row`: a gate that is not there is open. -/
def ensureGateRow (s : Backups) : Backups :=
  match s.gate with
  | none => s.setGate ⟨.open, none⟩
  | some _ => s

/-- `_try_acquire_gate`, which succeeds where the gate is open. -/
def tryAcquireGate (s : Backups) (backupId : String) : Backups × Bool :=
  if s.gate.any (·.state = .open) then (s.setGate ⟨.closing, some backupId⟩, true) else (s, false)

/-- `_close_gate`, which does not tell whether it closed it. -/
def closeGate (s : Backups) (backupId : String) : Backups :=
  if s.gate = some ⟨.closing, some backupId⟩ then s.setGate ⟨.closed, some backupId⟩ else s

/-- `_release_gate`, and the last statement of `_recover_stale_gate`. -/
def releaseGate (s : Backups) (backupId : Option String) : Backups :=
  if s.gate.any (·.heldFor backupId) then s.setGate ⟨.open, none⟩ else s

/-! ### The statements on sets -/

/-- `_backup_status` -/
def statusOf (v : Db) (backupId : String) : Option SetStatus :=
  (v.get (Key.set backupId)).map BackupSetRow.status

/-- The kinds of which no component has succeeded, in the order of the sequence. -/
def missingKinds (v : Db) (backupId : String) : List ComponentKind :=
  ComponentKind.all.filter fun kind =>
    (v.get (Key.component backupId kind)).all fun row => row.status ≠ .succeeded

/-- The kinds of the components that have not succeeded. -/
def unsucceededKinds (v : Db) (backupId : String) : List ComponentKind :=
  ComponentKind.all.filter fun kind =>
    (v.get (Key.component backupId kind)).any fun row => row.status ≠ .succeeded

/-- The first 500 characters of a text. -/
def clip (text : String) : String := String.ofList (text.toList.take 500)

/-- The result of a snapshot is recorded, if the operation does not fail. -/
def recordShot (s : Backups) (backupId : String) (shot : Shot) (since : Stamp) (now : Time) :
    Option Backups :=
  match (shot.op backupId now).body.exec s.db with
  | .error _ => none
  | .ok x => some { s with
      db := x.2
      taken := update s.taken backupId
        (update (s.taken backupId) shot.kind (some (since, s.stamp))) }

/-- `fail_component` -/
def markFailed (s : Backups) (backupId : String) (kind : ComponentKind) (reason : String)
    (now : Time) : Backups :=
  { s with db := execOne SetOp.body s.db (.fail backupId kind.text reason now) }

/-! ### The steps of an execution -/

/-- What follows a gate that was read. -/
def gatePhase (row : GateRow) (backupId : String) : Option ExecutorPhase :=
  if row.state = .open then some .acquire
  else if row.backupId = some backupId then some .drain
  else none

/-- A step of the snapshots has failed. -/
def stepFailed (kind : ComponentKind) (a : Answer) : ExecutorPhase :=
  .fail kind (clip (kind.text ++ ": " ++ a.error))

/-- Something else has failed. -/
def sequenceFailed (a : Answer) : ExecutorPhase :=
  .lookup (clip ("snapshot sequence failed: " ++ a.error))

/-- What follows a statement of the sequence outside the snapshots. -/
def afterStatement (a : Answer) (next : ExecutorPhase) : ExecutorPhase :=
  if a.outcome = .ok then next else sequenceFailed a

/-- What `_first_unsucceeded_component_kind` makes of the components: more than one is an error of
the query, which leaves the handler. -/
def lookupPhase (kinds : List ComponentKind) (reason : String) : ExecutorPhase :=
  match kinds with
  | [] => .fail .postgresSnapshot reason
  | [kind] => .fail kind reason
  | _ => .release

/-- A result is recorded: what the executor does then. -/
def recordStep (s : Backups) (backupId : String) (shot : Shot) (since : Stamp)
    (kinds : List ComponentKind) (a : Answer) : Backups × Option ExecutorPhase :=
  if a.outcome = .raised then (s, some (stepFailed shot.kind a))
  else match recordShot s backupId shot since a.now with
    | none => (s, some (stepFailed shot.kind a))
    | some t => (t, some (if a.outcome = .ok then .snapshot kinds else stepFailed shot.kind a))

/-- A step of `_execute_backup`: what it does, and where the executor stands afterwards. -/
def executorStep (s : Backups) (backupId : String) (a : Answer) :
    ExecutorPhase → Backups × Option ExecutorPhase
  | .status =>
    (s, if a.outcome = .ok ∧ statusOf s.db backupId = some .creating then some .ensure else none)
  | .ensure =>
    if a.outcome = .raised then (s, none)
    else
      let t := ensureGateRow s
      (t, if a.outcome = .ok then t.gate.bind fun row => gatePhase row backupId else none)
  | .acquire =>
    if a.outcome = .raised then (s, none)
    else
      let x := tryAcquireGate s backupId
      (x.1, if x.2 = true ∧ a.outcome = .ok then some .drain else none)
  | .drain =>
    (s, some (if a.timeout then .fail .postgresSnapshot (clip a.error)
      else afterStatement a .close))
  | .close =>
    (if a.outcome = .raised then s else closeGate s backupId, some (afterStatement a .kinds))
  | .kinds => (s, some (afterStatement a (.snapshot (missingKinds s.db backupId))))
  | .snapshot [] => (s, some .release)
  | .snapshot (kind :: kinds) =>
    (s, some (if a.outcome = .ok then .record (a.shot kind) s.stamp kinds else stepFailed kind a))
  | .record shot since kinds => recordStep s backupId shot since kinds a
  | .lookup reason =>
    (s, some (if a.outcome = .ok then lookupPhase (unsucceededKinds s.db backupId) reason
      else .release))
  | .fail kind reason =>
    (if a.outcome = .raised then s else markFailed s backupId kind reason a.now, some .release)
  | .release => (if a.outcome = .raised then s else releaseGate s (some backupId), none)

/-- A step of `_recover_stale_gate`. -/
def recoveryStep (s : Backups) : Option Recovery → Backups × Option Recovery
  | none => (s, (s.gate.filter (·.state ≠ .open)).map fun row => .status row.backupId)
  | some (.status none) => (s, some (.update none))
  | some (.status (some backupId)) =>
    (s, if statusOf s.db backupId = some .creating then none else some (.update (some backupId)))
  | some (.update backupId) => (releaseGate s backupId, none)

/-! ### The system -/

/-- A move of the system. -/
inductive QuiesceMove
  | create (backupId : String) (now : Time)
  | begin (i : ℕ) (backupId : String)
  | step (i : ℕ) (a : Answer)
  | crash (i : ℕ)
  | recover (i : ℕ)
  | giveUp (i : ℕ)

/-- One move. -/
def quiesceStep (s : Backups) : QuiesceMove → Option Backups
  | .create backupId now =>
    some { s with db := execOne SetOp.body s.db (.create backupId now) }
  | .begin i backupId =>
    match s.executors i with
    | none => some { s with
        executors := update s.executors i (some ⟨backupId, .status⟩) }
    | some _ => none
  | .step i a => (s.executors i).map fun e =>
      let next := executorStep s e.backupId a e.phase
      { next.1 with
        executors := update s.executors i (next.2.map fun phase => ⟨e.backupId, phase⟩) }
  | .crash i => some { s with executors := update s.executors i none }
  | .recover i =>
    let next := recoveryStep s (s.recoveries i)
    some { next.1 with recoveries := update s.recoveries i next.2 }
  | .giveUp i => some { s with recoveries := update s.recoveries i none }

end RagQs.Backup
