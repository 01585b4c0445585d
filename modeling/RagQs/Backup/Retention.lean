import RagQs.Backup.RestoreRuns
import RagQs.Txn.Sequential

/-!
# Retention

A sweep tries again the deletions that are unfinished, and then deletes the snapshots of sets that
have expired: it checks that nothing refers to the set, inserts a cleanup target, calls the providers
for one component after another, and marks the set at the end.  Every read, every transaction and
every call of a provider is a step of its own, and between two of them other sweeps, restores and
executions make theirs; a sweep that crashes makes no further step.

A transaction of the service is one step: it is judged when it commits, and what it has read before
is locked by it.  Only `start_restore` has read what it did not lock; its checks are a step of their
own.

## Main definitions

* `CleanupRow`, `PolicyRow` — cleanup targets and the policy.
* `Phase` — where a sweep stands.
* `Vault` — the database, what the providers have deleted, and the sweeps.
* `sweepStep` — a step of `_retention_sweep`.
* `retentionStep` — a move of the system.
-/

namespace RagQs.Backup

open Txn Function

/-! ### Tables -/

/-- How far a cleanup target has got. -/
inductive CleanupStatus
  | pending
  | deleting
  | failed
  | done

/-- `_UNFINISHED_CLEANUP_STATUSES` -/
def CleanupStatus.isUnfinished : CleanupStatus → Bool
  | .done => false
  | _ => true

/-- A cleanup target. -/
structure CleanupRow where
  id : String
  backupId : String
  status : CleanupStatus
  attempts : ℕ
  createdAt : Time
  updatedAt : Time
  lastError : Option String := none
  nextRetryAt : Option Time := none

/-- The policy, as far as it is about retention, with the checks of its columns. -/
structure PolicyRow where
  keepLast : ℕ
  retentionDays : ℕ
  keepLast_pos : 1 ≤ keepLast
  retentionDays_pos : 1 ≤ retentionDays

/-- `_DEFAULT_KEEP_LAST`, `_DEFAULT_RETENTION_DAYS` -/
def defaultPolicy : PolicyRow := ⟨7, 30, by decide, by decide⟩

/-! ### Sweeps -/

/-- A cleanup target as a sweep has read it. -/
structure Job where
  targetId : String
  backupId : String
  attempts : ℕ

/-- What a sweep does after a target: it goes on with the targets that were due, or with the sets
that have expired. -/
inductive Rest
  | retries (targets : List Job) (budget : ℕ)
  | candidates (backupIds : List String) (remaining budget : ℕ)

/-- A set that has expired, and those after it. -/
structure Candidate where
  backupId : String
  later : List String
  remaining : ℕ
  budget : ℕ

/-- Where a sweep stands: the next thing it does. -/
inductive Phase
  | due (limit : ℕ)
  | loop (rest : Rest)
  | policy (budget : ℕ)
  | restorable (keepLast retentionDays budget : ℕ)
  | repairs (candidate : Candidate)
  | unfinished (candidate : Candidate)
  | create (candidate : Candidate)
  | mark (job : Job) (rest : Rest)
  | references (job : Job) (rest : Rest)
  | delete (job : Job) (references : List (ComponentKind × String)) (rest : Rest)
  | fail (job : Job) (error : String) (rest : Rest)

/-- A sweep, with the time it has read at its beginning. -/
structure Sweep where
  now : Time
  phase : Phase

/-- A `start_restore` that has made its checks. -/
structure StartTx where
  backupId : String
  restoreId : String
  now : Time

/-- The database, the snapshots that the providers have deleted, the time, the transactions that
start a session and the sweeps. -/
structure Vault where
  db : Db
  cleanups : List CleanupRow
  policy : Option PolicyRow
  deleted : List (String × ComponentKind)
  clock : Time
  starts : ℕ → Option StartTx
  sweeps : ℕ → Option Sweep

/-! ### What a sweep reads -/

/-- `_due_cleanup_targets` -/
def dueCleanupTargets (cleanups : List CleanupRow) (now : Time) : List Job :=
  ((cleanups.filter fun row => row.status.isUnfinished && row.nextRetryAt.all (· ≤ now)).insertionSort
    fun row row' => row.createdAt ≤ row'.createdAt).map fun row => ⟨row.id, row.backupId, row.attempts⟩

/-- The order of the sets: the newest first. -/
def newestFirst (x y : String × Time) : Prop := y.2 < x.2 ∨ (y.2 = x.2 ∧ y.1 ≤ x.1)

instance : DecidableRel newestFirst := fun x y => by
  unfold newestFirst
  infer_instance

/-- `_restorable_backups`: the complete sets that are not purged, with the time of completion. -/
def restorableBackups (v : Db) : List (String × Time) :=
  (table v fun
    | .set backupId, row => if row.status = .complete ∧ row.purgedAt = none then
        row.completedAt.map fun completedAt => (backupId, completedAt) else none
    | _, _ => none).insertionSort newestFirst

/-- `now - timedelta(days=retention_days)` -/
def cutoff (now : Time) (retentionDays : ℕ) : Time := now - retentionDays * 86400000000

/-- The sets that have expired, the oldest first. -/
def expiredBackups (restorable : List (String × Time)) (keepLast : ℕ) (cutoff : Time) :
    List String :=
  ((restorable.filter fun x => x.1 ∉ (restorable.take keepLast).map Prod.fst ∧ x.2 < cutoff).map
    Prod.fst).reverse

/-- The restores of a set that are accepted, running or blocked. -/
def activeRestores (v : Db) (backupId : String) : List String :=
  table v fun
    | .session restoreId, row =>
      if row.backupId = backupId ∧ row.status.isActive = true then some restoreId else none
    | _, _ => none

/-- The open repair targets of restores of a set. -/
def openRepairs (v : Db) (backupId : String) : List String :=
  table v fun
    | .repair restoreId _ resourceId, row =>
      if row.status = .open ∧ (v.get (Key.session restoreId)).any (·.backupId = backupId) = true then
        some resourceId else none
    | _, _ => none

/-- The unfinished cleanup targets of a set. -/
def unfinishedCleanups (cleanups : List CleanupRow) (backupId : String) : List CleanupRow :=
  cleanups.filter fun row => row.backupId = backupId && row.status.isUnfinished

/-- `_component_references`, in the order in which they are deleted. -/
def componentReferences (v : Db) (backupId : String) : List (ComponentKind × String) :=
  ComponentKind.all.filterMap fun kind =>
    ((v.get (Key.component backupId kind)).bind ComponentRow.reference).map fun reference =>
      (kind, reference)

/-! ### The steps of a sweep -/

/-- What is drawn in a step, and what a provider answers: an error or none, and whether a call that
failed has deleted the snapshot. -/
structure Given where
  targetId : String
  error : Option String
  gone : Bool

/-- The rows of a cleanup target are updated. -/
def updateCleanup (cleanups : List CleanupRow) (targetId : String)
    (f : CleanupRow → CleanupRow) : List CleanupRow :=
  cleanups.map fun row => if row.id = targetId then f row else row

/-- The set is marked as purged. -/
def markPurged (v : Db) (backupId : String) (now : Time) : Db :=
  match v.get (Key.set backupId) with
  | none => v
  | some row => v.set (Key.set backupId) (some { row with purgedAt := some now })

/-- The rest once a target was purged. -/
def Rest.purged : Rest → Rest
  | .retries targets budget => .retries targets budget
  | .candidates backupIds remaining budget => .candidates backupIds (remaining - 1) budget

/-- The next target or set; a set that a restore refers to is skipped, and two such restores are an
error of the query. -/
def nextPhase (v : Db) : Rest → Option Phase
  | .retries [] budget => some (.policy budget)
  | .retries (job :: jobs) budget =>
    if budget = 0 then some (.policy budget) else some (.mark job (.retries jobs (budget - 1)))
  | .candidates [] _ _ => none
  | .candidates (backupId :: backupIds) remaining budget =>
    if budget = 0 then none
    else match activeRestores v backupId with
      | [] => some (.repairs ⟨backupId, backupIds, remaining, budget⟩)
      | [_] => some (.loop (.candidates backupIds remaining budget))
      | _ => none

/-- The set is skipped. -/
def Candidate.skip (c : Candidate) : Phase := .loop (.candidates c.later c.remaining c.budget)

/-- The end of `_reference_protection`, and the last restorable set. -/
def protectedPhase (v : Db) (c : Candidate) : Option Phase :=
  match openRepairs v c.backupId with
  | [] => if c.remaining ≤ 1 then some c.skip else some (.unfinished c)
  | [_] => some c.skip
  | _ => none

/-- `_has_unfinished_cleanup_target` -/
def unfinishedPhase (cleanups : List CleanupRow) (c : Candidate) : Option Phase :=
  match unfinishedCleanups cleanups c.backupId with
  | [] => some (.create { c with budget := c.budget - 1 })
  | [_] => some c.skip
  | _ => none

/-- `_create_cleanup_target` -/
def createCleanupTarget (s : Vault) (c : Candidate) (targetId : String) (now : Time) :
    Vault × Option Phase :=
  if targetId ∈ s.cleanups.map CleanupRow.id then (s, none)
  else ({ s with cleanups := s.cleanups ++ [⟨targetId, c.backupId, .pending, 0, now, now, none, none⟩] },
    some (.mark ⟨targetId, c.backupId, 0⟩ (.candidates c.later c.remaining c.budget)))

/-- The call of a provider; there is nothing to delete for a manifest. -/
def deleteSnapshot (s : Vault) (job : Job) (kind : ComponentKind)
    (references : List (ComponentKind × String)) (rest : Rest) (given : Given) :
    Vault × Option Phase :=
  if kind = .objectManifest then (s, some (.delete job references rest))
  else match given.error with
    | none => ({ s with deleted := (job.backupId, kind) :: s.deleted },
        some (.delete job references rest))
    | some error =>
      (if given.gone then { s with deleted := (job.backupId, kind) :: s.deleted } else s,
        some (.fail job (error.take 500).toString rest))

/-- A step of `_retention_sweep`: what it does, and where the sweep stands afterwards. -/
def sweepStep (s : Vault) (now : Time) (given : Given) : Phase → Vault × Option Phase
  | .due limit => (s, some (.loop (.retries (dueCleanupTargets s.cleanups now) limit)))
  | .loop rest => (s, nextPhase s.db rest)
  | .policy budget =>
    let policy := s.policy.getD defaultPolicy
    (s, some (.restorable policy.keepLast policy.retentionDays budget))
  | .restorable keepLast retentionDays budget =>
    let restorable := restorableBackups s.db
    (s, some (.loop (.candidates (expiredBackups restorable keepLast (cutoff now retentionDays))
      restorable.length budget)))
  | .repairs c => (s, protectedPhase s.db c)
  | .unfinished c => (s, unfinishedPhase s.cleanups c)
  | .create c => createCleanupTarget s c given.targetId now
  | .mark job rest =>
    ({ s with cleanups := updateCleanup s.cleanups job.targetId fun row =>
        { row with status := .deleting, attempts := job.attempts + 1, updatedAt := now } },
      some (.references job rest))
  | .references job rest => (s, some (.delete job (componentReferences s.db job.backupId) rest))
  | .delete job ((kind, _) :: references) rest => deleteSnapshot s job kind references rest given
  | .delete job [] rest =>
    ({ s with
        db := markPurged s.db job.backupId now
        cleanups := updateCleanup s.cleanups job.targetId fun row =>
          { row with status := .done, updatedAt := now } },
      some (.loop rest.purged))
  | .fail job error rest =>
    ({ s with cleanups := updateCleanup s.cleanups job.targetId fun row =>
        { row with status := .failed, lastError := some error,
                   nextRetryAt := some (now + 300000000 * (job.attempts + 1)), updatedAt := now } },
      some (.loop rest))

/-! ### The system -/

/-- `_ensure_cleanup_target`, after a failed execution; the row refers to a set that is there. -/
def ensureCleanupTarget (s : Vault) (backupId targetId error : String) : Vault :=
  if componentReferences s.db backupId = [] ∨ unfinishedCleanups s.cleanups backupId ≠ [] ∨
      targetId ∈ s.cleanups.map CleanupRow.id ∨ s.db.get (Key.set backupId) = none then s
  else { s with cleanups := s.cleanups ++
    [⟨targetId, backupId, .pending, 0, s.clock, s.clock, some error, none⟩] }

/-- The store after a transaction: what it committed, or what was there before. -/
def commitOf (p : Tx Unit) (v : Db) : Db :=
  match p.exec v with
  | .ok x => x.2
  | .error _ => v

/-- A move of the system. -/
inductive RetentionMove
  | tick (now : Time)
  | set (op : SetOp)
  | ensureCleanup (backupId targetId error : String)
  | check (i : ℕ) (backupId restoreId : String)
  | start (i : ℕ)
  | abandon (i : ℕ)
  | restore (op : RestoreOp)
  | begin (i limit : ℕ)
  | sweep (i : ℕ) (given : Given)
  | crash (i : ℕ)

/-- One move. -/
def retentionStep (s : Vault) : RetentionMove → Option Vault
  | .tick now => if s.clock ≤ now then some { s with clock := now } else none
  | .set op => some { s with db := commitOf op.body s.db }
  | .ensureCleanup backupId targetId error => some (ensureCleanupTarget s backupId targetId error)
  | .check i backupId restoreId =>
    match s.starts i, (startChecks backupId).exec s.db with
    | none, .ok _ => some { s with
        starts := update s.starts i (some ⟨backupId, restoreId, s.clock⟩) }
    | _, _ => none
  | .start i => (s.starts i).map fun tx => { s with
      db := commitOf (startWrites tx.backupId tx.restoreId tx.now) s.db
      starts := update s.starts i none }
  | .abandon i => some { s with starts := update s.starts i none }
  | .restore op => if op.isStart then none else some { s with db := commitOf op.body s.db }
  | .begin i limit =>
    match s.sweeps i with
    | none => some { s with sweeps := update s.sweeps i (some ⟨s.clock, .due limit⟩) }
    | some _ => none
  | .sweep i given => (s.sweeps i).map fun sweep =>
      let next := sweepStep s sweep.now given sweep.phase
      { next.1 with
        sweeps := update s.sweeps i (next.2.map fun phase => ⟨sweep.now, phase⟩) }
  | .crash i => some { s with sweeps := update s.sweeps i none }

end RagQs.Backup
