import RagQs.Platform.Value
import RagQs.Txn.StatementExec
import Mathlib.Data.Rat.Defs

/-!
# The tables of the evaluation domain

Shadow evaluation runs with their results, the evaluation policies, the suggestions to open a
calibration window, and the windows with the commands that opened and closed them.  The metrics
of a result and the scores made of them are floating point; they are values of types `M` and `S`
that nothing here looks into.

## Main definitions

* `RunRow`, `ResultRow`, `PolicyRow`, `ActiveDefaultRow`, `SuggestionRow`, `WindowRow`,
  `CommandRow`, `RunCommandRow`, `SnapshotRow`, `SnapshotItemRow`, `PairRow`, `EventRow` — the
  rows.
* `Key`, `Row`, `Db` — the keys of all tables with their unique indexes, and the database.
-/

namespace RagQs.Evaluation

open Txn

/-! ### Runs -/

/-- The state of a shadow evaluation run. -/
inductive RunState
  | queued
  | running
  | retryWait
  | succeeded
  | failed
  | cancelled
  deriving DecidableEq

/-- `TERMINAL_STATES` -/
def RunState.terminal : RunState → Bool
  | .succeeded | .failed | .cancelled => true
  | _ => false

/-- What a run was created for, of its frozen snapshot. -/
structure FrozenSnapshot where
  snapshotId : String
  goldenSetVersion : Option String
  /-- `limits.deadline_seconds` -/
  deadlineSeconds : Option ℤ
  deriving DecidableEq

/-- The progress of a run. -/
structure Progress where
  total : ℕ
  completed : ℕ
  failed : ℕ
  deriving DecidableEq

/-- A shadow evaluation run. -/
structure RunRow where
  spaceId : String
  state : RunState
  attempt : ℕ
  leaseOwner : Option String
  leaseExpiresAt : Option Time
  heartbeatAt : Option Time
  fencingToken : Option String
  nextAttemptAt : Option Time
  failureClass : Option String
  progress : Progress
  reportRef : Option String
  policyVersion : String
  comparatorKey : Option String
  candidateConfigVersions : List String
  frozenSnapshot : FrozenSnapshot
  createdAt : Time
  startedAt : Option Time
  completedAt : Option Time
  version : ℕ
  deriving DecidableEq

/-- The result of one sample item under one candidate configuration. -/
structure ResultRow (M : Type) where
  sessionId : String
  metrics : M
  judgedAt : Time

/-- The snapshot a run was created for. -/
structure SnapshotRow where
  spaceId : String
  policyVersion : String
  sampleCount : ℕ
  createdAt : Time

/-- One item of the snapshot a run was created for. -/
structure SnapshotItemRow where
  position : ℤ
  questionHash : String

/-- A command of an operator that created a run. -/
structure RunCommandRow where
  requestHash : String
  runId : String
  createdAt : Time

/-- An evaluation policy. -/
structure PolicyRow where
  policyVersion : String
  minRealQueries : ℕ
  shadowMaxCandidateConfigs : ℕ
  calibrationOpenScoreGap : ℚ
  coldStartSampleRate : ℚ
  sentinelSampleRate : ℚ
  closeGraceSeconds : ℤ
  maxAttempts : ℕ
  runDeadlineSeconds : ℤ
  leaseSeconds : ℤ
  heartbeatSeconds : ℤ
  createdAt : Time

/-! ### Suggestions -/

/-- The candidate configuration a space uses. -/
structure ActiveDefaultRow where
  candidateConfigVersion : String
  comparatorKey : Option String
  sourceRunId : Option String

/-- The status of a suggestion to open a calibration window. -/
inductive SuggestionStatus
  | notActionable
  | actionable
  | superseded
  | consumed
  deriving DecidableEq

/-- The summary a suggestion keeps of its ranking. -/
structure RankSummary (S : Type) where
  /-- `"standard_leaderboard"`, and how many samples there were, where the leaderboard made it. -/
  source : Option (String × ℕ)
  sourceRunId : String
  rankings : List (String × S × Bool)
  deriving DecidableEq

/-- A suggestion to open a calibration window. -/
structure SuggestionRow (S : Type) where
  spaceId : String
  policyVersion : String
  comparatorKey : Option String
  rankSummary : RankSummary S
  status : SuggestionStatus
  version : ℕ
  createdAt : Time
  invalidatedAt : Option Time
  deriving DecidableEq

/-- The event that a suggestion became actionable. -/
structure EventRow where
  suggestionId : String
  transitionVersion : ℕ
  occurredAt : Time

/-! ### Windows -/

/-- The status of a calibration window. -/
inductive WindowStatus
  | isOpen
  | closing
  | closed
  deriving DecidableEq

/-- What a window is opened for. -/
inductive WindowKind
  | coldStart
  | sentinel
  | manual
  deriving DecidableEq

/-- A calibration window. -/
structure WindowRow where
  status : WindowStatus
  windowKind : WindowKind
  policyVersion : String
  sampleRate : ℚ
  pairsCollected : ℕ
  openedBy : String
  openedAt : Time
  closedBy : Option String
  closedAt : Option Time
  closeDeadlineAt : Option Time
  version : ℕ

/-- The action of a window command. -/
inductive WindowAction
  | openWindow
  | closeWindow
  deriving DecidableEq

/-- A command of an operator that opened or closed a window, with the answer it got. -/
structure CommandRow where
  action : WindowAction
  requestHash : String
  targetWindowId : String
  response : String × WindowRow

/-- The status of an A/B pair of the chat. -/
inductive PairStatus
  | pending
  | isOpen
  | voted
  | expired

/-- An A/B pair of the chat, of a window. -/
structure PairRow where
  windowId : String
  status : PairStatus

/-! ### The store -/

/-- The primary keys of the tables, and the entries of the unique indexes. -/
inductive Key
  | run (runId : String)
  | result (runId sampleItemId candidateConfigVersion : String)
  | snapshot (snapshotId : String)
  | item (snapshotId itemId : String)
  | policy (policyVersion : String)
  | activeDefault (spaceId : String)
  | suggestion (suggestionId : String)
  | window (windowId : String)
  /-- `uq_calibration_window_single_open` -/
  | openWindow
  | command (operatorUserId idempotencyKey : String)
  | runCommand (operatorUserId idempotencyKey : String)
  | pair (pairId : String)
  | event (eventId : String × ℕ)
  deriving DecidableEq

/-- The row of a key; that of an index entry is the primary key of its row. -/
abbrev Row (M S : Type) : Key → Type
  | .run _ => RunRow
  | .result _ _ _ => ResultRow M
  | .snapshot _ => SnapshotRow
  | .item _ _ => SnapshotItemRow
  | .policy _ => PolicyRow
  | .activeDefault _ => ActiveDefaultRow
  | .suggestion _ => SuggestionRow S
  | .window _ => WindowRow
  | .openWindow => String
  | .command _ _ => CommandRow
  | .runCommand _ _ => RunCommandRow
  | .pair _ => PairRow
  | .event _ => EventRow

/-- The tables. -/
abbrev Db (M S : Type) := Store (Row M S)

/-- A transaction. -/
abbrev Tx (M S α : Type) := Prog (Row M S) Err α

end RagQs.Evaluation
