import RagQs.Evaluation.Suggestion
import Mathlib.Data.Prod.Lex
import Mathlib.Data.String.Basic

/-!
# Shadow evaluation runs

An operator creates a run with the snapshot it is frozen to.  A worker's call recovers the runs
whose lease has expired, claims one run under a new fencing token, replays every sample item
under every candidate configuration in one transaction that ends the run, and otherwise puts the
run off or fails it.

## Main definitions

* `recoverExpired`, `claimNext`, `transitionRetryWait`, `transitionTerminal` — the repository.
* `createShadowRun` — the command of an operator.
* `pass` — the first transaction of the worker's call: requeue, recover, claim.
* `process`, `judgeFailure` — the transactions that end the call.
* `RunOp`, `runBody` — the transactions.
-/

namespace RagQs.Evaluation

open Txn

variable {M S : Type}

/-- A run as the repository returns it: its identifier and its row. -/
structure ShadowRun where
  runId : String
  row : RunRow
  deriving DecidableEq

/-! ### The repository -/

/-- `ACTIVE_CLAIM_STATES` -/
def RunState.claimable : RunState → Bool
  | .queued | .retryWait => true
  | _ => false

/-- The fence of a claim: its attempt, its owner and its token. -/
def RunRow.fenced (r : RunRow) (attempt : ℕ) (owner fencingToken : String) : Bool :=
  r.attempt = attempt && r.leaseOwner = some owner && r.fencingToken = some fencingToken

/-- A row that nobody holds. -/
def RunRow.unclaimed (r : RunRow) : RunRow :=
  { r with
    leaseOwner := none
    leaseExpiresAt := none
    heartbeatAt := none
    fencingToken := none
    version := r.version + 1 }

/-- A run that is put off to another attempt. -/
def RunRow.putOff (r : RunRow) (attempt : ℕ) (nextAttemptAt : Time) (failureClass : String) :
    RunRow :=
  { r.unclaimed with
    state := .retryWait
    attempt
    nextAttemptAt := some nextAttemptAt
    failureClass := some failureClass }

/-- A run that is over. -/
def RunRow.finish (r : RunRow) (toState : RunState) (now : Time) (failureClass : Option String)
    (progress : Option Progress) (reportRef : Option String) : RunRow :=
  { r.unclaimed with
    state := toState
    nextAttemptAt := none
    completedAt := some now
    failureClass := failureClass.orElse fun _ => r.failureClass
    progress := progress.getD r.progress
    reportRef := reportRef.orElse fun _ => r.reportRef }

/-- The runs that can be claimed, but for those others have locked. -/
def claimable (busy : String → Bool) (now : Time) (v : Db M S) : List ShadowRun :=
  table v fun k r => match k, r with
    | .run runId, r =>
      if r.state.claimable ∧ r.nextAttemptAt.any (· ≤ now) ∧ busy runId = false then
        some ⟨runId, r⟩
      else none
    | _, _ => none

/-- The first of them by a column. -/
def firstBy {α β : Type} [LinearOrder β] (f : α → β) (l : List α) : Option α := l.argmin f

/-- The first of them: by creation, then by identifier. -/
def nextClaimable (busy : String → Bool) (now : Time) (v : Db M S) : Option ShadowRun :=
  firstBy (fun run => toLex (run.row.createdAt, run.runId)) (claimable busy now v)

/-- The row of a claim. -/
def RunRow.claim (r run : RunRow) (owner fencingToken : String) (leaseTtlSeconds : ℤ)
    (now : Time) : RunRow :=
  { r with
    state := .running
    leaseOwner := some owner
    leaseExpiresAt := some (now + 1000000 * leaseTtlSeconds)
    heartbeatAt := some now
    fencingToken := some fencingToken
    nextAttemptAt := none
    startedAt := some (run.startedAt.getD now)
    version := run.version + 1 }

/-- `claim_next` -/
def claimNext (owner fencingToken : String) (leaseTtlSeconds : ℤ) (now : Time)
    (busy : String → Bool) : Tx M S (Option ShadowRun) := do
  let found ← Prog.selectForUpdate
    (fun v => (nextClaimable busy now v).toList.map fun run => .run run.runId)
    (nextClaimable busy now)
  match found with
  | none => return none
  | some run => do
    let _ ← updateWhere (.run run.runId) (fun r : RunRow => r.version = run.row.version)
      fun r => r.claim run.row owner fencingToken leaseTtlSeconds now
    let row ← readRow (Key.run run.runId)
    let updated : RunRow ← orRaise row (.internal "AssertionError")
    return some ⟨run.runId, updated⟩

/-- `heartbeat` -/
def heartbeat (runId : String) (attempt : ℕ) (owner fencingToken : String) (now : Time) :
    Tx M S ℕ :=
  updateWhere (.run runId)
    (fun r : RunRow => r.state = .running && r.fenced attempt owner fencingToken)
    fun r => { r with heartbeatAt := some now }

/-- `insert_result` -/
def insertResult (runId sampleItemId candidateConfigVersion : String) (row : ResultRow M) :
    Tx M S Unit :=
  insert .integrity [.result runId sampleItemId candidateConfigVersion]
    [⟨.result runId sampleItemId candidateConfigVersion, some row⟩]

/-- `transition_retry_wait`, which counts the attempt. -/
def transitionRetryWait (runId : String) (attempt : ℕ) (owner fencingToken : String)
    (nextAttemptAt : Time) (failureClass : String) : Tx M S ℕ :=
  updateWhere (.run runId)
    (fun r : RunRow => r.state = .running && r.fenced attempt owner fencingToken)
    fun r => r.putOff (r.attempt + 1) nextAttemptAt failureClass

/-- `transition_terminal` -/
def transitionTerminal (runId : String) (attempt : ℕ) (owner fencingToken : String)
    (toState : RunState) (now : Time) (failureClass : Option String)
    (progress : Option Progress) (reportRef : Option String) : Tx M S ℕ := do
  raiseIf (toState.terminal = false)
    (refused "validation_error" "terminal state is invalid" 422)
  updateWhere (.run runId)
    (fun r : RunRow => !r.state.terminal && r.fenced attempt owner fencingToken)
    fun r => r.finish toState now failureClass progress reportRef

/-- `_force_failed` -/
def forceFailed (runId : String) (now : Time) (failureClass : String) : Tx M S ℕ :=
  updateWhere (.run runId) (fun r : RunRow => !r.state.terminal) fun r =>
    r.finish .failed now (some failureClass) none none

/-- The update of `recover_expired`. -/
def invalidateAttempt (runId : String) (attempt : ℕ) (nextAttemptAt : Time) : Tx M S ℕ :=
  updateWhere (.run runId) (fun r : RunRow => r.state = .running && r.attempt = attempt) fun r =>
    r.putOff (attempt + 1) nextAttemptAt "lease_expired"

/-- `recover_expired`, once it has read the run. -/
def recoverRead (runId : String) (attempt : ℕ) (nextAttemptAt now : Time) (maxAttempts : ℕ)
    (row : Option RunRow) : Tx M S Bool :=
  match row with
  | none => return false
  | some run =>
    if run.state ≠ .running ∨ run.attempt ≠ attempt then return false
    else if maxAttempts ≤ attempt then do
      let updated ← forceFailed runId now "lease_expired"
      return updated == 1
    else do
      let updated ← invalidateAttempt runId attempt nextAttemptAt
      return updated == 1

/-- `recover_expired` -/
def recoverExpired (runId : String) (attempt : ℕ) (nextAttemptAt now : Time) (maxAttempts : ℕ) :
    Tx M S Bool := do
  let row : Option RunRow ← readRow (Key.run runId)
  recoverRead runId attempt nextAttemptAt now maxAttempts row

/-- `requeue_retry_wait` -/
def requeueRetryWait (now : Time) : Tx M S ℕ :=
  updateAll fun k r => match k, r with
    | .run _, r =>
      if r.state = .retryWait ∧ r.nextAttemptAt.any (· ≤ now) then
        some (some { r with state := .queued, nextAttemptAt := some now, version := r.version + 1 })
      else none
    | _, _ => none

/-- `list_expired_running` -/
def listExpiredRunning (now : Time) (v : Db M S) : List String :=
  table v fun k r => match k, r with
    | .run runId, r =>
      if r.state = .running ∧ r.leaseExpiresAt.any (· ≤ now) then some runId else none
    | _, _ => none

/-- The sample items of a snapshot, by their position. -/
def sampleItems (snapshotId : String) (v : Db M S) : List String :=
  ((table v fun k r => match k, r with
    | .item snapshot itemId, r => if snapshot = snapshotId then some (r.position, itemId) else none
    | _, _ => none).insertionSort fun a b => a.1 ≤ b.1).map Prod.snd

/-! ### Creating a run -/

/-- A request to create a run: what the ports answer it, its clock and its identifiers. -/
structure RunCall where
  role : String
  userId : String
  spaceId : String
  idempotencyKey : String
  requestHash : String
  spaceExists : Bool
  samples : PolicyRow → List (String × SnapshotItemRow)
  preflight : Except Err Unit
  candidateConfigVersions : List String
  goldenSetVersion : Option String
  comparatorKey : PolicyRow → String
  runId : String
  snapshotId : String
  now : Time

/-- `has_active_run_for_space` -/
def hasActiveRun (spaceId : String) (v : Db M S) : Bool :=
  (table v fun k r => match k, r with
    | .run _, r => if r.spaceId = spaceId ∧ r.state.terminal = false then some () else none
    | _, _ => none).length ≠ 0

/-- The candidate configurations of a run. -/
def RunCall.configs (call : RunCall) (policy : PolicyRow) : List String :=
  call.candidateConfigVersions.take policy.shadowMaxCandidateConfigs

/-- A new run. -/
def newRun (call : RunCall) (policy : PolicyRow) : RunRow where
  spaceId := call.spaceId
  state := .queued
  attempt := 1
  leaseOwner := none
  leaseExpiresAt := none
  heartbeatAt := none
  fencingToken := none
  nextAttemptAt := some call.now
  failureClass := none
  progress := ⟨(call.samples policy).length, 0, 0⟩
  reportRef := none
  policyVersion := policy.policyVersion
  comparatorKey := some (call.comparatorKey policy)
  candidateConfigVersions := call.configs policy
  frozenSnapshot := ⟨call.snapshotId, call.goldenSetVersion, some policy.runDeadlineSeconds⟩
  createdAt := call.now
  startedAt := none
  completedAt := none
  version := 1

/-- The sample items of a new run, one after the other. -/
def insertItems (snapshotId : String) : List (String × SnapshotItemRow) → Tx M S Unit
  | [] => return ()
  | (itemId, row) :: items => do
    insert .integrity [.item snapshotId itemId] [⟨.item snapshotId itemId, some row⟩]
    insertItems snapshotId items

/-- `insert_run` -/
def insertRun (call : RunCall) (policy : PolicyRow) : Tx M S Unit := do
  insert .integrity [.snapshot call.snapshotId] [⟨.snapshot call.snapshotId, some
    ⟨call.spaceId, policy.policyVersion, (call.samples policy).length, call.now⟩⟩]
  insertItems call.snapshotId (call.samples policy)
  insert .integrity [.run call.runId] [⟨.run call.runId, some (newRun call policy)⟩]
  insert .integrity [.runCommand call.userId call.idempotencyKey]
    [⟨.runCommand call.userId call.idempotencyKey, some ⟨call.requestHash, call.runId, call.now⟩⟩]

/-- The command of `create_shadow_run` was recorded: its answer, unless the request is another
one. -/
def replayRunCommand (command : RunCommandRow) (requestHash : String) : Tx M S String := do
  raiseIf (command.requestHash ≠ requestHash)
    (refused "idempotency_key_conflict"
      "The idempotency key was already used with a different request" 409)
  return command.runId

/-- `create_shadow_run` of a request that is not recorded. -/
def createNewRun (call : RunCall) : Tx M S String := do
  raiseIf (call.spaceExists = false)
    (refused "evaluation_space_unavailable" "The space is unavailable for evaluation" 404)
  let latest ← Prog.select latestPolicy
  let policy : PolicyRow ← orRaise latest
    (refused "evaluation_not_eligible" "No evaluation policy is available" 409)
  let active ← Prog.select (hasActiveRun call.spaceId)
  raiseIf (active = true)
    (refused "shadow_evaluation_in_progress"
      "A shadow evaluation is already in progress for this space" 409)
  raiseIf ((call.samples policy).length < policy.minRealQueries)
    (refused "evaluation_not_eligible"
      "The space has fewer real questions than the policy minimum" 409)
  check call.preflight
  raiseIf (call.candidateConfigVersions = [])
    (refused "evaluation_not_eligible" "No candidate configurations are available" 409)
  insertRun call policy
  return call.runId

/-- `create_shadow_run` -/
def createShadowRun (call : RunCall) : Tx M S String := do
  raiseIf (call.role ≠ "ops")
    (refused "evaluation_run_forbidden" "The evaluation:run capability is required" 403)
  let command : Option RunCommandRow ← readRow (Key.runCommand call.userId call.idempotencyKey)
  match command with
  | some command => replayRunCommand command call.requestHash
  | none => createNewRun call

/-- `ensure_policy` -/
def ensurePolicy (policy : PolicyRow) : Tx M S Unit := do
  let existing : Option PolicyRow ← readRow (Key.policy policy.policyVersion)
  if existing.isSome then return ()
  else
    insert .integrity [.policy policy.policyVersion] [⟨.policy policy.policyVersion, some policy⟩]

/-- What the start of the process does: without a policy there is the default one. -/
def startPolicy (now : Time) : Tx M S Unit := do
  let latest ← Prog.select latestPolicy
  if latest.isSome then return () else ensurePolicy (defaultPolicy now)

/-! ### The worker's pass -/

/-- The first transaction of a worker's call: its owner, its clock at each reading, the runs
others hold while it claims, and the new fencing token. -/
structure PassCall where
  owner : String
  requeueNow : Time
  listNow : Time
  /-- The clock when a run is recovered, from which the next attempt counts, and then. -/
  recoverNow : (runId : String) → Time × Time
  claimNow : Time
  busy : String → Bool
  fencingToken : String

/-- A listed run is recovered; counts those that are there. -/
def recoverRun (call : PassCall) (runId : String) : Tx M S ℕ := do
  let row : Option RunRow ← readRow (Key.run runId)
  match row with
  | none => return 0
  | some run => do
    let policy : Option PolicyRow ← readRow (Key.policy run.policyVersion)
    let _ ← recoverExpired runId run.attempt ((call.recoverNow runId).1 + 1000000)
      (call.recoverNow runId).2 ((policy.map PolicyRow.maxAttempts).getD 3)
    return 1

/-- The listed runs, one after the other. -/
def recoverAll (call : PassCall) : List String → Tx M S ℕ
  | [] => return 0
  | runId :: runIds => do
    let recovered ← recoverRun call runId
    let others ← recoverAll call runIds
    return recovered + others

/-- The first transaction of `run_once`. -/
def pass (call : PassCall) : Tx M S (ℕ × Option ShadowRun) := do
  let requeued ← requeueRetryWait call.requeueNow
  let expired ← Prog.select (listExpiredRunning call.listNow)
  let recovered ← recoverAll call expired
  let policy ← Prog.select latestPolicy
  let run ← claimNext call.owner call.fencingToken
    ((policy.map fun p : PolicyRow => p.leaseSeconds).getD 60) call.claimNow call.busy
  return (requeued + recovered, run)

/-! ### The end of the worker's call -/

/-- The clock around one replay: when it is checked, at a heartbeat and after it. -/
structure ReplayClock where
  check : Time
  heartbeat : Time
  after : Time

/-- What a worker's call goes on with: its owner, the policy it has read, its clock, and what
retrieval, answer and judge come to for each sample item and candidate configuration. -/
structure ReplayCall (M : Type) where
  owner : String
  policy : Option PolicyRow
  start : Time
  clock : (sampleItemId candidateConfigVersion : String) → ReplayClock
  outcome : (sampleItemId candidateConfigVersion : String) → Except Err (M × Time)
  finish : Time

/-- The token of a claim. -/
def ShadowRun.token (run : ShadowRun) : String := run.row.fencingToken.getD ""

/-- The fence was lost. -/
def leaseLost : Err := refused "evaluation_lease_lost" "evaluation run fence was lost" 409

/-- A heartbeat where one is due; the result is when the last one was. -/
def beat (run : ShadowRun) (call : ReplayCall M) (clock : ReplayClock) (last : Time) :
    Tx M S Time :=
  if 1000000 * (call.policy.map PolicyRow.heartbeatSeconds).getD 15 ≤ clock.check - last then do
    let updated ← heartbeat run.runId run.row.attempt call.owner run.token clock.heartbeat
    raiseIf (updated ≠ 1) leaseLost
    return clock.after
  else return last

/-- The replays, one after the other, each with its result. -/
def replayAll (run : ShadowRun) (call : ReplayCall M) :
    List (String × String) → Time → Tx M S Unit
  | [], _ => return ()
  | (item, config) :: pairs, last => do
    let last ← beat run call (call.clock item config) last
    let result ← check (call.outcome item config)
    insertResult run.runId item config
      ⟨"shadow:" ++ run.runId ++ ":" ++ item ++ ":" ++ config, result.1, result.2⟩
    replayAll run call pairs last

/-- The sample items, each under every candidate configuration. -/
def replayPairs (items configs : List String) : List (String × String) :=
  items.flatMap fun item => configs.map fun config => (item, config)

/-- `_finish_succeeded` -/
def finishSucceeded (run : ShadowRun) (call : ReplayCall M) (progress : Progress) :
    Tx M S Unit := do
  let updated ← transitionTerminal run.runId run.row.attempt call.owner run.token .succeeded
    call.finish none (some progress) (some ("eval_report:" ++ run.runId))
  raiseIf (updated ≠ 1) leaseLost

/-- `_finish_failed` -/
def finishFailed (run : ShadowRun) (owner : String) (now : Time) (failureClass : String) :
    Tx M S Unit := do
  let _ ← transitionTerminal run.runId run.row.attempt owner run.token .failed now
    (some failureClass) none none
  return ()

/-- `_run_deadline` -/
def RunRow.deadline (r : RunRow) : Option Time :=
  (r.frozenSnapshot.deadlineSeconds.filter fun s => 0 < s).map fun s => r.createdAt + 1000000 * s

/-- The replay of a run that is before its deadline. -/
def replayRun (run : ShadowRun) (call : ReplayCall M) : Tx M S Unit := do
  let items ← Prog.select (sampleItems run.row.frozenSnapshot.snapshotId)
  replayAll run call (replayPairs items run.row.candidateConfigVersions) call.start
  finishSucceeded run call ⟨items.length * run.row.candidateConfigVersions.length,
    (replayPairs items run.row.candidateConfigVersions).length, 0⟩

/-- The transaction of `_process`. -/
def process (run : ShadowRun) (call : ReplayCall M) : Tx M S Unit :=
  if run.row.deadline.any (· ≤ call.start) then
    finishFailed run call.owner call.finish "evaluation_run_deadline_exceeded"
  else replayRun run call

/-- `_RETRYABLE_JUDGE_CODES` -/
def retryableJudgeCodes : List String :=
  ["judge_rate_limited", "evaluation_generation_unavailable", "evaluation_judge_unavailable"]

/-- The failure class of a judge failure. -/
def judgeFailureClass (code : String) : String :=
  if code ∈ ["judge_rate_limited", "evaluation_judge_unavailable",
      "evaluation_judge_deadline_exceeded", "evaluation_generation_unavailable"] then code
  else "shadow_judge_failed"

/-- `_handle_judge_failure` -/
def judgeFailure (run : ShadowRun) (owner code : String) (maxAttempts : ℕ) (now : Time) :
    Tx M S Unit :=
  if code ∈ retryableJudgeCodes ∧ run.row.attempt < maxAttempts then do
    let _ ← transitionRetryWait run.runId run.row.attempt owner run.token
      (now + 1000000 * (min (2 ^ (run.row.attempt - 1) * 60) 600 : ℕ)) (judgeFailureClass code)
    return ()
  else finishFailed run owner now (judgeFailureClass code)

/-! ### The transactions -/

/-- What a transaction is started for. -/
inductive RunOp (M : Type)
  | startPolicy (now : Time)
  | createRun (call : RunCall)
  | pass (call : PassCall)
  /-- `_policy_for` -/
  | policyFor (policyVersion : String)
  | process (run : ShadowRun) (call : ReplayCall M)
  | judgeFailure (run : ShadowRun) (owner code : String) (maxAttempts : ℕ) (now : Time)

/-- What a transaction ends with. -/
inductive RunResult
  | passed (requeued : ℕ) (run : Option ShadowRun)
  | policy (policy : Option PolicyRow)
  | created (runId : String)
  | done

/-- The program of a transaction. -/
def runBody : RunOp M → Tx M S RunResult
  | .startPolicy now => startPolicy now >>= fun _ => return .done
  | .createRun call => createShadowRun call >>= fun runId => return .created runId
  | .pass call => pass call >>= fun x => return .passed x.1 x.2
  | .policyFor policyVersion =>
    readRow (Key.policy policyVersion) >>= fun p : Option PolicyRow => return .policy p
  | .process run call => process run call >>= fun _ => return .done
  | .judgeFailure run owner code maxAttempts now =>
    judgeFailure run owner code maxAttempts now >>= fun _ => return .done

end RagQs.Evaluation
