import RagQs.Chat.Generation

/-!
# The chat worker

The transactions of the worker that drives a generation: the claim of an execution, the events
it emits while it holds the claim, its checkpoints, the publication of the answer, how it stops
or fails, and the maintenance that recovers what a worker left behind.  The answers of the
retrieval and of the model are arguments, as are the clock and the new identifiers.

## Main definitions

* `claimExecution`, `openExecution`, `heartbeat` — taking an execution and keeping it.
* `emitStage`, `emitStep`, `emitDelta`, `emitNotice` — the events of a running execution.
* `persistEffortUpgrade`, `persistCheckpoint`, `publish` — what an execution leaves.
* `stopTerminal`, `failExecution` — how it ends otherwise.
* `reapDisconnectGrace`, `recoverExpiredExecutions`, `expireProviderReconcilingExecutions`,
  `reconcileProvider` — the passes of the maintenance.
-/

namespace RagQs.Chat

open Txn

/-- `generation_state_conflict` -/
def stateConflict : Err :=
  refused "generation_state_conflict" "The generation control fence was invalidated" [] 409

/-! ### Taking an execution -/

/-- An execution. -/
def readExecution (generationId executionId : String) : Tx (Option ExecutionRow) :=
  readRow (Key.execution generationId executionId)

/-- A generation. -/
def readGeneration (generationId : String) : Tx (Option GenerationRow) :=
  readRow (Key.generation generationId)

/-- The execution waits to be run. -/
def ExecutionRow.waiting (x : ExecutionRow) : Bool :=
  x.status = .queued ∨ x.status = .retryWait

/-- The execution may be claimed: it waits, and no execution of its generation runs. -/
def claimable (v : Db) (generationId executionId : String) : Option ExecutionRow :=
  (v.get (.execution generationId executionId) : Option ExecutionRow).filter fun x =>
    x.waiting ∧ (executionsOf v generationId).all fun e => e.2.status ≠ .running

/-- The arguments of a claim: the execution the database returns first of those that may be
claimed and that nobody has locked. -/
structure ClaimArgs where
  picked : Option (String × String)
  leaseOwner : String
  now : Time

/-- `_claim_execution` -/
def claimExecution (env : Env) (a : ClaimArgs) : Tx (Option (String × String)) :=
  match a.picked with
  | none => pure none
  | some (g, e) => do
    let due ← Prog.selectForUpdate
      (fun v : Db => (claimable v g e).toList.map fun _ => Key.execution g e)
      fun v => claimable v g e
    match due with
    | none => pure none
    | some row => do
      let next ← orRaise row.nextAttemptAt (.internal "no time of the next attempt")
      if a.now < next then pure none
      else do
        let execution ← lockExecution false g e
        if execution.any (·.waiting) then do
          let generation ← lockGeneration g
          if generation.any fun r => !r.status.terminal then do
            let _ ← updateWhere (Key.execution g e) (fun _ => true) fun x =>
              { x with
                status := .running
                leaseOwner := some a.leaseOwner
                leaseExpiresAt := some (a.now + seconds env.leaseSeconds)
                heartbeatAt := some a.now
                fencingToken := x.fencingToken + 1 }
            pure (some (g, e))
          else do
            let _ ← updateWhere (Key.execution g e) (fun _ => true)
              fun x => { x with status := .cancelled }
            pure none
        else pure none

/-- What a worker starts from. -/
inductive Opened
  | stop (reason : StopReason)
  | held (w : Held)

/-- The reads of `_execute`: a generation that is asked to stop is stopped, of any other the
control version and the fencing token are kept. -/
def openExecution (generationId executionId : String) : Tx Opened := do
  let missing := Err.internal "No row was found when one was required"
  let generation ← readGeneration generationId
  let generation ← orRaise generation missing
  if generation.status = .stopRequested then
    pure (.stop (generation.stopReason.getD .manualRequest))
  else do
    let execution ← readExecution generationId executionId
    let execution ← orRaise execution missing
    pure (.held ⟨generationId, executionId, execution.fencingToken, generation.controlVersion⟩)

/-- One tick of `_heartbeat_loop`: whether the lease was renewed. -/
def heartbeat (env : Env) (generationId executionId : String) (fencingToken : ℕ) (now : Time) :
    Tx Bool := do
  let renewed ← updateWhere (Key.execution generationId executionId)
    (fun x => x.status = .running ∧ x.fencingToken = fencingToken) fun x =>
      { x with leaseExpiresAt := some (now + seconds env.leaseSeconds), heartbeatAt := some now }
  pure (renewed ≠ 0)

/-! ### The events of a running execution -/

/-- Append an event while the claim holds, and whether it did. -/
def emitFenced (w : Held) (busy : Bool) (eventType : EventType) (data : JsonObject) : Tx Bool := do
  if ← fenceCurrent w busy then do
    appendTerminal w.generationId eventType data
    pure true
  else pure false

/-- `_emit_stage` -/
def emitStage (w : Held) (busy : Bool) (phase : String) (detail : JsonObject) : Tx Unit := do
  if ← emitFenced w busy .stage (JsonObject.update [("phase", .str phase)] detail) then pure ()
  else throw stateConflict

/-- `_emit_step` -/
def emitStep (w : Held) (busy : Bool) (index : ℕ) (label state : String) : Tx Unit := do
  if ← emitFenced w busy .step
      [("index", .int index), ("label", .str label), ("state", .str state)] then pure ()
  else throw stateConflict

/-- `_emit_delta` -/
def emitDelta (w : Held) (busy : Bool) (content : String) : Tx Unit := do
  let _ ← emitFenced w busy .delta [("candidate", .int 0), ("content", .str content)]
  pure ()

/-- `_emit_notice` -/
def emitNotice (w : Held) (busy : Bool) (kind : String) (detail : JsonObject) : Tx Unit := do
  let notice : JsonObject := [("kind", .str kind), ("detail", .dict detail)]
  if ← emitFenced w busy .notice notice then do
    let message ← readMessage w.generationId
    let notices := (message.map (·.notices)).getD []
    let _ ← updateWhere (Key.message w.generationId) (fun _ => true)
      fun m => { m with notices := notices ++ [.dict notice] }
    pure ()
  else pure ()

/-! ### What an execution leaves -/

/-- The generation of a claim is running under its control version. -/
def generationCurrent (v : Db) (w : Held) : Bool :=
  (v.get (.generation w.generationId) : Option GenerationRow).any fun r =>
    r.controlVersion = w.controlVersion ∧ r.status = .running

/-- The execution of a claim is running under its fencing token. -/
def executionCurrent (v : Db) (w : Held) : Bool :=
  (v.get (.execution w.generationId w.executionId) : Option ExecutionRow).any fun x =>
    x.fencingToken = w.fencingToken ∧ x.status = .running

/-- `_persist_effort_upgrade` -/
def persistEffortUpgrade (w : Held) (busy busyAgain : Bool) (previous upgraded : String) :
    Tx Bool := do
  if ← fenceCurrent w busy then do
    let updated ← updateIf (.generation w.generationId)
      (fun v (r : GenerationRow) =>
        r.controlVersion = w.controlVersion ∧ r.status = .running ∧ executionCurrent v w)
      fun r => { r with effectiveEffortLevel := upgraded, upgradedFrom := some previous }
    if updated ≠ 0 then pure true
    else do
      cancelStaleExecution w busyAgain
      pure false
  else do
    cancelStaleExecution w busyAgain
    pure false

/-- The number of scope retries a checkpoint records, if any. -/
def scopeRetryCount (checkpoint : Option JsonObject) : Option ℤ :=
  match (checkpoint.getD []).get "scope_retry_count" with
  | .int n => some n
  | _ => none

/-- A checkpoint with the scope retries of the one before it. -/
def mergedCheckpoint (existing : Option JsonObject) (checkpoint : JsonObject) : JsonObject :=
  match scopeRetryCount existing with
  | some n => if checkpoint.any (·.1 = "scope_retry_count") then checkpoint
      else checkpoint.set "scope_retry_count" (.int n)
  | none => checkpoint

/-- `_persist_checkpoint` -/
def persistCheckpoint (w : Held) (checkpoint : JsonObject) : Tx Bool := do
  let existing ← readExecution w.generationId w.executionId
  let merged := mergedCheckpoint (existing.bind (·.checkpoint)) checkpoint
  let updated ← updateIf (.execution w.generationId w.executionId)
    (fun v (x : ExecutionRow) =>
      x.status = .running ∧ x.fencingToken = w.fencingToken ∧ generationCurrent v w)
    fun x => { x with checkpointVersion := x.checkpointVersion + 1, checkpoint := some merged }
  pure (updated = 1)

/-- A candidate answer. -/
structure CandidateAnswer where
  candidate : ℕ
  content : String
  citations : List Json
  answerMode : String

/-- The arguments of a publication: the candidates, the effort they were made with, whether the
sources are still current and whether the two sides are near duplicates. -/
structure Publication where
  candidates : List CandidateAnswer
  effortLevel : String
  upgradedFrom : Option String
  scopeCurrent : Bool
  nearDuplicate : Bool
  now : Time
  busy : Bool
  busyAgain : Bool

/-- The data of an answer event. -/
def answerData (p : Publication) (c : CandidateAnswer) : JsonObject :=
  [("candidate", .int c.candidate), ("content", .str c.content), ("citations", .list c.citations),
    ("answer_mode", .str c.answerMode), ("effort_level", .str p.effortLevel),
    ("upgraded_from", (p.upgradedFrom.map Json.str).getD .null)]

/-- The answers that are published, and their sides of a pair. -/
def publishEach (g : String) (p : Publication) (paired : Bool) : List CandidateAnswer → Tx Unit
  | [] => pure ()
  | c :: cs => do
    appendTerminal g .answer (answerData p c)
    if paired then do
      let _ ← updateWhere (Key.candidate g c.candidate) (fun _ => true) fun r =>
        { r with
          status := .published
          content := c.content
          citations := c.citations
          answerMode := c.answerMode }
      publishEach g p paired cs
    else publishEach g p paired cs

/-- Two candidates that are too much alike: the pair is not offered for a vote. -/
def collapsePair (g : String) : Tx Unit := do
  let _ ← updateWhere (Key.candidate g 1) (fun _ => true) fun r => { r with status := .discarded }
  let _ ← updateWhere (Key.pair g) (fun _ => true) fun r => { r with status := .expired }
  pure ()

/-- The pair of a published generation: open, or expired where there is nothing to compare. -/
def settlePair (g : String) (pair : Option PairRow) (abOpen : Bool) : Tx Unit :=
  match pair with
  | none => pure ()
  | some _ => do
    let _ ← updateWhere (Key.pair g) (fun _ => true)
      fun r => { r with status := if abOpen then .opened else .expired }
    pure ()

/-- The message of a published generation; its text waits for the vote on an open pair. -/
def publishedMessage (m : MessageRow) (visible : Option CandidateAnswer) : MessageRow :=
  { m with
    status := .completed
    stopReason := none
    content := (visible.map (·.content)).getD ""
    answerMode := visible.map (·.answerMode)
    citations := visible.map (·.citations) }

/-- The answer that is shown, `none` on a pair that is open. -/
def visibleAnswer (p : Publication) (abOpen : Bool) : Tx (Option CandidateAnswer) :=
  if abOpen then pure none
  else do
    let first ← orRaise p.candidates.head? (.internal "list index out of range")
    pure (some first)

/-- The part of `_publish` after its fences. -/
def publishAnswer (w : Held) (p : Publication) : Tx Unit := do
  let g := w.generationId
  raiseIf (!p.scopeCurrent) (.platform
    { code := "source_scope_changed"
      message := "The retrieval source scope changed before publication"
      details := [("generation_id", .str g)], statusCode := 409, retryable := true })
  let pair ← readPair g
  let compared := pair.isSome && p.candidates.length == 2
  if compared && p.nearDuplicate then collapsePair g
  let abOpen := compared && !p.nearDuplicate
  publishEach g p pair.isSome (if abOpen then p.candidates else p.candidates.take 1)
  settlePair g pair abOpen
  let visible ← visibleAnswer p abOpen
  let _ ← updateWhere (Key.message g) (fun _ => true) fun m => publishedMessage m visible
  let _ ← updateWhere (Key.generation g) (fun _ => true)
    fun r => { r with status := .completed, stopReason := none }
  let _ ← updateWhere (Key.execution g w.executionId) (fun _ => true)
    fun x => { x with status := .completed, checkpoint := none }
  appendTerminal g .done [("generation_id", .str g), ("status", .str "completed")]

/-- `_publish` -/
def publish (w : Held) (p : Publication) : Tx Unit := do
  if ← fenceCurrent w p.busy then do
    let current ← updateWhere (Key.execution w.generationId w.executionId)
      (fun x => x.fencingToken = w.fencingToken ∧ x.status = .running)
      fun x => { x with heartbeatAt := some p.now }
    if current = 0 then cancelStaleExecution w p.busyAgain
    else do
      let current ← updateWhere (Key.generation w.generationId)
        (fun r => r.controlVersion = w.controlVersion ∧ r.status = .running) fun r => r
      if current = 0 then cancelStaleExecution w p.busyAgain
      else publishAnswer w p
  else cancelStaleExecution w p.busyAgain

/-! ### How an execution ends otherwise -/

/-- `_stop_terminal` -/
def stopTerminal (w : Held) (busy : Bool) (reason : StopReason) : Tx Unit := do
  let _ ← lockExecution busy w.generationId w.executionId
  match ← lockGeneration w.generationId with
  | none => pure ()
  | some generation =>
    if generation.status.terminal then pure ()
    else stopTerminalInTransaction w reason

/-- The error an execution failed with. -/
structure Failure where
  code : String
  message : String
  details : JsonObject

/-- A running generation fails with its execution. -/
def failGeneration (w : Held) (generation : GenerationRow) (error : Failure) : Tx Unit := do
  let _ ← updateWhere (Key.generation w.generationId) (fun _ => true) fun r => r.fail error.code
  let _ ← updateWhere (Key.message w.generationId) (fun _ => true)
    fun m => { m with status := .failed }
  let _ ← updateWhere (Key.execution w.generationId w.executionId) (fun _ => true) fun x =>
    { x with status := .failed, lastErrorClassification := some error.code, checkpoint := none }
  discardUnfinishedAbPair w.generationId
  appendTerminal w.generationId .error
    (errorData error.code error.message error.details generation.requestId)

/-- The sources of an answer changed: the execution is retried, as often as it may be. -/
def retryScope (env : Env) (w : Held) (now : Time) (generation : GenerationRow) (error : Failure) :
    Tx Unit := do
  let row ← readExecution w.generationId w.executionId
  let checkpoint := (row.bind (·.checkpoint)).getD []
  let retries := (scopeRetryCount (some checkpoint)).getD 0
  if retries < env.maxScopeRetries then do
    let _ ← updateWhere (Key.execution w.generationId w.executionId) (fun x => x.status = .running)
      fun x => { x.release .retryWait with
        nextAttemptAt := some now
        checkpoint := some (checkpoint.set "scope_retry_count" (.int (retries + 1)))
        lastErrorClassification := some error.code }
    pure ()
  else failGeneration w generation error

/-- `_fail_execution` -/
def failExecution (env : Env) (w : Held) (busy : Bool) (now : Time) (error : Failure) :
    Tx Unit := do
  if error.code = "generation_state_conflict" then cancelStaleExecution w busy
  else do
    let _ ← lockExecution busy w.generationId w.executionId
    match ← lockGeneration w.generationId with
    | none => cancelExecutionRow w
    | some generation =>
      if generation.status = .stopRequested then
        stopTerminalInTransaction w (generation.stopReason.getD .authorizationRevoked)
      else if generation.status ≠ .running then pure ()
      else if error.code = "provider_result_unknown" then do
        let _ ← updateWhere (Key.execution w.generationId w.executionId)
          (fun x => x.status = .running) fun x =>
            { x with status := .providerReconciling, lastErrorClassification := some error.code }
        pure ()
      else if error.code = "source_scope_changed" then retryScope env w now generation error
      else failGeneration w generation error

/-! ### Maintenance -/

/-- The executions of a generation that wait or run, cancelled. -/
def cancelWaiting (v : Db) (g : String) : List (Write Row) :=
  ((executionsOf v g).filter fun e => e.2.waiting ∨ e.2.status = .running).map fun e =>
    ⟨.execution g e.1, some (e.2.release .cancelled)⟩

/-- A generation nobody reads any more is stopped. -/
def reapGeneration (g : String) : Tx Unit := do
  let updated ← updateWhere (Key.generation g) (fun r => r.status = .running)
    fun r => r.requestStop .clientDisconnected (r.controlVersion + 1)
  if updated ≠ 0 then do
    let _ ← appendEvent g .stopRequested
      [("generation_id", .str g), ("reason", .str StopReason.clientDisconnected.text)]
    discardUnfinishedAbPair g
    let _ ← updateWhere (Key.generation g) (fun _ => true) fun r => { r with status := .stopped }
    appendTerminal g .stopped (stoppedData g .clientDisconnected)
    let _ ← updateWhere (Key.message g) (fun _ => true)
      fun m => { m with status := .stopped, stopReason := some .clientDisconnected }
    Prog.update (fun v => cancelWaiting v g) fun _ => ()
  else pure ()

/-- The generation is running past its disconnect deadline. -/
def disconnected (r : GenerationRow) (now : Time) : Bool :=
  r.status = .running ∧ r.disconnectDeadline.any (· ≤ now)

/-- One generation of `_reap_disconnect_grace`. -/
def reapOne (now : Time) (g : String) : Tx Unit := do
  let active ← Prog.select fun v : Db => hasActiveLease v g now
  if active then do
    let _ ← updateWhere (Key.generation g) (fun _ => true)
      fun r => { r with disconnectDeadline := none }
    pure ()
  else do
    lockGenerationExecutions g
    match ← lockGeneration g with
    | none => pure ()
    | some generation => if disconnected generation now then reapGeneration g else pure ()

/-- The generations of `_reap_disconnect_grace`, one after the other. -/
def reapEach (now : Time) : List (String × GenerationRow) → Tx Unit
  | [] => pure ()
  | (g, row) :: rows => do
    if row.disconnectDeadline.any (· ≤ now) then do
      reapOne now g
      reapEach now rows
    else reapEach now rows

/-- `_reap_disconnect_grace` -/
def reapDisconnectGrace (now : Time) : Tx Unit := do
  let rows ← Prog.select fun v : Db =>
    (generations v).filter fun r => r.2.status = .running ∧ r.2.disconnectDeadline.isSome
  reapEach now rows

/-- The error of a generation that cannot be recovered. -/
def unrecoverable (deadlinePassed : Bool) : String × String :=
  if deadlinePassed then
    ("generation_deadline_exceeded", "The generation deadline expired before further execution")
  else
    ("execution_recovery_exhausted", "The generation could not be recovered before its deadline")

/-- The part of `_terminalize_unrecoverable` about a generation that had not ended when it was
read: its row is written without being looked at again. -/
def terminalizeGeneration (g : String) (generation : GenerationRow) (now : Time) : Tx Unit := do
  let error := unrecoverable (generation.absoluteDeadline ≤ now)
  let _ ← updateWhere (Key.generation g) (fun _ => true) fun r => r.fail error.1
  let _ ← updateWhere (Key.message g) (fun _ => true) fun m => { m with status := .failed }
  discardUnfinishedAbPair g
  appendTerminal g .error (errorData error.1 error.2 [] generation.requestId)

/-- `_terminalize_unrecoverable` -/
def terminalizeUnrecoverable (g : String) (now : Time) : Tx Unit := do
  let running ← Prog.select fun v : Db =>
    (executionsOf v g).filter fun e => e.2.status = .running
  raiseIf (1 < running.length) (.internal "Multiple rows were found when one or none was required")
  let generation ← readGeneration g
  let generation ← orRaise generation (.internal "No row was found when one was required")
  if !generation.status.terminal then terminalizeGeneration g generation now
  match running.head? with
  | none => pure ()
  | some (e, _) => do
    let _ ← updateWhere (Key.execution g e) (fun x => x.status = .running)
      fun x => { x with status := .failed }
    pure ()

/-- The execution that takes over from an expired one. -/
def successor (row : ExecutionRow) (now : Time) : ExecutionRow where
  executionAttemptNumber := row.executionAttemptNumber + 1
  status := .queued
  leaseOwner := none
  leaseExpiresAt := none
  heartbeatAt := none
  fencingToken := row.fencingToken + 1
  checkpointVersion := row.checkpointVersion
  checkpoint := row.checkpoint
  nextAttemptAt := some now
  lastErrorClassification := none

/-- The lease of a running execution is over. -/
def leaseExpired (row : ExecutionRow) (now : Time) : Bool := row.leaseExpiresAt.all (· < now)

/-- An execution that was taken from its worker: the generation fails, or a successor under a
new identifier takes over. -/
def recoverGeneration (env : Env) (newId : String → String) (now : Time) (g e : String)
    (row : ExecutionRow) : Tx Unit := do
  match ← readGeneration g with
  | none => pure ()
  | some generation =>
    if generation.status.terminal ∨ generation.absoluteDeadline ≤ now then
      terminalizeUnrecoverable g now
    else do
      let physical ← Prog.select fun v : Db => (executionsOf v g).length
      if env.maxPhysicalExecutions ≤ physical then terminalizeUnrecoverable g now
      else addExecution g (newId e) (successor row now)

/-- The executions of `_recover_expired_executions`, one after the other. -/
def recoverEach (env : Env) (newId : String → String) (now : Time) :
    List ((String × String) × ExecutionRow) → Tx Unit
  | [] => pure ()
  | ((g, e), row) :: rows => do
    if leaseExpired row now then do
      let claimed ← updateWhere (Key.execution g e) (fun x => x.status = .running) fun x =>
        { x.release .expired with fencingToken := row.fencingToken + 1 }
      if claimed = 1 then do
        recoverGeneration env newId now g e row
        recoverEach env newId now rows
      else recoverEach env newId now rows
    else recoverEach env newId now rows

/-- `_recover_expired_executions` -/
def recoverExpiredExecutions (env : Env) (newId : String → String) (now : Time) : Tx Unit := do
  let rows ← Prog.select fun v : Db => (executions v).filter fun e => e.2.status = .running
  recoverEach env newId now rows

/-- The code of a result that stayed unknown. -/
def unknownResult : Failure where
  code := "provider_result_unknown"
  message := "The provider result could not be reconciled before the deadline"
  details := []

/-- A running generation whose provider result stayed unknown past its deadline fails. -/
def expireGeneration (g e : String) (generation : GenerationRow) : Tx Unit := do
  let updated ← updateWhere (Key.generation g) (fun r => r.status = .running)
    fun r => r.fail unknownResult.code
  if updated = 1 then do
    let _ ← updateWhere (Key.message g) (fun _ => true) fun m => { m with status := .failed }
    let _ ← updateWhere (Key.execution g e) (fun x => x.status = .providerReconciling) fun x =>
      { x.release .failed with
        checkpoint := none
        lastErrorClassification := some unknownResult.code }
    discardUnfinishedAbPair g
    appendTerminal g .error
      (errorData unknownResult.code unknownResult.message [] generation.requestId)
  else pure ()

/-- The executions of `_expire_provider_reconciling_executions`, one after the other. -/
def expireEach (busy : String → Bool) (now : Time) : List (String × String) → Tx Unit
  | [] => pure ()
  | (g, e) :: rows => do
    match ← lockExecution (busy e) g e with
    | none => expireEach busy now rows
    | some _ => do
      match ← lockGeneration g with
      | none => expireEach busy now rows
      | some generation =>
        if generation.status = .running ∧ generation.absoluteDeadline ≤ now then do
          expireGeneration g e generation
          expireEach busy now rows
        else expireEach busy now rows

/-- `_expire_provider_reconciling_executions` -/
def expireProviderReconcilingExecutions (busy : String → Bool) (now : Time) : Tx Unit := do
  let rows ← Prog.select fun v : Db =>
    ((executions v).filter fun e => e.2.status = .providerReconciling).map Prod.fst
  expireEach busy now rows

/-- The pairs of `_expire_past_deadline_pairs`, one after the other. -/
def expirePairs (now : Time) : List (String × PairRow) → Tx Unit
  | [] => pure ()
  | (g, row) :: rows => do
    let deadlines := row.expiresAt.toList ++ row.closeDeadlineAt.toList
    if deadlines.any (· ≤ now) then do
      let _ ← updateWhere (Key.pair g) (fun p => p.status = .opened)
        fun p => { p with status := .expired }
      expirePairs now rows
    else expirePairs now rows

/-- `_expire_past_deadline_pairs` -/
def expirePastDeadlinePairs (now : Time) : Tx Unit := do
  let rows ← Prog.select fun v : Db => (pairs v).filter fun p => p.2.status = .opened
  expirePairs now rows

/-- The first transaction of `run_maintenance`. -/
def runMaintenance (env : Env) (newId : String → String) (busy : String → Bool) (now : Time) :
    Tx Unit := do
  consumeDurableRevocationCommands
  reapDisconnectGrace now
  recoverExpiredExecutions env newId now
  expireProviderReconcilingExecutions busy now

/-- The last transaction of `run_maintenance`. -/
def runExpiry (busy : String → Bool) (now : Time) : Tx Unit := do
  expireProviderReconcilingExecutions busy now
  expirePastDeadlinePairs now

/-- What the provider says of a call whose result was unknown. -/
inductive Decision
  | confirmedUsage (content : Option String)
  | confirmedNotSent
  | stillUnknown
  | reconciliationOnlyAmount

/-- A character of a word. -/
def wordChar (c : Char) : Bool := c.isAlphanum || c == '_'

/-- The identifier stands in the text, and is no part of a longer word. -/
def references (documentId : List Char) (before : Option Char) : List Char → Bool
  | [] => false
  | c :: cs =>
    (!before.any wordChar && documentId.isPrefixOf (c :: cs) &&
        !(((c :: cs).drop documentId.length).head?.any wordChar)) ||
      references documentId (some c) cs

/-- `_referenced_citations` -/
def referencedCitations (content : String) (citations : List Json) : List Json :=
  citations.filter fun
    | .dict d => match JsonObject.get d "document_id" with
      | .str id => id ≠ "" && references id.toList none content.toList
      | _ => false
    | _ => false

/-- The checkpoint of a recovered answer: the pending candidate with its text, the citations it
refers to and its mode. -/
def recoveredCheckpoint (pending : JsonObject) (content : String) : JsonObject :=
  let visible := match pending.get "citations" with
    | .list l => l
    | _ => []
  let referenced := referencedCitations content visible
  let mode := if visible.isEmpty then "no_context"
    else if referenced.isEmpty then "direct" else "grounded"
  let candidate := ((JsonObject.set pending "content" (.str content)).set "citations"
    (.list referenced)).set "answer_mode" (.str mode)
  [("phase", .str "provider_reconciled"), ("candidates", .list [.dict candidate])]

/-- The execution goes back to be claimed. -/
def requeueReconciled (g e : String) (now : Time) (checkpoint : Option JsonObject) : Tx Unit := do
  let _ ← updateWhere (Key.execution g e) (fun x => x.status = .providerReconciling) fun x =>
    { x with
      status := .retryWait
      nextAttemptAt := some now
      checkpoint := checkpoint
      lastErrorClassification := none }
  pure ()

/-- One execution of `_reconcile_provider_reconciling`, with the decision of the provider; the
ledger is told in a transaction of its own. -/
def reconcileProvider (g e : String) (now : Time) (decision : Decision) : Tx Unit := do
  let row ← readExecution g e
  match decision with
  | .stillUnknown => pure ()
  | .reconciliationOnlyAmount => pure ()
  | .confirmedNotSent => requeueReconciled g e now none
  | .confirmedUsage content =>
    match ((row.bind (·.checkpoint)).getD []).get "pending_candidate", content with
    | .dict _, none => pure ()
    | .dict pending, some text => requeueReconciled g e now (some (recoveredCheckpoint pending text))
    | _, _ => requeueReconciled g e now none

end RagQs.Chat
