import RagQs.Chat.Schema

/-!
# The event log and the locks of a generation

What the chat transactions share: appending to the event log of a generation, the row locks of
its executions and of itself, and the discarding of its A/B pair.  A row lock taken with
`SKIP LOCKED` finds no row when another transaction holds it: `busy` says whether it does.

## Main definitions

* `appendEvent`, `appendTerminal` — the next entry of the log, and the one a terminal is only
  once.
* `lockExecution`, `lockGeneration` — the row locks.
* `discardUnfinishedAbPair` — the pair of a generation that failed or was stopped.
* `Env`, `Held` — the settings, and the claim a worker holds on an execution.
-/

namespace RagQs.Chat

open Txn

/-- A number of seconds. -/
def seconds (n : ℕ) : Time := n * 1000000

/-- The settings of the chat services. -/
structure Env where
  leaseSeconds : ℕ := 90
  maxPhysicalExecutions : ℕ := 3
  maxScopeRetries : ℕ := 1
  maxRunningPerUser : ℕ := 8
  askRateLimitPerMinute : ℕ := 20
  absoluteDeadlineSeconds : ℕ := 1800
  subscriptionLeaseSeconds : ℕ := 90
  disconnectGraceSeconds : ℕ := 60

/-! ### Reading -/

/-- The events of a generation, with their numbers. -/
def eventsOf (v : Db) (generationId : String) : List (ℕ × EventRow) :=
  table v fun
    | .event g seq, r => if g = generationId then some (seq, r) else none
    | _, _ => none

/-- The executions of a generation, with their identifiers. -/
def executionsOf (v : Db) (generationId : String) : List (String × ExecutionRow) :=
  table v fun
    | .execution g e, r => if g = generationId then some (e, r) else none
    | _, _ => none

/-- All executions, with their generations and identifiers. -/
def executions (v : Db) : List ((String × String) × ExecutionRow) :=
  table v fun
    | .execution g e, r => some ((g, e), r)
    | _, _ => none

/-- All generations, with their identifiers. -/
def generations (v : Db) : List (String × GenerationRow) :=
  table v fun
    | .generation g, r => some (g, r)
    | _, _ => none

/-- All pairs, with their generations. -/
def pairs (v : Db) : List (String × PairRow) :=
  table v fun
    | .pair g, r => some (g, r)
    | _, _ => none

/-- The subscription leases, with their tokens. -/
def leases (v : Db) : List (String × LeaseRow) :=
  table v fun
    | .lease t, r => some (t, r)
    | _, _ => none

/-- `UPDATE ... WHERE` the row of one key and the rows it is compared with meet `cond`, and the
row count. -/
def updateIf (k : Key) (cond : Db → Row k → Bool) (f : Row k → Row k) : Tx ℕ :=
  .stmt (fun _ => [])
    (fun v => ((v.get k).filter (cond v)).toList.map fun r => ⟨k, some (f r)⟩)
    fun v => .done ((v.get k).filter (cond v)).toList.length

/-- `coalesce(max(event_seq), 0)` -/
def maxEventSeq (v : Db) (generationId : String) : ℕ :=
  ((eventsOf v generationId).map Prod.fst).foldr max 0

/-! ### The event log -/

/-- `append_event`: the event under the next number, which is returned. -/
def appendEvent (generationId : String) (eventType : EventType) (data : JsonObject) : Tx ℕ := do
  let current ← Prog.select fun v : Db => maxEventSeq v generationId
  insert .integrity [.event generationId (current + 1)]
    [⟨.event generationId (current + 1), some ⟨eventType, data⟩⟩]
  pure (current + 1)

/-- `has_terminal_event` -/
def hasTerminalEvent (generationId : String) : Tx Bool :=
  Prog.select fun v : Db => (eventsOf v generationId).any (·.2.eventType.terminal)

/-- `_append_terminal`: a terminal event is only appended to a log without one. -/
def appendTerminal (generationId : String) (eventType : EventType) (data : JsonObject) :
    Tx Unit := do
  let present ← if eventType.terminal then hasTerminalEvent generationId else pure false
  if present then pure ()
  else do
    let _ ← appendEvent generationId eventType data
    pure ()

/-! ### Locks -/

/-- `_lock_execution`: nothing where another transaction holds the row. -/
def lockExecution (busy : Bool) (generationId executionId : String) : Tx (Option ExecutionRow) :=
  if busy then pure none else lockRow (Key.execution generationId executionId)

/-- `_lock_generation` -/
def lockGeneration (generationId : String) : Tx (Option GenerationRow) :=
  lockRow (Key.generation generationId)

/-- `_lock_generation_executions` -/
def lockGenerationExecutions (generationId : String) : Tx Unit :=
  Prog.selectForUpdate
    (fun v : Db => (executionsOf v generationId).map fun e => Key.execution generationId e.1)
    fun _ => ()

/-! ### A/B pairs -/

/-- The pair of a generation. -/
def readPair (generationId : String) : Tx (Option PairRow) := readRow (Key.pair generationId)

/-- The candidates of a pair that are still planned, discarded. -/
def discardPlanned (v : Db) (generationId : String) : List (Write Row) :=
  [0, 1].filterMap fun n =>
    ((v.get (.candidate generationId n) : Option CandidateRow).filter
      (·.status = .planned)).map fun r =>
        ⟨.candidate generationId n, some { r with status := .discarded }⟩

/-- `_discard_unfinished_ab_pair` -/
def discardUnfinishedAbPair (generationId : String) : Tx Unit := do
  match ← readPair generationId with
  | none => pure ()
  | some pair =>
    if pair.status = .voted ∨ pair.status = .expired then pure ()
    else do
      Prog.update (fun v => discardPlanned v generationId) fun _ => ()
      let _ ← updateWhere (Key.pair generationId) (fun _ => true) fun p => { p with status := .expired }
      pure ()

/-! ### Ending a generation -/

/-- The row of a generation that ends with an error. -/
def GenerationRow.fail (r : GenerationRow) (code : String) : GenerationRow :=
  { r with status := .failed, lastErrorCode := some code }

/-- The row of a generation that was stopped. -/
def GenerationRow.stop (r : GenerationRow) (reason : StopReason) : GenerationRow :=
  { r with status := .stopped, stopReason := some reason }

/-- The row of an execution nobody runs any more. -/
def ExecutionRow.release (r : ExecutionRow) (status : ExecutionStatus) : ExecutionRow :=
  { r with status := status, leaseOwner := none, leaseExpiresAt := none }

/-- The data of an error event. -/
def errorData (code message : String) (details : JsonObject) (requestId : Option String) :
    JsonObject :=
  [("code", .str code), ("message", .str message), ("details", .dict details),
    ("request_id", .str ((requestId.filter (· ≠ "")).getD "req_system"))]

/-- The data of a stopped event; the message is known by its generation. -/
def stoppedData (generationId : String) (reason : StopReason) : JsonObject :=
  [("generation_id", .str generationId), ("status", .str "stopped"),
    ("stop_reason", .str reason.text)]

/-! ### The claim of a worker -/

/-- What a worker knows of the execution it claimed: the fencing token and the control version
it read when it started. -/
structure Held where
  generationId : String
  executionId : String
  fencingToken : ℕ
  controlVersion : ℕ
  deriving DecidableEq

/-- `_cancel_execution_row` -/
def cancelExecutionRow (w : Held) : Tx Unit := do
  let _ ← updateWhere (Key.execution w.generationId w.executionId)
    (fun x => x.status = .running) fun x => x.release .cancelled
  pure ()

/-- `_stop_terminal_in_transaction` -/
def stopTerminalInTransaction (w : Held) (reason : StopReason) : Tx Unit := do
  let _ ← updateWhere (Key.generation w.generationId) (fun _ => true)
    fun r => r.stop reason
  let _ ← updateWhere (Key.message w.generationId) (fun _ => true)
    fun m => { m with status := .stopped, stopReason := some reason }
  let _ ← updateWhere (Key.execution w.generationId w.executionId) (fun _ => true)
    fun x => x.release .cancelled
  discardUnfinishedAbPair w.generationId
  appendTerminal w.generationId .stopped (stoppedData w.generationId reason)

/-- `_cancel_stale_execution` -/
def cancelStaleExecution (w : Held) (busy : Bool) : Tx Unit := do
  let _ ← lockExecution busy w.generationId w.executionId
  match ← lockGeneration w.generationId with
  | none => cancelExecutionRow w
  | some generation =>
    if generation.status = .stopRequested then
      stopTerminalInTransaction w (generation.stopReason.getD .manualRequest)
    else cancelExecutionRow w

/-- The execution is running under the fencing token, and the generation has the control
version and has not ended. -/
def Fence (w : Held) (execution : Option ExecutionRow) (generation : Option GenerationRow) : Bool :=
  match execution, generation with
  | some x, some r =>
    x.fencingToken = w.fencingToken && x.status = .running &&
      r.controlVersion = w.controlVersion && !r.status.terminal
  | _, _ => false

/-- `_fence_current` -/
def fenceCurrent (w : Held) (busy : Bool) : Tx Bool := do
  let execution ← lockExecution busy w.generationId w.executionId
  let generation ← lockGeneration w.generationId
  pure (Fence w execution generation)

end RagQs.Chat
