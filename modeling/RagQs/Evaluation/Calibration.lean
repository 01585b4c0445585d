import RagQs.Evaluation.Suggestion

/-!
# Calibration windows

A window is opened and closed by an operator, each under an idempotency key, and a worker closes
it for good once no pair of it can be voted on or its deadline has passed.  The database lets
one window be open; that none is closing meanwhile is a read of the command that opens one.

## Main definitions

* `openWindow`, `closeWindow` — the commands of an operator.
* `closeWorker` — one run of the worker.
* `collectPair`, `setPairs`, `changeRun`, `setRow` — what the rest of the system does.
* `Op`, `body` — the transactions.
-/

namespace RagQs.Evaluation

open Txn

variable {M S : Type}

/-! ### Reads and writes of windows -/

/-- `get_open_window`, `get_closing_window`: the latest window of a status. -/
def windowIn (status : WindowStatus) (v : Db M S) : Option (String × WindowRow) :=
  lastBy (fun w : String × WindowRow => w.2.openedAt) <| table v fun k r => match k, r with
    | .window id, r => if r.status = status then some (id, r) else none
    | _, _ => none

/-- A window in use: open or closing. -/
def WindowRow.live (w : WindowRow) : Prop := w.status = .isOpen ∨ w.status = .closing

/-- `create_window` -/
def createWindow (windowId : String) (row : WindowRow) : Tx M S Unit :=
  insert .integrity [.window windowId, .openWindow]
    [⟨.window windowId, some row⟩, ⟨.openWindow, some windowId⟩]

/-- The row of `close_window`. -/
def WindowRow.close (w : WindowRow) (closedBy : String) (closeDeadlineAt : Time) : WindowRow :=
  { w with
    status := .closing
    closedBy := some closedBy
    closeDeadlineAt := some closeDeadlineAt
    version := w.version + 1 }

/-- `close_window` of the repository, with the entry of the index. -/
def closeOpen (windowId closedBy : String) (closeDeadlineAt : Time) : Tx M S ℕ :=
  Prog.update
    (fun v => match (v.get (Key.window windowId)).filter fun w : WindowRow => w.status = .isOpen with
      | some w => [⟨.window windowId, some (w.close closedBy closeDeadlineAt)⟩, ⟨.openWindow, none⟩]
      | none => [])
    fun v => ((v.get (Key.window windowId)).filter fun w : WindowRow =>
      w.status = .isOpen).toList.length

/-- `finalize_window` -/
def finalizeWindow (windowId : String) (now : Time) : Tx M S ℕ :=
  updateWhere (.window windowId) (fun w : WindowRow => w.status = .closing) fun w =>
    { w with status := .closed, closedAt := some now, version := w.version + 1 }

/-- A pair that is open, or can still be. -/
def PairStatus.votable : PairStatus → Bool
  | .isOpen | .pending => true
  | _ => false

/-- `window_has_votable_pairs` -/
def hasVotablePairs (windowId : String) (v : Db M S) : Bool :=
  (table v fun k r => match k, r with
    | .pair _, r => if r.windowId = windowId ∧ r.status.votable then some () else none
    | _, _ => none).length ≠ 0

/-- `expire_window_pairs` -/
def expireWindowPairs (windowId : String) : Tx M S ℕ :=
  updateAll fun k r => match k, r with
    | .pair _, r =>
      if r.windowId = windowId ∧ r.status.votable then some (some { r with status := .expired })
      else none
    | _, _ => none

/-- `insert_window_command` -/
def insertCommand (userId key : String) (row : CommandRow) : Tx M S Unit :=
  insert .integrity [.command userId key] [⟨.command userId key, some row⟩]

/-! ### The commands -/

/-- The answer of a command: the window, and the status of the response. -/
abbrev Answer := (String × WindowRow) × ℕ

/-- A request to open a window, with the clock and the new identifiers. -/
structure OpenCall where
  role : String
  userId : String
  action : String
  windowKind : Option String
  idempotencyKey : String
  windowId : String
  suggest : SuggestCall

/-- A request to close the open window, with the clock. -/
structure CloseCall where
  role : String
  userId : String
  idempotencyKey : String
  now : Time

/-- `_require_ops` -/
def requireOps (role : String) : Tx M S Unit :=
  raiseIf (role ≠ "ops")
    (refused "evaluation_run_forbidden" "The evaluation:run capability is required" 403)

/-- The kinds of windows by their names. -/
def parseKind (name : String) : Option WindowKind :=
  if name = "cold_start" then some .coldStart
  else if name = "sentinel" then some .sentinel
  else if name = "manual" then some .manual
  else none

/-- A recorded command is answered as it was, unless the request is another one. -/
def replayCommand (command : CommandRow) (requestHash : String) (status : ℕ) :
    Tx M S Answer := do
  raiseIf (command.requestHash ≠ requestHash)
    (refused "idempotency_key_conflict"
      "The idempotency key was already used with a different request" 409)
  return (command.response, status)

/-- An actionable suggestion of any space. -/
def anyActionable (v : Db M S) : Bool :=
  (table v fun k r => match k, r with
    | .suggestion _, r => if r.status = .actionable then some () else none
    | _, _ => none).length ≠ 0

/-- The suggestions of the leaderboard are brought up to date, and there has to be one. -/
def requireSuggestion (env : Env M S) (call : SuggestCall) : Tx M S Unit := do
  let _ ← leaderboardSuggestions env call none none
  let eligible ← Prog.select anyActionable
  raiseIf (eligible = false)
    (refused "calibration_window_not_eligible" "No actionable suggestion is available" 409)

/-- A window that is not opened by hand needs a suggestion. -/
def requireEligible (env : Env M S) (call : SuggestCall) (kind : WindowKind) : Tx M S Unit :=
  if kind = .manual then return () else requireSuggestion env call

/-- A new window. -/
def newWindow (call : OpenCall) (kind : WindowKind) (policy : PolicyRow) : WindowRow where
  status := .isOpen
  windowKind := kind
  policyVersion := policy.policyVersion
  sampleRate := if kind = .coldStart then policy.coldStartSampleRate else policy.sentinelSampleRate
  pairsCollected := 0
  openedBy := call.userId
  openedAt := call.suggest.now
  closedBy := none
  closedAt := none
  closeDeadlineAt := none
  version := 1

/-- `open_window` of a request that is not recorded. -/
def openNew (env : Env M S) (call : OpenCall) (kind : WindowKind) (requestHash : String) :
    Tx M S Answer := do
  let existing ← Prog.select (windowIn .isOpen)
  raiseIf (existing.isSome = true)
    (refused "calibration_window_already_open" "A calibration window is already open" 409)
  let closing ← Prog.select (windowIn .closing)
  raiseIf (closing.isSome = true)
    (refused "calibration_window_closing" "A calibration window is closing" 409)
  let latest ← Prog.select latestPolicy
  let policy : PolicyRow := latest.getD (defaultPolicy call.suggest.now)
  check (env.validatePolicy policy)
  requireEligible env call.suggest kind
  createWindow call.windowId (newWindow call kind policy)
  insertCommand call.userId call.idempotencyKey
    ⟨.openWindow, requestHash, call.windowId, (call.windowId, newWindow call kind policy)⟩
  return ((call.windowId, newWindow call kind policy), 201)

/-- `open_window` -/
def openWindow (env : Env M S) (call : OpenCall) : Tx M S Answer := do
  requireOps call.role
  raiseIf (call.action ≠ "open" ∨ call.windowKind = none)
    (refused "validation_error" "window_kind is required for open" 422)
  let kind ← orRaise (call.windowKind.bind parseKind)
    (refused "validation_error" "window_kind is invalid" 422)
  let command : Option CommandRow ← readRow (Key.command call.userId call.idempotencyKey)
  match command with
  | some command =>
    replayCommand command (env.requestHash .openWindow (some kind))
      (if command.action = .openWindow then 201 else 200)
  | none => openNew env call kind (env.requestHash .openWindow (some kind))

/-- `close_window` of a request that is not recorded. -/
def closeNew (call : CloseCall) (requestHash : String) : Tx M S Answer := do
  let existing ← Prog.select (windowIn .isOpen)
  let window : String × WindowRow ← orRaise existing
    (refused "calibration_window_not_open" "No calibration window is open" 409)
  let policy : Option PolicyRow ← readRow (Key.policy window.2.policyVersion)
  let deadline := call.now + 1000000 * (policy.map PolicyRow.closeGraceSeconds).getD 3600
  let updated ← closeOpen window.1 call.userId deadline
  raiseIf (updated ≠ 1)
    (refused "calibration_window_not_open" "No calibration window is open" 409)
  let row ← readRow (Key.window window.1)
  let closed : WindowRow ← orRaise row (.internal "AssertionError")
  insertCommand call.userId call.idempotencyKey
    ⟨.closeWindow, requestHash, window.1, (window.1, closed)⟩
  return ((window.1, closed), 200)

/-- `close_window` -/
def closeWindow (env : Env M S) (call : CloseCall) : Tx M S Answer := do
  requireOps call.role
  let command : Option CommandRow ← readRow (Key.command call.userId call.idempotencyKey)
  match command with
  | some command => replayCommand command (env.requestHash .closeWindow none) 200
  | none => closeNew call (env.requestHash .closeWindow none)

/-! ### The worker -/

/-- The port of pair expiry, if there is one. -/
def requirePairExpiry (env : Env M S) : Tx M S Unit :=
  raiseIf (env.pairExpiry = false)
    (.platform { code := "evaluation_pair_expiry_unavailable",
                 message := "The chat pair expiry port is not configured",
                 details := [("retryable", .bool true)], statusCode := 503, retryable := true })

/-- `CalibrationCloseWorker.run_once`, once it has found a closing window. -/
def closeFound (env : Env M S) (now : Time) (windowId : String) (window : WindowRow) :
    Tx M S ℕ :=
  if window.closeDeadlineAt.any (· ≤ now) then do
    requirePairExpiry env
    let _ ← expireWindowPairs windowId
    finalizeWindow windowId now
  else do
    requirePairExpiry env
    let votable ← Prog.select (hasVotablePairs windowId)
    if votable then return 0 else finalizeWindow windowId now

/-- `CalibrationCloseWorker.run_once` -/
def closeWorker (env : Env M S) (now : Time) : Tx M S ℕ := do
  let found ← Prog.select (windowIn .closing)
  match found with
  | none => return 0
  | some window => closeFound env now window.1 window.2

/-! ### The rest of the system -/

/-- `increment_pairs_collected` -/
def collectPair (windowId : String) : Tx M S Unit := do
  let _ ← updateWhere (.window windowId) (fun _ : WindowRow => true) fun w =>
    { w with pairsCollected := w.pairsCollected + 1, version := w.version + 1 }
  return ()

/-- What the chat does to its pairs: any of them are written. -/
def setPairs (pairs : List (String × PairRow)) : Tx M S Unit :=
  Prog.update (fun _ => pairs.map fun p => ⟨.pair p.1, some p.2⟩) fun _ => ()

/-- What the commands of runs and the shadow workers do to a run that is not over: it is
written. -/
def changeRun (runId : String) (row : RunRow) : Tx M S Unit :=
  Prog.update (fun v =>
    if (v.get (Key.run runId)).any fun r : RunRow => r.state.terminal then []
    else [⟨.run runId, some row⟩]) fun _ => ()

/-- A row of a table that is written without a condition: a result, a policy, an active
default. -/
def setRow (k : Key) (row : Row M S k) : Tx M S Unit :=
  Prog.update (fun _ => [⟨k, some row⟩]) fun _ => ()

/-! ### The transactions -/

/-- What a transaction is started for. -/
inductive Op (M : Type)
  | openWindow (call : OpenCall)
  | closeWindow (call : CloseCall)
  | closeWorker (now : Time)
  | computeSuggestion (call : SuggestCall) (runId : String)
  | leaderboard (call : SuggestCall) (spaceId comparatorKey : Option String)
  | collectPair (windowId : String)
  | setPairs (pairs : List (String × PairRow))
  | changeRun (runId : String) (row : RunRow)
  | setResult (runId item config : String) (row : ResultRow M)
  | setPolicy (row : PolicyRow)
  | setDefault (spaceId : String) (row : ActiveDefaultRow)

/-- What a transaction ends with: the answer of a command, or a count. -/
inductive Result
  | answer (a : Answer)
  | count (n : ℕ)

/-- The program of a transaction. -/
def body (env : Env M S) : Op M → Tx M S Result
  | .openWindow call => openWindow env call >>= fun a => return .answer a
  | .closeWindow call => closeWindow env call >>= fun a => return .answer a
  | .closeWorker now => closeWorker env now >>= fun n => return .count n
  | .computeSuggestion call runId => computeSuggestion env call runId >>= fun _ => return .count 0
  | .leaderboard call spaceId comparatorKey =>
    leaderboardSuggestions env call spaceId comparatorKey >>= fun n => return .count n
  | .collectPair windowId => collectPair windowId >>= fun _ => return .count 0
  | .setPairs pairs => setPairs pairs >>= fun _ => return .count 0
  | .changeRun runId row => changeRun runId row >>= fun _ => return .count 0
  | .setResult runId item config row =>
    setRow (.result runId item config) row >>= fun _ => return .count 0
  | .setPolicy row => setRow (.policy row.policyVersion) row >>= fun _ => return .count 0
  | .setDefault spaceId row => setRow (.activeDefault spaceId) row >>= fun _ => return .count 0

end RagQs.Evaluation
