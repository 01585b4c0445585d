import RagQs.Usage.Ledger

/-!
# Reconciliation, and the transactions of the ledger

Reconciliation takes each stale call through two short transactions, one before and one
after it asks the provider.  Together with the transitions of the ledger and the writers
of the price catalogue these are the transactions that run against each other.

## Main definitions

* `Decision`, `advanceState`, `applyDecision` — the two transactions of a reconciliation.
* `LedgerOp`, `ledgerBody` — the transactions of the ledger and of the catalogue.
-/

namespace RagQs.Usage

open Txn

/-- What the provider says about a call. -/
inductive Decision
  | confirmedUsage (a : Completion)
  | confirmedNotSent
  | stillUnknown
  | onlyAmount (a : AmountOnly)

/-- `_touch_reconcile_attempt` -/
def touchReconcileAttempt (id : String) (now : Time) : Tx Unit := do
  let _ ← updateWhere (.call id) CallRow.completable fun r => r.touch now
  return ()

/-- The code of the refusal `_advance_state` takes as done. -/
def isStateConflict (e : Err) : Bool := e.code = some "provider_call_state_conflict"

/-- `_advance_state`: a stale dispatch becomes unknown; the result says whether to skip the
call.  `status` is that of the row the scan returned. -/
def advanceState (id : String) (status : CallStatus) (olderThanUtc currentUtc : Time)
    (src : Source) : Tx Bool := do
  if status = .unknown then return false
  else do
    let skip ← (do
      let _ ← markExpiredDispatchingUnknown id olderThanUtc currentUtc (src.clock 0)
      return false : Tx Bool).tryCatch fun e =>
        if isStateConflict e then .done true else .fail e
    if skip then return true
    else do
      touchReconcileAttempt id (src.clock 1)
      return false

/-- The second transaction: apply the decision to a call that is still unknown. -/
def applyDecision (env : Env) (id : String) (decision : Decision) (src : Source) :
    Tx Bool := do
  let current ← requireCall id
  if current.status ≠ .unknown then return false
  else match decision with
    | .confirmedUsage a => do
      let _ ← completeProviderCall env id a src
      return true
    | .confirmedNotSent => do
      markNotSent id (src.clock 0)
      return true
    | .onlyAmount a => do
      let outcome ← recordReconciliationAmountOnly env id current a src
      return outcome.any Prod.snd
    | .stillUnknown => do
      touchReconcileAttempt id (src.clock 0)
      return false

/-- The transactions that run against each other. -/
inductive LedgerOp
  | prepare (a : PrepareArgs)
  | dispatch (id : String) (provider : StartedAtProvider) (clock : ℕ → Time)
  /-- `complete_provider_call` and `recover_unknown_call` -/
  | complete (id : String) (a : Completion) (src : Source)
  | notSent (id : String) (now : Time)
  | notSentIfPrepared (id : String) (now : Time)
  | unknown (id : String) (allowTerminal : Bool) (now : Time)
  | expiredUnknown (id : String) (olderThanUtc currentUtc now : Time)
  | amountOnly (id : String) (call : CallRow) (a : AmountOnly) (src : Source)
  | advance (id : String) (status : CallStatus) (olderThanUtc currentUtc : Time) (src : Source)
  | decide (id : String) (decision : Decision) (src : Source)
  | register (a : RegisterArgs)
  | close (versionId : String) (effectiveToUtc now : Time)

/-- What they return. -/
inductive LedgerResult
  | unit
  | flag (b : Bool)
  | prepared (id : String) (created : Bool)
  /-- Present exactly when `mark_dispatching` returns `True`. -/
  | dispatched (sent : Option (PriceVersion × Time))
  | event (usageEventId : String)
  | amount (outcome : Option (String × Bool))
  | version (p : PriceVersion)

/-- The program of each transaction. -/
def ledgerBody (env : Env) : LedgerOp → Tx LedgerResult
  | .prepare a => do
    let (id, created) ← prepareProviderCall a
    return .prepared id created
  | .dispatch id provider clock => do
    let sent ← markDispatching id provider clock
    return .dispatched sent
  | .complete id a src => do
    let eventId ← completeProviderCall env id a src
    return .event eventId
  | .notSent id now => do
    markNotSent id now
    return .unit
  | .notSentIfPrepared id now => do
    markNotSentIfPrepared id now
    return .unit
  | .unknown id allowTerminal now => do
    let b ← markUnknown id allowTerminal now
    return .flag b
  | .expiredUnknown id olderThanUtc currentUtc now => do
    let b ← markExpiredDispatchingUnknown id olderThanUtc currentUtc now
    return .flag b
  | .amountOnly id call a src => do
    let outcome ← recordReconciliationAmountOnly env id call a src
    return .amount outcome
  | .advance id status olderThanUtc currentUtc src => do
    let b ← advanceState id status olderThanUtc currentUtc src
    return .flag b
  | .decide id decision src => do
    let b ← applyDecision env id decision src
    return .flag b
  | .register a => do
    let p ← RagQs.Usage.register env a
    return .version p
  | .close versionId effectiveToUtc now => do
    closeVersion versionId effectiveToUtc now
    return .unit

/-- The system of interleaved ledger and catalogue transactions. -/
abbrev LedgerSys := Sys Row LedgerOp Err LedgerResult

end RagQs.Usage
