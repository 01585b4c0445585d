import RagQs.Effect.Action
import RagQs.Platform.Value
import Mathlib.Data.Rat.Defs
import Mathlib.Algebra.Order.Ring.Unbundled.Rat

/-!
# Provider calls under a retry policy

The policy makes physical attempts of one call until one succeeds, a failure is not worth
a retry, or the deadline is reached.  The clock, the sleep, the circuit breaker and the
telemetry are the caller's, and each of them may return anything or raise.

## Main definitions

* `Exc`, `PyObj` — the exceptions and the values of the callbacks.
* `Callbacks` — what the policy is given.
* `callWithPolicy` — the retry loop with its accounting and its cleanup.
-/

namespace RagQs

open Effect Effect.Action

/-! ### Values and exceptions -/

/-- `ProviderFailure` -/
structure ProviderFailure where
  errorClass : String
  statusCode : Option ℤ := none
  retryable : Option Bool := none
  sent : Bool := false

/-- The exceptions that are handled: `CancelledError` and the subclasses of `Exception`. -/
inductive Exc
  | cancelled
  | failure (f : ProviderFailure)
  | policyAbort (message : String)
  | accountingAbort (f : ProviderFailure) (forceCircuitFailure : Bool)
  | preSendDeadlineExceeded
  | circuitOpen
  | typeError (message : String)
  | platform (e : PlatformError)
  /-- An exception of any other class. -/
  | other (name : String)

/-- The exception a transaction's error is raised as. -/
def Err.toExc : Err → Exc
  | .platform e => .platform e
  | .integrity => .other "IntegrityError"
  | .internal name => .other name
  | .callback name => .other name

/-- A value a callback returns; `V` are the objects of other classes. -/
inductive PyObj (V : Type)
  | none
  | bool (b : Bool)
  | int (n : ℤ)
  /-- A float, which may be an infinity or no number. -/
  | float (x : Option ℚ)
  | str (s : String)
  | datetime (t : Time)
  /-- An instance of `ProviderResult`. -/
  | providerResult
  | object (v : V)

/-- `ProviderState` -/
inductive ProviderState
  | notSent | unknown | succeeded | failed

/-- `ProviderCallContext` -/
structure ProviderCallContext where
  provider : String
  operation : String
  providerCallId : String
  attemptId : String
  deadlineUtc : Time
  resourceId : Option String := none

/-- `ProviderResult` -/
structure ProviderResult (V : Type) where
  state : ProviderState
  value : PyObj V := .none
  errorClass : Option String := none
  elapsedMs : ℤ := 0
  attempts : ℕ := 0
  retryable : Bool := false

/-- `ProviderCallObservation` -/
structure ProviderCallObservation where
  provider : String
  operation : String
  state : ProviderState
  errorClass : Option String
  attempts : ℕ
  retryCount : ℕ
  elapsedMs : ℤ
  recoveryAfterSeconds : Option ℤ

/-- What the policy is given besides the operation: the retry policy, the clock, the sleep,
the circuit breaker and the telemetry, all with effects on `σ`. -/
structure Callbacks (σ V : Type) where
  maxAttempts : Bool → Action Exc σ (PyObj V)
  delay : ℕ → Action Exc σ (PyObj V)
  maxDelaySeconds : ℚ
  now : Action Exc σ (PyObj V)
  sleep : ℚ → Action Exc σ (PyObj V)
  jitter : ℚ → Action Exc σ (PyObj V)
  allow : String → String → Time → Action Exc σ (PyObj V)
  success : String → String → Action Exc σ (PyObj V)
  circuitFailure : String → String → Time → Action Exc σ (PyObj V)
  abortProbe : String → String → Action Exc σ (PyObj V)
  /-- `_release_probe_owned_by_token`, which is not overridden. -/
  releaseProbe : String → String → σ → σ
  recoveryAfterSeconds : String → String → Time → Action Exc σ (PyObj V)
  telemetry : ProviderCallObservation → Action Exc σ (PyObj V)

/-- The local variables of the policy that its closures share. -/
structure PolicyState (V : Type) where
  lastKnownNow : Time
  halfOpenProbe : Bool := false
  probeCompleted : Bool := false
  circuitRejected : Bool := false
  result : Option (ProviderResult V) := none

/-! ### Checks of what callbacks return -/

section Checks

variable {σ V : Type}

/-- `_validated_utc` -/
def validatedUtc (callbackName : String) : PyObj V → Action Exc σ Time
  | .datetime t => done t
  | _ => raise (.typeError (callbackName ++ " callback must return datetime"))

/-- `require_none` -/
def requireNone (name : String) : PyObj V → Action Exc σ Unit
  | .none => done ()
  | _ => raise (.typeError (name ++ " must return None"))

/-- `checked_retry_number` -/
def checkedRetryNumber (name : String) (v : PyObj V) : Action Exc σ ℚ :=
  let bad := raise (.typeError (name ++ " callback must return a finite non-negative number"))
  match v with
  | .int n => if n < 0 then bad else done n
  | .float (some x) => if x < 0 then bad else done x
  | _ => bad

/-- The number of attempts a policy allows. -/
def checkedMaxAttempts : PyObj V → Action Exc σ ℕ
  | .int n =>
    if n ≤ 0 then raise (.typeError "max_attempts callback must return a positive int")
    else done n.toNat
  | _ => raise (.typeError "max_attempts callback must return a positive int")

/-- `_RETRYABLE_STATUS`, `_RETRYABLE_CLASSES` and `_is_retryable` -/
def isRetryable (f : ProviderFailure) : Bool :=
  match f.statusCode with
  | some status => status ∈ [429, 502, 503, 504]
  | none => f.errorClass ∈ ["timeout", "connection_lost", "network_error"]

end Checks

/-! ### The policy -/

section Policy

variable {σ V : Type} (cb : Callbacks σ V) (physicalId : String → ℕ → String)
  (ctx : ProviderCallContext) (started : Time)

/-- An action of the policy: on its own variables and on the state of the callbacks. -/
abbrev Pol (σ V α : Type) := Action Exc (PolicyState V × σ) α

/-- A change of the policy's variables. -/
def setLocal (f : PolicyState V → PolicyState V) : Pol σ V Unit := change fun s => (f s.1, s.2)

/-- The policy's variables. -/
def getLocal : Pol σ V (PolicyState V) := do return (← read).1

/-- `sample_now` -/
def sampleNow : Pol σ V Time := do
  let v ← cb.now.onSnd
  let t ← validatedUtc "now" v
  setLocal fun p => { p with lastKnownNow := t }
  return t

/-- `elapsed_ms` -/
def elapsedMs (timestamp : Time) : ℤ := (timestamp - started).tdiv 1000

/-- `deadline_result` -/
def deadlineResult (attempts : ℕ) (unconfirmedSend : Bool) (timestamp : Time)
    (sentOnDeadline : Bool) : ProviderResult V where
  state := if unconfirmedSend || sentOnDeadline then .unknown
    else if attempts = 0 then .notSent else .failed
  errorClass := some "deadline_exceeded"
  elapsedMs := elapsedMs started timestamp
  attempts := attempts
  retryable := true

/-- `complete` -/
def completeResult (r : ProviderResult V) : Pol σ V (ProviderResult V) := do
  setLocal fun p => { p with result := some r }
  return r

/-- `invoke_abort_probe_hook`: the hook, and the registry is repaired whatever it does. -/
def invokeAbortProbeHook : Pol σ V Unit := do
  let outcome ← (do
    let v ← (cb.abortProbe ctx.provider ctx.operation).onSnd
    requireNone "circuit abort_probe" v).attempt
  change fun s => (s.1, cb.releaseProbe ctx.provider ctx.operation s.2)
  match outcome with
  | .ok () => return ()
  | .error e => raise e

/-- `abort_probe` -/
def abortOwnedProbe : Pol σ V Unit := do
  let p ← getLocal
  if p.halfOpenProbe && !p.probeCompleted then
    let outcome ← (invokeAbortProbeHook cb ctx).attempt
    setLocal fun p => { p with probeCompleted := true }
    match outcome with
    | .ok () => return ()
    | .error e => raise e
  else return ()

/-- The probe is settled by a recorded outcome. -/
def settleProbe : Pol σ V Unit :=
  setLocal fun p => { p with probeCompleted := p.probeCompleted || p.halfOpenProbe }

/-- `record_success` -/
def recordSuccess : Pol σ V Unit := do
  let v ← (cb.success ctx.provider ctx.operation).onSnd
  requireNone "circuit success" v
  settleProbe

/-- `record_failure` -/
def recordFailure (timestamp : Time) : Pol σ V Unit := do
  let v ← (cb.circuitFailure ctx.provider ctx.operation timestamp).onSnd
  requireNone "circuit failure" v
  settleProbe

/-- `complete_with_failure` -/
def completeWithFailure (r : ProviderResult V) (timestamp : Time) (mutateCircuit : Bool) :
    Pol σ V (ProviderResult V) := do
  let completed ← completeResult r
  if mutateCircuit then recordFailure cb ctx timestamp
  return completed

/-- `complete_with_success` -/
def completeWithSuccess (r : ProviderResult V) : Pol σ V (ProviderResult V) := do
  let completed ← completeResult r
  recordSuccess cb ctx
  return completed

/-- `provider_failure_result` -/
def providerFailureResult (f : ProviderFailure) (unconfirmedSend : Bool) (timestamp : Time)
    (attemptCount : ℕ) (retryable : Bool) : ProviderResult V where
  state := if unconfirmedSend then .unknown else .failed
  errorClass := some f.errorClass
  elapsedMs := elapsedMs started timestamp
  attempts := attemptCount
  retryable := retryable

/-- `account_interrupted_failure` -/
def accountInterruptedFailure (f : ProviderFailure) (unconfirmedSend : Bool) (timestamp : Time)
    (attemptCount : ℕ) (force : Bool) : Pol σ V Unit := do
  let retryable := isRetryable f
  let _ ← completeResult
    (providerFailureResult started f unconfirmedSend timestamp attemptCount retryable)
  let p ← getLocal
  if force || retryable || p.halfOpenProbe then (recordFailure cb ctx timestamp).swallow

/-- The accounting of an earlier failure when this attempt is interrupted locally. -/
def accountPrior (last : Option ProviderFailure) (unconfirmedSend : Bool) (attempts : ℕ) :
    Pol σ V Unit := do
  match last with
  | some f => do
    if 0 < attempts then
      let p ← getLocal
      accountInterruptedFailure cb ctx started f unconfirmedSend p.lastKnownNow attempts false
  | none => return ()

/-- A deadline that is reached, aggregated with the failure before it. -/
def completeDeadline (last : Option ProviderFailure) (unconfirmedSend : Bool) (attempts : ℕ)
    (timestamp : Time) : Pol σ V (ProviderResult V) :=
  let outcome := deadlineResult started attempts unconfirmedSend timestamp false
  if 0 < attempts ∧ last.isSome then completeWithFailure cb ctx outcome timestamp true
  else completeResult outcome

/-- `checked_recovery_after_seconds` -/
def checkedRecoveryAfterSeconds : Pol σ V (Option ℤ) := do
  let p ← getLocal
  let v ← (cb.recoveryAfterSeconds ctx.provider ctx.operation p.lastKnownNow).onSnd
  match v with
  | .none => return none
  | .int n =>
    if n < 0 then raise (.typeError
      "circuit recovery_after_seconds must return a non-negative int or None")
    else return some n
  | _ => raise (.typeError
      "circuit recovery_after_seconds must return a non-negative int or None")

/-- `emit_telemetry` -/
def emitTelemetry (observation : ProviderCallObservation) : Pol σ V Unit := do
  let v ← (cb.telemetry observation).onSnd
  requireNone "telemetry record" v

/-- The wait before a retry. -/
def retryWait (attempts : ℕ) : Pol σ V ℚ := do
  let v ← (cb.delay attempts).onSnd
  let delay ← checkedRetryNumber "delay" v
  let v ← (cb.jitter delay).onSnd
  let jitterSeconds ← checkedRetryNumber "jitter" v
  return min cb.maxDelaySeconds (delay + jitterSeconds)

/-- `_MAX_PROVIDER_ATTEMPT_SECONDS` -/
def maxProviderAttempt : Time := 30 * 1000000

/-- What the loop does once an attempt has raised a `ProviderFailure`: a result, or `none`
to retry. -/
def afterFailure (maxAttempts attempts : ℕ) (attemptDeadline : Time) (unconfirmedSend : Bool)
    (f : ProviderFailure) : Pol σ V (Option (ProviderResult V)) := do
  let p ← getLocal
  let finished ← (sampleNow cb).onError
    (accountInterruptedFailure cb ctx started f unconfirmedSend p.lastKnownNow attempts false)
  if attemptDeadline ≤ finished then
    return some (← completeWithFailure cb ctx
      (deadlineResult started attempts unconfirmedSend finished false) finished true)
  else
    let retryable := isRetryable f
    let p ← getLocal
    if retryable = false then
      return some (← completeWithFailure cb ctx
        (providerFailureResult started f unconfirmedSend finished attempts false) finished
        p.halfOpenProbe)
    else if maxAttempts ≤ attempts then
      return some (← completeWithFailure cb ctx
        (providerFailureResult started f unconfirmedSend finished attempts true) finished true)
    else
      let account := accountInterruptedFailure cb ctx started f unconfirmedSend finished attempts
        false
      let sleepSeconds ← (retryWait cb attempts).onError account
      if ((ctx.deadlineUtc - finished : ℤ) : ℚ) / 1000000 ≤ sleepSeconds then
        return some (← completeWithFailure cb ctx
          (deadlineResult started attempts unconfirmedSend finished false) finished true)
      else
        (do
          let v ← (cb.sleep sleepSeconds).onSnd
          match v with
          | .none => return ()
          | _ => raise (.typeError "sleep callback must return None")).onError account
        return none

/-- What the loop does once an attempt has raised an exception that is no control signal. -/
def afterException (attempts : ℕ) (attemptDeadline : Time) (unconfirmedSend : Bool) :
    Pol σ V (ProviderResult V) := do
  let result (timestamp : Time) : ProviderResult V := {
    state := if unconfirmedSend then .unknown else .failed
    errorClass := some "provider_error"
    elapsedMs := elapsedMs started timestamp
    attempts := attempts }
  let p ← getLocal
  let finished ← (sampleNow cb).onError do
    let _ ← completeResult (result p.lastKnownNow)
    (recordFailure cb ctx p.lastKnownNow).swallow
  if attemptDeadline ≤ finished then
    completeWithFailure cb ctx (deadlineResult started attempts unconfirmedSend finished false)
      finished true
  else completeWithFailure cb ctx (result finished) finished true

/-- What the loop does once an attempt has returned a value. -/
def afterValue (attempts : ℕ) (attemptDeadline : Time) (unconfirmedSend : Bool)
    (last : Option ProviderFailure) (value : PyObj V) : Pol σ V (ProviderResult V) := do
  match value with
  | .providerResult => do
    accountPrior cb ctx started last unconfirmedSend (attempts - 1)
    raise (.typeError "provider transport must return a raw value, not ProviderResult")
  | value => do
    let result (timestamp : Time) : ProviderResult V := {
      state := .succeeded
      value := value
      elapsedMs := elapsedMs started timestamp
      attempts := attempts }
    let p ← getLocal
    let finished ← (sampleNow cb).onError do
      let _ ← completeResult (result p.lastKnownNow)
      (recordSuccess cb ctx).swallow
    if attemptDeadline ≤ finished then
      completeWithFailure cb ctx (deadlineResult started attempts unconfirmedSend finished true)
        finished true
    else completeWithSuccess cb ctx (result finished)

/-- The attempts, `remaining` of them left after `attempts`. -/
def attemptLoop (operation : ProviderCallContext → Action Exc σ (PyObj V)) (maxAttempts : ℕ) :
    ℕ → ℕ → Bool → Option ProviderFailure → Pol σ V (ProviderResult V)
  | 0, attempts, unconfirmedSend, _ => do
    let p ← getLocal
    completeResult (deadlineResult started attempts unconfirmedSend p.lastKnownNow false)
  | remaining + 1, prior, unconfirmedSend, last => do
    let current ← (sampleNow cb).onError (accountPrior cb ctx started last unconfirmedSend prior)
    if ctx.deadlineUtc ≤ current then
      completeDeadline cb ctx started last unconfirmedSend prior current
    else
      let attempts := prior + 1
      let attemptDeadline := min ctx.deadlineUtc (current + maxProviderAttempt)
      let outcome ← (operation { ctx with
        providerCallId := physicalId ctx.providerCallId attempts
        deadlineUtc := attemptDeadline }).onSnd.attempt
      match outcome with
      | .error (.accountingAbort f force) => do
        let unconfirmedSend := unconfirmedSend || (f.sent && f.statusCode.isNone)
        let p ← getLocal
        let sampled ← (sampleNow cb).attempt
        let failureTime := match sampled with
          | .ok t => t
          | .error _ => p.lastKnownNow
        accountInterruptedFailure cb ctx started f unconfirmedSend failureTime attempts force
        raise (.accountingAbort f force)
      | .error .cancelled => do
        accountPrior cb ctx started last unconfirmedSend prior
        raise .cancelled
      | .error .preSendDeadlineExceeded => do
        -- the attempt never crossed the send boundary, so it does not count
        let deadlineTime ←
          (sampleNow cb).onError (accountPrior cb ctx started last unconfirmedSend prior)
        completeDeadline cb ctx started last unconfirmedSend prior deadlineTime
      | .error (.policyAbort message) => do
        accountPrior cb ctx started last unconfirmedSend prior
        raise (.policyAbort message)
      | .error (.failure f) => do
        let unconfirmedSend := unconfirmedSend || (f.sent && f.statusCode.isNone)
        match ← afterFailure cb ctx started maxAttempts attempts attemptDeadline unconfirmedSend
          f with
        | some r => return r
        | none => attemptLoop operation maxAttempts remaining attempts unconfirmedSend (some f)
      | .error _ => afterException cb ctx started attempts attemptDeadline unconfirmedSend
      | .ok value => afterValue cb ctx started attempts attemptDeadline unconfirmedSend last value

/-- The circuit breaker lets the call through, or the probe it may have taken is given
back. -/
def allowCall : Pol σ V Unit := do
  let outcome ← (do
    let p ← getLocal
    let allowed ← (cb.allow ctx.provider ctx.operation p.lastKnownNow).onSnd.attempt
    match allowed with
    | .ok (.bool b) => setLocal fun p => { p with halfOpenProbe := b }
    | .ok _ => raise (.typeError "circuit allow must return bool")
    | .error .circuitOpen => do
      setLocal fun p => { p with circuitRejected := true }
      raise .circuitOpen
    | .error e => raise e : Pol σ V Unit).attempt
  match outcome with
  | .ok () => return ()
  | .error e => do
    (invokeAbortProbeHook cb ctx).swallow
    raise e

/-- The telemetry of a call the circuit breaker rejected. -/
def reportRejection : Pol σ V Unit := do
  let recovery ← (checkedRecoveryAfterSeconds cb ctx).attempt
  let p ← getLocal
  (emitTelemetry cb {
    provider := ctx.provider
    operation := ctx.operation
    state := .failed
    errorClass := some "circuit_open"
    attempts := 0
    retryCount := 0
    elapsedMs := elapsedMs started p.lastKnownNow
    recoveryAfterSeconds := match recovery with
      | .ok r => r
      | .error _ => none }).swallow

/-- The cleanup of a call, with the first error it met. -/
def cleanup : Pol σ V (Option Exc) := do
  let p ← getLocal
  let aborted ← (if p.halfOpenProbe && !p.probeCompleted then abortOwnedProbe cb ctx
    else return ()).attempt
  let first : Option Exc := match aborted with
    | .ok () => none
    | .error e => some e
  match (← getLocal).result with
  | none => return first
  | some r => do
    let recovery ← (checkedRecoveryAfterSeconds cb ctx).attempt
    let (recoveryAfter, first) : Option ℤ × Option Exc := match recovery with
      | .ok n => (n, first)
      | .error e => (none, first.or (some e))
    let emitted ← (emitTelemetry cb {
      provider := ctx.provider
      operation := ctx.operation
      state := r.state
      errorClass := r.errorClass
      attempts := r.attempts
      retryCount := r.attempts - 1
      elapsedMs := r.elapsedMs
      recoveryAfterSeconds := recoveryAfter }).attempt
    match emitted with
    | .ok () => return first
    | .error e => return first.or (some e)

/-- The guarded part of a call: its attempts, the report of a rejection, the cleanup. -/
def guardedCall (operation : ProviderCallContext → Action Exc σ (PyObj V)) (maxAttempts : ℕ) :
    Pol σ V (ProviderResult V) := do
  let outcome ← (do
    allowCall cb ctx
    attemptLoop cb physicalId ctx started operation maxAttempts maxAttempts 0 false none).attempt
  match outcome with
  | .ok r => do
    match ← cleanup cb ctx with
    | none => return r
    | some e => raise e
  | .error e => do
    match e with
    | .circuitOpen => do
      let p ← getLocal
      if p.circuitRejected then reportRejection cb ctx started
    | _ => pure ()
    let _ ← cleanup cb ctx
    raise e

end Policy

/-- `_MAX_ASYNCHRONOUS_ATTEMPTS` and `_MAX_SYNCHRONOUS_ATTEMPTS` -/
def hardAttemptLimit (asynchronous : Bool) : ℕ := if asynchronous then 5 else 3

/-- `call_with_policy` -/
def callWithPolicy {σ V : Type} (cb : Callbacks σ V) (physicalId : String → ℕ → String)
    (operation : ProviderCallContext → Action Exc σ (PyObj V)) (ctx : ProviderCallContext)
    (asynchronous : Bool) : Action Exc σ (ProviderResult V) := do
  let started ← validatedUtc "now" (← cb.now)
  let limit ← checkedMaxAttempts (← cb.maxAttempts asynchronous)
  fun s =>
    match guardedCall cb physicalId ctx started operation
      (min limit (hardAttemptLimit asynchronous)) (⟨started, false, false, false, none⟩, s) with
    | (r, t) => (r, t.2)

end RagQs
