import RagQs.Usage.Price

/-!
# The usage ledger

The life of a provider call: prepared, dispatching once the send time is fixed under a
locked price, then completed with one usage event, not sent, or unknown until it is
reconciled.  Every transition is a short transaction of its own.

## Main definitions

* `prepareProviderCall`, `markDispatching`, `completeProviderCall`, `markNotSent`,
  `markNotSentIfPrepared`, `markUnknown`, `markExpiredDispatchingUnknown` — the
  transitions.
* `recordReconciliationAmountOnly` — the amount-only fact of an unknown call.
* `usageRow` — the usage event a completion records.
-/

namespace RagQs.Usage

open Txn

/-! ### Errors -/

/-- The call is not there. -/
def callNotFound : Err :=
  .platform { code := "provider_call_not_found", message := "Provider call was not found",
              statusCode := 404 }

/-- The call is not in a state the transition starts from. -/
def callStateConflict (message : String) : Err :=
  .platform { code := "provider_call_state_conflict", message, statusCode := 409 }

/-- The message most transitions refuse with. -/
def unexpectedState : Err := callStateConflict "Provider call is not in the expected state"

/-- A fact that contradicts what the ledger holds. -/
def ledgerConflict (message : String) (details : List (String × Val)) : Err :=
  .platform { code := "ledger_invariant_conflict", message, details, statusCode := 409 }

/-! ### Validation -/

/-- `_SOURCE_WHITELIST` -/
def sourceWhitelist : List String := ["provider_reported", "client_measured", "estimated"]

/-- `_PROVIDER_METER_FIELDS` -/
def providerMeterFields : List String :=
  ["input_tokens", "prompt_cache_hit_tokens", "prompt_cache_miss_tokens", "output_tokens",
   "reasoning_tokens", "image_count", "visual_input_tokens", "embedding_input_tokens",
   "vector_count"]

/-- `_MAX_METER_VALUE` -/
def maxMeterValue : ℤ := 10 ^ 18

/-- `_require_replay_generation` -/
def requireReplayGeneration (value : ℤ) : Except Err ℤ :=
  if value < 0 then
    .error (validationError "replay_generation must be a non-negative integer")
  else .ok value

/-- `_validate_ownership` -/
def validateOwnership (o : OwnershipSnapshot) : Except Err Unit := do
  let _ ← requireText o.actorUserId "actor_user_id" 64
  let _ ← requireText o.actorRoleSnapshot "actor_role_snapshot" 32
  let _ ← optionalText o.actorDepartmentIdSnapshot "actor_department_id_snapshot" 64
  let _ ← requireText o.costCenterKey "cost_center_key" 128
  let _ ← optionalText o.quotaSubjectUserId "quota_subject_user_id" 64
  let _ ← optionalText o.spaceId "space_id" 128
  let _ ← optionalText o.spaceKind "space_kind" 32
  let _ ← optionalText o.spaceOwnerUserId "space_owner_user_id" 64
  if o.sourceSpaceIds.any fun s => strip s = "" then
    .error (validationError "source_space_ids must be a tuple of non-empty strings")
  else .ok ()

/-- `_validate_meter_values` -/
def validateMeterValues (what : String) (values : List (String × Option ℤ)) : Except Err Unit :=
  match values.find? fun v => v.2.any fun n => n < 0 || maxMeterValue < n with
  | some v => .error (validationError
      (what ++ " " ++ pyRepr v.1 ++ " must be a non-negative integer or null"))
  | none => .ok ()

/-- `_validate_provider_measurement` -/
def validateProviderMeasurement (m : ProviderMeasurement) : Except Err Unit :=
  let unknownKeys := ((m.measurementSources.map Prod.fst).filter (· ∉ providerMeterFields)).dedup
  if unknownKeys = [] then validateMeterValues "meter" m.meters
  else .error (validationError
    ("measurement_sources contains unknown meter keys: "
      ++ pyReprList (unknownKeys.insertionSort fun x y => x ≤ y)))

/-- The availability of one reading. -/
def meterAvailability (m : ProviderMeasurement) (field : String × Option ℤ) : CostStatus :=
  if field.2 = none then .unavailable
  else if m.measurementSources.lookup field.1 = some "estimated" then .partially
  else .complete

/-- `_availability`: every reading has a legal source and every source is legal. -/
def availability (m : ProviderMeasurement) : Except Err (List (String × CostStatus)) :=
  match m.meters.find? fun f =>
      f.2.isSome && !((m.measurementSources.lookup f.1).any (· ∈ sourceWhitelist)) with
  | some f => .error (validationError
      ("measurement_sources must provide a legal source for non-null meter " ++ pyRepr f.1))
  | none =>
    if m.measurementSources.all fun s => s.2 ∈ sourceWhitelist then
      .ok (m.meters.map fun f => (f.1, meterAvailability m f))
    else .error (validationError "Invalid measurement source value")

/-- `_measured`: the readings that are known. -/
def measured (m : ProviderMeasurement) : List (String × ℕ) :=
  m.meters.filterMap fun f => f.2.map fun n => (f.1, n.toNat)

/-- `_validate_money_amount` -/
def validateMoneyAmount (amount : DecimalArg) (what : String) : Except Err Decimal :=
  match amount with
  | .special => .error (validationError (what ++ " must be a finite Decimal"))
  | .finite d =>
    if 10 ^ (20 - d.exp).toNat ≤ d.coeff then
      .error (validationError (what ++ " must fit the Numeric(30,10) storage range"))
    else if d.exp < -10 then
      .error (validationError (what ++ " scale must not exceed 10 decimal places"))
    else .ok d

/-! ### Rows -/

/-- `_require_call` -/
def requireCall (id : String) : Tx CallRow := do
  let row ← readRow (.call id)
  orRaise (row : Option CallRow) callNotFound

/-- `_ownership_json`; an empty tuple of spaces is left out. -/
def ownershipVal (o : OwnershipSnapshot) : Val :=
  .dict ([("actor_user_id", .str o.actorUserId),
    ("actor_role_snapshot", .str o.actorRoleSnapshot),
    ("actor_department_id_snapshot", .optStr o.actorDepartmentIdSnapshot),
    ("quota_subject_user_id", .optStr o.quotaSubjectUserId),
    ("cost_center_key", .str o.costCenterKey),
    ("space_id", .optStr o.spaceId),
    ("space_kind", .optStr o.spaceKind),
    ("space_owner_user_id", .optStr o.spaceOwnerUserId),
    ("authorization_version", .optInt o.authorizationVersion),
    ("fence_token", .optInt o.fenceToken)]
    ++ if o.sourceSpaceIds = [] then []
       else [("source_space_ids", .list (o.sourceSpaceIds.map .str))])

/-- The measurement as a dictionary. -/
def measurementVal (m : ProviderMeasurement) : Val :=
  .dict (m.meters.map (fun f => (f.1, .optInt f.2))
    ++ [("measurement_sources", .dict (m.measurementSources.map fun s => (s.1, .str s.2)))])

/-- A stored amount with its six places. -/
def moneyVal : Option Money → Val
  | none => .null
  | some n => .decimal ⟨n < 0, (n / 10000).natAbs, -6⟩

/-- What a completion is told about a call. -/
structure Completion where
  measurement : ProviderMeasurement
  ownership : OwnershipSnapshot
  result : String
  providerRequestId : Option String := none
  startedAtUtc : Option Time := none

/-- The payload the fingerprint of a provider usage covers. -/
def usagePayload (id : String) (call : CallFacts) (a : Completion) (result : String)
    (started : Time) (period : String) (priceId : String) (price : PriceFacts)
    (cost : Option Money × CostStatus) : Val :=
  .dict ([("provider_call_id", .str id),
    ("provider", .str call.scope.provider),
    ("model", .str call.scope.model),
    ("operation", .str call.scope.operation),
    ("execution_kind", .str call.executionKind),
    ("execution_id", .str call.executionId),
    ("attempt_id", .optStr call.attemptId),
    ("generation_id", .optStr call.generationId),
    ("resource_id", .optStr call.resourceId),
    ("deadline_utc", .datetime call.deadlineUtc),
    ("ownership", ownershipVal a.ownership),
    ("provider_request_id", .optStr a.providerRequestId),
    ("started_at_utc", .datetime started),
    ("measurement", measurementVal a.measurement),
    ("result", .str result),
    ("price_version_id", .str priceId),
    ("currency_code", .str price.currencyCode),
    ("estimated_cost_amount", moneyVal cost.1),
    ("estimated_cost_status", .str cost.2.text),
    ("effective_period", .str period)]
    ++ if call.replayGeneration = 0 then []
       else [("replay_generation", .int call.replayGeneration)])

/-- The event a completion records. -/
def usageRow (env : Env) (id : String) (call : CallFacts) (a : Completion) (result : String)
    (started now : Time) (lock : CalendarLock) (priceId : String) (price : PriceFacts)
    (cost : Option Money × CostStatus) : EventRow where
  eventKind := .providerUsage
  providerCallId := some id
  scope := call.scope
  providerRequestId := a.providerRequestId
  priceVersionId := priceId
  currencyCode := price.currencyCode
  estimatedCostAmount := cost.1
  estimatedCostStatus := cost.2
  measurement := a.measurement
  executionKind := call.executionKind
  executionId := call.executionId
  attemptId := call.attemptId
  generationId := call.generationId
  resourceId := call.resourceId
  replayGeneration := call.replayGeneration
  costCenterKey := a.ownership.costCenterKey
  result := result
  eventFingerprint := env.ledgerFingerprint "provider_usage"
    (usagePayload id call a result started (env.periodFor lock.timezone started) priceId price
      cost)
  ownershipJson := a.ownership
  startedAtUtc := started
  completedAtUtc := now
  effectiveCalendarVersionId := lock.versionId
  effectiveAtUtc := started
  effectivePeriod := env.periodFor lock.timezone started
  recordedCalendarVersionId := lock.versionId
  recordedAtUtc := now
  recordedPeriod := env.periodFor lock.timezone now
  createdAtUtc := now

/-- `SELECT` of the usage event of a call, by its unique index. -/
def eventByCall (v : Db) (id : String) : Option (String × EventRow) :=
  match (v.get (.eventOfCall id) : Option String) with
  | none => none
  | some eventId => (v.get (.event eventId) : Option EventRow).map fun r => (eventId, r)

/-! ### Completion -/

/-- `_locked_price`: select and lock, again when the selected version was closed before it
was locked; `retries` more times. -/
def lockedPriceLoop (scope : Scope) (at_ : Time) : ℕ → Tx PriceVersion
  | 0 => do
    let price ← selectFor scope at_
    lockForUsage price.id at_
  | retries + 1 => do
    let price ← selectFor scope at_
    (lockForUsage price.id at_).tryCatch fun e =>
      if e.code = some "price_interval_conflict" then lockedPriceLoop scope at_ retries
      else .fail e

/-- `_PRICE_LOCK_RETRIES` attempts of `_locked_price`. -/
def lockedPrice (scope : Scope) (at_ : Time) : Tx PriceVersion := lockedPriceLoop scope at_ 2

/-- `_resolve_started`: the persisted send time, which an explicit one has to match. -/
def resolveStarted (call : CallRow) (startedAtUtc : Option Time) : Except Err Time :=
  match call.startedAtUtc, startedAtUtc with
  | some persisted, some explicit =>
    if explicit ≠ persisted then .error (.platform {
      code := "validation_error"
      message := "started_at_utc does not match the persisted send time"
      details := [("persisted_started_at_utc", .datetime persisted)]
      statusCode := 422 })
    else .ok persisted
  | some persisted, none => .ok persisted
  | none, some explicit => .ok explicit
  | none, none => .error (validationError
      "started_at_utc is required: mark_dispatching must persist the actual send time")

/-- The refusal of an event that differs from the persisted one. -/
def eventConflict : Err :=
  ledgerConflict "Usage event fingerprint does not match the existing ledger row"
    [("index", .list [.str "provider_call_id"])]

/-- `_insert_usage_once`: the persisted event of the call, inserted when there is none;
always the persisted id. -/
def insertUsageOnce (id eventId : String) (row : EventRow) : Tx String := do
  let existing ← Prog.select fun v => eventByCall v id
  match existing with
  | some (persisted, r) => do
    raiseIf (r.eventFingerprint ≠ row.eventFingerprint) eventConflict
    return persisted
  | none => do
    let inserted ← insertDoNothing (.eventOfCall id) [.event eventId]
      [⟨.event eventId, some row⟩, ⟨.eventOfCall id, some eventId⟩]
    let persisted ← Prog.select fun v => eventByCall v id
    let (persisted, r) ← orRaise persisted (.internal "no row where one is required")
    raiseIf (inserted = false ∧ r.eventFingerprint ≠ row.eventFingerprint) eventConflict
    return persisted

/-- The clock readings and the random tokens of a transaction. -/
structure Source where
  clock : ℕ → Time
  calendarToken : String
  eventToken : String

/-- `_complete_usage`: the usage event of a call, priced under the lock of the version in
force at its send time. -/
def completeUsage (env : Env) (id : String) (a : Completion) (src : Source) : Tx String := do
  let call ← requireCall id
  let result ← check (requireText a.result "result" 32)
  check (validateOwnership a.ownership)
  check (validateProviderMeasurement a.measurement)
  let started ← check (resolveStarted call a.startedAtUtc)
  let lock ← lockOrVerify env (src.clock 1) src.calendarToken
  let statuses ← check (availability a.measurement)
  let price ← lockedPrice call.scope started
  let cost ← check (estimateCost price.toPriceFacts (measured a.measurement) statuses)
  let _ ← check (requireReplayGeneration call.replayGeneration)
  insertUsageOnce id ("ue_" ++ src.eventToken)
    (usageRow env id call.toCallFacts a result started (src.clock 0) lock price.id
      price.toPriceFacts cost)

/-- The amount-only facts of a call. -/
def amountOnlyKeys (v : Db) (id : String) : List Key :=
  ((reconciliations v).filter fun r =>
    r.2.providerCallId = some id && r.2.reconciliationKind = .amountOnly).map
      fun r => .reconciliation r.1

theorem mem_amountOnlyKeys {v : Db} {id n : String} :
    .reconciliation n ∈ amountOnlyKeys v id ↔
      ∃ x : ReconciliationRow, v.get (.reconciliation n) = some x ∧ x.providerCallId = some id ∧
        x.reconciliationKind = .amountOnly := by
  simp [amountOnlyKeys, mem_reconciliations]

theorem eq_reconciliation_of_mem {v : Db} {id : String} {k : Key}
    (h : k ∈ amountOnlyKeys v id) : ∃ n, k = .reconciliation n := by
  obtain ⟨r, _, rfl⟩ := List.mem_map.mp h
  exact ⟨r.1, rfl⟩

/-- The delete of the amount-only facts of a call. -/
def deleteAmountOnly (id : String) : Tx Unit :=
  Prog.update (fun v => (amountOnlyKeys v id).map fun k => ⟨k, none⟩) fun _ => ()

/-- After an update of `updated` rows: unless it was one, the call has to be in `status`
already. -/
def confirmStatus (id : String) (updated : ℕ) (status : CallStatus) : Tx Unit :=
  if updated = 1 then return ()
  else do
    let call ← requireCall id
    raiseIf (call.status ≠ status) unexpectedState

/-- The statuses a completion starts from. -/
def CallRow.completable (r : CallRow) : Bool := r.status = .dispatching || r.status = .unknown

/-- The call once it is completed. -/
def CallRow.complete (r : CallRow) (now : Time) : CallRow :=
  { r with status := .completed, completedAtUtc := some now }

/-- `complete_provider_call_in_transaction`: lock the call, drop its amount-only facts,
record its usage event and complete it. -/
def completeProviderCall (env : Env) (id : String) (a : Completion) (src : Source) :
    Tx String := do
  let row ← lockRow (.call id)
  let row ← orRaise (row : Option CallRow) callNotFound
  raiseIf (row.status.sent = false)
    (callStateConflict "Provider call is not dispatching or unknown")
  deleteAmountOnly id
  let eventId ← completeUsage env id a src
  let updated ← updateWhere (.call id) CallRow.completable fun r => r.complete (src.clock 2)
  confirmStatus id updated .completed
  return eventId

/-! ### The other transitions -/

/-- The statuses that are not terminal. -/
def CallRow.open (r : CallRow) : Bool := !r.status.terminal

/-- The call once it is known not to have been sent. -/
def CallRow.notSend (r : CallRow) (now : Time) : CallRow :=
  { r with status := .notSent, notSentAtUtc := some now, unknownAtUtc := none,
           startedAtUtc := none }

/-- `mark_not_sent_in_transaction`: prepared, dispatching or unknown to not sent, and the
amount-only facts go. -/
def markNotSent (id : String) (now : Time) : Tx Unit := do
  let updated ← updateWhere (.call id) CallRow.open fun r => r.notSend now
  confirmStatus id updated .notSent
  deleteAmountOnly id

/-- `mark_not_sent_if_prepared`: prepared to not sent, and nothing otherwise. -/
def markNotSentIfPrepared (id : String) (now : Time) : Tx Unit := do
  let row ← lockRow (.call id)
  if (row : Option CallRow).all fun r => r.status ≠ .prepared then return ()
  else do
    let updated ← updateWhere (.call id) (fun r : CallRow => r.status = .prepared)
      fun r => r.notSend now
    raiseIf (updated ≠ 1) unexpectedState

/-- The call once its outcome is unknown. -/
def CallRow.lose (r : CallRow) (now : Time) : CallRow :=
  { r with status := .unknown, unknownAtUtc := some now }

/-- `mark_unknown_in_transaction`: dispatching to unknown, and whether it did so. -/
def markUnknown (id : String) (allowTerminal : Bool) (now : Time) : Tx Bool := do
  let updated ← updateWhere (.call id) (fun r : CallRow => r.status = .dispatching)
    fun r => r.lose now
  if updated = 1 then return true
  else do
    let call ← requireCall id
    raiseIf (¬ (call.status = .unknown ∨ (allowTerminal = true ∧ call.status.terminal = true)))
      unexpectedState
    return false

/-- `mark_expired_dispatching_unknown_in_transaction`: the same for a dispatch that is stale
and past its deadline. -/
def markExpiredDispatchingUnknown (id : String) (olderThanUtc currentUtc now : Time) :
    Tx Bool := do
  let updated ← updateWhere (.call id)
    (fun r : CallRow => r.status = .dispatching && r.dispatchingAtUtc.any (· ≤ olderThanUtc) &&
      r.deadlineUtc ≤ currentUtc)
    fun r => r.lose now
  if updated = 1 then return true
  else do
    let call ← requireCall id
    raiseIf (call.status ≠ .unknown)
      (callStateConflict "Provider call is not eligible for automatic reconciliation")
    return false

/-! ### Preparation -/

/-- The arguments of `prepare_provider_call_with_status`. -/
structure PrepareArgs where
  provider : String
  model : String
  operation : String
  executionKind : String
  executionId : String
  providerCallId : Option String := none
  attemptId : Option String := none
  generationId : Option String := none
  resourceId : Option String := none
  deadlineUtc : Time
  requestFingerprint : String
  replayGeneration : ℤ := 0
  now : Time
  token : String

/-- The input checks: the id asked for and the facts of the call. -/
def validatePrepare (a : PrepareArgs) : Except Err (Option String × CallFacts) := do
  let provider ← requireText a.provider "provider" 64
  let model ← requireText a.model "model" 128
  let operation ← requireText a.operation "operation" 64
  let executionKind ← requireText a.executionKind "execution_kind" 32
  let executionId ← requireText a.executionId "execution_id" 128
  let requestFingerprint ← requireText a.requestFingerprint "request_fingerprint" 128
  let attemptId ← optionalText a.attemptId "attempt_id" 128
  let generationId ← optionalText a.generationId "generation_id" 128
  if attemptId = none ∧ generationId = none then
    throw (validationError "attempt_id or generation_id is required")
  let resourceId ← optionalText a.resourceId "resource_id" 256
  let replayGeneration ← requireReplayGeneration a.replayGeneration
  let providerCallId ← optionalText a.providerCallId "provider_call_id" 64
  return (providerCallId, {
    scope := ⟨provider, model, operation⟩, executionKind, executionId, attemptId, generationId,
    resourceId, replayGeneration, requestFingerprint, deadlineUtc := a.deadlineUtc })

/-- The row of a call just prepared. -/
def preparedRow (facts : CallFacts) (now : Time) : CallRow :=
  { facts with status := .prepared, preparedAtUtc := now, dispatchingAtUtc := none,
               startedAtUtc := none, completedAtUtc := none, notSentAtUtc := none,
               unknownAtUtc := none, lastReconcileAttemptAtUtc := none, createdAtUtc := now }

/-- The fields a replay of a preparation has to repeat, and whether it does. -/
def immutableFields (old new : CallFacts) : List (String × Bool) :=
  [("deadline_utc", old.deadlineUtc = new.deadlineUtc),
   ("provider", old.scope.provider = new.scope.provider),
   ("model", old.scope.model = new.scope.model),
   ("operation", old.scope.operation = new.scope.operation),
   ("execution_kind", old.executionKind = new.executionKind),
   ("execution_id", old.executionId = new.executionId),
   ("attempt_id", old.attemptId = new.attemptId),
   ("generation_id", old.generationId = new.generationId),
   ("resource_id", old.resourceId = new.resourceId),
   ("replay_generation", old.replayGeneration = new.replayGeneration),
   ("request_fingerprint", old.requestFingerprint = new.requestFingerprint)]

/-- The first field that differs is reported. -/
def verifyReplay (old new : CallFacts) : Except Err Unit :=
  match (immutableFields old new).find? fun f => !f.2 with
  | some f => .error (ledgerConflict
      ("Provider call id reused with a different " ++ f.1) [("field", .str f.1)])
  | none => .ok ()

/-- `prepare_provider_call_with_status`: the id of the call and whether it is new. -/
def prepareProviderCall (a : PrepareArgs) : Tx (String × Bool) := do
  let (requested, facts) ← check (validatePrepare a)
  let id := requested.getD ("pc_" ++ a.token)
  let inserted ← insertDoNothing (.call id) [] [⟨.call id, some (preparedRow facts a.now)⟩]
  if inserted then return (id, true)
  else do
    let existing ← requireCall id
    check (verifyReplay existing.toCallFacts facts)
    return (id, false)

/-! ### Dispatch -/

/-- `started_at_provider`: a fixed time, or the samples of a callback. -/
inductive StartedAtProvider
  | fixed (t : Time)
  | sampled (f : ℕ → Except Err Time)

/-- The `n`-th send time. -/
def StartedAtProvider.sample : StartedAtProvider → ℕ → Except Err Time
  | .fixed t, _ => .ok t
  | .sampled f, n => f n

/-- The call once it is dispatching. -/
def CallRow.dispatch (r : CallRow) (now started : Time) : CallRow :=
  { r with status := .dispatching, dispatchingAtUtc := some now, startedAtUtc := some started }

/-- The update at the end of `mark_dispatching`. -/
def dispatch (id : String) (price : PriceVersion) (started now : Time) :
    Tx (Option (PriceVersion × Time)) := do
  let updated ← updateWhere (.call id) (fun r : CallRow => r.status = .prepared)
    fun r => r.dispatch now started
  raiseIf (updated ≠ 1) unexpectedState
  return some (price, started)

/-- The end of `mark_dispatching` once the deadline has passed. -/
def expire (id : String) (now : Time) : Tx (Option (PriceVersion × Time)) := do
  markNotSent id now
  return none

/-- The loop of `mark_dispatching`: `rounds` more rounds, from the send time `ready`, which
is sample `n`.  A sampled send time has to be in the interval of the price that was
locked before it was taken, and every wait may cross the deadline. -/
def dispatchLoop (id : String) (call : CallRow) (provider : StartedAtProvider)
    (clock : ℕ → Time) : ℕ → ℕ → Time → Tx (Option (PriceVersion × Time))
  | 0, _, _ =>
    .fail (validationError "started_at_provider did not stabilize during price locking")
  | rounds + 1, n, ready =>
    if call.deadlineUtc ≤ ready then expire id (clock n)
    else do
      let price ← lockedPrice call.scope ready
      if call.deadlineUtc ≤ clock n then expire id (clock (n + 1))
      else match provider with
        | .fixed _ => dispatch id price ready (clock (n + 1))
        | .sampled f => do
          let postLock ← check (f (n + 1))
          if call.deadlineUtc ≤ postLock then expire id (clock (n + 1))
          else if price.contains postLock then dispatch id price postLock (clock (n + 1))
          else dispatchLoop id call provider clock rounds (n + 1) postLock

/-- `mark_dispatching`: fix the send time under a locked price and dispatch the call.  The
result is present exactly when the source returns `True`; it then carries the locked
version and the send time that was stored. -/
def markDispatching (id : String) (provider : StartedAtProvider) (clock : ℕ → Time) :
    Tx (Option (PriceVersion × Time)) := do
  let started ← check (provider.sample 0)
  let call ← requireCall id
  raiseIf (call.status ≠ .prepared) unexpectedState
  dispatchLoop id call provider clock 8 0 started

/-! ### Amount-only facts -/

/-- The refusal of a fact that differs from the persisted one. -/
def reconciliationConflict : Err :=
  ledgerConflict "Reconciliation fact does not match the existing ledger row" []

/-- `_insert_reconciliation_once`: the id, and whether the fact is new. -/
def insertReconciliationOnce (id : String) (row : ReconciliationRow) : Tx (String × Bool) := do
  let existing ← readRow (.reconciliation id)
  match (existing : Option ReconciliationRow) with
  | some r => do
    raiseIf (r.amountOnlyJson ≠ row.amountOnlyJson ∨ r.ownershipJson ≠ row.ownershipJson)
      reconciliationConflict
    return (id, false)
  | none => do
    let inserted ← insertDoNothing (.reconciliation id) [] [⟨.reconciliation id, some row⟩]
    if inserted then return (id, true)
    else do
      let existing ← readRow (.reconciliation id)
      let r ← orRaise (existing : Option ReconciliationRow)
        (.internal "no row where one is required")
      raiseIf (r.amountOnlyJson ≠ row.amountOnlyJson ∨ r.ownershipJson ≠ row.ownershipJson)
        reconciliationConflict
      return (id, false)

/-- What a reconciliation is told when only the amount is known. -/
structure AmountOnly where
  amount : DecimalArg
  currencyCode : String
  ownership : OwnershipSnapshot

/-- The checks of an amount. -/
def validateAmountOnly (env : Env) (a : AmountOnly) : Except Err (Decimal × String) := do
  let amount ← validateMoneyAmount a.amount "amount"
  if amount.neg ∧ amount.coeff ≠ 0 then throw (validationError "amount must be non-negative")
  let currency ← normalizeCurrencyCode env a.currencyCode
  validateOwnership a.ownership
  return (amount, currency)

/-- The call once a reconciliation has been attempted. -/
def CallRow.touch (r : CallRow) (now : Time) : CallRow :=
  { r with lastReconcileAttemptAtUtc := some now }

/-- The fact that is recorded. -/
def amountOnlyRow (env : Env) (id : String) (call : CallRow) (a : AmountOnly)
    (money : Decimal × String) (started now : Time) (lock : CalendarLock) :
    ReconciliationRow where
  providerCallId := some id
  scope := call.scope
  executionKind := call.executionKind
  executionId := call.executionId
  attemptId := call.attemptId
  reconciliationKind := .amountOnly
  amountOnlyJson := some money
  ownershipJson := a.ownership
  effectiveCalendarVersionId := lock.versionId
  effectiveAtUtc := started
  effectivePeriod := env.periodFor lock.timezone started
  recordedCalendarVersionId := lock.versionId
  recordedAtUtc := now
  recordedPeriod := env.periodFor lock.timezone now
  createdAtUtc := now

/-- `record_reconciliation_amount_only`: claim the call while it is unknown and record the
amount; `none` when it is no longer unknown.  `call` is the row the caller read. -/
def recordReconciliationAmountOnly (env : Env) (id : String) (call : CallRow) (a : AmountOnly)
    (src : Source) : Tx (Option (String × Bool)) := do
  let money ← check (validateAmountOnly env a)
  let claimed ← updateWhere (.call id) (fun r : CallRow => r.status = .unknown)
    fun r => r.touch (src.clock 0)
  if claimed ≠ 1 then return none
  else do
    let started ← orRaise (call.startedAtUtc.or call.dispatchingAtUtc)
      (.internal "the call has no send time")
    let lock ← lockOrVerify env (src.clock 2) src.calendarToken
    let outcome ← insertReconciliationOnce (env.stableReconciliationId id)
      (amountOnlyRow env id call a money started (src.clock 1) lock)
    return some outcome

end RagQs.Usage
