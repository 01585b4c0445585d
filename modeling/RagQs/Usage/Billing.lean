import RagQs.Platform.Decimal
import RagQs.Usage.Ledger

/-!
# Provider bills

A bill of the provider is imported once and never changed.  A bill with a request id is
reconciled with the usage event of that request, by one cost adjustment; a bill without
one is reconciled as part of a group, by one adjustment for each month it is allocated to.
Both keep a projection of the costs up to date, which can also be rebuilt from the facts.

The calendar is locked by its own transaction; an operation here is given what that
returned.

## Main definitions

* `importRecord`, `reconcile`, `rebuildCostProjection` — the transactions.
* `BillingOp`, `billingBody` — the operations, with the recording of usage events.
-/

namespace RagQs.Usage.Billing

open Txn

/-! ### Identifiers -/

/-- A random token: letters, digits, `-` and `_`. -/
structure Token where
  text : String
  urlsafe : text.toList.all fun c => c.isAlphanum || c == '-' || c == '_'

theorem urlsafe_one : "1".toList.all fun c => c.isAlphanum || c == '-' || c == '_' := by decide

theorem urlsafe_two : "2".toList.all fun c => c.isAlphanum || c == '-' || c == '_' := by decide

theorem urlsafe_u : "u".toList.all fun c => c.isAlphanum || c == '-' || c == '_' := by decide

/-- The library functions of the billing service, beyond those of the ledger. -/
structure BillingEnv extends Env where
  /-- `datetime.isoformat` -/
  isoformat : Time → String
  /-- `str.casefold` -/
  casefold : String → String
  /-- The first instant of a month in a timezone; `none` when there is no such time. -/
  monthStartUtc : String → ℤ → ℤ → Option Time

/-! ### Rows -/

/-- A row of `provider_billing_source_record`. -/
structure SourceRow where
  providerBillingSourceRecordId : String
  provider : String
  providerAccountId : String
  billingSourceRecordId : String
  model : String
  operation : String
  providerRequestId : Option String
  serviceStartUtc : Option Time
  serviceEndUtc : Option Time
  serviceMonth : Option String
  amount : Money
  currencyCode : String
  contentFingerprint : String
  deriving DecidableEq

/-- A row of `provider_billing_reconciliation_group`. -/
structure GroupRow where
  providerBillingReconciliationGroupId : String
  groupKey : String

/-- A row of `provider_billing_source_group`. -/
structure LinkRow where
  providerBillingSourceRecordId : String
  providerBillingReconciliationGroupId : String

/-- A row of `provider_billing_cost_adjustment`. -/
structure AdjustmentRow where
  providerBillingCostAdjustmentId : String
  providerBillingReconciliationGroupId : String
  adjustmentSourceId : String
  adjustmentAllocationKey : String
  amountDelta : Money
  currencyCode : String
  effectiveCalendarVersionId : String
  effectiveAtUtc : Time
  effectivePeriod : String

/-- A row of `usage_event`, with the columns the projection of costs has to do with. -/
structure UsageEventRow where
  usageEventId : String
  eventKind : EventKind
  provider : Option String := none
  providerRequestId : Option String := none
  currencyCode : Option String := none
  estimatedCostAmount : Option Money := none
  estimatedCostStatus : Option CostStatus := none
  adjustmentSourceNamespace : Option String := none
  adjustmentSourceId : Option String := none
  adjustmentAllocationKey : Option String := none
  referencedUsageEventId : Option String := none
  eventFingerprint : String := ""
  effectiveCalendarVersionId : String
  effectiveAtUtc : Time
  effectivePeriod : String
  deriving DecidableEq

/-- What a row of the projection is about. -/
inductive TargetKind
  | providerEvent
  | localUsage
  | reconciliationGroup
  deriving DecidableEq

/-- How much a projected cost is settled. -/
inductive ProjectedStatus
  | provisional
  | reconciled
  | billingPeriodUnallocated

/-- The unique key of a row of `usage_cost_projection`. -/
structure ProjectionKey where
  targetKind : TargetKind
  targetId : String
  effectivePeriod : String
  providerBillingSourceRecordId : Option String
  deriving DecidableEq

/-- The other columns of `usage_cost_projection`. -/
structure ProjectionRow where
  currencyCode : Option String
  estimatedAmount : Option Money
  adjustmentAmount : Option Money
  projectedAmount : Option Money
  costStatus : ProjectedStatus
  effectiveCalendarVersionId : String
  effectiveAtUtc : Time
  recordedCalendarVersionId : String
  recordedAtUtc : Time
  recordedPeriod : String

/-- The keys of the tables and of their unique indexes. -/
inductive BillingKey
  | source (id : String)
  /-- `uq_provider_billing_source_identity` -/
  | sourceIdentity (provider providerAccountId billingSourceRecordId : String)
  | group (id : String)
  /-- `uq_billing_group_key` -/
  | groupKey (key : String)
  /-- `uq_billing_source_group_pair` -/
  | link (sourceId groupId : String)
  /-- `uq_provider_billing_cost_adjustment_source` -/
  | adjustment (sourceId period : String)
  | adjustmentId (id : String)
  | event (id : String)
  /-- `uq_usage_adjustment_source` of the cost adjustments -/
  | eventSource (namespace_ sourceId allocationKey : String)
  /-- `uq_usage_cost_projection_target` -/
  | projection (key : ProjectionKey)
  deriving DecidableEq

/-- The rows. -/
abbrev BillingRow : BillingKey → Type
  | .source _ => SourceRow
  | .sourceIdentity _ _ _ => String
  | .group _ => GroupRow
  | .groupKey _ => String
  | .link _ _ => LinkRow
  | .adjustment _ _ => AdjustmentRow
  | .adjustmentId _ => Unit
  | .event _ => UsageEventRow
  | .eventSource _ _ _ => String
  | .projection _ => ProjectionRow

/-- A state of the tables. -/
abbrev BillingDb := Store BillingRow

/-- A transaction of the service. -/
abbrev BillingTx := Prog BillingRow Err

/-! ### The tables -/

/-- The billing sources of a state. -/
def sources (v : BillingDb) : List SourceRow :=
  table v fun k r => match k, r with
    | .source _, r => some r
    | _, _ => none

/-- The links between sources and groups. -/
def links (v : BillingDb) : List LinkRow :=
  table v fun k r => match k, r with
    | .link _ _, r => some r
    | _, _ => none

/-- The adjustments of groups. -/
def groupAdjustments (v : BillingDb) : List AdjustmentRow :=
  table v fun k r => match k, r with
    | .adjustment _ _, r => some r
    | _, _ => none

/-- The usage events. -/
def usageEvents (v : BillingDb) : List UsageEventRow :=
  table v fun k r => match k, r with
    | .event _, r => some r
    | _, _ => none

/-- The keys of the projection. -/
def projectionKeys (v : BillingDb) : List ProjectionKey :=
  table v fun k _ => match k with
    | .projection key => some key
    | _ => none

/-! ### Import -/

/-- A bill as it comes from the provider. -/
structure BillingSourceRecord where
  provider : String
  providerAccountId : String
  billingSourceRecordId : String
  model : String
  operation : String
  providerRequestId : Option String
  serviceStartUtc : Option Time
  serviceEndUtc : Option Time
  serviceMonth : Option String
  measurements : List (String × ℤ)
  amount : DecimalArg
  currencyCode : String
  sourceStatus : String
  sourceMetadata : List (String × String)

/-- `asdict(record)` -/
def BillingSourceRecord.val (r : BillingSourceRecord) : Val :=
  let time : Option Time → Val := fun t => match t with
    | none => .null
    | some t => .datetime t
  .dict [("provider", .str r.provider), ("provider_account_id", .str r.providerAccountId),
    ("billing_source_record_id", .str r.billingSourceRecordId), ("model", .str r.model),
    ("operation", .str r.operation), ("provider_request_id", .optStr r.providerRequestId),
    ("service_start_utc", time r.serviceStartUtc), ("service_end_utc", time r.serviceEndUtc),
    ("service_month", .optStr r.serviceMonth),
    ("measurements", .dict (r.measurements.map fun m => (m.1, .int m.2))),
    ("amount", match r.amount with
      | .finite d => .decimal d
      | .special => .null),
    ("currency_code", .str r.currencyCode), ("source_status", .str r.sourceStatus),
    ("source_metadata", .dict (r.sourceMetadata.map fun m => (m.1, .str m.2)))]

/-- A check that refuses with an error. -/
def refuseIf (bad : Prop) [Decidable bad] (e : Err) : Except Err Unit :=
  if bad then .error e else .ok ()

/-- The value of a decimal with at most ten places, in units of `10⁻¹⁰`. -/
def decimalUnits (d : Decimal) : Money :=
  (if d.neg then -1 else 1) * d.coeff * 10 ^ (d.exp + 10).toNat

/-- `_money`; `abs` rounds to 28 digits as well. -/
def money (value : DecimalArg) (name : String) : Except Err Money :=
  match value with
  | .special => .error (validationError (name ++ " must be a finite Decimal"))
  | .finite d =>
    if d.exp < -10 then .error (validationError (name ++ " exceeds 10 decimal places"))
    else if amountValue (10 ^ 30 - 1) ≤ contextRound |amountValue (decimalUnits d)| then
      .error (validationError (name ++ " exceeds the storage range"))
    else .ok (decimalUnits d)

/-- `\d{4}-(0[1-9]|1[0-2])` matches the whole text. -/
def isServiceMonth (env : BillingEnv) (value : String) : Bool :=
  match value.toList with
  | [y₁, y₂, y₃, y₄, '-', m₁, m₂] =>
    [y₁, y₂, y₃, y₄].all (fun y => (env.decimalDigit y).isSome) &&
      (m₁ == '0' && '1' ≤ m₂ && m₂ ≤ '9' || m₁ == '1' && '0' ≤ m₂ && m₂ ≤ '2')
  | _ => false

/-- `_SENSITIVE_METADATA_FRAGMENTS` -/
def sensitiveMetadataFragments : List String :=
  ["authorization", "credential", "password", "secret", "token", "request_body",
   "response_body", "image"]

/-- `fragment in text` -/
def containsText (text fragment : String) : Bool :=
  text.toList.tails.any fragment.toList.isPrefixOf

/-- `_source_metadata` -/
def sourceMetadata (env : BillingEnv) (value : List (String × String)) : Except Err Unit :=
  match value.find? fun m =>
      sensitiveMetadataFragments.any (containsText (env.casefold m.1)) with
  | some m => .error (.platform {
      code := "billing_source_metadata_rejected"
      message := "Billing source metadata contains a sensitive field"
      details := [("field", .str m.1)]
      statusCode := 422 })
  | none => .ok ()

/-- `_record_values` -/
def recordValues (env : BillingEnv) (record : BillingSourceRecord) (token : Token) :
    Except Err SourceRow := do
  let provider ← requireText record.provider "provider" 64
  let account ← requireText record.providerAccountId "provider_account_id" 128
  let sourceId ← requireText record.billingSourceRecordId "billing_source_record_id" 128
  let model ← requireText record.model "model" 128
  let operation ← requireText record.operation "operation" 64
  let requestId ← optionalText record.providerRequestId "provider_request_id" 256
  let _ ← requireText record.sourceStatus "source_status" 32
  let currency ← normalizeCurrencyCode env.toEnv record.currencyCode
  let amount ← money record.amount "amount"
  refuseIf (amount < 0) (validationError "amount must be non-negative")
  refuseIf (record.serviceStartUtc = none ∧ record.serviceEndUtc = none ∧
    record.serviceMonth = none) (validationError "service period is required")
  refuseIf (record.serviceMonth.any fun month => !isServiceMonth env month)
    (validationError "service_month must be YYYY-MM")
  sourceMetadata env record.sourceMetadata
  return {
    providerBillingSourceRecordId := "pbs_" ++ token.text
    provider
    providerAccountId := account
    billingSourceRecordId := sourceId
    model
    operation
    providerRequestId := requestId
    serviceStartUtc := record.serviceStartUtc
    serviceEndUtc := record.serviceEndUtc
    serviceMonth := record.serviceMonth
    amount
    currencyCode := currency
    contentFingerprint := env.ledgerFingerprint "provider_billing_source" record.val }

/-- The source an identity was imported as. -/
def sourceOfIdentity (values : SourceRow) : BillingTx (Option SourceRow) :=
  Prog.select fun v : BillingDb =>
    (v.get (.sourceIdentity values.provider values.providerAccountId
      values.billingSourceRecordId)).bind fun id => v.get (.source id)

/-- The identity was imported before: with the same content, this is a replay. -/
def replayImport (existing values : SourceRow) : BillingTx String := do
  raiseIf (existing.contentFingerprint ≠ values.contentFingerprint) (.platform {
    code := "billing_source_conflict"
    message := "The billing source identity was imported with different content"
    details := [("provider", .str values.provider)]
    statusCode := 409 })
  return existing.providerBillingSourceRecordId

/-- `import_record` -/
def importRecord (env : BillingEnv) (record : BillingSourceRecord) (token : Token) :
    BillingTx String := do
  raiseIf (strip record.billingSourceRecordId = "") (.platform {
    code := "billing_source_id_missing"
    message := "A provider billing source record requires a stable source ID"
    statusCode := 422 })
  let values ← check (recordValues env record token)
  let existing ← sourceOfIdentity values
  match existing with
  | some existing => replayImport existing values
  | none =>
    let identity := BillingKey.sourceIdentity values.provider values.providerAccountId
      values.billingSourceRecordId
    let inserted ← insertOrSkip .integrity identity
      [.source values.providerBillingSourceRecordId]
      [⟨identity, some values.providerBillingSourceRecordId⟩,
       ⟨.source values.providerBillingSourceRecordId, some values⟩]
    if inserted then return values.providerBillingSourceRecordId
    else
      let existing ← sourceOfIdentity values
      let existing ← orRaise existing (.internal "NoResultFound")
      replayImport existing values

/-! ### The projection of costs -/

/-- `_upsert_cost_projection`: the row with the key is replaced or inserted. -/
def upsertCostProjection (key : ProjectionKey) (row : ProjectionRow) : BillingTx Unit := do
  let existing ← readRow (BillingKey.projection key)
  match existing with
  | some _ =>
    let _ ← updateWhere (BillingKey.projection key) (fun _ => true) fun _ => row
    return ()
  | none => insert .integrity [.projection key] [⟨.projection key, some row⟩]

/-! ### Reconciliation with a request -/

/-- What the operations are given for the calendar and the clock. -/
structure Moment where
  /-- What `lock_or_verify` returned. -/
  lock : CalendarLock
  /-- What the clock read. -/
  now : Time

/-- The period in which something is recorded. -/
def Moment.recordedPeriod (env : BillingEnv) (m : Moment) : String :=
  env.periodFor m.lock.timezone m.now

/-- The difference of two stored amounts, in 28 digits. -/
def costDelta (billed estimated : Money) : Decimal :=
  let n := billed - estimated
  let digits := (Nat.toDigits 10 n.natAbs).length
  if digits ≤ 28 then ⟨n < 0, n.natAbs, -10⟩
  else
    let coeff := (roundHalfEven (n.natAbs / 10 ^ (digits - 28))).toNat
    if coeff = 10 ^ 28 then ⟨n < 0, 10 ^ 27, (digits : ℤ) - 28 - 9⟩
    else ⟨n < 0, coeff, (digits : ℤ) - 28 - 10⟩

/-- The provider usage of a request; more than one is an error. -/
def usageOfRequest (source : SourceRow) : BillingTx UsageEventRow := do
  let found ← Prog.select fun v : BillingDb => (usageEvents v).filter fun e =>
    e.eventKind = .providerUsage ∧ e.provider = some source.provider ∧
      e.providerRequestId = source.providerRequestId
  match found with
  | [usage] => return usage
  | [] => throw (.platform {
      code := "usage_event_not_found"
      message := "Provider usage was not found"
      statusCode := 404 })
  | _ => throw (.internal "MultipleResultsFound")

/-- The fingerprint of a cost adjustment. -/
def adjustmentFingerprint (env : BillingEnv) (usage : UsageEventRow) (source : SourceRow)
    (ownership : OwnershipSnapshot) (delta : Decimal) : String :=
  env.ledgerFingerprint "cost_adjustment" (.dict [
    ("referenced_event_id", .str (strip usage.usageEventId)),
    ("source", .list [.str "provider_billing",
      .str (strip source.providerBillingSourceRecordId), .str "request"]),
    ("ownership", ownershipVal ownership),
    ("result", .str "cost_adjusted"),
    ("extra", .dict [("estimated_cost_amount", .decimal delta),
      ("currency_code", .str source.currencyCode), ("estimated_cost_status", .str "complete")])])

/-- The text of an event kind. -/
def kindText : EventKind → String
  | .providerUsage => "provider_usage"
  | .localUsage => "local_usage"
  | .usageAdjustment => "usage_adjustment"
  | .costAdjustment => "cost_adjustment"

/-- The row of a cost adjustment: the effective facts are those of the event it refers to. -/
def adjustmentEvent (env : BillingEnv) (usage ref : UsageEventRow) (source : SourceRow)
    (ownership : OwnershipSnapshot) (delta : Decimal) (amount : Money) (token : Token) :
    UsageEventRow where
  usageEventId := "ue_" ++ token.text
  eventKind := .costAdjustment
  currencyCode := some source.currencyCode
  estimatedCostAmount := some amount
  estimatedCostStatus := some .complete
  adjustmentSourceNamespace := some "provider_billing"
  adjustmentSourceId := some (strip source.providerBillingSourceRecordId)
  adjustmentAllocationKey := some "request"
  referencedUsageEventId := some (strip usage.usageEventId)
  eventFingerprint := adjustmentFingerprint env usage source ownership delta
  effectiveCalendarVersionId := ref.effectiveCalendarVersionId
  effectiveAtUtc := ref.effectiveAtUtc
  effectivePeriod := ref.effectivePeriod

/-- `_append_adjustment`, for a cost adjustment of a billed request. -/
def appendCostAdjustment (env : BillingEnv) (usage : UsageEventRow) (source : SourceRow)
    (ownership : OwnershipSnapshot) (delta : Decimal) (token : Token) : BillingTx String := do
  let referencedId ← check (requireText usage.usageEventId "referenced_event_id" 64)
  let sourceId ← check
    (requireText source.providerBillingSourceRecordId "adjustment_source_id" 128)
  let index := BillingKey.eventSource "provider_billing" sourceId "request"
  let existing ← Prog.select fun v : BillingDb =>
    (v.get (.eventSource "provider_billing" sourceId "request")).bind fun id => v.get (.event id)
  match existing with
  | some existing =>
    raiseIf (existing.eventFingerprint
        ≠ adjustmentFingerprint env usage source ownership delta)
      (ledgerConflict "Usage event fingerprint does not match the existing ledger row"
        [("index", .list [.str "event_kind", .str "adjustment_source_namespace",
          .str "adjustment_source_id", .str "adjustment_allocation_key"])])
    return existing.usageEventId
  | none =>
    let ref ← readRow (BillingKey.event referencedId)
    let ref ← orRaise ref (.platform {
      code := "usage_event_not_found"
      message := "Referenced usage event was not found"
      statusCode := 404 })
    raiseIf (ref.eventKind ≠ .providerUsage) (validationError
      ("cost_adjustment may only reference original ['provider_usage'] events (got "
        ++ pyRepr (kindText ref.eventKind) ++ ")"))
    raiseIf (ref.currencyCode ≠ some source.currencyCode) (.platform {
      code := "validation_error"
      message := "cost_adjustment currency must match the referenced provider usage "
        ++ "currency (no cross-currency model)"
      details := [("referenced_currency_code", .optStr ref.currencyCode)]
      statusCode := 422 })
    let amount ← check (amountColumn delta.toRat)
    let row := adjustmentEvent env usage ref source ownership delta amount token
    let inserted ← insertOrSkip .integrity index [.event row.usageEventId]
      [⟨index, some row.usageEventId⟩, ⟨.event row.usageEventId, some row⟩]
    raiseIf (inserted = false) (.internal "NoResultFound")
    return row.usageEventId

/-- One month of a reconciled group. -/
structure ReconciledMonth where
  adjustmentId : String
  period : String
  amountDelta : Money

/-- The status of a reconciliation. -/
inductive ReconciliationStatus
  | reconciled
  | billingPeriodUnallocated
  deriving DecidableEq

/-- What a reconciliation returns. -/
structure ReconciliationResult where
  sourceRecordId : String
  status : ReconciliationStatus
  amountDelta : Option Decimal
  adjustmentEventId : Option String
  adjustments : List ReconciledMonth

/-- The key of the projected cost of a billed request. -/
def requestKey (usage : UsageEventRow) (source : SourceRow) : ProjectionKey where
  targetKind := .providerEvent
  targetId := usage.usageEventId
  effectivePeriod := usage.effectivePeriod
  providerBillingSourceRecordId := some source.providerBillingSourceRecordId

/-- The projected cost of a billed request. -/
def requestRow (env : BillingEnv) (usage : UsageEventRow) (source : SourceRow)
    (estimated adjustment : Money) (at_ : Moment) : ProjectionRow where
  currencyCode := some source.currencyCode
  estimatedAmount := some estimated
  adjustmentAmount := some adjustment
  projectedAmount := some source.amount
  costStatus := .reconciled
  effectiveCalendarVersionId := usage.effectiveCalendarVersionId
  effectiveAtUtc := usage.effectiveAtUtc
  recordedCalendarVersionId := usage.effectiveCalendarVersionId
  recordedAtUtc := at_.now
  recordedPeriod := at_.recordedPeriod env

/-- `_reconcile_request_linked` -/
def reconcileRequestLinked (env : BillingEnv) (source : SourceRow)
    (ownership : OwnershipSnapshot) (at_ : Moment) (token : Token) :
    BillingTx ReconciliationResult := do
  let usage ← usageOfRequest source
  raiseIf (usage.currencyCode ≠ some source.currencyCode) (.platform {
    code := "billing_currency_mismatch"
    message := "Billing and usage currencies do not match"
    statusCode := 422 })
  let estimated ← orRaise usage.estimatedCostAmount (.internal "InvalidOperation")
  let delta := costDelta source.amount estimated
  let eventId ← appendCostAdjustment env usage source ownership delta token
  let adjustment ← check (amountColumn delta.toRat)
  upsertCostProjection (requestKey usage source)
    (requestRow env usage source estimated adjustment at_)
  return {
    sourceRecordId := source.providerBillingSourceRecordId
    status := .reconciled
    amountDelta := some delta
    adjustmentEventId := some eventId
    adjustments := [] }

/-! ### Reconciliation of a group -/

/-- One entry of the caller's list; what is not a text or not a number is `none`. -/
structure Allocation where
  period : Option String
  amountDelta : Option DecimalArg

/-- One entry, checked. -/
def normalizeAllocation (allocation : Allocation) : Except Err (String × Money) := do
  let period ← requireText (allocation.period.getD "") "allocation period" 7
  let value ← match allocation.amountDelta with
    | some value => .ok value
    | none => .error (.internal "InvalidOperation")
  let amount ← money value "amount_delta"
  refuseIf (period.length ≠ 7 ∨ period.toList[4]? ≠ some '-')
    (validationError "allocation period must be YYYY-MM")
  return (period, amount)

/-- The sum of the list, every partial sum in 28 digits. -/
def contextTotal (amounts : List Money) : ℚ :=
  amounts.foldl (fun total amount => contextRound (total + amountValue amount)) 0

/-- The digits of an `int(...)` literal, with single underscores between them. -/
def intDigits (env : BillingEnv) : List Char → Option ℕ → Option ℕ
  | [], value => value
  | '_' :: c :: cs, some value => do
    let digit ← env.decimalDigit c
    intDigits env cs (some (10 * value + digit))
  | c :: cs, value => do
    let digit ← env.decimalDigit c
    intDigits env cs (some (10 * value.getD 0 + digit))

/-- `int(text)` -/
def pyInt (env : BillingEnv) (text : String) : Option ℤ :=
  match (strip text).toList with
  | '-' :: cs => (intDigits env cs none).map fun n => -(n : ℤ)
  | '+' :: cs => (intDigits env cs none).map fun n => (n : ℤ)
  | cs => (intDigits env cs none).map fun n => (n : ℤ)

/-- The first instant of a period `YYYY-MM`. -/
def periodStart (env : BillingEnv) (timezone period : String) : Except Err Time :=
  match pyInt env (String.ofList (period.toList.take 4)),
      pyInt env (String.ofList (period.toList.drop 5)) with
  | some year, some month =>
    if 1 ≤ year ∧ year ≤ 9999 ∧ 1 ≤ month ∧ month ≤ 12 then
      match env.monthStartUtc timezone year month with
      | some t => .ok t
      | none => .error (.internal "OverflowError")
    else .error (.internal "ValueError")
  | _, _ => .error (.internal "ValueError")

/-- The key of the group of a source. -/
def groupKeyOf (env : BillingEnv) (source : SourceRow) : String :=
  String.intercalate ":" [source.provider, source.providerAccountId, source.model,
    source.operation, source.currencyCode, source.serviceMonth.getD "",
    (source.serviceStartUtc.map env.isoformat).getD "",
    (source.serviceEndUtc.map env.isoformat).getD ""]

/-- The group of a key, locked. -/
def groupOfKey (key : String) : BillingTx (Option String) :=
  lockRow (BillingKey.groupKey key)

/-- The first part of `_ensure_group`: the group of a source. -/
def findGroup (env : BillingEnv) (source : SourceRow) (token : Token) : BillingTx String := do
  let key := groupKeyOf env source
  let existing ← groupOfKey key
  match existing with
  | some groupId => return groupId
  | none =>
    let row : GroupRow := ⟨"pbr_" ++ token.text, key⟩
    let inserted ← insertOrSkip .integrity (.groupKey key)
      [.group row.providerBillingReconciliationGroupId]
      [⟨.groupKey key, some row.providerBillingReconciliationGroupId⟩,
       ⟨.group row.providerBillingReconciliationGroupId, some row⟩]
    if inserted then return row.providerBillingReconciliationGroupId
    else
      let existing ← readRow (BillingKey.groupKey key)
      orRaise existing (.internal "NoResultFound")

/-- `_ensure_group`: the group of a source, with the source linked to it. -/
def ensureGroup (env : BillingEnv) (source : SourceRow) (token : Token) : BillingTx String := do
  let groupId ← findGroup env source token
  let sourceId := source.providerBillingSourceRecordId
  let _ ← insertOrSkip .integrity (.link sourceId groupId) []
    [⟨.link sourceId groupId, some ⟨sourceId, groupId⟩⟩]
  return groupId

/-- An allocation that contradicts one that is there. -/
def allocationConflict : Err := .platform {
  code := "billing_allocation_conflict"
  message := "The billing allocation already exists with a different amount"
  statusCode := 409 }

/-- The row of a new adjustment. -/
def adjustmentRow (source : SourceRow) (groupId period : String) (amount : Money)
    (lock : CalendarLock) (effectiveAt : Time) (token : Token) : AdjustmentRow where
  providerBillingCostAdjustmentId := "pba_" ++ token.text
  providerBillingReconciliationGroupId := groupId
  adjustmentSourceId := source.providerBillingSourceRecordId
  adjustmentAllocationKey := period
  amountDelta := amount
  currencyCode := source.currencyCode
  effectiveCalendarVersionId := lock.versionId
  effectiveAtUtc := effectiveAt
  effectivePeriod := period

/-- `_insert_group_adjustment` -/
def insertGroupAdjustment (env : BillingEnv) (source : SourceRow) (groupId period : String)
    (amount : Money) (lock : CalendarLock) (token : Token) : BillingTx String := do
  let sourceId := source.providerBillingSourceRecordId
  let existing ← readRow (BillingKey.adjustment sourceId period)
  match existing with
  | some existing =>
    raiseIf (existing.amountDelta ≠ amount) allocationConflict
    return existing.providerBillingCostAdjustmentId
  | none =>
    let effectiveAt ← check (periodStart env lock.timezone period)
    let row := adjustmentRow source groupId period amount lock effectiveAt token
    let inserted ← insertOrSkip .integrity (.adjustment sourceId period)
      [.adjustmentId row.providerBillingCostAdjustmentId]
      [⟨.adjustment sourceId period, some row⟩,
       ⟨.adjustmentId row.providerBillingCostAdjustmentId, some ()⟩]
    if inserted then return row.providerBillingCostAdjustmentId
    else
      let existing ← readRow (BillingKey.adjustment sourceId period)
      let existing ← orRaise existing (.internal "NoResultFound")
      raiseIf (existing.amountDelta ≠ amount) allocationConflict
      return existing.providerBillingCostAdjustmentId

/-- The key of a projected cost of a group. -/
def groupProjectionKey (source : SourceRow) (groupId period : String) : ProjectionKey where
  targetKind := .reconciliationGroup
  targetId := groupId
  effectivePeriod := period
  providerBillingSourceRecordId := some source.providerBillingSourceRecordId

/-- A projected cost of a group, or, without an amount, that it is not allocated. -/
def groupProjectionRow (env : BillingEnv) (source : SourceRow) (amount : Option Money)
    (effectiveAt : Time) (at_ : Moment) : ProjectionRow where
  currencyCode := some source.currencyCode
  estimatedAmount := none
  adjustmentAmount := amount
  projectedAmount := amount
  costStatus := if amount.isSome then .reconciled else .billingPeriodUnallocated
  effectiveCalendarVersionId := at_.lock.versionId
  effectiveAtUtc := effectiveAt
  recordedCalendarVersionId := at_.lock.versionId
  recordedAtUtc := at_.now
  recordedPeriod := at_.recordedPeriod env

/-- The months of the list, one after the other; the tokens are those of the new
adjustments. -/
def allocateMonths (env : BillingEnv) (source : SourceRow) (groupId : String) (at_ : Moment) :
    List (String × Money) → List Token → BillingTx (List ReconciledMonth)
  | [], _ => return []
  | _ :: _, [] => throw (.internal "no token")
  | (period, amount) :: rest, token :: tokens => do
    let adjustmentId ← insertGroupAdjustment env source groupId period amount at_.lock token
    let effectiveAt ← check (periodStart env at_.lock.timezone period)
    upsertCostProjection (groupProjectionKey source groupId period)
      (groupProjectionRow env source (some amount) effectiveAt at_)
    let months ← allocateMonths env source groupId at_ rest tokens
    return ⟨adjustmentId, period, amount⟩ :: months

/-- `_reconcile_group` -/
def reconcileGroup (env : BillingEnv) (source : SourceRow) (allocations : List Allocation)
    (at_ : Moment) (token : Token) (tokens : List Token) : BillingTx ReconciliationResult := do
  let groupId ← ensureGroup env source token
  if allocations = [] then
    upsertCostProjection
      (groupProjectionKey source groupId (source.serviceMonth.getD (at_.recordedPeriod env)))
      (groupProjectionRow env source none
        ((source.serviceStartUtc <|> source.serviceEndUtc).getD 0) at_)
    return {
      sourceRecordId := groupId
      status := .billingPeriodUnallocated
      amountDelta := none
      adjustmentEventId := none
      adjustments := [] }
  else
    let normalized ← check (allocations.mapM normalizeAllocation)
    raiseIf (contextTotal (normalized.map Prod.snd) ≠ amountValue source.amount) (.platform {
      code := "billing_allocation_mismatch"
      message := "Month allocations must sum to the billed amount"
      statusCode := 422 })
    let months ← allocateMonths env source groupId at_ normalized tokens
    return {
      sourceRecordId := groupId
      status := .reconciled
      amountDelta := none
      adjustmentEventId := none
      adjustments := months }

/-- The arguments of `reconcile`, with what the calendar, the clock and the random tokens
are. -/
structure ReconcileArgs where
  sourceRecordId : String
  ownership : OwnershipSnapshot
  allocations : Option (List Allocation)
  at_ : Moment
  token : Token
  tokens : List Token

/-- The list a call without one stands for: the whole amount in the service month. -/
def effectiveAllocations (source : SourceRow) (allocations : Option (List Allocation)) :
    List Allocation :=
  match allocations, source.serviceMonth with
  | some list, _ => list
  | none, some month =>
    [⟨some month, some (.finite ⟨source.amount < 0, source.amount.natAbs, -10⟩)⟩]
  | none, none => []

/-- `reconcile` -/
def reconcile (env : BillingEnv) (a : ReconcileArgs) : BillingTx ReconciliationResult := do
  check (validateOwnership a.ownership)
  let source ← readRow (BillingKey.source a.sourceRecordId)
  let source ← orRaise source (.platform {
    code := "billing_source_not_found"
    message := "Billing source was not found"
    statusCode := 404 })
  if source.providerRequestId.any (· ≠ "") then
    reconcileRequestLinked env source a.ownership a.at_ a.token
  else
    reconcileGroup env source (effectiveAllocations source a.allocations) a.at_ a.token a.tokens

/-! ### Rebuilding the projection -/

/-- `source_by_request.get(...)`: the last source with the request of an event. -/
def sourceByRequest (all : List SourceRow) (provider requestId : Option String) :
    Option SourceRow :=
  (all.filter fun s => s.providerRequestId.isSome ∧ some s.provider = provider ∧
    s.providerRequestId = requestId).getLast?

/-- `adjustment_by_reference.get(...)`: the last cost adjustment of an event by a source. -/
def adjustmentByReference (all : List UsageEventRow) (eventId sourceId : String) :
    Option UsageEventRow :=
  (all.filter fun e => e.eventKind = .costAdjustment ∧ e.referencedUsageEventId = some eventId ∧
    e.adjustmentSourceId = some sourceId).getLast?

/-- The rebuilt row of a usage event. -/
def rebuiltEvent (env : BillingEnv) (v : BillingDb) (at_ : Moment) (event : UsageEventRow) :
    ProjectionKey × ProjectionRow :=
  let source := sourceByRequest (sources v) event.provider event.providerRequestId
  let adjustment := source.bind fun s =>
    adjustmentByReference (usageEvents v) event.usageEventId s.providerBillingSourceRecordId
  let estimated := if event.estimatedCostStatus = some .complete then event.estimatedCostAmount
    else none
  ({ targetKind := if event.eventKind = .providerUsage then .providerEvent else .localUsage
     targetId := event.usageEventId
     effectivePeriod := event.effectivePeriod
     providerBillingSourceRecordId := source.map SourceRow.providerBillingSourceRecordId },
   { currencyCode := event.currencyCode
     estimatedAmount := if event.eventKind = .providerUsage then estimated else none
     adjustmentAmount := adjustment.bind UsageEventRow.estimatedCostAmount
     projectedAmount := if adjustment.isSome then source.map SourceRow.amount else estimated
     costStatus := if adjustment.isSome then .reconciled else .provisional
     effectiveCalendarVersionId := event.effectiveCalendarVersionId
     effectiveAtUtc := event.effectiveAtUtc
     recordedCalendarVersionId := at_.lock.versionId
     recordedAtUtc := at_.now
     recordedPeriod := at_.recordedPeriod env })

/-- The rebuilt row of a month of a source. -/
def rebuiltMonth (env : BillingEnv) (at_ : Moment) (source : SourceRow) (groupId : String)
    (adjustment : AdjustmentRow) : ProjectionKey × ProjectionRow :=
  (groupProjectionKey source groupId adjustment.effectivePeriod,
   { currencyCode := some adjustment.currencyCode
     estimatedAmount := none
     adjustmentAmount := some adjustment.amountDelta
     projectedAmount := some adjustment.amountDelta
     costStatus := .reconciled
     effectiveCalendarVersionId := adjustment.effectiveCalendarVersionId
     effectiveAtUtc := adjustment.effectiveAtUtc
     recordedCalendarVersionId := at_.lock.versionId
     recordedAtUtc := at_.now
     recordedPeriod := at_.recordedPeriod env })

/-- The rebuilt row of a source that is not allocated. -/
def rebuiltUnallocated (env : BillingEnv) (at_ : Moment) (source : SourceRow)
    (groupId : String) : ProjectionKey × ProjectionRow :=
  (groupProjectionKey source groupId (source.serviceMonth.getD (at_.recordedPeriod env)),
   groupProjectionRow env source none
    ((source.serviceStartUtc <|> source.serviceEndUtc).getD at_.now) at_)

/-- The rebuilt rows of a link. -/
def rebuiltLink (env : BillingEnv) (v : BillingDb) (at_ : Moment) (link : LinkRow) :
    List (ProjectionKey × ProjectionRow) :=
  match v.get (.source link.providerBillingSourceRecordId),
      v.get (.group link.providerBillingReconciliationGroupId) with
  | some source, some group =>
    if source.providerRequestId.isSome then []
    else
      let groupId := group.providerBillingReconciliationGroupId
      match (groupAdjustments v).filter
          (·.adjustmentSourceId = source.providerBillingSourceRecordId) with
      | [] => [rebuiltUnallocated env at_ source groupId]
      | allocated => allocated.map (rebuiltMonth env at_ source groupId)
  | _, _ => []

/-- All rebuilt rows. -/
def rebuiltRows (env : BillingEnv) (v : BillingDb) (at_ : Moment) :
    List (ProjectionKey × ProjectionRow) :=
  ((usageEvents v).filter fun e => e.eventKind = .providerUsage ∨ e.eventKind = .localUsage).map
      (rebuiltEvent env v at_)
    ++ (links v).flatMap (rebuiltLink env v at_)

/-- The inserts of the rebuilt rows, one after the other. -/
def insertProjections : List (ProjectionKey × ProjectionRow) → BillingTx Unit
  | [] => return ()
  | (key, row) :: rest => do
    insert .integrity [.projection key] [⟨.projection key, some row⟩]
    insertProjections rest

/-- `rebuild_cost_projection` -/
def rebuildCostProjection (env : BillingEnv) (at_ : Moment) : BillingTx ℕ := do
  let rows ← Prog.select fun v : BillingDb => rebuiltRows env v at_
  let _ ← Prog.update
    (fun v : BillingDb => (projectionKeys v).map fun key => ⟨.projection key, none⟩) fun _ => ()
  insertProjections rows
  return rows.length

/-! ### The operations -/

/-- The usage event the ledger records for a provider call or a local stage. -/
structure UsageArgs where
  token : Token
  isProvider : Bool
  provider : Option String
  providerRequestId : Option String
  currencyCode : Option String
  estimatedCostAmount : Option Money
  estimatedCostStatus : Option CostStatus
  effectiveCalendarVersionId : String
  effectiveAtUtc : Time
  effectivePeriod : String

/-- The row of a usage event. -/
def usageRow (a : UsageArgs) : UsageEventRow where
  usageEventId := "ue_" ++ a.token.text
  eventKind := if a.isProvider then .providerUsage else .localUsage
  provider := a.provider
  providerRequestId := a.providerRequestId
  currencyCode := a.currencyCode
  estimatedCostAmount := a.estimatedCostAmount
  estimatedCostStatus := a.estimatedCostStatus
  effectiveCalendarVersionId := a.effectiveCalendarVersionId
  effectiveAtUtc := a.effectiveAtUtc
  effectivePeriod := a.effectivePeriod

/-- The recording of a usage event. -/
def recordUsage (a : UsageArgs) : BillingTx Unit :=
  insert .integrity [.event (usageRow a).usageEventId]
    [⟨.event (usageRow a).usageEventId, some (usageRow a)⟩]

/-- An operation, in a transaction of its own. -/
inductive BillingOp
  | recordUsage (a : UsageArgs)
  | importRecord (record : BillingSourceRecord) (token : Token)
  | reconcile (a : ReconcileArgs)

/-- The program of an operation. -/
def billingBody (env : BillingEnv) : BillingOp → BillingTx Unit
  | .recordUsage a => recordUsage a
  | .importRecord record token => do
    let _ ← importRecord env record token
  | .reconcile a => do
    let _ ← reconcile env a

end RagQs.Usage.Billing
