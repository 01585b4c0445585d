import RagQs.Platform.Value
import RagQs.Txn.System

/-!
# The usage tables

The rows of the usage domain and the keys they are stored under.  A table is a
family of keys, one for each primary key; the entries of a unique index that
arbitrates concurrent inserts are rows of their own, under the indexed values.  A
`Numeric(30, 10)` column holds a multiple of `10⁻¹⁰`, so it is an integer counting
those.

## Main definitions

* `Scope`, `PriceLine`, `PriceRow` — the price catalogue.
* `CallStatus`, `CallRow` — provider calls, with the check constraints of the table.
* `OwnershipSnapshot`, `ProviderMeasurement`, `EventRow` — usage events.
* `ReconciliationRow` — the amount-only facts.
* `Key`, `Row` — the keys of the database and the rows under them.
-/

namespace RagQs.Usage

/-- A `Numeric(30, 10)` amount, in units of `10⁻¹⁰`. -/
abbrev Money := ℤ

/-! ### The business calendar -/

/-- The single row of the business calendar. -/
structure CalendarRow where
  versionId : String
  timezone : String
  effectiveFromUtc : Time
  createdAtUtc : Time

/-! ### The price catalogue -/

/-- What a price is for. -/
structure Scope where
  provider : String
  model : String
  operation : String
  deriving DecidableEq

/-- The row whose update serialises the writers of one scope. -/
structure ScopeRow where
  lockVersion : ℕ
  createdAtUtc : Time

/-- How a line total is rounded to six places. -/
inductive Rounding
  | floor
  | ceil
  | halfUp

/-- The price of one meter. -/
structure PriceLine where
  meter : String
  unit : String
  rate : Money
  billingGranularity : ℕ
  minimumBillableQuantity : ℕ
  roundingRule : Rounding

/-- What never changes about a price version, its lines included. -/
structure PriceFacts where
  scope : Scope
  currencyCode : String
  effectiveFromUtc : Time
  supersedesVersionId : Option String
  createdAtUtc : Time
  lines : List PriceLine

/-- A price version, in force on `[effectiveFromUtc, effectiveToUtc)`. -/
structure PriceRow extends PriceFacts where
  effectiveToUtc : Option Time

/-- The price version is in force at a time. -/
def PriceRow.contains (p : PriceRow) (t : Time) : Bool :=
  p.effectiveFromUtc ≤ t && p.effectiveToUtc.all (t < ·)

theorem PriceRow.contains_iff {p : PriceRow} {t : Time} :
    p.contains t = true ↔
      p.effectiveFromUtc ≤ t ∧ ∀ u, p.effectiveToUtc = some u → t < u := by
  unfold contains
  cases p.effectiveToUtc <;> simp

/-! ### Provider calls -/

/-- The status of a provider call. -/
inductive CallStatus
  | prepared
  | dispatching
  | completed
  | notSent
  | unknown
  deriving DecidableEq

/-- The call has left for the provider. -/
def CallStatus.sent : CallStatus → Bool
  | .dispatching | .unknown | .completed => true
  | .prepared | .notSent => false

/-- The status never changes again. -/
def CallStatus.terminal : CallStatus → Bool
  | .completed | .notSent => true
  | .prepared | .dispatching | .unknown => false

/-- What `prepare_provider_call` fixes about a call. -/
structure CallFacts where
  scope : Scope
  executionKind : String
  executionId : String
  attemptId : Option String
  generationId : Option String
  resourceId : Option String
  replayGeneration : ℤ
  requestFingerprint : String
  deadlineUtc : Time

/-- A provider call. -/
structure CallRow extends CallFacts where
  status : CallStatus
  preparedAtUtc : Time
  dispatchingAtUtc : Option Time
  startedAtUtc : Option Time
  completedAtUtc : Option Time
  notSentAtUtc : Option Time
  unknownAtUtc : Option Time
  lastReconcileAttemptAtUtc : Option Time
  createdAtUtc : Time

/-- The check constraints of the table that tie the timestamps to the status. -/
def CallRow.check (r : CallRow) : Bool :=
  match r.status with
  | .prepared =>
    r.dispatchingAtUtc.isNone && r.completedAtUtc.isNone && r.notSentAtUtc.isNone &&
      r.unknownAtUtc.isNone && r.startedAtUtc.isNone && r.lastReconcileAttemptAtUtc.isNone
  | .dispatching =>
    r.dispatchingAtUtc.isSome && r.startedAtUtc.isSome && r.completedAtUtc.isNone &&
      r.notSentAtUtc.isNone && r.unknownAtUtc.isNone
  | .completed =>
    r.dispatchingAtUtc.isSome && r.startedAtUtc.isSome && r.completedAtUtc.isSome &&
      r.notSentAtUtc.isNone
  | .notSent =>
    r.notSentAtUtc.isSome && r.completedAtUtc.isNone && r.unknownAtUtc.isNone &&
      r.startedAtUtc.isNone
  | .unknown =>
    r.dispatchingAtUtc.isSome && r.startedAtUtc.isSome && r.unknownAtUtc.isSome &&
      r.completedAtUtc.isNone && r.notSentAtUtc.isNone

theorem CallRow.started_iff_sent {r : CallRow} (h : r.check = true) :
    r.startedAtUtc.isSome = r.status.sent := by
  unfold check at h
  cases hs : r.status <;> simp_all [CallStatus.sent]

/-! ### Usage events and reconciliation facts -/

/-- Who a usage is charged to. -/
structure OwnershipSnapshot where
  actorUserId : String
  actorRoleSnapshot : String
  actorDepartmentIdSnapshot : Option String
  quotaSubjectUserId : Option String
  costCenterKey : String
  spaceId : Option String := none
  spaceKind : Option String := none
  spaceOwnerUserId : Option String := none
  authorizationVersion : Option ℤ := none
  fenceToken : Option ℤ := none
  sourceSpaceIds : List String := []
  deriving DecidableEq

/-- What was measured of a provider call; a null reading is unknown, not zero. -/
structure ProviderMeasurement where
  inputTokens : Option ℤ
  promptCacheHitTokens : Option ℤ
  promptCacheMissTokens : Option ℤ
  outputTokens : Option ℤ
  reasoningTokens : Option ℤ
  imageCount : Option ℤ
  visualInputTokens : Option ℤ
  embeddingInputTokens : Option ℤ
  vectorCount : Option ℤ
  measurementSources : List (String × String)

/-- `_PROVIDER_METER_FIELDS` with the readings. -/
def ProviderMeasurement.meters (m : ProviderMeasurement) : List (String × Option ℤ) :=
  [("input_tokens", m.inputTokens),
   ("prompt_cache_hit_tokens", m.promptCacheHitTokens),
   ("prompt_cache_miss_tokens", m.promptCacheMissTokens),
   ("output_tokens", m.outputTokens),
   ("reasoning_tokens", m.reasoningTokens),
   ("image_count", m.imageCount),
   ("visual_input_tokens", m.visualInputTokens),
   ("embedding_input_tokens", m.embeddingInputTokens),
   ("vector_count", m.vectorCount)]

/-- How much of a cost is known. -/
inductive CostStatus
  | complete
  | partially
  | unavailable
  deriving DecidableEq

/-- The text of a cost status. -/
def CostStatus.text : CostStatus → String
  | .complete => "complete"
  | .partially => "partial"
  | .unavailable => "unavailable"

/-- The kinds of usage events. -/
inductive EventKind
  | providerUsage
  | localUsage
  | usageAdjustment
  | costAdjustment
  deriving DecidableEq

/-- A usage event, with the columns a provider usage has. -/
structure EventRow where
  eventKind : EventKind
  providerCallId : Option String
  scope : Scope
  providerRequestId : Option String
  priceVersionId : String
  currencyCode : String
  estimatedCostAmount : Option Money
  estimatedCostStatus : CostStatus
  measurement : ProviderMeasurement
  executionKind : String
  executionId : String
  attemptId : Option String
  generationId : Option String
  resourceId : Option String
  replayGeneration : ℤ
  costCenterKey : String
  result : String
  eventFingerprint : String
  ownershipJson : OwnershipSnapshot
  startedAtUtc : Time
  completedAtUtc : Time
  effectiveCalendarVersionId : String
  effectiveAtUtc : Time
  effectivePeriod : String
  recordedCalendarVersionId : String
  recordedAtUtc : Time
  recordedPeriod : String
  createdAtUtc : Time

/-- The kinds of reconciliation facts. -/
inductive ReconciliationKind
  | amountOnly
  | unknownPending
  deriving DecidableEq

/-- A reconciliation fact.  The amount is stored as its decimal text, which is one to
one with the decimal. -/
structure ReconciliationRow where
  providerCallId : Option String
  scope : Scope
  executionKind : String
  executionId : String
  attemptId : Option String
  reconciliationKind : ReconciliationKind
  amountOnlyJson : Option (Decimal × String)
  ownershipJson : OwnershipSnapshot
  effectiveCalendarVersionId : String
  effectiveAtUtc : Time
  effectivePeriod : String
  recordedCalendarVersionId : String
  recordedAtUtc : Time
  recordedPeriod : String
  createdAtUtc : Time

/-! ### The page quota -/

/-- The kinds of entries of the quota ledger. -/
inductive EntryKind
  | debit
  | reversal
  | supplement
  | credit
  deriving DecidableEq

/-- The text of an entry kind. -/
def EntryKind.text : EntryKind → String
  | .debit => "debit"
  | .reversal => "reversal"
  | .supplement => "supplement"
  | .credit => "credit"

/-- An entry of the quota ledger, which is never changed. -/
structure QuotaDebitRow where
  entryKind : EntryKind
  pageDelta : ℤ
  entryFingerprint : String
  quotaOperationId : Option String := none
  publicationId : Option String := none
  quotaSubjectUserId : String
  quotaPeriod : String
  quotaExemptReason : Option String := none
  referencedDebitId : Option String := none
  adjustmentSourceNamespace : Option String := none
  adjustmentSourceId : Option String := none
  costCenterKey : String
  ownershipJson : OwnershipSnapshot
  effectiveCalendarVersionId : String
  effectiveAtUtc : Time
  effectivePeriod : String
  recordedCalendarVersionId : String
  recordedAtUtc : Time
  recordedPeriod : String
  createdAtUtc : Time

/-- The values of the unique indexes of the quota ledger. -/
inductive EntryIndex
  /-- `uq_quota_debit_operation` -/
  | operation (quotaOperationId : String)
  /-- `uq_quota_debit_adjustment` -/
  | adjustment (entryKind : EntryKind) (namespace_ sourceId : String)
  deriving DecidableEq

/-- What one subject has used and has been granted in one period. -/
structure QuotaProjectionRow where
  baseLimit : ℤ
  extraGranted : ℤ
  used : ℤ
  lastDebitId : Option String
  updatedAtUtc : Time

/-! ### Quota requests -/

/-- The status of a quota request. -/
inductive RequestStatus
  | pending
  | approved
  | rejected
  | cancelled
  deriving DecidableEq

/-- What the creation of a quota request fixes. -/
structure QuotaRequestFacts where
  applicantUserId : String
  applicantRoleSnapshot : String
  applicantDepartmentIdSnapshot : Option String
  quotaPeriod : String
  businessCalendarVersionId : String
  requestedPages : ℤ
  idempotencyFingerprint : String
  createdAtUtc : Time

/-- A quota request. -/
structure QuotaRequestRow extends QuotaRequestFacts where
  version : ℤ
  status : RequestStatus
  approverUserId : Option String := none
  approverRoleSnapshot : Option String := none
  approverDepartmentId : Option String := none
  approvedPages : Option ℤ := none
  creditEntryId : Option String := none
  cancelReason : Option String := none
  reviewedAtUtc : Option Time := none
  updatedAtUtc : Time

/-- The status of a row of `platform_idempotency`. -/
inductive IdempotencyStatus
  | reserved
  | completed
  deriving DecidableEq

/-- A row of `platform_idempotency`. -/
structure IdempotencyRow where
  requestHash : String
  status : IdempotencyStatus
  responseJson : Option (List (String × Val))
  createdAtUtc : Time
  completedAtUtc : Option Time

/-- What quota requests read of a user. -/
structure IdentityUserRow where
  lifecycleStatus : String

/-! ### Keys -/

/-- The keys of the database: the primary keys of each table and the values of the
unique indexes that arbitrate inserts. -/
inductive Key
  | calendar
  | priceScope (scope : Scope)
  | price (id : String)
  /-- `uq_price_catalog_scope` -/
  | priceFrom (scope : Scope) (effectiveFromUtc : Time)
  /-- `uq_price_open_interval` -/
  | priceOpen (scope : Scope)
  | call (id : String)
  | event (id : String)
  /-- `uq_usage_provider_call` -/
  | eventOfCall (providerCallId : String)
  | reconciliation (id : String)
  | quotaDebit (id : String)
  | quotaIndex (u : EntryIndex)
  | quotaProjection (quotaSubjectUserId quotaPeriod : String)
  | quotaRequest (id : String)
  /-- `uq_quota_request_pending` -/
  | quotaRequestPending (applicantUserId quotaPeriod : String)
  | idempotency (scope idempotencyKey : String)
  | identityUser (id : String)
  deriving DecidableEq

/-- The row under a key; an index entry holds the primary key it points to. -/
@[reducible] def Row : Key → Type
  | .calendar => CalendarRow
  | .priceScope _ => ScopeRow
  | .price _ => PriceRow
  | .priceFrom _ _ => String
  | .priceOpen _ => String
  | .call _ => CallRow
  | .event _ => EventRow
  | .eventOfCall _ => String
  | .reconciliation _ => ReconciliationRow
  | .quotaDebit _ => QuotaDebitRow
  | .quotaIndex _ => String
  | .quotaProjection _ _ => QuotaProjectionRow
  | .quotaRequest _ => QuotaRequestRow
  | .quotaRequestPending _ _ => String
  | .idempotency _ _ => IdempotencyRow
  | .identityUser _ => IdentityUserRow

/-- The database. -/
abbrev Db := Txn.Store Row

/-- A transaction of the usage domain. -/
abbrev Tx := Txn.Prog Row Err

end RagQs.Usage
