import RagQs.Usage.Ledger

/-!
# The page quota

An append-only ledger of debits, reversals, supplements and credits, and a projection
with what each subject has used and has been granted in each period.  An append writes its
entry and updates the projection in one transaction; `rebuild_projection` computes the
projection again from the ledger.

## Main definitions

* `appendDebit`, `appendReversal`, `appendSupplement`, `appendCredit` — the appends.
* `rebuildProjection` — the projection, from the ledger.
-/

namespace RagQs.Usage

open Txn

/-! ### Validation -/

/-- `_MAX_PAGE_DELTA` -/
def maxPageDelta : ℤ := 2147483647

/-- `_require_role`: the role as it is, without white space around it. -/
def requireRole (value : String) : Except Err String :=
  if value = "" then .error (validationError "role must be a non-empty string")
  else if 32 < value.length then .error (validationError "role must be at most 32 characters")
  else if value ≠ strip value then .error (.platform {
    code := "validation_error"
    message := "role must not have leading or trailing whitespace"
    details := [("role", .str value)]
    statusCode := 422 })
  else .ok value

/-- `_require_positive_pages` -/
def requirePositivePages (value : ℤ) : Except Err ℤ :=
  if 1 ≤ value ∧ value ≤ maxPageDelta then .ok value
  else .error (validationError "pages must be a positive integer within the quota ledger range")

theorem requirePositivePages_ok {value pages : ℤ} (h : requirePositivePages value = .ok pages) :
    pages = value ∧ 0 < pages := by
  unfold requirePositivePages at h
  split at h
  · cases h
    exact ⟨rfl, by omega⟩
  · cases h

/-- The month of a text that `_PERIOD_RE` matches. -/
def monthOf (env : Env) (value : String) : Option ℕ :=
  match value.toList with
  | [y₁, y₂, y₃, y₄, '-', m₁, m₂] => do
    let _ ← env.decimalDigit y₁
    let _ ← env.decimalDigit y₂
    let _ ← env.decimalDigit y₃
    let _ ← env.decimalDigit y₄
    let tens ← env.decimalDigit m₁
    let ones ← env.decimalDigit m₂
    return 10 * tens + ones
  | _ => none

/-- `_require_period` -/
def requirePeriod (env : Env) (value : String) : Except Err String := do
  let textValue ← requireText value "quota_period" 7
  if (monthOf env textValue).any fun m => 1 ≤ m && m ≤ 12 then return textValue
  else throw (validationError "quota_period must be a YYYY-MM business month with month 01..12")

/-- `_EXEMPT_REASON` -/
def exemptReason : String := "shared_library_submission"

/-- `_require_exempt_reason` -/
def requireExemptReason (value : Option String) : Except Err (Option String) :=
  match value with
  | none => .ok none
  | some s =>
    if s = exemptReason then .ok (some s)
    else .error (.platform {
      code := "validation_error"
      message := "quota_exempt_reason must be None or 'shared_library_submission'"
      details := [("quota_exempt_reason", .str s)]
      statusCode := 422 })

/-- `QuotaService._validate_ownership` -/
def validateQuotaOwnership (o : OwnershipSnapshot) : Except Err Unit := do
  let _ ← requireText o.actorUserId "actor_user_id" 64
  let _ ← requireText o.costCenterKey "cost_center_key" 128
  let _ ← requireText o.actorRoleSnapshot "actor_role_snapshot" 32
  let _ ← optionalText o.actorDepartmentIdSnapshot "actor_department_id_snapshot" 64
  let _ ← optionalText o.quotaSubjectUserId "quota_subject_user_id" 64
  return ()

/-- The ownership has to name the subject. -/
def requireSubject (o : OwnershipSnapshot) (subject what : String) (details : List (String × Val)) :
    Except Err Unit :=
  if o.quotaSubjectUserId ≠ some subject then .error (.platform {
    code := "validation_error"
    message := "ownership.quota_subject_user_id must match the " ++ what
    details
    statusCode := 422 })
  else .ok ()

/-- `unlimited_role` -/
def unlimitedRole (role : String) : Bool := role ∈ ["ops", "admin"]

/-- `_CREDIT_NAMESPACE` -/
def creditNamespace : String := "quota_request"

/-! ### Entries -/

/-- The columns of a unique index, as an error names them. -/
def EntryIndex.columns : EntryIndex → List Val
  | .operation _ => [.str "quota_operation_id"]
  | .adjustment _ _ _ =>
    [.str "entry_kind", .str "adjustment_source_namespace", .str "adjustment_source_id"]

/-- The refusal of an entry that differs from the persisted one. -/
def entryConflict (u : EntryIndex) (message : String) : Err :=
  ledgerConflict message [("index", .list u.columns)]

/-- `SELECT` of the entry under a value of a unique index. -/
def entryByIndex (v : Db) (u : EntryIndex) : Option (String × QuotaDebitRow) :=
  match (v.get (.quotaIndex u) : Option String) with
  | none => none
  | some id => (v.get (.quotaDebit id) : Option QuotaDebitRow).map fun r => (id, r)

/-- `_existing_entry`: the persisted entry, if it has the fingerprint. -/
def existingEntry (u : EntryIndex) (fingerprint : String) : Tx (Option String) := do
  let existing ← Prog.select fun v => entryByIndex v u
  match existing with
  | none => return none
  | some (id, r) => do
    raiseIf (r.entryFingerprint ≠ fingerprint)
      (entryConflict u "Quota entry fingerprint does not match the existing ledger row")
    return some id

/-- `_insert_entry`: the persisted id, and whether the entry is new. -/
def insertEntry (u : EntryIndex) (id : String) (row : QuotaDebitRow) : Tx (String × Bool) := do
  match ← existingEntry u row.entryFingerprint with
  | some existingId => return (existingId, false)
  | none => do
    let inserted ← insertDoNothing (.quotaIndex u) [.quotaDebit id]
      [⟨.quotaDebit id, some row⟩, ⟨.quotaIndex u, some id⟩]
    if inserted then return (id, true)
    else do
      let existing ← existingEntry u row.entryFingerprint
      let existingId ← orRaise existing
        (entryConflict u "Quota entry insert race lost; no persisted row to reuse")
      return (existingId, false)

/-- The effective facts of an entry. -/
structure EffectiveFacts where
  calendarVersionId : String
  atUtc : Time
  period : String

/-- The effective facts under a calendar. -/
def EffectiveFacts.under (env : Env) (lock : CalendarLock) (t : Time) : EffectiveFacts :=
  ⟨lock.versionId, t, env.periodFor lock.timezone t⟩

/-- The effective facts of a debit, which its reversals and supplements inherit.  The source
falls back to the calendar of the caller where a text is empty. -/
def EffectiveFacts.inherited (env : Env) (lock : CalendarLock) (ref : QuotaDebitRow) :
    EffectiveFacts where
  calendarVersionId :=
    if ref.effectiveCalendarVersionId = "" then lock.versionId else ref.effectiveCalendarVersionId
  atUtc := ref.effectiveAtUtc
  period := if ref.effectivePeriod = "" then env.periodFor lock.timezone ref.effectiveAtUtc
    else ref.effectivePeriod

/-- `_base_entry_values`, for a subject and a period. -/
def baseEntry (env : Env) (kind : EntryKind) (pageDelta : ℤ) (subject period : String)
    (ownership : OwnershipSnapshot) (lock : CalendarLock) (effective : EffectiveFacts)
    (recordedAtUtc : Time) (fingerprintPayload : Val) : QuotaDebitRow where
  entryKind := kind
  pageDelta
  entryFingerprint := env.ledgerFingerprint ("quota_" ++ kind.text) fingerprintPayload
  quotaSubjectUserId := subject
  quotaPeriod := period
  costCenterKey := ownership.costCenterKey
  ownershipJson := ownership
  effectiveCalendarVersionId := effective.calendarVersionId
  effectiveAtUtc := effective.atUtc
  effectivePeriod := effective.period
  recordedCalendarVersionId := lock.versionId
  recordedAtUtc
  recordedPeriod := env.periodFor lock.timezone recordedAtUtc
  createdAtUtc := recordedAtUtc

/-! ### The projection -/

/-- The projection row as it is created. -/
def initialProjection (env : Env) (now : Time) : QuotaProjectionRow :=
  ⟨env.baseLimit, 0, 0, none, now⟩

/-- The projection row is created where there is none, and locked. -/
def ensureProjection (env : Env) (subject period : String) (now : Time) :
    Tx (Option QuotaProjectionRow) := do
  let _ ← insertDoNothing (.quotaProjection subject period) []
    [⟨.quotaProjection subject period, some (initialProjection env now)⟩]
  lockRow (Key.quotaProjection subject period)

/-- `_lock_projection` -/
def lockProjection (env : Env) (subject period : String) (now : Time) : Tx QuotaProjectionRow := do
  let row ← ensureProjection env subject period now
  orRaise row (.internal "no row where one is required")

/-- The projection row after an entry. -/
def QuotaProjectionRow.add (env : Env) (p : QuotaProjectionRow) (debitDelta creditDelta : ℤ)
    (lastDebitId : Option String) (now : Time) : QuotaProjectionRow where
  baseLimit := env.baseLimit
  extraGranted := p.extraGranted + creditDelta
  used := p.used + debitDelta
  lastDebitId := lastDebitId.or p.lastDebitId
  updatedAtUtc := now

/-- `_update_projection_locked` -/
def updateProjectionLocked (env : Env) (subject period : String) (debitDelta creditDelta : ℤ)
    (lastDebitId : Option String) (now : Time) : Tx Unit := do
  let _ ← lockProjection env subject period now
  let _ ← updateWhere (.quotaProjection subject period) (fun _ => true)
    fun p : QuotaProjectionRow => p.add env debitDelta creditDelta lastDebitId now
  return ()

/-- The last steps of an append: the entry, and the projection where the entry is new. -/
def appendEntry (env : Env) (u : EntryIndex) (id : String) (row : QuotaDebitRow)
    (debitDelta creditDelta : ℤ) (isLastDebit : Bool) (now : Time) : Tx String := do
  let (entryId, inserted) ← insertEntry u id row
  if inserted then
    updateProjectionLocked env row.quotaSubjectUserId row.quotaPeriod debitDelta creditDelta
      (if isLastDebit then some entryId else none) now
  return entryId

/-! ### Debits -/

/-- The arguments of `append_debit`; `now` and `token` are what the clock and the token
generator return. -/
structure DebitArgs where
  quotaOperationId : String
  publicationId : String
  quotaSubjectUserId : String
  pages : ℤ
  ownership : OwnershipSnapshot
  calendarLock : CalendarLock
  role : String
  effectiveAtUtc : Time
  quotaExemptReason : Option String := none
  replayGeneration : ℤ := 0
  now : Time
  token : String

/-- The input checks of `append_debit`: the arguments, normalised. -/
def validateDebit (a : DebitArgs) : Except Err DebitArgs := do
  let replayGeneration ← requireReplayGeneration a.replayGeneration
  let quotaExemptReason ← requireExemptReason a.quotaExemptReason
  let quotaOperationId ← requireText a.quotaOperationId "quota_operation_id" 128
  let publicationId ← requireText a.publicationId "publication_id" 128
  let quotaSubjectUserId ← requireText a.quotaSubjectUserId "quota_subject_user_id" 64
  let role ← requireRole a.role
  let pages ← requirePositivePages a.pages
  validateQuotaOwnership a.ownership
  requireSubject a.ownership quotaSubjectUserId "debit subject"
    [("quota_subject_user_id", .str quotaSubjectUserId)]
  return { a with
    quotaOperationId, publicationId, quotaSubjectUserId, pages, role, quotaExemptReason,
    replayGeneration }

theorem validateDebit_pages {a a' : DebitArgs} (h : validateDebit a = .ok a') : 0 < a'.pages := by
  unfold validateDebit at h
  obtain ⟨_, _, h⟩ := exists_of_bind_ok h
  obtain ⟨_, _, h⟩ := exists_of_bind_ok h
  obtain ⟨_, _, h⟩ := exists_of_bind_ok h
  obtain ⟨_, _, h⟩ := exists_of_bind_ok h
  obtain ⟨_, _, h⟩ := exists_of_bind_ok h
  obtain ⟨_, _, h⟩ := exists_of_bind_ok h
  obtain ⟨pages, hpages, h⟩ := exists_of_bind_ok h
  obtain ⟨_, _, h⟩ := exists_of_bind_ok h
  obtain ⟨_, _, h⟩ := exists_of_bind_ok h
  cases h
  exact (requirePositivePages_ok hpages).2

/-- The entry of a debit. -/
def debitRow (env : Env) (a : DebitArgs) : QuotaDebitRow :=
  let effective := EffectiveFacts.under env a.calendarLock a.effectiveAtUtc
  let payload := Val.dict
    [("operation", .str a.quotaOperationId),
     ("publication_id", .str a.publicationId),
     ("pages", .int a.pages),
     ("ownership", ownershipVal a.ownership),
     ("subject", .str a.quotaSubjectUserId),
     ("effective_at_utc", .datetime a.effectiveAtUtc),
     ("effective_period", .str effective.period),
     ("effective_calendar_version_id", .str a.calendarLock.versionId)]
  { baseEntry env .debit a.pages a.quotaSubjectUserId effective.period a.ownership a.calendarLock
      effective a.now payload with
    quotaOperationId := some a.quotaOperationId
    publicationId := some a.publicationId
    quotaExemptReason := a.quotaExemptReason }

/-- `append_debit`: the id of the debit, or none where the publication is exempt. -/
def appendDebit (env : Env) (a : DebitArgs) : Tx (Option String) := do
  let a ← check (validateDebit a)
  if a.quotaExemptReason.isSome ∨ unlimitedRole a.role = true ∨ 0 < a.replayGeneration then
    return none
  else do
    let row := debitRow env a
    let u := EntryIndex.operation a.quotaOperationId
    match ← existingEntry u row.entryFingerprint with
    | some existingId => return some existingId
    | none => do
      let _ ← lockProjection env row.quotaSubjectUserId row.quotaPeriod a.now
      -- another writer of the operation may have committed while this one waited
      match ← existingEntry u row.entryFingerprint with
      | some existingId => return some existingId
      | none => do
        let debitId ← appendEntry env u ("qd_" ++ a.token) row a.pages 0 true a.now
        return some debitId

/-! ### Reversals and supplements -/

/-- `_require_referenced_debit` -/
def requireReferencedDebit (id : String) (lock : Bool) : Tx QuotaDebitRow := do
  let ref ← if lock then lockRow (Key.quotaDebit id) else readRow (Key.quotaDebit id)
  let notFound := Err.platform {
    code := "quota_debit_not_found", message := "Referenced debit was not found", statusCode := 404 }
  let ref ← orRaise (ref : Option QuotaDebitRow) notFound
  raiseIf (ref.entryKind ≠ .debit) notFound
  return ref

/-- The arguments of `append_reversal` and `append_supplement`. -/
structure AdjustmentArgs where
  referencedDebitId : String
  pages : ℤ
  adjustmentSourceNamespace : String
  adjustmentSourceId : String
  ownership : OwnershipSnapshot
  calendarLock : CalendarLock
  now : Time
  token : String

/-- Their input checks: the arguments, normalised. -/
def validateAdjustment (a : AdjustmentArgs) : Except Err AdjustmentArgs := do
  let referencedDebitId ← requireText a.referencedDebitId "referenced_debit_id" 64
  let pages ← requirePositivePages a.pages
  let adjustmentSourceNamespace ←
    requireText a.adjustmentSourceNamespace "adjustment_source_namespace" 64
  let adjustmentSourceId ← requireText a.adjustmentSourceId "adjustment_source_id" 128
  validateQuotaOwnership a.ownership
  return { a with referencedDebitId, pages, adjustmentSourceNamespace, adjustmentSourceId }

theorem validateAdjustment_pages {a a' : AdjustmentArgs} (h : validateAdjustment a = .ok a') :
    0 < a'.pages := by
  unfold validateAdjustment at h
  obtain ⟨_, _, h⟩ := exists_of_bind_ok h
  obtain ⟨pages, hpages, h⟩ := exists_of_bind_ok h
  obtain ⟨_, _, h⟩ := exists_of_bind_ok h
  obtain ⟨_, _, h⟩ := exists_of_bind_ok h
  obtain ⟨_, _, h⟩ := exists_of_bind_ok h
  cases h
  exact (requirePositivePages_ok hpages).2

/-- The payload of their fingerprint. -/
def adjustmentPayload (a : AdjustmentArgs) : Val :=
  .dict
    [("referenced", .str a.referencedDebitId),
     ("pages", .int a.pages),
     ("source", .list [.str a.adjustmentSourceNamespace, .str a.adjustmentSourceId]),
     ("ownership", ownershipVal a.ownership)]

/-- The entry of an adjustment of the debit `ref`. -/
def adjustmentRow (env : Env) (kind : EntryKind) (pageDelta : ℤ) (a : AdjustmentArgs)
    (ref : QuotaDebitRow) : QuotaDebitRow :=
  { baseEntry env kind pageDelta ref.quotaSubjectUserId ref.quotaPeriod a.ownership a.calendarLock
      (EffectiveFacts.inherited env a.calendarLock ref) a.now (adjustmentPayload a) with
    referencedDebitId := some a.referencedDebitId
    adjustmentSourceNamespace := some a.adjustmentSourceNamespace
    adjustmentSourceId := some a.adjustmentSourceId }

/-- The ownership of an adjustment names the subject of the debit. -/
def requireReferencedSubject (a : AdjustmentArgs) (ref : QuotaDebitRow) : Except Err Unit :=
  requireSubject a.ownership ref.quotaSubjectUserId "referenced debit subject"
    [("referenced_debit_id", .str a.referencedDebitId)]

/-- What the entry of one key adds to the sum of the reversals of a debit. -/
def reversedDelta (debitId : String) : (k : Key) → Row k → ℤ
  | .quotaDebit _, r =>
    if r.entryKind = .reversal ∧ r.referencedDebitId = some debitId then r.pageDelta else 0
  | _, _ => 0

/-- `coalesce(sum(page_delta), 0)` over the reversals of a debit. -/
def reversedTotal (v : Db) (debitId : String) : ℤ := v.total (reversedDelta debitId)

/-- `append_reversal`: under the lock of the debit, as long as the reversals do not exceed
it. -/
def appendReversal (env : Env) (a : AdjustmentArgs) : Tx String := do
  let a ← check (validateAdjustment a)
  let u := EntryIndex.adjustment .reversal a.adjustmentSourceNamespace a.adjustmentSourceId
  let fingerprint := env.ledgerFingerprint "quota_reversal" (adjustmentPayload a)
  match ← existingEntry u fingerprint with
  | some existingId => return existingId
  | none => do
    let ref ← requireReferencedDebit a.referencedDebitId true
    match ← existingEntry u fingerprint with
    | some existingId => return existingId
    | none => do
      check (requireReferencedSubject a ref)
      let total ← Prog.select fun v => reversedTotal v a.referencedDebitId
      raiseIf (ref.pageDelta < -total + a.pages)
        (ledgerConflict "Cumulative reversal exceeds the original debit"
          [("referenced_debit_id", .str a.referencedDebitId)])
      appendEntry env u ("qd_" ++ a.token) (adjustmentRow env .reversal (-a.pages) a ref)
        (-a.pages) 0 false a.now

/-- `append_supplement` -/
def appendSupplement (env : Env) (a : AdjustmentArgs) : Tx String := do
  let a ← check (validateAdjustment a)
  let u := EntryIndex.adjustment .supplement a.adjustmentSourceNamespace a.adjustmentSourceId
  match ← existingEntry u (env.ledgerFingerprint "quota_supplement" (adjustmentPayload a)) with
  | some existingId => return existingId
  | none => do
    let ref ← requireReferencedDebit a.referencedDebitId false
    check (requireReferencedSubject a ref)
    appendEntry env u ("qd_" ++ a.token) (adjustmentRow env .supplement a.pages a ref) a.pages 0
      true a.now

/-! ### Credits -/

/-- The arguments of `append_credit`. -/
structure CreditArgs where
  quotaSubjectUserId : String
  quotaPeriod : String
  pages : ℤ
  adjustmentSourceNamespace : String
  adjustmentSourceId : String
  ownership : OwnershipSnapshot
  calendarLock : CalendarLock
  now : Time
  token : String

/-- The input checks of `append_credit`: the arguments, normalised. -/
def validateCredit (env : Env) (a : CreditArgs) : Except Err CreditArgs := do
  let quotaSubjectUserId ← requireText a.quotaSubjectUserId "quota_subject_user_id" 64
  let quotaPeriod ← requirePeriod env a.quotaPeriod
  let pages ← requirePositivePages a.pages
  let adjustmentSourceNamespace ←
    requireText a.adjustmentSourceNamespace "adjustment_source_namespace" 64
  if adjustmentSourceNamespace ≠ creditNamespace then throw (.platform {
    code := "validation_error"
    message := "credit adjustment_source_namespace must be 'quota_request'"
    details := [("adjustment_source_namespace", .str adjustmentSourceNamespace)]
    statusCode := 422 })
  let adjustmentSourceId ← requireText a.adjustmentSourceId "adjustment_source_id" 128
  validateQuotaOwnership a.ownership
  requireSubject a.ownership quotaSubjectUserId "credit subject"
    [("quota_subject_user_id", .str quotaSubjectUserId)]
  return { a with
    quotaSubjectUserId, quotaPeriod, pages, adjustmentSourceNamespace, adjustmentSourceId }

/-- What a credit that is let through says. -/
theorem validateCredit_ok {env : Env} {a a' : CreditArgs} (h : validateCredit env a = .ok a') :
    a'.pages = a.pages ∧ 0 < a'.pages ∧ a'.adjustmentSourceNamespace = creditNamespace ∧
      requireText a.adjustmentSourceId "adjustment_source_id" 128 = .ok a'.adjustmentSourceId ∧
      requirePeriod env a.quotaPeriod = .ok a'.quotaPeriod ∧
      a.ownership.quotaSubjectUserId = some a'.quotaSubjectUserId ∧
      a'.calendarLock = a.calendarLock ∧ a'.now = a.now := by
  unfold validateCredit at h
  obtain ⟨_, _, h⟩ := exists_of_bind_ok h
  obtain ⟨_, hperiod, h⟩ := exists_of_bind_ok h
  obtain ⟨_, hpages, h⟩ := exists_of_bind_ok h
  obtain ⟨_, _, h⟩ := exists_of_bind_ok h
  split at h
  · cases h
  next hns =>
  obtain ⟨_, hsource, h⟩ := exists_of_bind_ok h
  obtain ⟨_, _, h⟩ := exists_of_bind_ok h
  obtain ⟨_, hsubject, h⟩ := exists_of_bind_ok h
  cases h
  obtain ⟨heq, hpos⟩ := requirePositivePages_ok hpages
  refine ⟨heq, hpos, not_not.mp hns, hsource, hperiod, ?_, rfl, rfl⟩
  unfold requireSubject at hsubject
  split at hsubject
  · cases hsubject
  · next hs => exact not_not.mp hs

/-- The entry of a credit. -/
def creditRow (env : Env) (a : CreditArgs) : QuotaDebitRow :=
  let payload := Val.dict
    [("subject", .str a.quotaSubjectUserId),
     ("period", .str a.quotaPeriod),
     ("pages", .int a.pages),
     ("source", .list [.str a.adjustmentSourceNamespace, .str a.adjustmentSourceId]),
     ("ownership", ownershipVal a.ownership)]
  { baseEntry env .credit (-a.pages) a.quotaSubjectUserId a.quotaPeriod a.ownership a.calendarLock
      (EffectiveFacts.under env a.calendarLock a.now) a.now payload with
    adjustmentSourceNamespace := some a.adjustmentSourceNamespace
    adjustmentSourceId := some a.adjustmentSourceId }

/-- `append_credit`: a new credit is for the current business month. -/
def appendCredit (env : Env) (a : CreditArgs) : Tx String := do
  let a ← check (validateCredit env a)
  let row := creditRow env a
  let u := EntryIndex.adjustment .credit a.adjustmentSourceNamespace a.adjustmentSourceId
  match ← existingEntry u row.entryFingerprint with
  | some existingId => return existingId
  | none => do
    let currentPeriod := env.periodFor a.calendarLock.timezone a.now
    raiseIf (a.quotaPeriod ≠ currentPeriod) (.platform {
      code := "validation_error"
      message := "quota_period must be the current business month"
      details := [("quota_period", .str a.quotaPeriod), ("current_period", .str currentPeriod)]
      statusCode := 422 })
    appendEntry env u ("qd_" ++ a.token) row 0 a.pages false a.now

/-! ### Rebuilding the projection -/

/-- The entries of the quota ledger. -/
def quotaDebits (v : Db) : List (String × QuotaDebitRow) :=
  table v fun
    | .quotaDebit id, r => some (id, r)
    | _, _ => none

/-- `ORDER BY created_at_utc, quota_debit_id` -/
def entryBefore (x y : String × QuotaDebitRow) : Prop :=
  x.2.createdAtUtc < y.2.createdAtUtc ∨ x.2.createdAtUtc = y.2.createdAtUtc ∧ x.1 ≤ y.1

instance : DecidableRel entryBefore := fun _ _ => inferInstanceAs (Decidable (_ ∨ _))

/-- The entries of a subject and a period, in the order they are replayed. -/
def replayedEntries (v : Db) (subject period : String) : List (String × QuotaDebitRow) :=
  ((quotaDebits v).filter fun e =>
    e.2.quotaSubjectUserId = subject ∧ e.2.quotaPeriod = period).insertionSort entryBefore

/-- What the loop of `rebuild_projection` accumulates. -/
structure Replay where
  used : ℤ := 0
  extra : ℤ := 0
  lastDebitId : Option String := none

/-- One round of the loop. -/
def Replay.next (acc : Replay) (e : String × QuotaDebitRow) : Replay :=
  match e.2.entryKind with
  | .debit | .supplement =>
    { acc with used := acc.used + e.2.pageDelta, lastDebitId := some e.1 }
  | .reversal => { acc with used := acc.used + e.2.pageDelta }
  | .credit => { acc with extra := acc.extra + e.2.pageDelta.natAbs }

/-- `rebuild_projection`: the projection row is locked before the ledger is read. -/
def rebuildProjection (env : Env) (subject period : String) (now : Time) : Tx Unit := do
  let subject ← check (requireText subject "quota_subject_user_id" 64)
  let period ← check (requirePeriod env period)
  let _ ← ensureProjection env subject period now
  let rows ← Prog.select fun v => replayedEntries v subject period
  let total := rows.foldl Replay.next {}
  let _ ← updateWhere (.quotaProjection subject period) (fun _ => true)
    fun _ : QuotaProjectionRow =>
      ⟨env.baseLimit, total.extra, max 0 total.used, total.lastDebitId, now⟩
  return ()

end RagQs.Usage
