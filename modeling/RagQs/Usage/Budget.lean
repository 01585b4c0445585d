import RagQs.Platform.Decimal
import RagQs.Txn.Statement

/-!
# The resource budget of a generation

Every generation has a meter with the limits of its effort level.  A provider call first
reserves what it is estimated to take, and is then settled with what it took, released
when it was not sent, or marked unknown.  A generation may be upgraded once to the next
effort level.

## Main definitions

* `BudgetMeterPolicy.validate`, `BudgetMeterService` — the limits, and that they are valid.
* `ensureMeter`, `reserve`, `settle`, `release`, `markUnknown`, `upgrade` — the
  transactions.
* `BudgetOp`, `budgetBody` — the operations of the service.
-/

namespace RagQs.Usage.Budget

open Txn hiding release

/-! ### Policy -/

/-- `_EFFORTS` -/
inductive Effort
  | quick
  | think
  | deep
  deriving DecidableEq

/-- The effort level of a name. -/
def Effort.parse : String → Option Effort
  | "quick" => some .quick
  | "think" => some .think
  | "deep" => some .deep
  | _ => none

/-- The name of an effort level. -/
def Effort.name : Effort → String
  | .quick => "quick"
  | .think => "think"
  | .deep => "deep"

/-- `_UPGRADES` -/
def Effort.upgrades : Effort → Option Effort
  | .quick => some .think
  | .think => some .deep
  | .deep => none

/-- The limits of one effort level. -/
structure BudgetEffortPolicy where
  maxRagCalls : ℤ
  maxWallSeconds : ℤ
  maxTotalTokens : ℤ
  maxEstimatedCostAmount : Decimal
  candidateDocumentLimit : ℤ

/-- The limits of all effort levels. -/
structure BudgetMeterPolicy where
  efforts : Effort → Option BudgetEffortPolicy
  priceVersionId : String
  currencyCode : String

/-- A policy that is refused, status 422. -/
def policyInvalid (message : String) : Err :=
  .platform { code := "budget_policy_invalid", message, statusCode := 422 }

/-- The check of one effort level. -/
def BudgetMeterPolicy.validateEffort (policy : BudgetMeterPolicy) (effort : Effort) :
    Except Err Unit :=
  match policy.efforts effort with
  | none => .error (policyInvalid ("Budget policy is missing effort " ++ effort.name))
  | some item =>
    if item.maxRagCalls ≤ 0 ∨ item.maxWallSeconds ≤ 0 ∨ item.maxTotalTokens ≤ 0 ∨
        item.candidateDocumentLimit ≤ 0 then
      .error (policyInvalid "Budget limits must be positive")
    else if item.maxEstimatedCostAmount.toRat ≤ 0 then
      .error (policyInvalid "Budget cost limit must be positive")
    else .ok ()

/-- `BudgetMeterPolicy.validate` -/
def BudgetMeterPolicy.validate (policy : BudgetMeterPolicy) : Except Err Unit :=
  if policy.priceVersionId = "" ∨ policy.currencyCode = "" then
    .error (policyInvalid "Budget policy requires price and currency")
  else do
    policy.validateEffort .quick
    policy.validateEffort .think
    policy.validateEffort .deep

/-- The service; it is built with a policy that is valid. -/
structure BudgetMeterService where
  policy : BudgetMeterPolicy
  valid : policy.validate = .ok ()

namespace BudgetMeterService

theorem validateEffort (service : BudgetMeterService) (effort : Effort) :
    service.policy.validateEffort effort = .ok () := by
  have hvalid := service.valid
  unfold BudgetMeterPolicy.validate at hvalid
  split at hvalid
  · cases hvalid
  · obtain ⟨_, hquick, hvalid⟩ := exists_of_bind_ok hvalid
    obtain ⟨_, hthink, hdeep⟩ := exists_of_bind_ok hvalid
    cases effort with
    | quick => exact hquick
    | think => exact hthink
    | deep => exact hdeep

theorem isSome_effort (service : BudgetMeterService) (effort : Effort) :
    (service.policy.efforts effort).isSome := by
  have hvalid := service.validateEffort effort
  unfold BudgetMeterPolicy.validateEffort at hvalid
  cases h : service.policy.efforts effort with
  | none =>
    rw [h] at hvalid
    cases hvalid
  | some item => rfl

/-- The limits of an effort level. -/
def effort (service : BudgetMeterService) (effort : Effort) : BudgetEffortPolicy :=
  (service.policy.efforts effort).get (service.isSome_effort effort)

theorem effort_pos (service : BudgetMeterService) (effort : Effort) :
    0 < (service.effort effort).maxTotalTokens ∧
      0 < (service.effort effort).maxEstimatedCostAmount.toRat := by
  have hvalid := service.validateEffort effort
  have hget : service.policy.efforts effort = some (service.effort effort) :=
    (Option.some_get _).symm
  unfold BudgetMeterPolicy.validateEffort at hvalid
  rw [hget] at hvalid
  simp only at hvalid
  split at hvalid
  · cases hvalid
  · split at hvalid
    · cases hvalid
    · next hlimits hcost =>
      push Not at hlimits hcost
      exact ⟨hlimits.2.2.1, hcost⟩

end BudgetMeterService

/-! ### Rows -/

/-- The status of a meter. -/
inductive MeterStatus
  | active
  | exhausted
  deriving DecidableEq

/-- A row of `generation_budget_meter`. -/
structure MeterRow where
  generationBudgetMeterId : String
  generationId : String
  effortLevel : Effort
  deadlineAtUtc : Time
  maxRagCalls : ℤ
  maxTotalTokens : ℤ
  maxEstimatedCostAmount : ℤ
  candidateDocumentLimit : ℤ
  ragCallsUsed : ℤ
  totalTokensUsed : ℤ
  reservedTokens : ℤ
  settledCostAmount : ℤ
  reservedCostAmount : ℤ
  upgradeCount : ℤ
  status : MeterStatus
  exhaustedReason : Option String

/-- The status of a reservation. -/
inductive ReservationStatus
  | reserved
  | settled
  | released
  deriving DecidableEq

/-- A row of `generation_budget_reservation`. -/
structure ReservationRow where
  reservationId : String
  generationId : String
  operationKind : String
  requestFingerprint : String
  estimatedTokens : ℤ
  estimatedCostAmount : ℤ
  isRag : Bool
  status : ReservationStatus
  actualTokens : Option ℤ
  actualCostAmount : Option ℤ

/-- The keys of the two tables and of their unique indexes. -/
inductive BudgetKey
  | meter (generationId : String)
  | meterId (generationBudgetMeterId : String)
  | reservation (reservationId : String)
  | replay (generationId requestFingerprint : String)
  deriving DecidableEq

/-- The rows; the index `uq_budget_reservation_replay` has the reservation. -/
abbrev BudgetRow : BudgetKey → Type
  | .meter _ => MeterRow
  | .meterId _ => Unit
  | .reservation _ => ReservationRow
  | .replay _ _ => String

/-- A transaction of the service. -/
abbrev BudgetTx := Prog BudgetRow Err

/-! ### What the transactions return -/

/-- A meter as its callers see it. -/
structure BudgetMeterSnapshot where
  generationId : String
  effortLevel : Effort
  status : MeterStatus
  deadlineAtUtc : Time
  maxRagCalls : ℤ
  maxTotalTokens : ℤ
  maxEstimatedCostAmount : ℚ
  candidateDocumentLimit : ℤ
  ragCallsUsed : ℤ
  totalTokensUsed : ℤ
  reservedTokens : ℤ
  settledCostAmount : ℚ
  reservedCostAmount : ℚ

/-- `_snapshot` -/
def snapshot (row : MeterRow) : BudgetMeterSnapshot where
  generationId := row.generationId
  effortLevel := row.effortLevel
  status := row.status
  deadlineAtUtc := row.deadlineAtUtc
  maxRagCalls := row.maxRagCalls
  maxTotalTokens := row.maxTotalTokens
  maxEstimatedCostAmount := amountValue row.maxEstimatedCostAmount
  candidateDocumentLimit := row.candidateDocumentLimit
  ragCallsUsed := row.ragCallsUsed
  totalTokensUsed := row.totalTokensUsed
  reservedTokens := row.reservedTokens
  settledCostAmount := amountValue row.settledCostAmount
  reservedCostAmount := amountValue row.reservedCostAmount

/-- A reservation as its callers see it. -/
structure BudgetReservation where
  reservationId : String
  generationId : String
  operationKind : String
  estimatedTokens : ℤ
  estimatedCostAmount : ℚ
  isRag : Bool
  status : ReservationStatus

/-- `_reservation` -/
def budgetReservation (row : ReservationRow) : BudgetReservation where
  reservationId := row.reservationId
  generationId := row.generationId
  operationKind := row.operationKind
  estimatedTokens := row.estimatedTokens
  estimatedCostAmount := amountValue row.estimatedCostAmount
  isRag := row.isRag
  status := row.status

/-! ### Validation and errors -/

/-- `_positive_int` -/
def positiveInt (value : ℤ) (name : String) : Except Err ℤ :=
  if value < 0 then .error (validationError (name ++ " must be a non-negative integer"))
  else .ok value

/-- `_money` -/
def nonNegativeMoney (value : DecimalArg) (name : String) : Except Err ℚ :=
  match value with
  | .special => .error (validationError (name ++ " must be a non-negative Decimal"))
  | .finite d =>
    if d.toRat < 0 then .error (validationError (name ++ " must be a non-negative Decimal"))
    else .ok d.toRat

theorem positiveInt_ok {value n : ℤ} {name : String} (h : positiveInt value name = .ok n) :
    n = value ∧ 0 ≤ n := by
  unfold positiveInt at h
  split at h
  · cases h
  · cases h
    exact ⟨rfl, by omega⟩

theorem nonNegativeMoney_ok {value : DecimalArg} {x : ℚ} {name : String}
    (h : nonNegativeMoney value name = .ok x) :
    (∃ d, value = .finite d ∧ x = d.toRat) ∧ 0 ≤ x := by
  cases value with
  | special => cases h
  | finite d =>
    simp only [nonNegativeMoney] at h
    split at h
    · cases h
    · cases h
      exact ⟨⟨d, rfl, rfl⟩, by linarith⟩

/-- The meter is not there, status 404. -/
def meterNotFound : Err :=
  .platform { code := "budget_meter_not_found", message := "Budget meter not found",
              statusCode := 404 }

/-- The meter or the reservation is not there, status 404. -/
def reservationNotFound : Err :=
  .platform { code := "budget_reservation_not_found", message := "Reservation not found",
              statusCode := 404 }

/-- A row that was just found taken is not there, status 500. -/
def budgetInvariant (message : String) : Err :=
  .platform { code := "budget_invariant", message, statusCode := 500 }

/-- `_locked_meter` -/
def lockedMeter (generationId : String) : BudgetTx (Option MeterRow) :=
  lockRow (BudgetKey.meter generationId)

/-- `_reservation_row` -/
def reservationRow (reservationId : String) : BudgetTx (Option ReservationRow) :=
  readRow (BudgetKey.reservation reservationId)

/-- `_mark_exhausted` -/
def markExhausted (meter : MeterRow) (reason : String) : BudgetTx ℕ :=
  updateWhere (.meter meter.generationId)
    (fun row => row.generationBudgetMeterId == meter.generationBudgetMeterId)
    fun row => { row with status := .exhausted, exhaustedReason := some reason }

/-- `_reject`: the reason is the one the meter had when it was read. -/
def reject (meter : MeterRow) (code : String) : Err :=
  .platform {
    code
    message := "The generation resource budget does not allow another provider call"
    details := [("reason", .optStr meter.exhaustedReason)]
    statusCode := 429 }

/-- A gate of `reserve`: the meter is marked and the call refused, which rolls the mark
back. -/
def refuseIf (bad : Prop) [Decidable bad] (meter : MeterRow) (reason : String) :
    BudgetTx Unit :=
  if bad then do
    let _ ← markExhausted meter reason
    throw (reject meter "budget_exhausted")
  else return ()

/-! ### The transactions -/

/-- The arguments of `ensure_meter`, with what the clock reads and the token drawn for the
identifier of the meter. -/
structure EnsureMeterArgs where
  generationId : String
  effortLevel : String
  deadlineAtUtc : Time
  now : Time
  token : String

/-- `ensure_meter_in_transaction` -/
def ensureMeter (service : BudgetMeterService) (a : EnsureMeterArgs) :
    BudgetTx BudgetMeterSnapshot := do
  let effortLevel ← orRaise (Effort.parse a.effortLevel)
    (validationError "effort_level is invalid")
  let effort := service.effort effortLevel
  let row ← lockedMeter a.generationId
  match row with
  | some row => return snapshot row
  | none =>
    let wallDeadline := a.now + effort.maxWallSeconds * 1000000
    let maxEstimatedCostAmount ← check (amountColumn effort.maxEstimatedCostAmount.toRat)
    let values : MeterRow := {
      generationBudgetMeterId := "gbm_" ++ a.token
      generationId := a.generationId
      effortLevel
      deadlineAtUtc := if a.deadlineAtUtc ≤ wallDeadline then a.deadlineAtUtc else wallDeadline
      maxRagCalls := effort.maxRagCalls
      maxTotalTokens := effort.maxTotalTokens
      maxEstimatedCostAmount
      candidateDocumentLimit := effort.candidateDocumentLimit
      ragCallsUsed := 0
      totalTokensUsed := 0
      reservedTokens := 0
      settledCostAmount := 0
      reservedCostAmount := 0
      upgradeCount := 0
      status := .active
      exhaustedReason := none }
    let inserted ← insertOrSkip .integrity (.meter a.generationId)
      [.meterId values.generationBudgetMeterId]
      [⟨.meter a.generationId, some values⟩, ⟨.meterId values.generationBudgetMeterId, some ()⟩]
    if inserted then
      return { snapshot values with
        maxEstimatedCostAmount := effort.maxEstimatedCostAmount.toRat }
    else
      let row ← lockedMeter a.generationId
      let row ← orRaise row
        (budgetInvariant "Budget meter disappeared after concurrent creation")
      return snapshot row

/-- The arguments of `reserve`, with what the clock reads. -/
structure ReserveArgs where
  generationId : String
  reservationId : String
  operationKind : String
  estimatedTokens : ℤ
  estimatedCost : Option DecimalArg
  isRag : Bool
  requestFingerprint : String
  now : Time

/-- The reservation is the one the request would make. -/
def sameReservation (a : ReserveArgs) (tokens : ℤ) (cost : ℚ) (candidate : ReservationRow) :
    Bool :=
  candidate.reservationId = a.reservationId ∧
    candidate.requestFingerprint = a.requestFingerprint ∧
    candidate.operationKind = a.operationKind ∧ candidate.estimatedTokens = tokens ∧
    amountValue candidate.estimatedCostAmount = cost ∧ candidate.isRag = a.isRag

/-- What is left for another reservation: the tokens. -/
def tokenAvailable (meter : MeterRow) : ℤ :=
  meter.maxTotalTokens - meter.totalTokensUsed - meter.reservedTokens

/-- What is left for another reservation: the cost. -/
def costAvailable (meter : MeterRow) : ℚ :=
  contextRound (contextRound (amountValue meter.maxEstimatedCostAmount
    - amountValue meter.settledCostAmount) - amountValue meter.reservedCostAmount)

/-- The row of a new reservation. -/
def reservationValues (a : ReserveArgs) (tokens : ℤ) (cost : ℤ) : ReservationRow where
  reservationId := a.reservationId
  generationId := a.generationId
  operationKind := a.operationKind
  requestFingerprint := a.requestFingerprint
  estimatedTokens := tokens
  estimatedCostAmount := cost
  isRag := a.isRag
  status := .reserved
  actualTokens := none
  actualCostAmount := none

/-- The row of the meter once a reservation has been added to what was read of it. -/
def MeterRow.addReservation (meter : MeterRow) (isRag : Bool) (tokens reservedCost : ℤ)
    (row : MeterRow) : MeterRow :=
  { row with
    ragCallsUsed := meter.ragCallsUsed + isRag.toNat
    reservedTokens := meter.reservedTokens + tokens
    reservedCostAmount := reservedCost }

/-- The part of `reserve` that makes a new reservation. -/
def reserveNew (a : ReserveArgs) (tokens : ℤ) (cost : ℚ) (meter : MeterRow) :
    BudgetTx BudgetReservation := do
  raiseIf (meter.status ≠ .active) (reject meter "budget_exhausted")
  refuseIf (meter.deadlineAtUtc ≤ a.now) meter "wall_clock"
  refuseIf (a.isRag = true ∧ meter.maxRagCalls ≤ meter.ragCallsUsed) meter "rag_calls"
  refuseIf (tokenAvailable meter < tokens) meter "total_tokens"
  refuseIf (costAvailable meter < cost) meter "cost"
  let estimatedCostAmount ← check (amountColumn cost)
  let values := reservationValues a tokens estimatedCostAmount
  let inserted ← insertOrSkip .integrity (.reservation a.reservationId)
    [.replay a.generationId a.requestFingerprint]
    [⟨.reservation a.reservationId, some values⟩,
     ⟨.replay a.generationId a.requestFingerprint, some a.reservationId⟩]
  if inserted then
    let reservedCost ← check (amountColumn
      (contextRound (amountValue meter.reservedCostAmount + cost)))
    let _ ← updateWhere (.meter a.generationId) (fun _ => true)
      (meter.addReservation a.isRag tokens reservedCost)
    return { budgetReservation values with estimatedCostAmount := cost }
  else
    let replay ← reservationRow a.reservationId
    let replay ← orRaise replay
      (budgetInvariant "Budget reservation disappeared after concurrent insert")
    return budgetReservation replay

/-- `reserve` -/
def reserve (a : ReserveArgs) : BudgetTx BudgetReservation := do
  raiseIf (a.reservationId = "" ∨ a.operationKind = "" ∨ a.requestFingerprint = "")
    (validationError "reservation identity is required")
  let tokens ← check (positiveInt a.estimatedTokens "estimated_tokens")
  let estimatedCost ← orRaise a.estimatedCost (.platform {
    code := "cost_unavailable", message := "Provider call cost cannot be estimated",
    statusCode := 422 })
  let cost ← check (nonNegativeMoney estimatedCost "estimated_cost")
  let meter ← lockedMeter a.generationId
  let meter ← orRaise meter meterNotFound
  let existing ← Prog.select fun v : Store BudgetRow =>
    (v.get (.replay a.generationId a.requestFingerprint)).bind fun rid => v.get (.reservation rid)
  let replay ← reservationRow a.reservationId
  match replay <|> existing with
  | some candidate =>
    raiseIf (sameReservation a tokens cost candidate = false) (.platform {
      code := "budget_reservation_conflict"
      message := "Reservation identity already exists with different input"
      statusCode := 409 })
    return budgetReservation candidate
  | none => reserveNew a tokens cost meter

/-- The meter, locked, and the reservation; both have to be there. -/
def lockedPair (generationId reservationId : String) :
    BudgetTx (MeterRow × ReservationRow) := do
  let meter ← lockedMeter generationId
  let reservation ← reservationRow reservationId
  orRaise (meter.bind fun m => reservation.map fun r => (m, r)) reservationNotFound

/-- The cost that stays reserved once a reservation has been taken out. -/
def reservedCostWithout (meter : MeterRow) (reservation : ReservationRow) : ℚ :=
  contextRound (amountValue meter.reservedCostAmount
    - amountValue reservation.estimatedCostAmount)

/-- `mark_unknown` -/
def markUnknown (generationId reservationId : String) : BudgetTx Unit := do
  let (meter, reservation) ← lockedPair generationId reservationId
  if reservation.status = .reserved then
    let _ ← updateWhere (.reservation reservationId) (fun _ => true)
      fun row => { row with status := .released }
    let reservedCost ← check (amountColumn (reservedCostWithout meter reservation))
    let _ ← updateWhere (.meter generationId) (fun _ => true) fun row =>
      { row with
        reservedTokens := meter.reservedTokens - reservation.estimatedTokens
        reservedCostAmount := reservedCost
        status := .exhausted
        exhaustedReason := some "provider_result_unknown" }
    return ()
  else return ()

/-- The arguments of `settle`. -/
structure SettleArgs where
  generationId : String
  reservationId : String
  actualTokens : ℤ
  actualCost : DecimalArg

/-- The cost that is settled once another call has been. -/
def settledCostWith (meter : MeterRow) (cost : ℚ) : ℚ :=
  contextRound (amountValue meter.settledCostAmount + cost)

/-- The actuals exhaust the meter. -/
def overrun (meter : MeterRow) (reservation : ReservationRow) (tokens : ℤ) (cost : ℚ) : Prop :=
  meter.maxTotalTokens < meter.totalTokensUsed + tokens ∨
    amountValue meter.maxEstimatedCostAmount < settledCostWith meter cost ∨
    amountValue reservation.estimatedCostAmount < cost

instance (meter : MeterRow) (reservation : ReservationRow) (tokens : ℤ) (cost : ℚ) :
    Decidable (overrun meter reservation tokens cost) :=
  inferInstanceAs (Decidable (_ ∨ _ ∨ _))

/-- The row of the meter once a reservation has been settled. -/
def MeterRow.settle (meter : MeterRow) (reservation : ReservationRow) (tokens : ℤ)
    (settledCost reservedCost : ℤ) (exhausted : Bool) (row : MeterRow) : MeterRow :=
  { row with
    totalTokensUsed := meter.totalTokensUsed + tokens
    settledCostAmount := settledCost
    reservedTokens := meter.reservedTokens - reservation.estimatedTokens
    reservedCostAmount := reservedCost
    status := if exhausted then .exhausted else meter.status
    exhaustedReason :=
      if exhausted then some "actual_over_reservation" else meter.exhaustedReason }

/-- `settle` -/
def settle (a : SettleArgs) : BudgetTx BudgetMeterSnapshot := do
  let tokens ← check (positiveInt a.actualTokens "actual_tokens")
  let cost ← check (nonNegativeMoney a.actualCost "actual_cost")
  let (meter, reservation) ← lockedPair a.generationId a.reservationId
  if reservation.status = .settled then return snapshot meter
  else
    raiseIf (reservation.status ≠ .reserved) (.platform {
      code := "budget_reservation_terminal", message := "Reservation is already terminal",
      statusCode := 409 })
    let actualCostAmount ← check (amountColumn cost)
    let _ ← updateWhere (.reservation a.reservationId) (fun _ => true) fun row =>
      { row with
        status := .settled
        actualTokens := some tokens
        actualCostAmount := some actualCostAmount }
    let settledCost ← check (amountColumn (settledCostWith meter cost))
    let reservedCost ← check (amountColumn (reservedCostWithout meter reservation))
    let _ ← updateWhere (.meter a.generationId) (fun _ => true)
      (meter.settle reservation tokens settledCost reservedCost
        (decide (overrun meter reservation tokens cost)))
    let updated ← lockedMeter a.generationId
    let updated ← orRaise updated (.internal "AssertionError")
    return snapshot updated

/-- `release` -/
def release (generationId reservationId : String) : BudgetTx Unit := do
  let (meter, reservation) ← lockedPair generationId reservationId
  if reservation.status = .reserved then
    let _ ← updateWhere (.reservation reservationId) (fun _ => true)
      fun row => { row with status := .released }
    let reservedCost ← check (amountColumn (reservedCostWithout meter reservation))
    let _ ← updateWhere (.meter generationId) (fun _ => true) fun row =>
      { row with
        ragCallsUsed := meter.ragCallsUsed - reservation.isRag.toNat
        reservedTokens := meter.reservedTokens - reservation.estimatedTokens
        reservedCostAmount := reservedCost }
    return ()
  else return ()

/-- The arguments of `upgrade`, with what the clock reads. -/
structure UpgradeArgs where
  generationId : String
  nextStepTokens : ℤ := 1
  nextStepCost : DecimalArg := .finite ⟨false, 1, -10⟩
  nextStepIsRag : Bool := true
  now : Time

/-- The cost of a meter with one more step. -/
def costWithStep (meter : MeterRow) (nextCost : ℚ) : ℚ :=
  contextRound (contextRound (amountValue meter.settledCostAmount
    + amountValue meter.reservedCostAmount) + nextCost)

/-- The limits of the target effort leave room for the next step. -/
def hasBudget (meter : MeterRow) (effort : BudgetEffortPolicy) (a : UpgradeArgs)
    (nextTokens : ℤ) (nextCost : ℚ) : Prop :=
  (a.nextStepIsRag = true → meter.ragCallsUsed < effort.maxRagCalls) ∧
    meter.totalTokensUsed + meter.reservedTokens + nextTokens ≤ effort.maxTotalTokens ∧
    costWithStep meter nextCost ≤ effort.maxEstimatedCostAmount.toRat ∧
    a.now < meter.deadlineAtUtc

instance (meter : MeterRow) (effort : BudgetEffortPolicy) (a : UpgradeArgs) (nextTokens : ℤ)
    (nextCost : ℚ) : Decidable (hasBudget meter effort a nextTokens nextCost) :=
  inferInstanceAs (Decidable ((_ → _) ∧ _ ∧ _ ∧ _))

/-- The row of the meter at another effort level. -/
def MeterRow.upgrade (target : Effort) (effort : BudgetEffortPolicy)
    (maxEstimatedCostAmount : ℤ) (row : MeterRow) : MeterRow :=
  { row with
    effortLevel := target
    maxRagCalls := effort.maxRagCalls
    maxTotalTokens := effort.maxTotalTokens
    maxEstimatedCostAmount
    candidateDocumentLimit := effort.candidateDocumentLimit
    upgradeCount := 1 }

/-- `upgrade` -/
def upgrade (service : BudgetMeterService) (a : UpgradeArgs) : BudgetTx (Option Effort) := do
  let meter ← lockedMeter a.generationId
  let meter ← orRaise meter meterNotFound
  if 1 ≤ meter.upgradeCount ∨ meter.status ≠ .active then return none
  else
    match meter.effortLevel.upgrades with
    | none => return none
    | some target =>
      let effort := service.effort target
      let nextTokens ← check (positiveInt a.nextStepTokens "next_step_tokens")
      let nextCost ← check (nonNegativeMoney a.nextStepCost "next_step_cost")
      if hasBudget meter effort a nextTokens nextCost then
        let maxEstimatedCostAmount ← check (amountColumn effort.maxEstimatedCostAmount.toRat)
        let _ ← updateWhere (.meter a.generationId) (fun _ => true)
          (MeterRow.upgrade target effort maxEstimatedCostAmount)
        return some target
      else return none

/-! ### The operations -/

/-- An operation of the service, in a transaction of its own. -/
inductive BudgetOp
  | ensureMeter (a : EnsureMeterArgs)
  | reserve (a : ReserveArgs)
  | settle (a : SettleArgs)
  | release (generationId reservationId : String)
  | markUnknown (generationId reservationId : String)
  | upgrade (a : UpgradeArgs)

/-- The program of an operation. -/
def budgetBody (service : BudgetMeterService) : BudgetOp → BudgetTx Unit
  | .ensureMeter a => do
    let _ ← ensureMeter service a
  | .reserve a => do
    let _ ← reserve a
  | .settle a => do
    let _ ← settle a
  | .release generationId reservationId => release generationId reservationId
  | .markUnknown generationId reservationId => markUnknown generationId reservationId
  | .upgrade a => do
    let _ ← upgrade service a

end RagQs.Usage.Budget
