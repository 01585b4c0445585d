import RagQs.Usage.BudgetRuns

/-!
# The limits of a budget meter

`reserve` tests the limits on what is used and reserved together, `settle` on what is used
alone, and of the two estimates it compares only the cost with the actual.  So an active
meter stays within its limit of cost; it stays within its limit of tokens as long as no
settlement takes more tokens than the outstanding reservations leave.

## Main definitions

* `Within` — every active meter is within its limits.
* `SafeStep` — the step is exact and no settlement overruns the tokens unnoticed.

## Main results

* `active_within_limits` — every active meter is within its limits, after every run of safe
  steps.
* `token_overrun_stays_active` — a settlement that overruns the tokens.
-/

namespace RagQs.Usage.Budget

open Txn hiding release

variable {after meter : MeterRow}

/-- Every active meter is within its limits, what is reserved included. -/
def Within (s : Store BudgetRow) : Prop :=
  ∀ g meter, s.get (.meter g) = some meter → meter.status = .active →
    meter.totalTokensUsed + meter.reservedTokens ≤ meter.maxTotalTokens ∧
      meter.settledCostAmount + meter.reservedCostAmount ≤ meter.maxEstimatedCostAmount

/-- No sum or difference of costs in a step on an active meter is changed by rounding it to
28 digits, and a settlement that is no overrun leaves room for what stays reserved. -/
def SafeStep (s : Store BudgetRow) : BudgetOp → Prop
  | .ensureMeter _ => True
  | .reserve a => ∀ meter cost, Admitted a s meter cost →
    costAvailable meter = amountValue meter.maxEstimatedCostAmount
        - amountValue meter.settledCostAmount - amountValue meter.reservedCostAmount ∧
      Kept (amountValue meter.reservedCostAmount + cost)
  | .settle a => ∀ meter reservation cost, s.get (.meter a.generationId) = some meter →
    s.get (.reservation a.reservationId) = some reservation → reservation.status = .reserved →
    meter.status = .active → a.actualCost = .finite cost →
    ¬ overrun meter reservation a.actualTokens cost.toRat →
    Kept (amountValue meter.settledCostAmount + cost.toRat) ∧
      Kept (amountValue meter.reservedCostAmount - amountValue reservation.estimatedCostAmount) ∧
      meter.totalTokensUsed + a.actualTokens
          + (meter.reservedTokens - reservation.estimatedTokens) ≤ meter.maxTotalTokens
  | .release g rid => ∀ meter reservation, s.get (.meter g) = some meter →
    s.get (.reservation rid) = some reservation → reservation.status = .reserved →
    meter.status = .active →
    Kept (amountValue meter.reservedCostAmount - amountValue reservation.estimatedCostAmount)
  | .markUnknown _ _ => True
  | .upgrade a => ∀ meter nextCost, s.get (.meter a.generationId) = some meter →
    meter.status = .active → a.nextStepCost = .finite nextCost →
    costWithStep meter nextCost.toRat = amountValue meter.settledCostAmount
      + amountValue meter.reservedCostAmount + nextCost.toRat

/-- What every safe step keeps. -/
structure LimitInv (s : Store BudgetRow) : Prop where
  within : Within s
  tokens : ∀ rid r, s.get (.reservation rid) = some r → 0 ≤ r.estimatedTokens
  cost : ∀ rid r, s.get (.reservation rid) = some r → 0 ≤ r.estimatedCostAmount

variable {s s' : Store BudgetRow} {service : BudgetMeterService}

theorem LimitInv.empty : LimitInv ∅ where
  within g meter h := by simp at h
  tokens rid r h := by simp at h
  cost rid r h := by simp at h

theorem LimitInv.step (h : LimitInv s) {gen : String}
    (hmeter : ∀ g, s'.get (.meter g) = if g = gen then some after else s.get (.meter g))
    (hrow : ∀ rid' r, s'.get (.reservation rid') = some r →
      s.get (.reservation rid') = some r ∨ 0 ≤ r.estimatedTokens ∧ 0 ≤ r.estimatedCostAmount)
    (hwithin : after.status = .active →
      after.totalTokensUsed + after.reservedTokens ≤ after.maxTotalTokens ∧
        after.settledCostAmount + after.reservedCostAmount ≤ after.maxEstimatedCostAmount) :
    LimitInv s' := by
  refine ⟨?_, ?_, ?_⟩
  · intro g meter hget hactive
    rw [hmeter] at hget
    split at hget
    · cases hget
      exact hwithin hactive
    · exact h.within g meter hget hactive
  · intro rid' r hget
    rcases hrow rid' r hget with hold | ⟨htokens, _⟩
    · exact h.tokens rid' r hold
    · exact htokens
  · intro rid' r hget
    rcases hrow rid' r hget with hold | ⟨_, hcost⟩
    · exact h.cost rid' r hold
    · exact hcost

theorem Closed.row_or {g rid : String} {reservation closed : ReservationRow}
    (hclosed : Closed g rid s s' meter after reservation closed) (h : LimitInv s)
    (htokens : closed.estimatedTokens = reservation.estimatedTokens)
    (hcost : closed.estimatedCostAmount = reservation.estimatedCostAmount) :
    ∀ rid' r, s'.get (.reservation rid') = some r →
      s.get (.reservation rid') = some r ∨ 0 ≤ r.estimatedTokens ∧ 0 ≤ r.estimatedCostAmount := by
  intro rid' r hget
  rw [hclosed.store, Store.get_set_of_ne (by simp)] at hget
  by_cases hrid : rid' = rid
  · subst hrid
    rw [Store.get_set_self] at hget
    cases hget
    right
    rw [htokens, hcost]
    exact ⟨h.tokens rid' _ hclosed.row, h.cost rid' _ hclosed.row⟩
  · rw [Store.get_set_of_ne (by simpa using hrid)] at hget
    exact .inl hget

theorem Closed.meters {g rid : String} {reservation closed : ReservationRow}
    (hclosed : Closed g rid s s' meter after reservation closed) (g' : String) :
    s'.get (.meter g') = if g' = g then some after else s.get (.meter g') := by
  rw [hclosed.store]
  apply get_meter_set
  intro g''
  rw [Store.get_set_of_ne (by simp)]

theorem LimitInv.reserved {a : ReserveArgs} {cost : ℚ} (h : LimitInv s)
    (hchange : Reserved a s s' meter cost)
    (hroom : costAvailable meter = amountValue meter.maxEstimatedCostAmount
        - amountValue meter.settledCostAmount - amountValue meter.reservedCostAmount)
    (hkept : Kept (amountValue meter.reservedCostAmount + cost)) : LimitInv s' := by
  obtain ⟨_, _, htokens, _, hnonneg, _, _, _, htokenRoom, hcostRoom⟩ := hchange.admitted
  have hmeter : ∀ g, s'.get (.meter g) = if g = a.generationId then
      some (meter.addReservation a.isRag a.estimatedTokens
        (columnUnits (contextRound (amountValue meter.reservedCostAmount + cost))) meter)
      else s.get (.meter g) := by
    rw [hchange.store]
    apply get_meter_set
    intro g
    rw [Store.get_set_of_ne (by simp), Store.get_set_of_ne (by simp)]
  refine h.step hmeter ?_ ?_
  · intro rid r hr
    rw [hchange.store, Store.get_set_of_ne (by simp), Store.get_set_of_ne (by simp)] at hr
    by_cases hrid : rid = a.reservationId
    · subst hrid
      rw [Store.get_set_self] at hr
      cases hr
      exact .inr ⟨htokens, columnUnits_nonneg hnonneg⟩
    · rw [Store.get_set_of_ne (by simpa using hrid)] at hr
      exact .inl hr
  · intro _
    refine ⟨?_, ?_⟩
    · show meter.totalTokensUsed + (meter.reservedTokens + a.estimatedTokens)
        ≤ meter.maxTotalTokens
      unfold tokenAvailable at htokenRoom
      omega
    · show meter.settledCostAmount
          + columnUnits (contextRound (amountValue meter.reservedCostAmount + cost))
        ≤ meter.maxEstimatedCostAmount
      have hle : columnUnits (amountValue meter.reservedCostAmount + cost)
          ≤ meter.maxEstimatedCostAmount - meter.settledCostAmount := by
        apply columnUnits_le
        rw [amountValue_sub]
        linarith
      rw [hkept]
      omega

/-- **What one safe step keeps.** -/
theorem LimitInv.change {op : BudgetOp} (h : LimitInv s) (hchange : Change service s s' op)
    (hsafe : SafeStep s op) : LimitInv s' := by
  cases hchange with
  | opened a meter hopened =>
    have hmeter : ∀ g, s'.get (.meter g)
        = if g = a.generationId then some meter else s.get (.meter g) := by
      intro g
      rw [hopened.store, Store.get_set_of_ne (by simp)]
      exact get_meter_set (fun _ => rfl) g
    refine h.step hmeter ?_ ?_
    · intro rid r hr
      rw [hopened.store, Store.get_set_of_ne (by simp),
        Store.get_set_of_ne (by simp)] at hr
      exact .inl hr
    · intro _
      rw [hopened.totalTokensUsed, hopened.reservedTokens, hopened.settledCostAmount,
        hopened.reservedCostAmount]
      exact ⟨by have := hopened.maxTotalTokens; omega, hopened.maxEstimatedCostAmount⟩
  | reserved a meter cost hreserved =>
    obtain ⟨hroom, hkept⟩ := hsafe meter cost hreserved.admitted
    exact h.reserved hreserved hroom hkept
  | settled a meter reservation cost hsettled =>
    obtain ⟨hfound, hrow, hstatus, _⟩ := hsettled.closed
    obtain ⟨d, harg, rfl⟩ := hsettled.arg
    refine h.step hsettled.closed.meters
      (hsettled.closed.row_or h rfl rfl) ?_
    intro hactive
    by_cases hover : overrun meter reservation a.actualTokens d.toRat
    · simp [MeterRow.settle, hover] at hactive
    · have hstill : meter.status = .active := by
        simpa [MeterRow.settle, hover] using hactive
      obtain ⟨hsettledCost, hreservedCost, hroom⟩ :=
        hsafe meter reservation d hfound hrow hstatus hstill harg hover
      obtain ⟨_, hlimit⟩ := h.within _ meter hfound hstill
      refine ⟨hroom, ?_⟩
      show columnUnits (settledCostWith meter d.toRat)
          + columnUnits (reservedCostWithout meter reservation) ≤ meter.maxEstimatedCostAmount
      -- The actual cost is at most the estimate it replaces.
      have hcost : d.toRat ≤ amountValue reservation.estimatedCostAmount := by
        by_contra hlt
        exact hover (.inr (.inr (not_le.mp hlt)))
      have hle : columnUnits (settledCostWith meter d.toRat)
          ≤ meter.settledCostAmount + reservation.estimatedCostAmount := by
        unfold settledCostWith
        rw [hsettledCost]
        apply columnUnits_le
        rw [amountValue_add]
        linarith
      rw [reservedCostWithout_units hreservedCost]
      omega
  | released g rid meter reservation hclosed =>
    refine h.step hclosed.meters (hclosed.row_or h rfl rfl) ?_
    intro hactive
    have hkept := hsafe meter reservation hclosed.found hclosed.row hclosed.reserved hactive
    obtain ⟨htokens, hcost⟩ := h.within _ meter hclosed.found hactive
    have htokens' := h.tokens rid reservation hclosed.row
    have hcost' := h.cost rid reservation hclosed.row
    refine ⟨?_, ?_⟩
    · show meter.totalTokensUsed + (meter.reservedTokens - reservation.estimatedTokens)
        ≤ meter.maxTotalTokens
      omega
    · show meter.settledCostAmount + columnUnits (reservedCostWithout meter reservation)
        ≤ meter.maxEstimatedCostAmount
      rw [reservedCostWithout_units hkept]
      omega
  | markedUnknown g rid meter reservation hclosed =>
    refine h.step hclosed.meters (hclosed.row_or h rfl rfl) ?_
    intro hactive
    cases hactive
  | upgraded a meter target nextCost hupgraded =>
    obtain ⟨d, harg, rfl⟩ := hupgraded.arg
    have hmeter : ∀ g, s'.get (.meter g) = if g = a.generationId then
        some (meter.upgrade target (service.effort target)
          (columnUnits (service.effort target).maxEstimatedCostAmount.toRat))
        else s.get (.meter g) := by
      rw [hupgraded.store]
      exact get_meter_set fun _ => rfl
    refine h.step hmeter ?_ ?_
    · intro rid r hr
      rw [hupgraded.store, Store.get_set_of_ne (by simp)] at hr
      exact .inl hr
    · intro hactive
      have hsum := hsafe meter d hupgraded.found hactive harg
      obtain ⟨_, htokens, hcost, _⟩ := hupgraded.room
      have hnext := hupgraded.tokens
      have hnonneg := hupgraded.nonneg
      refine ⟨?_, ?_⟩
      · show meter.totalTokensUsed + meter.reservedTokens ≤ (service.effort target).maxTotalTokens
        omega
      · show meter.settledCostAmount + meter.reservedCostAmount
          ≤ columnUnits (service.effort target).maxEstimatedCostAmount.toRat
        have hle := columnUnits_mono (x := amountValue (meter.settledCostAmount
          + meter.reservedCostAmount)) (y := (service.effort target).maxEstimatedCostAmount.toRat)
          (by rw [amountValue_add]; linarith)
        rwa [columnUnits_amountValue] at hle

theorem LimitInv.execAll (ops : List BudgetOp) :
    ∀ {s : Store BudgetRow}, LimitInv s → EachStep service SafeStep s ops →
      LimitInv (Txn.execAll (budgetBody service) s ops) := by
  induction ops with
  | nil =>
    intro s h _
    exact h
  | cons op ops ih =>
    intro s h hsafe
    apply ih _ hsafe.2
    apply execOne_induction (P := LimitInv) _ h
    intro u s' hexec
    rcases budgetBody_ok hexec with rfl | hchange
    · exact h
    · exact h.change hchange hsafe.1

/-- **No over-commitment while active.**  After every run of safe steps, an active meter is
within its limits, what is reserved included. -/
theorem active_within_limits (service : BudgetMeterService) (ops : List BudgetOp)
    (hsafe : EachStep service SafeStep ∅ ops) : Within (execAll (budgetBody service) ∅ ops) :=
  (LimitInv.execAll ops LimitInv.empty hsafe).within

/-- Two reservations of fifty tokens, the first of which takes ninety. -/
def tokenOverrun : List BudgetOp :=
  [sampleMeter, sampleReserve "r1" ⟨false, 1, 0⟩, sampleReserve "r2" ⟨false, 1, 0⟩,
   sampleSettle "r1" 90 ⟨false, 1, 0⟩]

theorem token_overrun_stays_active :
    ¬ Within (execAll (budgetBody sampleService) ∅ tokenOverrun) := by
  have hmeter : ((execAll (budgetBody sampleService) ∅ tokenOverrun).get (.meter "g")).map
      (fun m : MeterRow => (m.status, m.totalTokensUsed, m.reservedTokens, m.maxTotalTokens))
      = some (.active, 90, 50, 100) := by decide +kernel
  intro hwithin
  obtain ⟨meter, hget, hvalues⟩ := Option.map_eq_some_iff.mp hmeter
  simp only [Prod.mk.injEq] at hvalues
  obtain ⟨hstatus, hused, hreserved, hmax⟩ := hvalues
  have hle := (hwithin "g" meter hget hstatus).1
  rw [hused, hreserved, hmax] at hle
  omega

theorem active_within_limits_sample :
    Within (execAll (budgetBody sampleService) ∅ sampleCalls) := by
  apply active_within_limits
  refine ⟨trivial, ?_, ?_, trivial⟩
  · rintro meter cost ⟨hfound, _, _, ⟨d, hd, rfl⟩, _⟩
    have hcosts : ((sampleStore 1).get (.meter "g")).map (fun m : MeterRow =>
        (m.maxEstimatedCostAmount, m.settledCostAmount, m.reservedCostAmount))
        = some (100000000000, 0, 0) := by decide +kernel
    have hmeter : (sampleStore 1).get (.meter "g") = some meter := hfound
    rw [hmeter, Option.map_some, Option.some.injEq, Prod.mk.injEq, Prod.mk.injEq] at hcosts
    cases hd
    unfold costAvailable
    rw [hcosts.1, hcosts.2.1, hcosts.2.2]
    decide +kernel
  · intro meter reservation cost hfound hrow _ _ hd _
    have hcosts : ((sampleStore 2).get (.meter "g")).map (fun m : MeterRow =>
        (m.totalTokensUsed, m.reservedTokens, m.maxTotalTokens, m.settledCostAmount,
          m.reservedCostAmount)) = some (0, 50, 100, 0, 25000000000) := by decide +kernel
    have hestimate : ((sampleStore 2).get (.reservation "r1")).map
        (fun r : ReservationRow => (r.estimatedTokens, r.estimatedCostAmount))
        = some (50, 25000000000) := by decide +kernel
    have hmeter : (sampleStore 2).get (.meter "g") = some meter := hfound
    have hreservation : (sampleStore 2).get (.reservation "r1") = some reservation := hrow
    rw [hmeter, Option.map_some, Option.some.injEq] at hcosts
    rw [hreservation, Option.map_some, Option.some.injEq] at hestimate
    simp only [Prod.mk.injEq] at hcosts hestimate
    obtain ⟨hused, hreserved, hmax, hsettled, hreservedCost⟩ := hcosts
    cases hd
    rw [hused, hreserved, hmax, hsettled, hreservedCost, hestimate.1, hestimate.2]
    decide +kernel

end RagQs.Usage.Budget
