import RagQs.Txn.StatementExec
import RagQs.Usage.Budget

/-!
# What the budget transactions do

For every transaction, what it leaves when it does not fail: the store as it was, or one
new meter, one new reservation, one reservation that leaves the status reserved, or one
meter with other limits.

## Main definitions

* `Reserved`, `Closed`, `Opened`, `Upgraded` — the four changes.
* `Change` — the change of an operation.

## Main results

* `budgetBody_ok` — an operation leaves the store as it was, or makes its change.
-/

namespace RagQs.Usage.Budget

open Txn hiding release

variable {c c' : Store BudgetRow}
variable {generationId reservationId : String} {service : BudgetMeterService}
variable {r : BudgetReservation} {u : Unit}

/-! ### Reserve -/

theorem exec_refuseIf_bind {bad : Prop} [Decidable bad] {meter : MeterRow} {reason : String}
    {α : Type} {b : α} {f : Unit → BudgetTx α}
    (h : (refuseIf bad meter reason >>= f).exec c = .ok (b, c')) :
    ¬ bad ∧ (f ()).exec c = .ok (b, c') := by
  unfold refuseIf at h
  split at h
  · rw [Prog.bind_assoc] at h
    obtain ⟨_, _, _, h⟩ := Prog.exec_bind_ok h
    cases h
  · next hbad => exact ⟨hbad, h⟩

/-- The request is for a new reservation and passes every gate. -/
structure Admitted (a : ReserveArgs) (c : Store BudgetRow) (meter : MeterRow) (cost : ℚ) :
    Prop where
  found : c.get (.meter a.generationId) = some meter
  new : c.get (.reservation a.reservationId) = none
  tokens : 0 ≤ a.estimatedTokens
  arg : ∃ d, a.estimatedCost = some (.finite d) ∧ cost = d.toRat
  nonneg : 0 ≤ cost
  active : meter.status = .active
  before : a.now < meter.deadlineAtUtc
  rag : a.isRag = true → meter.ragCallsUsed < meter.maxRagCalls
  tokenRoom : a.estimatedTokens ≤ tokenAvailable meter
  costRoom : cost ≤ costAvailable meter

/-- A new reservation was made. -/
structure Reserved (a : ReserveArgs) (c c' : Store BudgetRow) (meter : MeterRow) (cost : ℚ) :
    Prop where
  admitted : Admitted a c meter cost
  store : c' = ((c.set (.reservation a.reservationId)
      (some (reservationValues a a.estimatedTokens (columnUnits cost)))).set
    (.replay a.generationId a.requestFingerprint) (some a.reservationId)).set
    (.meter a.generationId) (some (meter.addReservation a.isRag a.estimatedTokens
      (columnUnits (contextRound (amountValue meter.reservedCostAmount + cost))) meter))

theorem taken_single (k : BudgetKey) : taken c [k] = (c.get k).isSome := by
  simp [taken]

theorem reserveNew_ok {a : ReserveArgs} {tokens : ℤ} {cost : ℚ} {meter : MeterRow}
    (hmeter : c.get (.meter a.generationId) = some meter)
    (hnew : c.get (.reservation a.reservationId) = none) (htokens : tokens = a.estimatedTokens)
    (hpos : 0 ≤ tokens) (harg : ∃ d, a.estimatedCost = some (.finite d) ∧ cost = d.toRat)
    (hcost : 0 ≤ cost) (h : (reserveNew a tokens cost meter).exec c = .ok (r, c')) :
    Reserved a c c' meter cost := by
  unfold reserveNew at h
  obtain ⟨hactive, h⟩ := exec_raiseIf_bind h
  obtain ⟨hwall, h⟩ := exec_refuseIf_bind h
  obtain ⟨hrag, h⟩ := exec_refuseIf_bind h
  obtain ⟨htok, h⟩ := exec_refuseIf_bind h
  obtain ⟨hroom, h⟩ := exec_refuseIf_bind h
  obtain ⟨estimated, hestimated, h⟩ := exec_check_bind h
  obtain rfl := amountColumn_ok hestimated
  rcases exec_insertOrSkip_bind h with ⟨htaken, _⟩ | ⟨_, _, h⟩
  · -- The reservation was looked up just before, and nothing else runs.
    rw [taken_single, hnew] at htaken
    cases htaken
  · rw [if_pos rfl] at h
    obtain ⟨reservedCost, hreserved, h⟩ := exec_check_bind h
    obtain rfl := amountColumn_ok hreserved
    have hget : (c.applyAll [⟨.reservation a.reservationId, some (reservationValues a tokens
        (columnUnits cost))⟩, ⟨.replay a.generationId a.requestFingerprint,
        some a.reservationId⟩]).get (.meter a.generationId) = some meter := by
      rw [Store.applyAll_cons, Store.applyAll_cons, Store.applyAll_nil,
        Store.get_set_of_ne (by simp), Store.get_set_of_ne (by simp)]
      exact hmeter
    have h := exec_updateWhere_bind hget rfl h
    cases h
    subst htokens
    refine ⟨⟨hmeter, hnew, hpos, harg, hcost, ?_, ?_, ?_, ?_, ?_⟩, rfl⟩
    · exact not_not.mp hactive
    · exact Int.not_le.mp hwall
    · intro hisRag
      exact Int.not_le.mp fun hle => hrag ⟨hisRag, hle⟩
    · exact Int.not_lt.mp htok
    · exact not_lt.mp hroom

theorem reserve_ok {a : ReserveArgs} (h : (reserve a).exec c = .ok (r, c')) :
    c' = c ∨ ∃ meter cost, Reserved a c c' meter cost := by
  unfold reserve at h
  obtain ⟨_, h⟩ := exec_raiseIf_bind h
  obtain ⟨tokens, htokens, h⟩ := exec_check_bind h
  obtain ⟨htokens, hpos⟩ := positiveInt_ok htokens
  obtain ⟨estimatedCost, hsome, h⟩ := exec_orRaise_bind h
  obtain ⟨cost, hmoney, h⟩ := exec_check_bind h
  obtain ⟨⟨d, hfinite, hd⟩, hcost⟩ := nonNegativeMoney_ok hmoney
  have h := exec_lockRow_bind h
  obtain ⟨meter, hmeter, h⟩ := exec_orRaise_bind h
  have h := exec_readRow_bind (exec_select_bind h)
  split at h
  · obtain ⟨_, h⟩ := exec_raiseIf_bind h
    cases h
    exact .inl rfl
  · next hnone =>
    have hnew : c.get (.reservation a.reservationId) = none := by
      cases hget : c.get (.reservation a.reservationId) with
      | none => rfl
      | some row =>
        rw [hget] at hnone
        cases hnone
    exact .inr ⟨meter, cost,
      reserveNew_ok hmeter hnew htokens hpos ⟨d, hfinite ▸ hsome, hd⟩ hcost h⟩

/-! ### Settle, release, mark_unknown -/

/-- A reservation left the status reserved: it became `closed`, and the meter `after`. -/
structure Closed (generationId reservationId : String) (c c' : Store BudgetRow)
    (meter after : MeterRow) (reservation closed : ReservationRow) : Prop where
  found : c.get (.meter generationId) = some meter
  row : c.get (.reservation reservationId) = some reservation
  reserved : reservation.status = .reserved
  store : c' = (c.set (.reservation reservationId) (some closed)).set (.meter generationId)
    (some after)

theorem exec_lockedPair_bind {α : Type} {b : α} {f : MeterRow × ReservationRow → BudgetTx α}
    (h : (lockedPair generationId reservationId >>= f).exec c = .ok (b, c')) :
    ∃ meter reservation, c.get (.meter generationId) = some meter ∧
      c.get (.reservation reservationId) = some reservation ∧
      (f (meter, reservation)).exec c = .ok (b, c') := by
  unfold lockedPair at h
  rw [Prog.bind_assoc] at h
  have h := exec_lockRow_bind h
  rw [Prog.bind_assoc] at h
  have h := exec_readRow_bind h
  obtain ⟨x, hx, h⟩ := exec_orRaise_bind h
  obtain ⟨meter, hmeter, hx⟩ := Option.bind_eq_some_iff.mp hx
  obtain ⟨reservation, hreservation, rfl⟩ := Option.map_eq_some_iff.mp hx
  exact ⟨meter, reservation, hmeter, hreservation, h⟩

/-- The meter once a reservation has been released. -/
def MeterRow.release (meter : MeterRow) (reservation : ReservationRow) : MeterRow :=
  { meter with
    ragCallsUsed := meter.ragCallsUsed - reservation.isRag.toNat
    reservedTokens := meter.reservedTokens - reservation.estimatedTokens
    reservedCostAmount := columnUnits (reservedCostWithout meter reservation) }

theorem release_ok (h : (release generationId reservationId).exec c = .ok (u, c')) :
    c' = c ∨ ∃ meter reservation, Closed generationId reservationId c c' meter
      (meter.release reservation) reservation { reservation with status := .released } := by
  unfold release at h
  obtain ⟨meter, reservation, hmeter, hreservation, h⟩ := exec_lockedPair_bind h
  simp only at h
  split at h
  · next hreserved =>
    have h := exec_updateWhere_bind hreservation rfl h
    obtain ⟨reservedCost, hcost, h⟩ := exec_check_bind h
    obtain rfl := amountColumn_ok hcost
    have h := exec_updateWhere_bind ((Store.get_set_of_ne (by simp)).trans hmeter) rfl h
    cases h
    exact .inr ⟨meter, reservation, hmeter, hreservation, hreserved, rfl⟩
  · cases h
    exact .inl rfl

/-- The meter once the result of a reservation is unknown. -/
def MeterRow.markUnknown (meter : MeterRow) (reservation : ReservationRow) : MeterRow :=
  { meter with
    reservedTokens := meter.reservedTokens - reservation.estimatedTokens
    reservedCostAmount := columnUnits (reservedCostWithout meter reservation)
    status := .exhausted
    exhaustedReason := some "provider_result_unknown" }

theorem markUnknown_ok (h : (markUnknown generationId reservationId).exec c = .ok (u, c')) :
    c' = c ∨ ∃ meter reservation, Closed generationId reservationId c c' meter
      (meter.markUnknown reservation) reservation { reservation with status := .released } := by
  unfold markUnknown at h
  obtain ⟨meter, reservation, hmeter, hreservation, h⟩ := exec_lockedPair_bind h
  simp only at h
  split at h
  · next hreserved =>
    have h := exec_updateWhere_bind hreservation rfl h
    obtain ⟨reservedCost, hcost, h⟩ := exec_check_bind h
    obtain rfl := amountColumn_ok hcost
    have h := exec_updateWhere_bind ((Store.get_set_of_ne (by simp)).trans hmeter) rfl h
    cases h
    exact .inr ⟨meter, reservation, hmeter, hreservation, hreserved, rfl⟩
  · cases h
    exact .inl rfl

/-- A reservation was settled with `tokens` and `cost`. -/
structure Settled (a : SettleArgs) (c c' : Store BudgetRow) (meter : MeterRow)
    (reservation : ReservationRow) (cost : ℚ) : Prop where
  tokens : 0 ≤ a.actualTokens
  arg : ∃ d, a.actualCost = .finite d ∧ cost = d.toRat
  nonneg : 0 ≤ cost
  closed : Closed a.generationId a.reservationId c c' meter
    (meter.settle reservation a.actualTokens (columnUnits (settledCostWith meter cost))
      (columnUnits (reservedCostWithout meter reservation))
      (decide (overrun meter reservation a.actualTokens cost)) meter)
    reservation { reservation with
      status := .settled
      actualTokens := some a.actualTokens
      actualCostAmount := some (columnUnits cost) }

theorem settle_ok {a : SettleArgs} {r : BudgetMeterSnapshot}
    (h : (settle a).exec c = .ok (r, c')) :
    c' = c ∨ ∃ meter reservation cost, Settled a c c' meter reservation cost := by
  unfold settle at h
  obtain ⟨tokens, htokens, h⟩ := exec_check_bind h
  obtain ⟨rfl, hpos⟩ := positiveInt_ok htokens
  obtain ⟨cost, hmoney, h⟩ := exec_check_bind h
  obtain ⟨harg, hnonneg⟩ := nonNegativeMoney_ok hmoney
  obtain ⟨meter, reservation, hmeter, hreservation, h⟩ := exec_lockedPair_bind h
  simp only at h
  split at h
  · cases h
    exact .inl rfl
  · obtain ⟨hreserved, h⟩ := exec_raiseIf_bind h
    obtain ⟨actualCost, hactual, h⟩ := exec_check_bind h
    obtain rfl := amountColumn_ok hactual
    have h := exec_updateWhere_bind hreservation rfl h
    obtain ⟨settledCost, hcost, h⟩ := exec_check_bind h
    obtain rfl := amountColumn_ok hcost
    obtain ⟨reservedCost, hcost, h⟩ := exec_check_bind h
    obtain rfl := amountColumn_ok hcost
    have h := exec_updateWhere_bind ((Store.get_set_of_ne (by simp)).trans hmeter) rfl h
    obtain ⟨_, _, h⟩ := exec_orRaise_bind (exec_lockRow_bind h)
    cases h
    exact .inr ⟨meter, reservation, cost, hpos, harg, hnonneg,
      hmeter, hreservation, not_not.mp hreserved, rfl⟩

/-! ### Ensure_meter, upgrade -/

/-- A meter was made. -/
structure Opened (a : EnsureMeterArgs) (c c' : Store BudgetRow) (meter : MeterRow) : Prop where
  new : c.get (.meter a.generationId) = none
  ragCallsUsed : meter.ragCallsUsed = 0
  totalTokensUsed : meter.totalTokensUsed = 0
  reservedTokens : meter.reservedTokens = 0
  settledCostAmount : meter.settledCostAmount = 0
  reservedCostAmount : meter.reservedCostAmount = 0
  maxTotalTokens : 0 < meter.maxTotalTokens
  maxEstimatedCostAmount : 0 ≤ meter.maxEstimatedCostAmount
  store : c' = (c.set (.meter a.generationId) (some meter)).set
    (.meterId meter.generationBudgetMeterId) (some ())

theorem ensureMeter_ok {a : EnsureMeterArgs} {r : BudgetMeterSnapshot}
    (h : (ensureMeter service a).exec c = .ok (r, c')) : c' = c ∨ ∃ meter, Opened a c c' meter := by
  unfold ensureMeter at h
  obtain ⟨effortLevel, _, h⟩ := exec_orRaise_bind h
  have h := exec_lockRow_bind h
  split at h
  · cases h
    exact .inl rfl
  · next hnone =>
    obtain ⟨maxCost, hcost, h⟩ := exec_check_bind h
    obtain rfl := amountColumn_ok hcost
    rcases exec_insertOrSkip_bind h with ⟨htaken, _⟩ | ⟨_, _, h⟩
    · rw [taken_single, hnone] at htaken
      cases htaken
    · cases h
      obtain ⟨htokens, hlimit⟩ := service.effort_pos effortLevel
      exact .inr ⟨_, hnone, rfl, rfl, rfl, rfl, rfl, htokens, columnUnits_nonneg hlimit.le, rfl⟩

/-- A meter got the limits of the next effort level. -/
structure Upgraded (service : BudgetMeterService) (a : UpgradeArgs) (c c' : Store BudgetRow)
    (meter : MeterRow) (target : Effort) (nextCost : ℚ) : Prop where
  found : c.get (.meter a.generationId) = some meter
  tokens : 0 ≤ a.nextStepTokens
  arg : ∃ d, a.nextStepCost = .finite d ∧ nextCost = d.toRat
  nonneg : 0 ≤ nextCost
  room : hasBudget meter (service.effort target) a a.nextStepTokens nextCost
  store : c' = c.set (.meter a.generationId) (some (meter.upgrade target (service.effort target)
    (columnUnits (service.effort target).maxEstimatedCostAmount.toRat)))

theorem upgrade_ok {a : UpgradeArgs} {r : Option Effort}
    (h : (upgrade service a).exec c = .ok (r, c')) :
    c' = c ∨ ∃ meter target nextCost, Upgraded service a c c' meter target nextCost := by
  unfold upgrade at h
  have h := exec_lockRow_bind h
  obtain ⟨meter, hmeter, h⟩ := exec_orRaise_bind h
  split at h
  · cases h
    exact .inl rfl
  · split at h
    · cases h
      exact .inl rfl
    · next target _ =>
      obtain ⟨tokens, htokens, h⟩ := exec_check_bind h
      obtain ⟨rfl, hpos⟩ := positiveInt_ok htokens
      obtain ⟨nextCost, hmoney, h⟩ := exec_check_bind h
      obtain ⟨harg, hnonneg⟩ := nonNegativeMoney_ok hmoney
      split at h
      · next hroom =>
        obtain ⟨maxCost, hcost, h⟩ := exec_check_bind h
        obtain rfl := amountColumn_ok hcost
        have h := exec_updateWhere_bind hmeter rfl h
        cases h
        exact .inr ⟨meter, target, nextCost, hmeter, hpos, harg, hnonneg, hroom, rfl⟩
      · cases h
        exact .inl rfl

/-! ### Every operation -/

/-- What an operation changes when it does not fail and is no replay. -/
inductive Change (service : BudgetMeterService) (c c' : Store BudgetRow) : BudgetOp → Prop
  | opened (a : EnsureMeterArgs) (meter : MeterRow) (h : Opened a c c' meter) :
    Change service c c' (.ensureMeter a)
  | reserved (a : ReserveArgs) (meter : MeterRow) (cost : ℚ) (h : Reserved a c c' meter cost) :
    Change service c c' (.reserve a)
  | settled (a : SettleArgs) (meter : MeterRow) (reservation : ReservationRow) (cost : ℚ)
    (h : Settled a c c' meter reservation cost) : Change service c c' (.settle a)
  | released (generationId reservationId : String) (meter : MeterRow)
    (reservation : ReservationRow) (h : Closed generationId reservationId c c' meter
      (meter.release reservation) reservation { reservation with status := .released }) :
    Change service c c' (.release generationId reservationId)
  | markedUnknown (generationId reservationId : String) (meter : MeterRow)
    (reservation : ReservationRow) (h : Closed generationId reservationId c c' meter
      (meter.markUnknown reservation) reservation { reservation with status := .released }) :
    Change service c c' (.markUnknown generationId reservationId)
  | upgraded (a : UpgradeArgs) (meter : MeterRow) (target : Effort) (nextCost : ℚ)
    (h : Upgraded service a c c' meter target nextCost) : Change service c c' (.upgrade a)

theorem exec_discard {α : Type} {p : BudgetTx α}
    (h : (p >>= fun _ => (return () : BudgetTx Unit)).exec c = .ok (u, c')) :
    ∃ a, p.exec c = .ok (a, c') := by
  obtain ⟨a, v, hp, h⟩ := Prog.exec_bind_ok h
  cases h
  exact ⟨a, hp⟩

/-- **An operation leaves the store as it was, or makes the change of its kind.** -/
theorem budgetBody_ok {op : BudgetOp} (h : (budgetBody service op).exec c = .ok (u, c')) :
    c' = c ∨ Change service c c' op := by
  cases op with
  | ensureMeter a =>
    obtain ⟨_, h⟩ := exec_discard h
    rcases ensureMeter_ok h with rfl | ⟨meter, h⟩
    · exact .inl rfl
    · exact .inr (.opened a meter h)
  | reserve a =>
    obtain ⟨_, h⟩ := exec_discard h
    rcases reserve_ok h with rfl | ⟨meter, cost, h⟩
    · exact .inl rfl
    · exact .inr (.reserved a meter cost h)
  | settle a =>
    obtain ⟨_, h⟩ := exec_discard h
    rcases settle_ok h with rfl | ⟨meter, reservation, cost, h⟩
    · exact .inl rfl
    · exact .inr (.settled a meter reservation cost h)
  | release generationId reservationId =>
    rcases release_ok h with rfl | ⟨meter, reservation, h⟩
    · exact .inl rfl
    · exact .inr (.released _ _ meter reservation h)
  | markUnknown generationId reservationId =>
    rcases markUnknown_ok h with rfl | ⟨meter, reservation, h⟩
    · exact .inl rfl
    · exact .inr (.markedUnknown _ _ meter reservation h)
  | upgrade a =>
    obtain ⟨_, h⟩ := exec_discard h
    rcases upgrade_ok h with rfl | ⟨meter, target, nextCost, h⟩
    · exact .inl rfl
    · exact .inr (.upgraded a meter target nextCost h)

end RagQs.Usage.Budget
