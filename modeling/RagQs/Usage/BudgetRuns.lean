import RagQs.Usage.BudgetProof
import Mathlib.Algebra.Order.BigOperators.Group.List

/-!
# The budget meters along a run

The counters of a meter are sums over the reservations of its generation, as long as no
sum of costs loses digits: the sums are rounded to 28 digits, and a column that holds one
may then differ from the sum of what the reservations hold.

## Main definitions

* `sumOf` — a sum over the reservations of a generation.
* `Conserved` — what the claim of conservation says of one state.
* `ExactStep` — no sum of costs that the step forms loses a digit the column would hold.

## Main results

* `meter_conservation` — the counters of every meter are those sums, after every run of
  exact steps.
* `rounded_sum_not_conserved` — a run with a sum that is rounded.
-/

namespace RagQs.Usage.Budget

open Txn hiding release

variable {rid : String} {meter after : MeterRow} {op : BudgetOp} {x : ReservationStatus}
variable {r reservation : ReservationRow} {gen : String}

/-! ### Sums over reservations -/

/-- What a row adds to the sum over the reservations of a generation. -/
def shareOf (generationId : String) (f : ReservationRow → ℤ) : (k : BudgetKey) → BudgetRow k → ℤ
  | .reservation _, r => if r.generationId = generationId then f r else 0
  | .meter _, _ => 0
  | .meterId _, _ => 0
  | .replay _ _, _ => 0

/-- The sum of `f` over the reservations of a generation. -/
def sumOf (s : Store BudgetRow) (generationId : String) (f : ReservationRow → ℤ) : ℤ :=
  s.total (shareOf generationId f)

section Sums

variable {s : Store BudgetRow} {g : String} {f : ReservationRow → ℤ}

@[simp] theorem sumOf_set_meter (g' : String) (r : Option MeterRow) :
    sumOf (s.set (.meter g') r) g f = sumOf s g f := by
  apply Store.total_set_zero
  · cases s.get (BudgetKey.meter g') <;> rfl
  · cases r <;> rfl

@[simp] theorem sumOf_set_meterId (id : String) (r : Option Unit) :
    sumOf (s.set (.meterId id) r) g f = sumOf s g f := by
  apply Store.total_set_zero
  · cases s.get (BudgetKey.meterId id) <;> rfl
  · cases r <;> rfl

@[simp] theorem sumOf_set_replay (g' fingerprint : String) (r : Option String) :
    sumOf (s.set (.replay g' fingerprint) r) g f = sumOf s g f := by
  apply Store.total_set_zero
  · cases s.get (BudgetKey.replay g' fingerprint) <;> rfl
  · cases r <;> rfl

theorem sumOf_set_new (hnew : s.get (.reservation rid) = none) :
    sumOf (s.set (.reservation rid) (some r)) g f
      = sumOf s g f + if r.generationId = g then f r else 0 :=
  Store.total_set_new _ _ hnew

theorem sumOf_set {r' : ReservationRow} (hget : s.get (.reservation rid) = some r)
    (hgen : r'.generationId = r.generationId) :
    sumOf (s.set (.reservation rid) (some r')) g f
      = sumOf s g f + if r.generationId = g then f r' - f r else 0 := by
  have h := Store.total_set (shareOf g f) s (.reservation rid) (some r')
  rw [hget] at h
  simp only [Store.weight_some, shareOf, hgen] at h
  unfold sumOf
  by_cases hg : r.generationId = g
  · rw [if_pos hg] at h ⊢
    rw [if_pos hg] at h
    omega
  · rw [if_neg hg] at h ⊢
    rw [if_neg hg] at h
    omega

theorem sumOf_le {f f' : ReservationRow → ℤ}
    (h : ∀ rid r, s.get (.reservation rid) = some r → f r ≤ f' r) :
    sumOf s g f ≤ sumOf s g f' := by
  unfold sumOf Store.total
  apply List.sum_le_sum
  rintro ⟨k, r⟩ hmem
  have hget := Store.mem_rows.mp hmem
  cases k with
  | reservation rid =>
    show (if r.generationId = g then f r else 0) ≤ if r.generationId = g then f' r else 0
    split
    · exact h rid r hget
    · exact le_refl 0
  | meter g' => exact le_refl 0
  | meterId id => exact le_refl 0
  | replay g' fingerprint => exact le_refl 0

theorem sumOf_eq_zero
    (h : ∀ rid r, s.get (.reservation rid) = some r → r.generationId ≠ g ∨ f r = 0) :
    sumOf s g f = 0 := by
  unfold sumOf Store.total
  apply List.sum_eq_zero
  intro x hx
  obtain ⟨⟨k, r⟩, hmem, rfl⟩ := List.mem_map.mp hx
  cases k with
  | reservation rid =>
    show (if r.generationId = g then f r else 0) = 0
    rcases h rid r (Store.mem_rows.mp hmem) with hne | hzero
    · rw [if_neg hne]
    · rw [hzero, ite_self]
  | meter g' => rfl
  | meterId id => rfl
  | replay g' fingerprint => rfl

theorem sumOf_nonneg (h : ∀ rid r, s.get (.reservation rid) = some r → 0 ≤ f r) :
    0 ≤ sumOf s g f := by
  have hle : sumOf s g (fun _ => 0) ≤ sumOf s g f := sumOf_le h
  have hzero : sumOf s g (fun _ => 0) = 0 := sumOf_eq_zero fun _ _ _ => .inr rfl
  omega

end Sums

/-! ### The counters -/

/-- The estimate of tokens of a reservation in status reserved. -/
def reservedTokensOf (r : ReservationRow) : ℤ :=
  if r.status = .reserved then r.estimatedTokens else 0

/-- The estimate of the cost of a reservation in status reserved. -/
def reservedCostOf (r : ReservationRow) : ℤ :=
  if r.status = .reserved then r.estimatedCostAmount else 0

/-- The actual tokens of a settled reservation. -/
def settledTokensOf (r : ReservationRow) : ℤ :=
  if r.status = .settled then r.actualTokens.getD 0 else 0

/-- The actual cost of a settled reservation. -/
def settledCostOf (r : ReservationRow) : ℤ :=
  if r.status = .settled then r.actualCostAmount.getD 0 else 0

/-- One for every reservation of a RAG call. -/
def ragOf (r : ReservationRow) : ℤ := if r.isRag then 1 else 0

/-- One for every reservation of a RAG call that is released. -/
def releasedRagOf (r : ReservationRow) : ℤ := if r.isRag ∧ r.status = .released then 1 else 0

/-- The status of a reservation. -/
def statusOf (s : Store BudgetRow) (reservationId : String) : Option ReservationStatus :=
  (s.get (.reservation reservationId)).map ReservationRow.status

/-- One when a step was a `release` that returned a RAG call of the generation. -/
def returnedBy (s s' : Store BudgetRow) (generationId : String) : BudgetOp → ℤ
  | .release g rid =>
    if g = generationId ∧ statusOf s rid = some .reserved ∧ statusOf s' rid = some .released ∧
        (s.get (.reservation rid)).any ReservationRow.isRag then 1 else 0
  | _ => 0

/-- One when a step took a reservation out of the status reserved. -/
def leftBy (s s' : Store BudgetRow) (reservationId : String) : ℕ :=
  if statusOf s reservationId = some .reserved ∧ statusOf s' reservationId ≠ some .reserved
  then 1 else 0

section Runs

variable (service : BudgetMeterService)

/-- How many RAG calls of a generation `release` returned in a run. -/
def ragReturned (generationId : String) : Store BudgetRow → List BudgetOp → ℤ
  | _, [] => 0
  | s, op :: ops =>
    returnedBy s (execOne (budgetBody service) s op) generationId op
      + ragReturned generationId (execOne (budgetBody service) s op) ops

/-- How often a reservation left the status reserved in a run. -/
def departures (reservationId : String) : Store BudgetRow → List BudgetOp → ℕ
  | _, [] => 0
  | s, op :: ops =>
    leftBy s (execOne (budgetBody service) s op) reservationId
      + departures reservationId (execOne (budgetBody service) s op) ops

end Runs

/-- The counters of a meter are the sums over the reservations of its generation, `returned`
RAG calls having been returned. -/
structure MeterAgrees (s : Store BudgetRow) (returned : ℤ) (g : String) (meter : MeterRow) :
    Prop where
  reservedTokens : meter.reservedTokens = sumOf s g reservedTokensOf
  reservedCost : meter.reservedCostAmount = sumOf s g reservedCostOf
  totalTokens : meter.totalTokensUsed = sumOf s g settledTokensOf
  settledCost : meter.settledCostAmount = sumOf s g settledCostOf
  ragCalls : meter.ragCallsUsed = sumOf s g ragOf - returned

/-- No counter of a meter is negative. -/
structure NonNegative (meter : MeterRow) : Prop where
  reservedTokens : 0 ≤ meter.reservedTokens
  reservedCost : 0 ≤ meter.reservedCostAmount
  totalTokens : 0 ≤ meter.totalTokensUsed
  settledCost : 0 ≤ meter.settledCostAmount
  ragCalls : 0 ≤ meter.ragCallsUsed

/-- The budget is conserved along a run: the meters agree with the reservations, no counter
is negative, and every reservation left the status reserved at most once. -/
structure Conserved (service : BudgetMeterService) (ops : List BudgetOp) : Prop where
  agrees : ∀ g meter, (execAll (budgetBody service) ∅ ops).get (.meter g) = some meter →
    MeterAgrees (execAll (budgetBody service) ∅ ops) (ragReturned service g ∅ ops) g meter
  nonneg : ∀ g meter, (execAll (budgetBody service) ∅ ops).get (.meter g) = some meter →
    NonNegative meter
  once : ∀ rid, departures service rid ∅ ops ≤ 1

/-! ### The condition -/

/-- Rounding an amount to 28 digits does not change what a column stores of it. -/
def Kept (x : ℚ) : Prop := columnUnits (contextRound x) = columnUnits x

/-- Every sum and difference of costs that a step forms is stored as if it were exact. -/
def ExactStep (s : Store BudgetRow) : BudgetOp → Prop
  | .ensureMeter _ => True
  | .reserve a => ∀ meter cost, Admitted a s meter cost →
    Kept (amountValue meter.reservedCostAmount + cost)
  | .settle a => ∀ meter reservation cost, s.get (.meter a.generationId) = some meter →
    s.get (.reservation a.reservationId) = some reservation → reservation.status = .reserved →
    a.actualCost = .finite cost →
    Kept (amountValue meter.settledCostAmount + cost.toRat) ∧
      Kept (amountValue meter.reservedCostAmount - amountValue reservation.estimatedCostAmount)
  | .release g rid => ∀ meter reservation, s.get (.meter g) = some meter →
    s.get (.reservation rid) = some reservation → reservation.status = .reserved →
    Kept (amountValue meter.reservedCostAmount - amountValue reservation.estimatedCostAmount)
  | .markUnknown g rid => ∀ meter reservation, s.get (.meter g) = some meter →
    s.get (.reservation rid) = some reservation → reservation.status = .reserved →
    Kept (amountValue meter.reservedCostAmount - amountValue reservation.estimatedCostAmount)
  | .upgrade _ => True

/-- A condition on every step of a run. -/
def EachStep (service : BudgetMeterService) (P : Store BudgetRow → BudgetOp → Prop) :
    Store BudgetRow → List BudgetOp → Prop
  | _, [] => True
  | s, op :: ops => P s op ∧ EachStep service P (execOne (budgetBody service) s op) ops

/-- The operation uses a reservation with the generation that owns it. -/
def UsesOwner (owner : String → String) : BudgetOp → Prop
  | .ensureMeter _ => True
  | .reserve a => a.generationId = owner a.reservationId
  | .settle a => a.generationId = owner a.reservationId
  | .release g rid => g = owner rid
  | .markUnknown g rid => g = owner rid
  | .upgrade _ => True

/-! ### The invariant -/

/-- What is true of every reservation. -/
structure RowOk (owner : String → String) (rid : String) (r : ReservationRow) : Prop where
  owned : r.generationId = owner rid
  tokens : 0 ≤ r.estimatedTokens
  cost : 0 ≤ r.estimatedCostAmount
  actualTokens : 0 ≤ r.actualTokens.getD 0
  actualCost : 0 ≤ r.actualCostAmount.getD 0

/-- What every step keeps: the rows are good and their generations have meters, the meters
agree with them, and what `release` returned is among the released. -/
structure BudgetInv (owner : String → String) (s : Store BudgetRow) (returned : String → ℤ) :
    Prop where
  row : ∀ rid r, s.get (.reservation rid) = some r → RowOk owner rid r
  metered : ∀ rid r, s.get (.reservation rid) = some r → s.get (.meter r.generationId) ≠ none
  agrees : ∀ g meter, s.get (.meter g) = some meter → MeterAgrees s (returned g) g meter
  bounded : ∀ g, returned g ≤ sumOf s g releasedRagOf
  idle : ∀ g, s.get (.meter g) = none → returned g = 0

variable {owner : String → String} {s s' : Store BudgetRow} {n n' : String → ℤ}

theorem BudgetInv.empty : BudgetInv owner ∅ fun _ => 0 where
  row rid r h := by simp at h
  metered rid r h := by simp at h
  agrees g meter h := by simp at h
  bounded g := by simp [sumOf]
  idle _ _ := rfl

theorem BudgetInv.nonneg (h : BudgetInv owner s n) {g : String}
    (hget : s.get (.meter g) = some meter) : NonNegative meter := by
  have hagrees := h.agrees g meter hget
  refine ⟨?_, ?_, ?_, ?_, ?_⟩
  · rw [hagrees.reservedTokens]
    apply sumOf_nonneg
    intro rid r hr
    unfold reservedTokensOf
    split
    · exact (h.row rid r hr).tokens
    · exact le_refl 0
  · rw [hagrees.reservedCost]
    apply sumOf_nonneg
    intro rid r hr
    unfold reservedCostOf
    split
    · exact (h.row rid r hr).cost
    · exact le_refl 0
  · rw [hagrees.totalTokens]
    apply sumOf_nonneg
    intro rid r hr
    unfold settledTokensOf
    split
    · exact (h.row rid r hr).actualTokens
    · exact le_refl 0
  · rw [hagrees.settledCost]
    apply sumOf_nonneg
    intro rid r hr
    unfold settledCostOf
    split
    · exact (h.row rid r hr).actualCost
    · exact le_refl 0
  · rw [hagrees.ragCalls]
    have hle : sumOf s g releasedRagOf ≤ sumOf s g ragOf := by
      apply sumOf_le
      intro rid r _
      unfold releasedRagOf ragOf
      cases r.isRag with
      | false => simp
      | true =>
        rw [if_pos rfl]
        split <;> omega
    have := h.bounded g
    omega

/-- What a step that changed the meter of one generation owes: the changes of its counters
are those of the sums. -/
structure Balanced (meter after : MeterRow) (δ : (ReservationRow → ℤ) → ℤ) (k : ℤ) : Prop where
  reservedTokens : after.reservedTokens = meter.reservedTokens + δ reservedTokensOf
  reservedCost : after.reservedCostAmount = meter.reservedCostAmount + δ reservedCostOf
  totalTokens : after.totalTokensUsed = meter.totalTokensUsed + δ settledTokensOf
  settledCost : after.settledCostAmount = meter.settledCostAmount + δ settledCostOf
  ragCalls : after.ragCallsUsed = meter.ragCallsUsed + δ ragOf - k
  returned : k ≤ δ releasedRagOf

theorem BudgetInv.step (h : BudgetInv owner s n) {δ : (ReservationRow → ℤ) → ℤ} {k : ℤ}
    (hfound : s.get (.meter gen) = some meter)
    (hmeter : ∀ g, s'.get (.meter g) = if g = gen then some after else s.get (.meter g))
    (hrow : ∀ rid r, s'.get (.reservation rid) = some r →
      RowOk owner rid r ∧ s.get (.meter r.generationId) ≠ none)
    (hsum : ∀ g f, sumOf s' g f = sumOf s g f + if gen = g then δ f else 0)
    (hn : ∀ g, n' g = n g + if gen = g then k else 0) (hbalanced : Balanced meter after δ k) :
    BudgetInv owner s' n' := by
  refine ⟨fun rid r hr => (hrow rid r hr).1, ?_, ?_, ?_, ?_⟩
  · intro rid r hr
    rw [hmeter]
    split
    · exact Option.some_ne_none _
    · exact (hrow rid r hr).2
  · intro g m hm
    rw [hmeter] at hm
    by_cases hg : gen = g
    · subst hg
      rw [if_pos rfl] at hm
      cases hm
      have hagrees := h.agrees gen meter hfound
      constructor
      · rw [hbalanced.reservedTokens, hagrees.reservedTokens, hsum, if_pos rfl]
      · rw [hbalanced.reservedCost, hagrees.reservedCost, hsum, if_pos rfl]
      · rw [hbalanced.totalTokens, hagrees.totalTokens, hsum, if_pos rfl]
      · rw [hbalanced.settledCost, hagrees.settledCost, hsum, if_pos rfl]
      · rw [hbalanced.ragCalls, hagrees.ragCalls, hsum, hn, if_pos rfl, if_pos rfl]
        omega
    · rw [if_neg fun h => hg h.symm] at hm
      have hsame : ∀ f, sumOf s' g f = sumOf s g f := by
        intro f
        rw [hsum, if_neg hg, add_zero]
      have hagrees := h.agrees g m hm
      rw [hn, if_neg hg, add_zero]
      exact ⟨by rw [hsame]; exact hagrees.reservedTokens, by rw [hsame]; exact hagrees.reservedCost,
        by rw [hsame]; exact hagrees.totalTokens, by rw [hsame]; exact hagrees.settledCost,
        by rw [hsame]; exact hagrees.ragCalls⟩
  · intro g
    rw [hn, hsum]
    have := h.bounded g
    have := hbalanced.returned
    split <;> omega
  · intro g hg
    rw [hmeter] at hg
    split at hg
    · cases hg
    · next hne =>
      rw [hn, if_neg fun h => hne h.symm, add_zero]
      exact h.idle g hg

/-! ### One step -/

theorem get_meter_set {u : Store BudgetRow} (hu : ∀ g, u.get (.meter g) = s.get (.meter g))
    (g : String) :
    (u.set (.meter gen) (some after)).get (.meter g)
      = if g = gen then some after else s.get (.meter g) := by
  by_cases hg : g = gen
  · subst hg
    rw [if_pos rfl, Store.get_set_self]
  · rw [if_neg hg, Store.get_set_of_ne (by simpa using hg)]
    exact hu g

theorem BudgetInv.reserved {a : ReserveArgs} {cost : ℚ} (h : BudgetInv owner s n)
    (hchange : Reserved a s s' meter cost) (howner : a.generationId = owner a.reservationId)
    (hkept : Kept (amountValue meter.reservedCostAmount + cost)) : BudgetInv owner s' n := by
  have hfound := hchange.admitted.found
  have hcost : columnUnits (contextRound (amountValue meter.reservedCostAmount + cost))
      = meter.reservedCostAmount + columnUnits cost := by
    rw [hkept]
    exact columnUnits_amountValue_add (h.nonneg hfound).reservedCost hchange.admitted.nonneg
  have hmeter : ∀ g, s'.get (.meter g) = if g = a.generationId then
      some (meter.addReservation a.isRag a.estimatedTokens
        (columnUnits (contextRound (amountValue meter.reservedCostAmount + cost))) meter)
      else s.get (.meter g) := by
    rw [hchange.store]
    apply get_meter_set
    intro g
    rw [Store.get_set_of_ne (by simp), Store.get_set_of_ne (by simp)]
  refine h.step (k := 0) (δ := fun f =>
    f (reservationValues a a.estimatedTokens (columnUnits cost))) hfound hmeter ?_ ?_ ?_ ?_
  · intro rid r hr
    rw [hchange.store, Store.get_set_of_ne (by simp), Store.get_set_of_ne (by simp)] at hr
    by_cases hrid : rid = a.reservationId
    · subst hrid
      rw [Store.get_set_self] at hr
      cases hr
      refine ⟨⟨howner, hchange.admitted.tokens, columnUnits_nonneg hchange.admitted.nonneg,
        le_refl 0, le_refl 0⟩, ?_⟩
      show s.get (.meter a.generationId) ≠ none
      rw [hfound]
      exact Option.some_ne_none _
    · rw [Store.get_set_of_ne (by simpa using hrid)] at hr
      exact ⟨h.row rid r hr, h.metered rid r hr⟩
  · intro g f
    rw [hchange.store, sumOf_set_meter, sumOf_set_replay, sumOf_set_new hchange.admitted.new]
    rfl
  · intro g
    rw [ite_self, add_zero]
  · constructor
    · rfl
    · exact hcost
    · exact (add_zero _).symm
    · exact (add_zero _).symm
    · show _ + (a.isRag.toNat : ℤ) = _ + ragOf _ - 0
      unfold ragOf reservationValues
      cases a.isRag <;> simp
    · show (0 : ℤ) ≤ releasedRagOf _
      unfold releasedRagOf reservationValues
      split <;> omega

theorem BudgetInv.closed {closed : ReservationRow} {k : ℤ} (h : BudgetInv owner s n)
    (hchange : Closed gen rid s s' meter after reservation closed) (howner : gen = owner rid)
    (hgen : closed.generationId = reservation.generationId) (hclosed : RowOk owner rid closed)
    (hn : ∀ g, n' g = n g + if gen = g then k else 0)
    (hbalanced : Balanced meter after (fun f => f closed - f reservation) k) :
    BudgetInv owner s' n' := by
  have howned : reservation.generationId = gen := by
    rw [howner]
    exact (h.row rid reservation hchange.row).owned
  refine h.step hchange.found ?_ ?_ ?_ hn hbalanced
  · rw [hchange.store]
    apply get_meter_set
    intro g
    rw [Store.get_set_of_ne (by simp)]
  · intro rid' r hr
    rw [hchange.store, Store.get_set_of_ne (by simp)] at hr
    by_cases hrid : rid' = rid
    · subst hrid
      rw [Store.get_set_self] at hr
      cases hr
      refine ⟨hclosed, ?_⟩
      rw [hgen]
      exact h.metered rid' reservation hchange.row
    · rw [Store.get_set_of_ne (by simpa using hrid)] at hr
      exact ⟨h.row rid' r hr, h.metered rid' r hr⟩
  · intro g f
    rw [hchange.store, sumOf_set_meter, sumOf_set hchange.row hgen, howned]

theorem reservedCostWithout_units (hkept : Kept (amountValue meter.reservedCostAmount
      - amountValue reservation.estimatedCostAmount)) :
    columnUnits (reservedCostWithout meter reservation)
      = meter.reservedCostAmount - reservation.estimatedCostAmount := by
  unfold reservedCostWithout
  rw [hkept, ← amountValue_sub, columnUnits_amountValue]

theorem BudgetInv.opened {a : EnsureMeterArgs} (h : BudgetInv owner s n)
    (hchange : Opened a s s' meter) : BudgetInv owner s' n := by
  have hget : ∀ g, s'.get (.meter g) = if g = a.generationId then some meter else s.get (.meter g) := by
    intro g
    rw [hchange.store, Store.get_set_of_ne (by simp)]
    exact get_meter_set (fun _ => rfl) g
  have hrow : ∀ rid, s'.get (.reservation rid) = s.get (.reservation rid) := by
    intro rid
    rw [hchange.store, Store.get_set_of_ne (by simp), Store.get_set_of_ne (by simp)]
  have hsum : ∀ g f, sumOf s' g f = sumOf s g f := by
    intro g f
    rw [hchange.store, sumOf_set_meterId, sumOf_set_meter]
  have hzero : ∀ f, sumOf s a.generationId f = 0 := by
    intro f
    apply sumOf_eq_zero
    intro rid r hr
    refine .inl fun hg => h.metered rid r hr ?_
    rw [hg]
    exact hchange.new
  refine ⟨?_, ?_, ?_, ?_, ?_⟩
  · intro rid r hr
    rw [hrow] at hr
    exact h.row rid r hr
  · intro rid r hr
    rw [hrow] at hr
    rw [hget]
    split
    · exact Option.some_ne_none _
    · exact h.metered rid r hr
  · intro g m hm
    rw [hget] at hm
    by_cases hg : g = a.generationId
    · subst hg
      rw [if_pos rfl] at hm
      cases hm
      constructor
      · rw [hsum, hzero, hchange.reservedTokens]
      · rw [hsum, hzero, hchange.reservedCostAmount]
      · rw [hsum, hzero, hchange.totalTokensUsed]
      · rw [hsum, hzero, hchange.settledCostAmount]
      · rw [hsum, hzero, hchange.ragCallsUsed, h.idle _ hchange.new, sub_zero]
    · rw [if_neg hg] at hm
      have hagrees := h.agrees g m hm
      exact ⟨by rw [hsum]; exact hagrees.reservedTokens, by rw [hsum]; exact hagrees.reservedCost,
        by rw [hsum]; exact hagrees.totalTokens, by rw [hsum]; exact hagrees.settledCost,
        by rw [hsum]; exact hagrees.ragCalls⟩
  · intro g
    rw [hsum]
    exact h.bounded g
  · intro g hg
    rw [hget] at hg
    split at hg
    · cases hg
    · exact h.idle g hg

/-- The RAG calls that `release` has returned before a step and in it. -/
def addReturned (n : String → ℤ) (s s' : Store BudgetRow) (op : BudgetOp) : String → ℤ :=
  fun g => n g + returnedBy s s' g op

theorem addReturned_other (h : ∀ g rid, op ≠ .release g rid) : addReturned n s s' op = n := by
  funext g
  unfold addReturned returnedBy
  cases op with
  | release g' rid => exact absurd rfl (h g' rid)
  | ensureMeter a => exact add_zero _
  | reserve a => exact add_zero _
  | settle a => exact add_zero _
  | markUnknown g' rid => exact add_zero _
  | upgrade a => exact add_zero _

theorem addReturned_self : addReturned n s s op = n := by
  funext g
  unfold addReturned returnedBy
  cases op with
  | release g' rid =>
    simp only
    rw [if_neg, add_zero]
    rintro ⟨_, hbefore, hafter, _⟩
    rw [hbefore] at hafter
    cases hafter
  | ensureMeter a => exact add_zero _
  | reserve a => exact add_zero _
  | settle a => exact add_zero _
  | markUnknown g' rid => exact add_zero _
  | upgrade a => exact add_zero _

/-- **What one exact step keeps.** -/
theorem BudgetInv.change {service : BudgetMeterService} (h : BudgetInv owner s n)
    (hchange : Change service s s' op) (howner : UsesOwner owner op) (hexact : ExactStep s op) :
    BudgetInv owner s' (addReturned n s s' op) := by
  cases hchange with
  | opened a meter hopened =>
    rw [addReturned_other (by simp : ∀ g rid, BudgetOp.ensureMeter a ≠ .release g rid)]
    exact h.opened hopened
  | reserved a meter cost hreserved =>
    rw [addReturned_other (by simp : ∀ g rid, BudgetOp.reserve a ≠ .release g rid)]
    exact h.reserved hreserved howner (hexact meter cost hreserved.admitted)
  | settled a meter reservation cost hsettled =>
    obtain ⟨hfound, hrow, hstatus, _⟩ := hsettled.closed
    obtain ⟨d, harg, rfl⟩ := hsettled.arg
    obtain ⟨hsettledCost, hreservedCost⟩ := hexact meter reservation d hfound hrow hstatus harg
    have hok := h.row _ _ hrow
    refine h.closed (k := 0) hsettled.closed howner rfl ?_ ?_ ?_
    · exact ⟨hok.owned, hok.tokens, hok.cost, hsettled.tokens, columnUnits_nonneg hsettled.nonneg⟩
    · intro g
      rw [addReturned_other (by simp : ∀ g rid, BudgetOp.settle a ≠ .release g rid), ite_self, add_zero]
    · constructor
      · simp [MeterRow.settle, reservedTokensOf, hstatus, sub_eq_add_neg]
      · simp only [MeterRow.settle, reservedCostOf, hstatus, reservedCostWithout_units hreservedCost]
        simp [sub_eq_add_neg]
      · simp [MeterRow.settle, settledTokensOf, hstatus]
      · have hcost : columnUnits (settledCostWith meter d.toRat)
            = meter.settledCostAmount + columnUnits d.toRat := by
          unfold settledCostWith
          rw [hsettledCost]
          exact columnUnits_amountValue_add (h.nonneg hfound).settledCost hsettled.nonneg
        simp [MeterRow.settle, settledCostOf, hstatus, hcost]
      · simp [MeterRow.settle, ragOf]
      · simp [releasedRagOf, hstatus]
  | released g rid meter reservation hclosed =>
    obtain ⟨hfound, hrow, hstatus, hstore⟩ := hclosed
    have hkept := hexact meter reservation hfound hrow hstatus
    have hok := h.row _ _ hrow
    refine h.closed (k := ragOf reservation) ⟨hfound, hrow, hstatus, hstore⟩ howner rfl ?_ ?_ ?_
    · exact ⟨hok.owned, hok.tokens, hok.cost, hok.actualTokens, hok.actualCost⟩
    · intro g'
      have hafter : statusOf s' rid = some .released := by
        unfold statusOf
        rw [hstore, Store.get_set_of_ne (by simp), Store.get_set_self]
        rfl
      have hbefore : statusOf s rid = some .reserved := by
        unfold statusOf
        rw [hrow, Option.map_some, hstatus]
      unfold addReturned returnedBy ragOf
      simp only [hafter, hbefore, hrow, Option.any_some, true_and]
      split
      · next hg => rw [if_pos hg.1, if_pos hg.2]
      · next hg =>
        split
        · next hgen => rw [if_neg fun hrag => hg ⟨hgen, hrag⟩]
        · rfl
    · constructor
      · simp [MeterRow.release, reservedTokensOf, hstatus, sub_eq_add_neg]
      · simp only [MeterRow.release, reservedCostOf, hstatus, reservedCostWithout_units hkept]
        simp [sub_eq_add_neg]
      · simp [MeterRow.release, settledTokensOf, hstatus]
      · simp [MeterRow.release, settledCostOf, hstatus]
      · simp only [MeterRow.release, ragOf]
        cases reservation.isRag <;> simp
      · simp [releasedRagOf, ragOf, hstatus]
  | markedUnknown g rid meter reservation hclosed =>
    obtain ⟨hfound, hrow, hstatus, hstore⟩ := hclosed
    have hkept := hexact meter reservation hfound hrow hstatus
    have hok := h.row _ _ hrow
    refine h.closed (k := 0) ⟨hfound, hrow, hstatus, hstore⟩ howner rfl ?_ ?_ ?_
    · exact ⟨hok.owned, hok.tokens, hok.cost, hok.actualTokens, hok.actualCost⟩
    · intro g'
      rw [addReturned_other (by simp : ∀ g' rid', BudgetOp.markUnknown g rid ≠ .release g' rid'), ite_self, add_zero]
    · constructor
      · simp [MeterRow.markUnknown, reservedTokensOf, hstatus, sub_eq_add_neg]
      · simp only [MeterRow.markUnknown, reservedCostOf, hstatus, reservedCostWithout_units hkept]
        simp [sub_eq_add_neg]
      · simp [MeterRow.markUnknown, settledTokensOf, hstatus]
      · simp [MeterRow.markUnknown, settledCostOf, hstatus]
      · simp [MeterRow.markUnknown, ragOf]
      · show (0 : ℤ) ≤ _ - _
        have hreserved : releasedRagOf reservation = 0 := by simp [releasedRagOf, hstatus]
        rw [hreserved, sub_zero]
        unfold releasedRagOf
        split <;> omega
  | upgraded a meter target nextCost hupgraded =>
    have hmeter : ∀ g, s'.get (.meter g) = if g = a.generationId then
        some (meter.upgrade target (service.effort target)
          (columnUnits (service.effort target).maxEstimatedCostAmount.toRat))
        else s.get (.meter g) := by
      rw [hupgraded.store]
      exact get_meter_set fun _ => rfl
    refine h.step (k := 0) (δ := fun _ => 0) hupgraded.found hmeter ?_ ?_ ?_ ?_
    · intro rid r hr
      rw [hupgraded.store, Store.get_set_of_ne (by simp)] at hr
      exact ⟨h.row rid r hr, h.metered rid r hr⟩
    · intro g f
      rw [hupgraded.store, sumOf_set_meter, ite_self, add_zero]
    · intro g
      rw [addReturned_other (by simp : ∀ g rid, BudgetOp.upgrade a ≠ .release g rid), ite_self, add_zero]
    · exact ⟨(add_zero _).symm, (add_zero _).symm, (add_zero _).symm, (add_zero _).symm,
        by simp [MeterRow.upgrade], le_refl 0⟩

/-! ### Leaving the status reserved -/

theorem statusOf_change {service : BudgetMeterService} (hchange : Change service s s' op)
    (hstatus : statusOf s rid = some x) (hx : x ≠ .reserved) : statusOf s' rid = some x := by
  -- A change writes a reservation only where there is none, or one that is reserved.
  have hkeep : ∀ {rid' : String} {r : ReservationRow},
      s.get (.reservation rid') = none ∨ (∃ r, s.get (.reservation rid') = some r ∧ r.status = .reserved) →
      statusOf (s.set (.reservation rid') (some r)) rid = some x := by
    intro rid' r hold
    have hne : rid ≠ rid' := by
      rintro rfl
      unfold statusOf at hstatus
      rcases hold with hnone | ⟨r', hget, hreserved⟩
      · rw [hnone] at hstatus
        cases hstatus
      · rw [hget, Option.map_some, hreserved] at hstatus
        exact hx (Option.some.inj hstatus).symm
    unfold statusOf
    rw [Store.get_set_of_ne (by simpa using hne)]
    exact hstatus
  have hother : ∀ {u : Store BudgetRow} {k : BudgetKey} {r : Option (BudgetRow k)},
      statusOf u rid = some x → k ≠ .reservation rid → statusOf (u.set k r) rid = some x := by
    intro u k r hu hk
    unfold statusOf
    rw [Store.get_set_of_ne hk.symm]
    exact hu
  cases hchange with
  | opened a meter h =>
    rw [h.store]
    exact hother (hother hstatus nofun) nofun
  | reserved a meter cost h =>
    rw [h.store]
    exact hother (hother (hkeep (.inl h.admitted.new)) nofun) nofun
  | settled a meter reservation cost h =>
    rw [h.closed.store]
    exact hother (hkeep (.inr ⟨_, h.closed.row, h.closed.reserved⟩)) nofun
  | released g rid' meter reservation h =>
    rw [h.store]
    exact hother (hkeep (.inr ⟨_, h.row, h.reserved⟩)) nofun
  | markedUnknown g rid' meter reservation h =>
    rw [h.store]
    exact hother (hkeep (.inr ⟨_, h.row, h.reserved⟩)) nofun
  | upgraded a meter target nextCost h =>
    rw [h.store]
    exact hother hstatus nofun

variable {service : BudgetMeterService}

theorem statusOf_step (hstatus : statusOf s rid = some x) (hx : x ≠ .reserved) :
    statusOf (execOne (budgetBody service) s op) rid = some x := by
  apply execOne_induction (P := fun u => statusOf u rid = some x) _ hstatus
  intro u s' h
  rcases budgetBody_ok h with rfl | hchange
  · exact hstatus
  · exact statusOf_change hchange hstatus hx

theorem departures_eq_zero (hx : x ≠ .reserved) (ops : List BudgetOp) :
    ∀ {s : Store BudgetRow}, statusOf s rid = some x → departures service rid s ops = 0 := by
  induction ops with
  | nil =>
    intro s _
    rfl
  | cons op ops ih =>
    intro s hstatus
    unfold departures leftBy
    rw [ih (statusOf_step hstatus hx), if_neg]
    rintro ⟨hreserved, _⟩
    rw [hstatus] at hreserved
    exact hx (Option.some.inj hreserved)

theorem statusOf_step_ne_none (h : statusOf s rid ≠ none) :
    statusOf (execOne (budgetBody service) s op) rid ≠ none := by
  have hset : ∀ {u : Store BudgetRow} {k : BudgetKey} {r : BudgetRow k},
      statusOf u rid ≠ none → statusOf (u.set k (some r)) rid ≠ none := by
    intro u k r hu
    unfold statusOf at hu ⊢
    by_cases hk : BudgetKey.reservation rid = k
    · subst hk
      rw [Store.get_set_self]
      exact Option.some_ne_none _
    · rwa [Store.get_set_of_ne hk]
  apply execOne_induction (P := fun u => statusOf u rid ≠ none) _ h
  intro u s' hexec
  rcases budgetBody_ok hexec with rfl | hchange
  · exact h
  · cases hchange with
    | opened a meter hc => rw [hc.store]; exact hset (hset h)
    | reserved a meter cost hc => rw [hc.store]; exact hset (hset (hset h))
    | settled a meter reservation cost hc => rw [hc.closed.store]; exact hset (hset h)
    | released g rid' meter reservation hc => rw [hc.store]; exact hset (hset h)
    | markedUnknown g rid' meter reservation hc => rw [hc.store]; exact hset (hset h)
    | upgraded a meter target nextCost hc => rw [hc.store]; exact hset h

/-- **A reservation leaves the status reserved at most once**, in any run. -/
theorem departures_le_one (ops : List BudgetOp) :
    ∀ s : Store BudgetRow, departures service rid s ops ≤ 1 := by
  induction ops with
  | nil =>
    intro s
    exact Nat.zero_le 1
  | cons op ops ih =>
    intro s
    unfold departures leftBy
    split
    · next hleft =>
      -- It left in this step, and so has another status from now on.
      have hsome : statusOf (execOne (budgetBody service) s op) rid ≠ none := by
        apply statusOf_step_ne_none
        rw [hleft.1]
        exact Option.some_ne_none _
      obtain ⟨x, hx⟩ := Option.ne_none_iff_exists'.mp hsome
      rw [departures_eq_zero (x := x) _ ops hx]
      rintro rfl
      exact hleft.2 hx
    · rw [Nat.zero_add]
      exact ih _

/-! ### Runs -/

theorem BudgetInv.execOne (h : BudgetInv owner s n) (howner : UsesOwner owner op)
    (hexact : ExactStep s op) :
    BudgetInv owner (Txn.execOne (budgetBody service) s op)
      (addReturned n s (Txn.execOne (budgetBody service) s op) op) := by
  unfold Txn.execOne
  cases hexec : (budgetBody service op).exec s with
  | error e =>
    simp only
    rw [addReturned_self]
    exact h
  | ok x =>
    simp only
    rcases budgetBody_ok hexec with hsame | hchange
    · rw [hsame, addReturned_self]
      exact h
    · exact h.change hchange howner hexact

theorem BudgetInv.execAll (ops : List BudgetOp) :
    ∀ {s : Store BudgetRow} {n : String → ℤ}, BudgetInv owner s n →
      (∀ op ∈ ops, UsesOwner owner op) → EachStep service ExactStep s ops →
      BudgetInv owner (Txn.execAll (budgetBody service) s ops)
        fun g => n g + ragReturned service g s ops := by
  induction ops with
  | nil =>
    intro s n h _ _
    simpa [ragReturned] using h
  | cons op ops ih =>
    intro s n h howner hexact
    have hstep : BudgetInv owner (Txn.execOne (budgetBody service) s op) _ :=
      h.execOne (howner op (.head _)) hexact.1
    have hrest := ih hstep (fun op' hop => howner op' (.tail _ hop)) hexact.2
    have hn : (fun g => addReturned n s (Txn.execOne (budgetBody service) s op) op g
        + ragReturned service g (Txn.execOne (budgetBody service) s op) ops)
        = fun g => n g + ragReturned service g s (op :: ops) := by
      funext g
      exact add_assoc _ _ _
    rw [hn] at hrest
    exact hrest

/-- **Budget meter conservation.**  In every run of exact steps, each reservation being used
with the generation that owns it, the counters of every meter are the sums over the
reservations of its generation, none of them is negative, and every reservation leaves the
status reserved at most once. -/
theorem meter_conservation (service : BudgetMeterService) (owner : String → String)
    (ops : List BudgetOp) (howner : ∀ op ∈ ops, UsesOwner owner op)
    (hexact : EachStep service ExactStep ∅ ops) : Conserved service ops := by
  have hempty : BudgetInv owner ∅ fun _ => 0 := BudgetInv.empty
  have hinv := hempty.execAll ops howner hexact
  refine ⟨?_, ?_, fun rid => departures_le_one ops ∅⟩
  · intro g meter hget
    have hagrees := hinv.agrees g meter hget
    simp only [zero_add] at hagrees
    exact hagrees
  · intro g meter hget
    exact hinv.nonneg hget

/-! ### Runs of a few calls -/

/-- Limits of one RAG call, a hundred tokens and ten units of cost. -/
def sampleEffort : BudgetEffortPolicy where
  maxRagCalls := 1
  maxWallSeconds := 20
  maxTotalTokens := 100
  maxEstimatedCostAmount := ⟨false, 10, 0⟩
  candidateDocumentLimit := 5

/-- The same limits for every effort level. -/
def samplePolicy : BudgetMeterPolicy where
  efforts _ := some sampleEffort
  priceVersionId := "p"
  currencyCode := "EUR"

theorem samplePolicy_validate : samplePolicy.validate = .ok () := by
  have heffort : ∀ effort, samplePolicy.validateEffort effort = .ok () := by
    intro effort
    unfold BudgetMeterPolicy.validateEffort samplePolicy
    simp only
    rw [if_neg (by decide), if_neg (by decide +kernel)]
  unfold BudgetMeterPolicy.validate
  rw [if_neg (by decide), heffort, heffort, heffort]
  rfl

/-- A service with these limits. -/
def sampleService : BudgetMeterService := ⟨samplePolicy, samplePolicy_validate⟩

/-- The meter of the generation `"g"`. -/
def sampleMeter : BudgetOp :=
  .ensureMeter { generationId := "g", effortLevel := "quick", deadlineAtUtc := 1000, now := 0,
                 token := "t" }

/-- A reservation of fifty tokens and some cost for `"g"`. -/
def sampleReserve (reservationId : String) (cost : Decimal) : BudgetOp :=
  .reserve {
    generationId := "g"
    reservationId
    operationKind := "answer"
    estimatedTokens := 50
    estimatedCost := some (.finite cost)
    isRag := false
    requestFingerprint := reservationId
    now := 1 }

/-- A settlement of a reservation of `"g"`. -/
def sampleSettle (reservationId : String) (tokens : ℤ) (cost : Decimal) : BudgetOp :=
  .settle { generationId := "g", reservationId, actualTokens := tokens, actualCost := .finite cost }

/-- The second cost is rounded to zero by the column of the reservation, but its sum with the
first is rounded to 28 digits before the column of the meter rounds it, up. -/
def roundedReservations : List BudgetOp :=
  [sampleMeter, sampleReserve "r1" ⟨false, 1, 0⟩,
   sampleReserve "r2" ⟨false, 4999999999999999999, -29⟩]

theorem rounded_sum_not_conserved :
    (∀ op ∈ roundedReservations, UsesOwner (fun _ => "g") op) ∧
      ¬ Conserved sampleService roundedReservations := by
  have hmeter : ((execAll (budgetBody sampleService) ∅ roundedReservations).get (.meter "g")).map
      (fun m : MeterRow => m.reservedCostAmount) = some 10000000001 := by decide +kernel
  have hsum : sumOf (execAll (budgetBody sampleService) ∅ roundedReservations) "g" reservedCostOf
      = 10000000000 := by decide +kernel
  refine ⟨?_, fun hconserved => ?_⟩
  · intro op hop
    simp only [roundedReservations, List.mem_cons, List.not_mem_nil, or_false] at hop
    rcases hop with rfl | rfl | rfl
    · trivial
    · rfl
    · rfl
  · obtain ⟨meter, hget, hcost⟩ := Option.map_eq_some_iff.mp hmeter
    have hagrees := (hconserved.agrees "g" meter hget).reservedCost
    rw [hsum, hcost] at hagrees
    omega

/-- A reservation is made and settled for less than its estimate. -/
def sampleCalls : List BudgetOp :=
  [sampleMeter, sampleReserve "r1" ⟨false, 25, -1⟩, sampleSettle "r1" 40 ⟨false, 175, -2⟩]

/-- The store after the first calls. -/
def sampleStore (calls : ℕ) : Store BudgetRow :=
  execAll (budgetBody sampleService) ∅ (sampleCalls.take calls)

instance (x : ℚ) : Decidable (Kept x) := inferInstanceAs (Decidable (_ = _))

theorem meter_conservation_sample : Conserved sampleService sampleCalls := by
  apply meter_conservation sampleService (fun _ => "g")
  · intro op hop
    simp only [sampleCalls, List.mem_cons, List.not_mem_nil, or_false] at hop
    rcases hop with rfl | rfl | rfl
    · trivial
    · rfl
    · rfl
  · refine ⟨trivial, ?_, ?_, trivial⟩
    · rintro meter cost ⟨hfound, _, _, ⟨d, hd, rfl⟩, _⟩
      have hcost : ((sampleStore 1).get (.meter "g")).map
          (fun m : MeterRow => m.reservedCostAmount) = some 0 := by decide +kernel
      have hmeter : (sampleStore 1).get (.meter "g") = some meter := hfound
      rw [hmeter, Option.map_some, Option.some.injEq] at hcost
      cases hd
      rw [hcost]
      decide +kernel
    · intro meter reservation cost hfound hrow _ hd
      have hcosts : ((sampleStore 2).get (.meter "g")).map
          (fun m : MeterRow => (m.settledCostAmount, m.reservedCostAmount))
          = some (0, 25000000000) := by decide +kernel
      have hestimate : ((sampleStore 2).get (.reservation "r1")).map
          (fun r : ReservationRow => r.estimatedCostAmount) = some 25000000000 := by decide +kernel
      have hmeter : (sampleStore 2).get (.meter "g") = some meter := hfound
      have hreservation : (sampleStore 2).get (.reservation "r1") = some reservation := hrow
      rw [hmeter, Option.map_some, Option.some.injEq, Prod.mk.injEq] at hcosts
      rw [hreservation, Option.map_some, Option.some.injEq] at hestimate
      cases hd
      rw [hcosts.1, hcosts.2, hestimate]
      decide +kernel

end RagQs.Usage.Budget
