import Mathlib.Algebra.Order.BigOperators.Group.List
import Mathlib.Tactic.Linarith
import RagQs.Machine.Run
import RagQs.Usage.Budget

/-!
# The logical budget of a generation

The worker asks a meter in memory before each operation.  A reservation takes the estimated tokens
and the estimated price of an operation, and is handed back, by its price, with what the operation
took.

## Main definitions

* `BudgetMeter.gate`, `reserve`, `reconcile`, `upgradePolicy` — the calls.
* `Desk` — a meter and the reservations that are outstanding.
* `Covered` — what a call must find, for the totals to stay within the policy.

## Main results

* `logicalBudget_bounded` — the totals stay within the policy in every run of such calls.
* `logicalBudget_exceeded` — they do not in every run: the gate leaves out the cost already spent,
  and equal prices are taken for each other.
-/

namespace RagQs.Chat

open List Option

open Usage.Budget (Effort)

/-! ### The meter -/

/-- `RAG_OPERATION_KINDS` -/
def ragOperationKinds : List String := ["retrieval", "rewrite", "tree"]

/-- `BUDGET_REASONS` -/
inductive BudgetReason
  | budgetExhausted
  | costUnavailable

/-- `BudgetPolicy`, valid: `__post_init__` refuses the others.  A price is none when the pricer
has none, or none that is a number. -/
structure BudgetPolicy where
  effortLevel : Effort
  maxRagCalls : ℕ
  maxTotalTokens : ℤ
  maxEstimatedCostAmount : ℚ
  pricer : String → ℤ → Option ℚ
  ragCalls_pos : 1 ≤ maxRagCalls
  tokens_pos : 1 ≤ maxTotalTokens
  cost_pos : 0 < maxEstimatedCostAmount

structure BudgetMeter where
  policy : BudgetPolicy
  ragCallsUsed : ℕ := 0
  tokensUsed : ℤ := 0
  tokensConsumed : ℤ := 0
  tokensReserved : ℤ := 0
  costReserved : ℚ := 0
  costSpent : ℚ := 0
  deadline : Option Time := none
  upgradedOnce : Bool := false
  pendingReservations : List (ℚ × ℤ) := []

namespace BudgetMeter

/-- `_price` -/
def price (meter : BudgetMeter) (operation : String) (tokens : ℤ) : Option ℚ :=
  (meter.policy.pricer operation (max tokens 0)).filter (0 ≤ ·)

def gate (meter : BudgetMeter) (operation : String) (estimatedTokens : ℤ) (now : Time) :
    Option BudgetReason :=
  if operation ∈ ragOperationKinds ∧ meter.policy.maxRagCalls ≤ meter.ragCallsUsed then
    some .budgetExhausted
  else if meter.deadline.any (· ≤ now) then
    some .budgetExhausted
  else if meter.policy.maxTotalTokens <
      meter.tokensConsumed + meter.tokensReserved + max estimatedTokens 0 then
    some .budgetExhausted
  else
    match meter.price operation estimatedTokens with
    | none => some .costUnavailable
    | some estimate =>
      -- the cost already spent is not part of the sum
      if meter.policy.maxEstimatedCostAmount < meter.costReserved + estimate then
        some .budgetExhausted
      else none

/-- The reservation and the meter that holds it. -/
def reserve (meter : BudgetMeter) (operation : String) (estimatedTokens : ℤ) (now : Time) :
    Except BudgetReason (ℚ × BudgetMeter) :=
  match meter.gate operation estimatedTokens now with
  | some reason => .error reason
  | none =>
    let estimate := (meter.price operation estimatedTokens).getD 0
    let tokens := max estimatedTokens 0
    .ok (estimate,
      { meter with
        ragCallsUsed :=
          if operation ∈ ragOperationKinds then meter.ragCallsUsed + 1 else meter.ragCallsUsed
        tokensUsed := meter.tokensUsed + tokens
        tokensReserved := meter.tokensReserved + tokens
        costReserved := meter.costReserved + estimate
        pendingReservations := meter.pendingReservations ++ [(estimate, tokens)] })

/-- The first reservation of a price. -/
def pendingAt (meter : BudgetMeter) (reserved : ℚ) : Option (ℚ × ℤ) :=
  meter.pendingReservations.find? (·.1 = reserved)

def reconcile (meter : BudgetMeter) (reserved : ℚ) (actualTokens : ℤ) (actualCost : ℚ) :
    BudgetMeter :=
  let actual := max actualTokens 0
  { meter with
    tokensReserved :=
      match meter.pendingAt reserved with
      | some pending => max (meter.tokensReserved - pending.2) 0
      | none => meter.tokensReserved
    pendingReservations := meter.pendingReservations.eraseP (·.1 = reserved)
    tokensUsed := meter.tokensUsed + actual
    tokensConsumed := meter.tokensConsumed + actual
    costReserved := max (meter.costReserved - reserved) 0
    costSpent := meter.costSpent + max actualCost 0 }

/-- The upgrade is taken: to the next effort level, and only once. -/
def Upgrades (meter : BudgetMeter) (policy : BudgetPolicy) : Prop :=
  meter.upgradedOnce = false ∧ policy.effortLevel ≠ meter.policy.effortLevel ∧
    meter.policy.effortLevel.upgrades = some policy.effortLevel

instance (meter : BudgetMeter) (policy : BudgetPolicy) : Decidable (meter.Upgrades policy) :=
  inferInstanceAs (Decidable (_ ∧ _ ∧ _))

def upgradePolicy (meter : BudgetMeter) (policy : BudgetPolicy) (resetUsage : Bool) :
    Bool × BudgetMeter :=
  if meter.Upgrades policy then
    (true,
      { meter with
        policy
        upgradedOnce := true
        ragCallsUsed := if resetUsage then 0 else meter.ragCallsUsed
        tokensUsed := if resetUsage then 0 else meter.tokensUsed })
  else (false, meter)

theorem gate_eq_none {meter : BudgetMeter} {operation : String} {tokens : ℤ} {now : Time}
    (h : meter.gate operation tokens now = none) :
    meter.tokensConsumed + meter.tokensReserved + max tokens 0 ≤ meter.policy.maxTotalTokens ∧
      ∃ estimate, meter.price operation tokens = some estimate ∧ 0 ≤ estimate := by
  unfold gate at h
  split_ifs at h with hcalls hdeadline htokens
  refine ⟨not_lt.mp htokens, ?_⟩
  cases hprice : meter.price operation tokens with
  | none => simp [hprice] at h
  | some estimate =>
    refine ⟨estimate, rfl, ?_⟩
    have hfilter := filter_eq_some_iff.mp hprice
    exact of_decide_eq_true hfilter.2

end BudgetMeter

/-! ### Runs of calls -/

/-- A meter, and the reservations handed out and not yet handed back: their prices and tokens. -/
structure Desk where
  meter : BudgetMeter
  outstanding : List (ℚ × ℤ) := []

/-- One call.  A reservation is handed back at most once, with at most what it reserved. -/
inductive BudgetCall
  | gate (operation : String) (estimatedTokens : ℤ) (now : Time)
  | reserve (operation : String) (estimatedTokens : ℤ) (now : Time)
  | reconcile (i : ℕ) (actualTokens : ℤ) (actualCost : ℚ)
  | upgradePolicy (policy : BudgetPolicy) (resetUsage : Bool)

namespace Desk

/-- The desk of a new meter. -/
def start (policy : BudgetPolicy) (deadline : Option Time) : Desk :=
  { meter := { policy, deadline } }

def tokensOut (desk : Desk) : ℤ := (desk.outstanding.map Prod.snd).sum

def costOut (desk : Desk) : ℚ := (desk.outstanding.map Prod.fst).sum

def step (desk : Desk) : BudgetCall → Option Desk
  | .gate _ _ _ => some desk
  | .reserve operation tokens now =>
    match desk.meter.reserve operation tokens now with
    | .error _ => some desk
    | .ok (estimate, meter) =>
      some { meter, outstanding := desk.outstanding ++ [(estimate, max tokens 0)] }
  | .reconcile i actualTokens actualCost =>
    match desk.outstanding[i]? with
    | none => none
    | some r =>
      if actualTokens ≤ r.2 ∧ actualCost ≤ r.1 then
        some
          { meter := desk.meter.reconcile r.1 actualTokens actualCost
            outstanding := desk.outstanding.eraseIdx i }
      else none
  | .upgradePolicy policy resetUsage =>
    some { desk with meter := (desk.meter.upgradePolicy policy resetUsage).2 }

/-- The totals fit a policy. -/
def Fits (desk : Desk) (policy : BudgetPolicy) : Prop :=
  desk.meter.tokensConsumed + desk.tokensOut ≤ policy.maxTotalTokens ∧
    desk.meter.costSpent + desk.costOut ≤ policy.maxEstimatedCostAmount

instance (desk : Desk) (policy : BudgetPolicy) : Decidable (desk.Fits policy) :=
  inferInstanceAs (Decidable (_ ∧ _))

/-- What a call must find: the price of an operation that the gate lets through fits beside what is
spent and reserved; the reservation the meter drops for the one handed back is no larger than it,
but for what the meter holds in excess; and an upgrade that is taken has room for the totals. -/
def Covered (desk : Desk) : BudgetCall → Prop
  | .gate _ _ _ => True
  | .reserve operation tokens now =>
    desk.meter.gate operation tokens now = none →
      ∀ estimate ∈ desk.meter.price operation tokens,
        desk.meter.costSpent + desk.meter.costReserved + estimate ≤
          desk.meter.policy.maxEstimatedCostAmount
  | .reconcile i _ _ =>
    ∀ r ∈ desk.outstanding[i]?, ∀ pending ∈ desk.meter.pendingAt r.1,
      pending.2 ≤ r.2 + (desk.meter.tokensReserved - desk.tokensOut)
  | .upgradePolicy policy _ => desk.meter.Upgrades policy → desk.Fits policy

instance (desk : Desk) (call : BudgetCall) : Decidable (desk.Covered call) := by
  cases call <;> unfold Covered <;> infer_instance

/-! ### The invariant -/

structure Inv (desk : Desk) : Prop where
  fits : desk.Fits desk.meter.policy
  costReserved : desk.meter.costReserved = desk.costOut
  covers : desk.tokensOut ≤ desk.meter.tokensReserved
  nonneg : ∀ r ∈ desk.outstanding, 0 ≤ r.1 ∧ 0 ≤ r.2

theorem sum_eraseIdx {M : Type} [AddCommMonoid M] (f : ℚ × ℤ → M) {l : List (ℚ × ℤ)}
    {i : ℕ} {r : ℚ × ℤ} (h : l[i]? = some r) : f r + ((l.eraseIdx i).map f).sum = (l.map f).sum := by
  obtain ⟨hi, rfl⟩ := List.getElem?_eq_some_iff.mp h
  have hperm := ((getElem_cons_eraseIdx_perm hi).map f).sum_eq
  simpa using hperm

theorem inv_reserve {desk t : Desk} {operation : String} {tokens : ℤ} {now : Time}
    (h : desk.Inv) (hc : desk.Covered (.reserve operation tokens now))
    (ht : desk.step (.reserve operation tokens now) = some t) : t.Inv := by
  simp only [step, BudgetMeter.reserve] at ht
  cases hgate : desk.meter.gate operation tokens now with
  | some reason =>
    rw [hgate] at ht
    cases ht
    exact h
  | none =>
    rw [hgate] at ht
    obtain ⟨hroom, estimate, hprice, hestimate⟩ := BudgetMeter.gate_eq_none hgate
    have hcost := hc hgate estimate hprice
    have hcovers := h.covers
    rw [hprice] at ht
    cases ht
    -- both sums grow by the new reservation, and so does what the meter holds
    refine ⟨⟨?_, ?_⟩, ?_, ?_, ?_⟩
    · simp only [tokensOut, map_append, sum_append] at hcovers ⊢
      simp only [map_cons, map_nil, sum_cons, sum_nil]
      omega
    · rw [h.costReserved] at hcost
      simp only [costOut, map_append, sum_append] at hcost ⊢
      simp only [getD_some, map_cons, map_nil, sum_cons, sum_nil]
      linarith
    · have hreserved := h.costReserved
      simp only [costOut] at hreserved ⊢
      simp [hreserved]
    · simp only [tokensOut] at hcovers ⊢
      simp only [map_append, sum_append, map_cons, map_nil, sum_cons,
        sum_nil]
      omega
    · intro r hr
      rcases mem_append.mp hr with hr | hr
      · exact h.nonneg r hr
      · obtain rfl := mem_singleton.mp hr
        exact ⟨hestimate, le_max_right _ _⟩

theorem inv_reconcile {desk t : Desk} {i : ℕ} {actualTokens : ℤ} {actualCost : ℚ}
    (h : desk.Inv) (hc : desk.Covered (.reconcile i actualTokens actualCost))
    (ht : desk.step (.reconcile i actualTokens actualCost) = some t) : t.Inv := by
  simp only [step] at ht
  cases hr : desk.outstanding[i]? with
  | none => simp [hr] at ht
  | some r =>
    simp only [hr] at ht
    split_ifs at ht with hactual
    cases ht
    obtain ⟨hcost, htokens⟩ := h.nonneg r (List.mem_of_getElem? hr)
    have hsumCost := sum_eraseIdx Prod.fst hr
    have hsumTokens := sum_eraseIdx Prod.snd hr
    have hfits := h.fits
    refine ⟨⟨?_, ?_⟩, ?_, ?_, ?_⟩
    · have := hfits.1
      simp only [tokensOut, BudgetMeter.reconcile] at this ⊢
      omega
    · have := hfits.2
      have hle : max actualCost 0 ≤ r.1 := max_le hactual.2 hcost
      simp only [costOut, BudgetMeter.reconcile] at this ⊢
      linarith
    · -- the other prices are not negative, so the sum is not cut off at zero
      have hrest : 0 ≤ ((desk.outstanding.eraseIdx i).map Prod.fst).sum := by
        apply sum_nonneg
        intro x hx
        obtain ⟨q, hq, rfl⟩ := List.mem_map.mp hx
        exact (h.nonneg q (mem_of_mem_eraseIdx hq)).1
      have hreserved := h.costReserved
      simp only [costOut, BudgetMeter.reconcile] at hreserved ⊢
      rw [hreserved, ← hsumCost, add_sub_cancel_left]
      exact max_eq_left hrest
    · have hcovers := h.covers
      have hdrop := hc r hr
      simp only [tokensOut, BudgetMeter.reconcile] at hcovers hdrop ⊢
      cases hpending : desk.meter.pendingAt r.1 with
      | none =>
        simp only
        omega
      | some pending =>
        have := hdrop pending hpending
        simp only
        omega
    · intro q hq
      exact h.nonneg q (mem_of_mem_eraseIdx hq)

theorem inv_upgradePolicy {desk t : Desk} {policy : BudgetPolicy} {resetUsage : Bool}
    (h : desk.Inv) (hc : desk.Covered (.upgradePolicy policy resetUsage))
    (ht : desk.step (.upgradePolicy policy resetUsage) = some t) : t.Inv := by
  simp only [step, BudgetMeter.upgradePolicy] at ht
  by_cases hup : desk.meter.Upgrades policy
  · rw [if_pos hup] at ht
    cases ht
    exact ⟨hc hup, h.costReserved, h.covers, h.nonneg⟩
  · rw [if_neg hup] at ht
    cases ht
    exact h

theorem inv_step (desk : Desk) (call : BudgetCall) (t : Desk) (h : desk.Inv)
    (hc : desk.Covered call) (ht : desk.step call = some t) : t.Inv := by
  cases call with
  | gate => exact some.inj ht ▸ h
  | reserve => exact inv_reserve h hc ht
  | reconcile => exact inv_reconcile h hc ht
  | upgradePolicy => exact inv_upgradePolicy h hc ht

theorem inv_init (policy : BudgetPolicy) (deadline : Option Time) :
    (start policy deadline).Inv where
  fits := by
    have htokens := policy.tokens_pos
    have hcost := policy.cost_pos
    constructor
    · show (0 : ℤ) + 0 ≤ policy.maxTotalTokens
      omega
    · show (0 : ℚ) + 0 ≤ policy.maxEstimatedCostAmount
      linarith
  costReserved := rfl
  covers := le_refl _
  nonneg := by simp [start]

end Desk

/-- **The totals of a logical budget stay within its policy**, in every run whose calls find what
they must. -/
theorem logicalBudget_bounded {policy : BudgetPolicy} {deadline : Option Time}
    {ms : List BudgetCall} {desk : Desk}
    (hms : Machine.Moves Desk.step Desk.Covered (.start policy deadline) ms)
    (hdesk : Machine.Reaches Desk.step (.start policy deadline) ms desk) :
    desk.Fits desk.meter.policy :=
  (Machine.reaches_preserves Desk.inv_step (Desk.inv_init policy deadline) hms hdesk).fits

/-- Ten units of cost and a hundred tokens, and every operation costs four. -/
def flatPolicy (effortLevel : Effort) : BudgetPolicy where
  effortLevel
  maxRagCalls := 8
  maxTotalTokens := 100
  maxEstimatedCostAmount := 10
  pricer := fun _ _ => some 4
  ragCalls_pos := by decide
  tokens_pos := by decide
  cost_pos := by decide

/-- Two reservations of one price are handed back in the order they were made. -/
def inOrder : List BudgetCall :=
  [.reserve "retrieval" 40 0, .reserve "tree" 10 0, .reconcile 0 30 3, .upgradePolicy
    (flatPolicy .think) false, .reconcile 0 10 2, .reserve "non_rag" 60 1]

theorem logicalBudget_bounded_inOrder :
    ∃ desk, Machine.run Desk.step (.start (flatPolicy .quick) none) inOrder = some desk ∧
      desk.outstanding = [(4, 60)] ∧ desk.Fits desk.meter.policy := by
  have hrun : (Machine.run Desk.step (.start (flatPolicy .quick) none) inOrder).any
      (fun desk => desk.outstanding = [(4, 60)]) = true := by decide +kernel
  obtain ⟨desk, hdesk, hout⟩ := (Option.any_eq_true _ _).mp hrun
  have htest : ∀ (desk : Desk) (call : BudgetCall), decide (desk.Covered call) = true →
      desk.Covered call := fun _ _ h => of_decide_eq_true h
  have hms : Machine.Moves Desk.step Desk.Covered (.start (flatPolicy .quick) none) inOrder :=
    Machine.moves_of_checks htest (by decide +kernel)
  exact ⟨desk, hdesk, of_decide_eq_true hout,
    logicalBudget_bounded hms ⟨inOrder, List.prefix_refl _, hdesk⟩⟩

/-- A reservation of four is spent, and two more are made: twelve. -/
def spentTwice : List BudgetCall :=
  [.reserve "retrieval" 10 0, .reconcile 0 10 4, .reserve "retrieval" 10 0,
    .reserve "retrieval" 10 0]

/-- The smaller of two reservations of one price is handed back, and the meter drops the larger. -/
def takenForAnother : List BudgetCall :=
  [.reserve "retrieval" 80 0, .reserve "retrieval" 10 0, .reconcile 1 0 0,
    .reserve "retrieval" 80 0]

theorem logicalBudget_exceeded :
    ¬ (∀ (policy : BudgetPolicy) (deadline : Option Time) (ms : List BudgetCall) (desk : Desk),
        Machine.run Desk.step (.start policy deadline) ms = some desk →
          desk.meter.costSpent + desk.costOut ≤ desk.meter.policy.maxEstimatedCostAmount) ∧
      ¬ (∀ (policy : BudgetPolicy) (deadline : Option Time) (ms : List BudgetCall) (desk : Desk),
        Machine.run Desk.step (.start policy deadline) ms = some desk →
          desk.meter.tokensConsumed + desk.tokensOut ≤ desk.meter.policy.maxTotalTokens) := by
  constructor
  · intro h
    have hrun : (Machine.run Desk.step (.start (flatPolicy .think) none) spentTwice).any
        (fun desk => desk.meter.policy.maxEstimatedCostAmount <
          desk.meter.costSpent + desk.costOut) = true := by decide +kernel
    obtain ⟨desk, hdesk, hover⟩ := (Option.any_eq_true _ _).mp hrun
    exact absurd (h _ _ _ desk hdesk) (not_le.mpr (of_decide_eq_true hover))
  · intro h
    have hrun : (Machine.run Desk.step (.start (flatPolicy .think) none) takenForAnother).any
        (fun desk => desk.meter.policy.maxTotalTokens <
          desk.meter.tokensConsumed + desk.tokensOut) = true := by decide +kernel
    obtain ⟨desk, hdesk, hover⟩ := (Option.any_eq_true _ _).mp hrun
    exact absurd (h _ _ _ desk hdesk) (not_le.mpr (of_decide_eq_true hover))

end RagQs.Chat
