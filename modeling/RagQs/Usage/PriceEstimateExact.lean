import RagQs.Usage.PriceEstimateProof
import Mathlib.Algebra.Order.BigOperators.Group.List

/-!
# Exact cost estimates

The totals of the lines are exact but for the blocks that are counted, and the sum is exact as long
as the context has room for it; so an estimate is exact if no quotient is rounded to nothing.

## Main results

* `costAmount_ok`, `costAmount_error` — the amount of the lines that are known.
* `computeCost_eq_iff` — **when a cost is the exact one.**
* `exactCost_mono` — a larger quantity does not cost less.
-/

namespace RagQs.Usage.Pricing

open List Option

variable {s : CostStatus}

section Total

variable {ctx : Context} {r : Reading}

theorem Suits.counted_nonneg (hr : Suits ctx r) :
    0 ≤ countedBlocks ctx r * amountValue r.line.rate * 10 ^ 6 := by
  have hblocks : (0 : ℚ) ≤ countedBlocks ctx r := by exact_mod_cast hr.countedBlocks_nonneg
  exact mul_nonneg (mul_nonneg hblocks hr.rate_nonneg) (by norm_num)

theorem Suits.countedUnits_nonneg (hr : Suits ctx r) : 0 ≤ countedUnits ctx r := by
  unfold countedUnits
  split
  · exact le_rfl
  · exact RoundingMode.toInt_nonneg hr.counted_nonneg

theorem Suits.countedUnits_le (hr : Suits ctx r) : countedUnits ctx r ≤ exactUnits r := by
  have hle : (countedBlocks ctx r : ℚ) ≤ blocks r.line r.quantity.toRat := by
    exact_mod_cast hr.countedBlocks_le
  unfold countedUnits exactUnits
  split
  · exact le_rfl
  · refine RoundingMode.toInt_mono hr.counted_nonneg ?_
    have := mul_le_mul_of_nonneg_right hle hr.rate_nonneg
    linarith

theorem countedUnits_eq_iff :
    countedUnits ctx r = exactUnits r ↔ ¬ Lost ctx r := by
  unfold Lost countedUnits countedBlocks
  by_cases hzero : r.quantity.toRat = 0
  · rw [if_pos hzero]
    refine iff_of_true ?_ fun hlost => hlost.1 hzero
    unfold exactUnits
    rw [if_pos hzero]
  · rw [if_neg hzero]
    split
    · next hlow =>
      rw [Int.cast_zero, zero_mul, zero_mul, RoundingMode.toInt_zero]
      constructor
      · rintro h ⟨-, -, hne⟩
        exact hne h.symm
      · intro h
        by_contra hne
        exact h ⟨hzero, hlow, Ne.symm hne⟩
    · next hhigh =>
      refine iff_of_true ?_ fun hlost => hhigh hlost.2.1
      unfold exactUnits
      rw [if_neg hzero]

theorem Suits.countedUnits_le_max (hr : Suits ctx r) : countedUnits ctx r ≤ 10 ^ 44 := by
  unfold countedUnits
  split
  · norm_num
  · refine RoundingMode.toInt_le hr.counted_nonneg ?_
    have hcost := hr.cost_le (hr.countedBlocks_le.trans hr.blocks_le)
    push_cast
    linarith

theorem Suits.countedUnits_lt (hr : Suits ctx r) : countedUnits ctx r < 10 ^ capacity ctx := by
  refine hr.countedUnits_le_max.trans_lt (pow_lt_pow_right₀ (by norm_num) ?_)
  have := hr.capacity_le
  omega

/-- **The total of one line is exact**, but for the blocks that are counted. -/
theorem Suits.lineTotal_eq (hr : Suits ctx r) :
    lineTotal ctx r = .ok (countedUnits ctx r * 10 ^ (-6 : ℤ)) := by
  have hlt := hr.countedUnits_lt
  unfold countedUnits at hlt ⊢
  unfold lineTotal
  by_cases hzero : r.quantity.toRat = 0
  · rw [if_pos hzero, lineCost, if_pos hzero]
    change ctx.quantize _ (-6) 0 = _
    rw [hr.roomy.quantize_ok le_rfl (by simp), zero_mul, RoundingMode.toInt_zero]
  · rw [if_neg hzero] at hlt ⊢
    rw [hr.lineCost_eq hzero]
    have hblocks : (0 : ℚ) ≤ countedBlocks ctx r := by exact_mod_cast hr.countedBlocks_nonneg
    exact hr.roomy.quantize_ok (mul_nonneg hblocks hr.rate_nonneg) hlt

end Total

/-! ### The sum -/

section Sum

variable {ctx : Context} {rows : List Reading}

theorem Roomy.add_eq (hctx : Roomy ctx) {m n : ℤ} (hm : 0 ≤ m) (hn : 0 ≤ n)
    (h : m + n < 10 ^ capacity ctx) :
    ctx.add (m * 10 ^ (-6 : ℤ)) (n * 10 ^ (-6 : ℤ)) = .ok ((m + n : ℤ) * 10 ^ (-6 : ℤ)) := by
  have hprec := hctx.prec_le
  have hemin := hctx.emin
  have hsum : (0 : ℚ) ≤ (m + n : ℤ) := by exact_mod_cast add_nonneg hm hn
  unfold Context.add
  rw [← add_mul, ← Int.cast_add]
  refine Context.round_exact (by omega) (mul_nonneg hsum (Context.ten_zpow_pos _).le)
    ⟨m + n, -6, rfl, ?_, ?_⟩ (hctx.lt_emax h)
  · unfold Context.etiny
    omega
  · rw [abs_of_nonneg (add_nonneg hm hn)]
    exact (lt_prec h).le

theorem Roomy.fits_capacity (hctx : Roomy ctx) :
    ctx.Fits (10 ^ capacity ctx * 10 ^ (-6 : ℤ)) := by
  have hprec := hctx.prec_le
  have hemin := hctx.emin
  refine ⟨10 ^ capacity ctx, -6, by push_cast; rfl, ?_, ?_⟩
  · unfold Context.etiny
    omega
  · rw [abs_of_nonneg (by positivity)]
    exact pow_le_pow_right₀ (by norm_num) (min_le_left _ _)

theorem Roomy.le_of_add (hctx : Roomy ctx) {x y z : ℚ}
    (h : 10 ^ capacity ctx * 10 ^ (-6 : ℤ) ≤ x + y) (hz : ctx.add x y = .ok z) :
    10 ^ capacity ctx * 10 ^ (-6 : ℤ) ≤ z := by
  have hprec := hctx.prec_le
  have hpos : (0 : ℚ) < 10 ^ capacity ctx * 10 ^ (-6 : ℤ) :=
    mul_pos (by positivity) (Context.ten_zpow_pos _)
  unfold Context.add Context.round at hz
  split at hz
  · cases hz
  · cases hz
    exact Context.le_nearest (by omega) (hpos.trans_le h) hctx.fits_capacity h

theorem le_of_foldlM (hrows : ∀ r ∈ rows, Suits ctx r) (hctx : Roomy ctx) {x z : ℚ}
    (h : 10 ^ capacity ctx * 10 ^ (-6 : ℤ) ≤ x) (hz : rows.foldlM (addLine ctx) x = .ok z) :
    10 ^ capacity ctx * 10 ^ (-6 : ℤ) ≤ z := by
  induction rows generalizing x with
  | nil =>
    cases hz
    exact h
  | cons r rows ih =>
    rw [foldlM_cons] at hz
    obtain ⟨y, hy, hz⟩ := exists_of_bind_ok hz
    have hr := hrows r mem_cons_self
    refine ih (fun r' hr' => hrows r' (mem_cons_of_mem _ hr')) ?_ hz
    unfold addLine at hy
    rw [hr.lineTotal_eq] at hy
    refine hctx.le_of_add ?_ hy
    have hunits : (0 : ℚ) ≤ countedUnits ctx r := by exact_mod_cast hr.countedUnits_nonneg
    linarith [mul_nonneg hunits (Context.ten_zpow_pos (-6)).le]

/-- The sum of the totals, with the blocks that are counted. -/
def countedSum (ctx : Context) (rows : List Reading) : ℤ := (rows.map (countedUnits ctx)).sum

theorem countedSum_cons (r : Reading) (rows : List Reading) :
    countedSum ctx (r :: rows) = countedUnits ctx r + countedSum ctx rows := by
  unfold countedSum
  rw [map_cons, sum_cons]

theorem countedSum_nonneg (hrows : ∀ r ∈ rows, Suits ctx r) : 0 ≤ countedSum ctx rows :=
  sum_nonneg fun n hn => by
    obtain ⟨r, hr, rfl⟩ := List.mem_map.mp hn
    exact (hrows r hr).countedUnits_nonneg

/-- **The loop over the lines** returns the sum as long as there is room for it, and else nothing
below what there is room for. -/
theorem foldlM_addLine (hrows : ∀ r ∈ rows, Suits ctx r) (hctx : Roomy ctx) {m : ℤ} (hm : 0 ≤ m) :
    if m + countedSum ctx rows < 10 ^ capacity ctx then
      rows.foldlM (addLine ctx) (m * 10 ^ (-6 : ℤ))
        = .ok ((m + countedSum ctx rows : ℤ) * 10 ^ (-6 : ℤ))
    else ∀ z, rows.foldlM (addLine ctx) (m * 10 ^ (-6 : ℤ)) = .ok z →
      10 ^ capacity ctx * 10 ^ (-6 : ℤ) ≤ z := by
  induction rows generalizing m with
  | nil =>
    split
    · simp [countedSum]
      rfl
    · next h =>
      intro z hz
      cases hz
      refine mul_le_mul_of_nonneg_right ?_ (Context.ten_zpow_pos _).le
      simp only [countedSum, map_nil, sum_nil, add_zero, not_lt] at h
      exact_mod_cast h
  | cons r rows ih =>
    have hr := hrows r mem_cons_self
    have htail : ∀ r' ∈ rows, Suits ctx r' := fun r' hr' => hrows r' (mem_cons_of_mem _ hr')
    have hunits := hr.countedUnits_nonneg
    have hsum := countedSum_nonneg htail
    have hstep : addLine ctx (m * 10 ^ (-6 : ℤ)) r
        = ctx.add (m * 10 ^ (-6 : ℤ)) (countedUnits ctx r * 10 ^ (-6 : ℤ)) := by
      unfold addLine
      rw [hr.lineTotal_eq]
      rfl
    rw [countedSum_cons, foldlM_cons, hstep, ← add_assoc]
    by_cases hroom : m + countedUnits ctx r < 10 ^ capacity ctx
    · rw [hctx.add_eq hm hunits hroom]
      exact ih htail (add_nonneg hm hunits)
    · -- the sum has left the room at this line, and does not come back
      rw [if_neg (by omega)]
      intro z hz
      obtain ⟨y, hy, hz⟩ := exists_of_bind_ok hz
      refine le_of_foldlM htail hctx (hctx.le_of_add ?_ hy) hz
      rw [← add_mul, ← Int.cast_add]
      refine mul_le_mul_of_nonneg_right ?_ (Context.ten_zpow_pos _).le
      exact_mod_cast not_lt.mp hroom

/-- **The amount of the lines that are known**, when there is room for it. -/
theorem costAmount_ok (hrows : ∀ r ∈ rows, Suits ctx r) (hctx : Roomy ctx)
    (h : countedSum ctx rows < 10 ^ capacity ctx) :
    costAmount ctx rows = .ok (countedSum ctx rows / 10 ^ 6) := by
  have hnonneg := countedSum_nonneg hrows
  have hcast : (0 : ℚ) ≤ countedSum ctx rows := by exact_mod_cast hnonneg
  have hfold := foldlM_addLine hrows hctx le_rfl
  rw [if_pos (by rwa [zero_add]), zero_add, Int.cast_zero, zero_mul] at hfold
  have hscale : (countedSum ctx rows : ℚ) * 10 ^ (-6 : ℤ) * 10 ^ 6 = countedSum ctx rows := by
    rw [← div_quantum, mul_div_assoc, div_self (Context.ten_zpow_pos _).ne', mul_one]
  unfold costAmount
  rw [hfold]
  change ctx.quantize _ (-6) _ = _
  rw [hctx.quantize_ok (mul_nonneg hcast (Context.ten_zpow_pos _).le), hscale,
    RoundingMode.toInt_intCast hnonneg, zpow_neg, ← div_eq_mul_inv]
  · norm_num
  · rwa [hscale, RoundingMode.toInt_intCast hnonneg]

theorem costAmount_error (hrows : ∀ r ∈ rows, Suits ctx r) (hctx : Roomy ctx)
    (h : ¬ countedSum ctx rows < 10 ^ capacity ctx) : ∃ s, costAmount ctx rows = .error s := by
  have hfold := foldlM_addLine hrows hctx le_rfl
  rw [if_neg (by rwa [zero_add]), Int.cast_zero, zero_mul] at hfold
  unfold costAmount
  cases htotal : rows.foldlM (addLine ctx) 0 with
  | error s => exact ⟨s, rfl⟩
  | ok total => exact ⟨.invalidOperation, hctx.quantize_error (hfold total htotal)⟩

theorem countedSum_le (hrows : ∀ r ∈ rows, Suits ctx r) :
    countedSum ctx rows ≤ (rows.map exactUnits).sum :=
  sum_le_sum fun r hr => (hrows r hr).countedUnits_le

theorem countedSum_eq_iff (hrows : ∀ r ∈ rows, Suits ctx r) :
    countedSum ctx rows = (rows.map exactUnits).sum ↔ ∀ r ∈ rows, ¬ Lost ctx r := by
  constructor
  · intro h r hr hlost
    have hne : countedUnits ctx r ≠ exactUnits r := fun heq => countedUnits_eq_iff.mp heq hlost
    have hlt : countedSum ctx rows < (rows.map exactUnits).sum :=
      sum_lt_sum _ _ (fun r hr => (hrows r hr).countedUnits_le)
        ⟨r, hr, lt_of_le_of_ne (hrows r hr).countedUnits_le hne⟩
    omega
  · intro h
    unfold countedSum
    rw [map_congr_left fun r hr => countedUnits_eq_iff.mpr (h r hr)]

end Sum

/-! ### The cost -/

theorem writable_inj {m n : ℤ} (hm : 0 ≤ m) (hn : 0 ≤ n)
    (h : writable (m / 10 ^ 6) s = writable (n / 10 ^ 6) s) : m = n := by
  have hcancel : ∀ k : ℤ, (k : ℚ) / 10 ^ 6 * 10 ^ 6 = k := fun k => div_mul_cancel₀ _ (by norm_num)
  unfold writable at h
  split at h
  · split at h
    · injection h with h
      injection h with h
      injection h with _ _ hdetails _ _
      simp only [hcancel, Int.floor_intCast, List.cons.injEq, Prod.mk.injEq, Val.decimal.injEq,
        Decimal.mk.injEq, and_true, true_and] at hdetails
      omega
    · cases h
  · split at h
    · cases h
    · injection h with h
      injection h with h _
      injection h with h
      have := (div_left_inj' (by norm_num : (10 ^ 6 : ℚ) ≠ 0)).mp h
      exact_mod_cast this

theorem writable_ne_internal (x : ℚ) (s : CostStatus) (what : String) :
    writable x s ≠ .error (.internal what) := by
  unfold writable costExceedsLimit
  split <;> simp

variable {rows : List Reading}

/-- **When a cost is the exact one.** -/
theorem computeCost_eq_iff (hrows : ∀ r ∈ known rows, Suits (costContext rows) r) :
    computeCost rows = exactCost rows ↔ ExactOn rows := by
  have hctx := roomy_costContext rows
  have hnonneg := countedSum_nonneg hrows
  have hexact : 0 ≤ exactSum rows := hnonneg.trans (countedSum_le hrows)
  unfold computeCost exactCost ExactOn
  by_cases hnil : known rows = []
  · rw [if_pos hnil, if_pos hnil]
    refine iff_of_true rfl ⟨by simp [hnil], ?_⟩
    simp [exactSum, hnil]
  rw [if_neg hnil, if_neg hnil]
  by_cases hroom : countedSum (costContext rows) (known rows) < 10 ^ capacity (costContext rows)
  · rw [costAmount_ok hrows hctx hroom]
    constructor
    · intro h
      have hsum := writable_inj hnonneg hexact h
      exact ⟨(countedSum_eq_iff hrows).mp hsum, hsum ▸ hroom⟩
    · rintro ⟨hlost, -⟩
      have hsum : countedSum (costContext rows) (known rows) = exactSum rows :=
        (countedSum_eq_iff hrows).mpr hlost
      simp only [hsum]
  · obtain ⟨s, hs⟩ := costAmount_error hrows hctx hroom
    rw [hs]
    refine iff_of_false (writable_ne_internal _ _ _).symm fun h => hroom ?_
    exact (countedSum_le hrows).trans_lt h.2

/-! ### Statuses -/

theorem computeCost_status {amount : Option ℚ} (h : computeCost rows = .ok (amount, s)) :
    s = costStatus rows ∧ (amount = none ↔ known rows = []) := by
  unfold computeCost at h
  split at h
  · next hnil =>
    cases h
    exact ⟨rfl, iff_of_true rfl hnil⟩
  · next hne =>
    split at h
    · cases h
    · unfold writable at h
      split at h
      · cases h
      · cases h
        exact ⟨rfl, iff_of_false (some_ne_none _) hne⟩

theorem known_eq_nil : known rows = [] ↔ ∀ r ∈ rows, r.status = .unavailable := by
  unfold known
  rw [filter_eq_nil_iff]
  simp

theorem costStatus_eq_unavailable : costStatus rows = .unavailable ↔ known rows = [] := by
  unfold costStatus
  split
  · next h => exact iff_of_true rfl h
  · next h =>
    refine iff_of_false ?_ h
    split <;> nofun

theorem costStatus_eq_complete (hne : rows ≠ []) :
    costStatus rows = .complete ↔ ∀ r ∈ rows, r.status = .complete := by
  unfold costStatus
  split
  · next hnil =>
    refine iff_of_false nofun fun hall => ?_
    obtain ⟨r, hr⟩ := exists_mem_of_ne_nil rows hne
    have hstatus := known_eq_nil.mp hnil r hr
    rw [hall r hr] at hstatus
    cases hstatus
  · split
    · next hall => simpa using hall
    · next hall => simpa using hall

/-! ### Monotonicity -/

/-- One reading is not above another of the same line. -/
structure Below (r r' : Reading) : Prop where
  line : r.line = r'.line
  status : r.status = r'.status
  quantity : r.status ≠ .unavailable → r.quantity.toRat ≤ r'.quantity.toRat

theorem exactUnits_mono {ctx ctx' : Context} {r r' : Reading} (hr : Suits ctx r)
    (hr' : Suits ctx' r') (hline : r.line = r'.line)
    (hle : r.quantity.toRat ≤ r'.quantity.toRat) : exactUnits r ≤ exactUnits r' := by
  have hrate := hr.rate_nonneg
  unfold exactUnits
  by_cases hzero : r.quantity.toRat = 0
  · rw [if_pos hzero]
    split
    · exact le_rfl
    · refine RoundingMode.toInt_nonneg (mul_nonneg (mul_nonneg ?_ hr'.rate_nonneg) (by norm_num))
      exact_mod_cast hr'.blocks_nonneg
  · have hzero' : r'.quantity.toRat ≠ 0 := fun h =>
      hzero (le_antisymm (hle.trans h.le) hr.nonneg)
    rw [if_neg hzero, if_neg hzero', ← hline]
    have hblocks : blocks r.line r.quantity.toRat ≤ blocks r.line r'.quantity.toRat :=
      Int.ceil_le_ceil (div_le_div_of_nonneg_right (max_le_max hle le_rfl) hr.granularity_pos.le)
    have hcast : (blocks r.line r.quantity.toRat : ℚ) ≤ blocks r.line r'.quantity.toRat := by
      exact_mod_cast hblocks
    have hnonneg : (0 : ℚ) ≤ blocks r.line r.quantity.toRat := by exact_mod_cast hr.blocks_nonneg
    refine RoundingMode.toInt_mono (mul_nonneg (mul_nonneg hnonneg hrate) (by norm_num)) ?_
    exact mul_le_mul_of_nonneg_right (mul_le_mul_of_nonneg_right hcast hrate) (by norm_num)

/-- **A larger quantity does not cost less.** -/
theorem exactSum_mono {rows' : List Reading}
    (hrows : ∀ r ∈ known rows, Suits (costContext rows) r)
    (hrows' : ∀ r ∈ known rows', Suits (costContext rows') r)
    (hbelow : Forall₂ Below rows rows') : exactSum rows ≤ exactSum rows' := by
  have hfilter : Forall₂ Below (known rows) (known rows') := by
    refine rel_filter ?_ hbelow
    intro r r' h
    simp [h.status]
  refine Forall₂.sum_le_sum ?_
  rw [forall₂_map_left_iff, forall₂_map_right_iff]
  refine (forall₂_iff_zip.mpr ⟨hfilter.length_eq, fun {r r'} hmem => ?_⟩)
  have h := (forall₂_iff_zip.mp hfilter).2 hmem
  have hmem_left := (of_mem_zip hmem).1
  have hstatus := (mem_filter.mp hmem_left).2
  exact exactUnits_mono (hrows _ hmem_left) (hrows' _ (of_mem_zip hmem).2) h.line
    (h.quantity (of_decide_eq_true hstatus))

/-! ### Estimates -/

section Estimate

variable {price : PriceFacts} {measured measured' : List (String × MeasuredArg)}
  {availability : List (String × CostStatus)}

/-- **When an estimate is the exact cost.** -/
theorem estimateCost_eq_iff (hprice : ∀ l ∈ price.lines, StoredLine l) :
    estimateCost price measured availability = referenceCost price measured availability ↔
      Exact price measured availability := by
  unfold estimateCost referenceCost Exact
  cases hrows : readings price measured availability with
  | error e => exact iff_of_true rfl fun rows h => by cases h
  | ok rows =>
    refine (computeCost_eq_iff (suits_of_readings hprice hrows)).trans ?_
    constructor
    · rintro h rows' heq
      cases heq
      exact h
    · intro h
      exact h rows rfl

theorem forall_status_iff {rows : List Reading}
    (h : readings price measured availability = .ok rows) :
    (∀ r ∈ rows, r.status = s) ↔ ∀ l ∈ price.lines, availability.lookup l.meter = some s := by
  have hall := mapM_eq_ok_iff.mp (readings_ok h)
  clear h
  generalize price.lines = lines at hall
  induction hall with
  | nil => simp
  | cons hreading _ ih =>
    obtain ⟨-, hlookup, -⟩ := reading_ok hreading
    rw [forall_mem_cons, forall_mem_cons, hlookup, some_inj]
    exact and_congr_right fun _ => ih

/-- **The status of an estimate.** -/
theorem estimateCost_status {amount : Option ℚ} (hne : price.lines ≠ [])
    (h : estimateCost price measured availability = .ok (amount, s)) :
    (amount = none ↔ s = .unavailable) ∧
      (s = .unavailable ↔ ∀ l ∈ price.lines, availability.lookup l.meter = some .unavailable) ∧
      (s = .complete ↔ ∀ l ∈ price.lines, availability.lookup l.meter = some .complete) := by
  unfold estimateCost at h
  obtain ⟨rows, hrows, h⟩ := exists_of_bind_ok h
  obtain ⟨rfl, hamount⟩ := computeCost_status h
  have hnil : rows ≠ [] := by
    rintro rfl
    exact hne (forall₂_nil_right_iff.mp (mapM_eq_ok_iff.mp (readings_ok hrows)))
  refine ⟨hamount.trans costStatus_eq_unavailable.symm, ?_, ?_⟩
  · rw [costStatus_eq_unavailable, known_eq_nil, forall_status_iff hrows]
  · rw [costStatus_eq_complete hnil, forall_status_iff hrows]

/-- The quantities of the meters that are not unavailable are not above others. -/
def QuantitiesLe (price : PriceFacts) (availability : List (String × CostStatus))
    (measured measured' : List (String × MeasuredArg)) : Prop :=
  ∀ l ∈ price.lines, availability.lookup l.meter ≠ some .unavailable →
    ∀ q q', measuredQuantity measured l.meter = .ok q →
      measuredQuantity measured' l.meter = .ok q' → q.toRat ≤ q'.toRat

theorem below_of_readings {rows rows' : List Reading}
    (hle : QuantitiesLe price availability measured measured')
    (h : readings price measured availability = .ok rows)
    (h' : readings price measured' availability = .ok rows') : Forall₂ Below rows rows' := by
  have hall := mapM_eq_ok_iff.mp (readings_ok h)
  have hall' := mapM_eq_ok_iff.mp (readings_ok h')
  clear h h'
  unfold QuantitiesLe at hle
  generalize price.lines = lines at hle hall hall'
  induction hall generalizing rows' with
  | nil =>
    cases hall'
    exact .nil
  | cons hreading _ ih =>
    cases hall' with
    | cons hreading' hall' =>
      obtain ⟨hline, hlookup, hq⟩ := reading_ok hreading
      obtain ⟨hline', hlookup', hq'⟩ := reading_ok hreading'
      have hstatus := some_inj.mp (hlookup.symm.trans hlookup')
      refine .cons ⟨hline.trans hline'.symm, hstatus, fun hne => ?_⟩
        (ih (fun l hl => hle l (mem_cons_of_mem _ hl)) hall')
      refine hle _ mem_cons_self ?_ _ _ (hq hne).1 (hq' (hstatus ▸ hne)).1
      rw [hlookup]
      exact fun heq => hne (some_inj.mp heq)

theorem referenceCost_some {a : ℚ} (h : referenceCost price measured availability = .ok (some a, s)) :
    ∃ rows, readings price measured availability = .ok rows ∧ a = exactSum rows / 10 ^ 6 := by
  unfold referenceCost at h
  obtain ⟨rows, hrows, h⟩ := exists_of_bind_ok h
  refine ⟨rows, hrows, ?_⟩
  unfold exactCost at h
  split at h
  · cases h
  · unfold writable at h
    split at h
    · cases h
    · cases h
      rfl

/-- **The exact cost is monotone** in the quantities. -/
theorem referenceCost_mono (hprice : ∀ l ∈ price.lines, StoredLine l)
    (hle : QuantitiesLe price availability measured measured') {a a' : ℚ} {s' : CostStatus}
    (h : referenceCost price measured availability = .ok (some a, s))
    (h' : referenceCost price measured' availability = .ok (some a', s')) : a ≤ a' := by
  obtain ⟨rows, hrows, rfl⟩ := referenceCost_some h
  obtain ⟨rows', hrows', rfl⟩ := referenceCost_some h'
  have hsum := exactSum_mono (suits_of_readings hprice hrows) (suits_of_readings hprice hrows')
    (below_of_readings hle hrows hrows')
  refine div_le_div_of_nonneg_right ?_ (by norm_num)
  exact_mod_cast hsum

end Estimate

/-- **Estimates of a registered price**: exact but where a quotient is lost or there is no room for
the sum; with the status of the meters; and monotone where they are exact. -/
theorem estimate_exact {env : Env} {a : RegisterArgs} {row : PriceRow}
    (h : validateRegister env a = .ok row) :
    (∀ measured availability,
      estimateCost row.toPriceFacts measured availability
          = referenceCost row.toPriceFacts measured availability ↔
        Exact row.toPriceFacts measured availability) ∧
    (∀ measured availability amount s,
      estimateCost row.toPriceFacts measured availability = .ok (amount, s) →
        (amount = none ↔ s = .unavailable) ∧
        (s = .unavailable ↔ ∀ l ∈ row.lines, availability.lookup l.meter = some .unavailable) ∧
        (s = .complete ↔ ∀ l ∈ row.lines, availability.lookup l.meter = some .complete)) ∧
    ∀ measured measured' availability x x' s s',
      Exact row.toPriceFacts measured availability →
      Exact row.toPriceFacts measured' availability →
      QuantitiesLe row.toPriceFacts availability measured measured' →
      estimateCost row.toPriceFacts measured availability = .ok (some x, s) →
      estimateCost row.toPriceFacts measured' availability = .ok (some x', s') → x ≤ x' := by
  obtain ⟨hne, hlines⟩ := storedLine_of_register h
  refine ⟨fun measured availability => estimateCost_eq_iff hlines,
    fun measured availability amount s => estimateCost_status hne, ?_⟩
  intro measured measured' availability x x' s s' hexact hexact' hle hx hx'
  rw [(estimateCost_eq_iff hlines).mpr hexact] at hx
  rw [(estimateCost_eq_iff hlines).mpr hexact'] at hx'
  exact referenceCost_mono hlines hle hx hx'

/-- A price without a minimum. -/
def freeMinimum : RegisterArgs where
  provider := "openai"
  model := "m"
  operation := "chat"
  currencyCode := "USD"
  lines := [{
    meter := "input_tokens"
    unit := "token"
    rate := some (.finite ⟨false, 1, 0⟩)
    minimumBillableQuantity := 0 }]
  effectiveFromUtc := 0
  now := 0
  token := "1"

/-- The line of that price. -/
def freeLine : PriceLine := ⟨"input_tokens", "token", 10 ^ 10, 1, 0, .floor⟩

/-- The row of that price. -/
def freeRow : PriceRow :=
  newVersion freeMinimum ⟨"openai", "m", "chat"⟩ "USD" [freeLine] none

theorem validateRegister_freeMinimum : validateRegister sampleEnv freeMinimum = .ok freeRow := by
  rfl

theorem estimate_exact_freeMinimum :
    validateRegister sampleEnv freeMinimum = .ok freeRow ∧
      (∀ measured availability,
        estimateCost freeRow.toPriceFacts measured availability
            = referenceCost freeRow.toPriceFacts measured availability ↔
          Exact freeRow.toPriceFacts measured availability) :=
  ⟨validateRegister_freeMinimum, (estimate_exact validateRegister_freeMinimum).1⟩

/-- A quantity far below the least number of the context. -/
def tinyQuantity : Decimal := ⟨false, 1, -1000100⟩

theorem toRat_tinyQuantity : tinyQuantity.toRat = 10 ^ (-1000100 : ℤ) := by
  unfold tinyQuantity Decimal.toRat
  simp only [Bool.false_eq_true, if_false, Nat.cast_one, one_mul]

/-- The reading of that quantity. -/
def tinyReading : Reading := ⟨freeLine, .complete, tinyQuantity⟩

theorem readings_tiny : readings freeRow.toPriceFacts
    [("input_tokens", .decimal (.finite tinyQuantity))] [("input_tokens", .complete)]
      = .ok [tinyReading] := by
  have hmax : ¬ (maxQuantity : ℚ) < tinyQuantity.toRat := by
    rw [toRat_tinyQuantity, not_lt]
    calc (10 : ℚ) ^ (-1000100 : ℤ) ≤ 10 ^ (0 : ℤ) :=
          zpow_le_zpow_right₀ (by norm_num) (by norm_num)
      _ ≤ maxQuantity := by norm_num [maxQuantity]
  have hreading : reading [("input_tokens", .decimal (.finite tinyQuantity))]
      [("input_tokens", .complete)] freeLine = .ok tinyReading := by
    change (if (maxQuantity : ℚ) < tinyQuantity.toRat then _ else _) = _
    rw [if_neg hmax]
    rfl
  change (do let r ← reading _ _ freeLine; let rs ← pure []; pure (r :: rs)) = _
  rw [hreading]
  rfl

/-- **The block of a quantity that is too small is not billed**: whatever is positive takes a block,
but the quotient of this quantity is rounded to nothing. -/
theorem estimate_lost :
    validateRegister sampleEnv freeMinimum = .ok freeRow ∧
      estimateCost freeRow.toPriceFacts [("input_tokens", .decimal (.finite tinyQuantity))]
        [("input_tokens", .complete)] = .ok (some 0, .complete) ∧
      referenceCost freeRow.toPriceFacts [("input_tokens", .decimal (.finite tinyQuantity))]
        [("input_tokens", .complete)] = .ok (some 1, .complete) := by
  have hlines : ∀ l ∈ freeRow.lines, StoredLine l :=
    (storedLine_of_register validateRegister_freeMinimum).2
  have hsuits := suits_of_readings hlines readings_tiny
  have hknown : known [tinyReading] = [tinyReading] := by rfl
  have hstatus : costStatus [tinyReading] = .complete := by rfl
  have hctx : costContext [tinyReading] = ⟨61, -999999, 999999⟩ := by decide
  have hpos : (0 : ℚ) < 10 ^ (-1000100 : ℤ) := Context.ten_zpow_pos _
  have hquotient : billable freeLine tinyQuantity.toRat / freeLine.billingGranularity
      = 10 ^ (-1000100 : ℤ) := by
    unfold billable freeLine
    simp only [Nat.cast_zero, Nat.cast_one, div_one, toRat_tinyQuantity]
    exact max_eq_left hpos.le
  have hzero : tinyQuantity.toRat ≠ 0 := by
    rw [toRat_tinyQuantity]
    exact hpos.ne'
  have hblocks : blocks freeLine tinyQuantity.toRat = 1 := by
    unfold blocks
    rw [hquotient, Int.ceil_eq_iff]
    refine ⟨by norm_num [hpos], ?_⟩
    calc (10 : ℚ) ^ (-1000100 : ℤ) ≤ 10 ^ (0 : ℤ) :=
          zpow_le_zpow_right₀ (by norm_num) (by norm_num)
      _ = ((1 : ℤ) : ℚ) := by norm_num
  have hcounted : countedUnits ⟨61, -999999, 999999⟩ tinyReading = 0 := by
    unfold countedUnits countedBlocks tinyReading
    rw [if_neg hzero, hquotient, if_pos]
    · simp
    · have hstep : (10 : ℚ) ^ (-1000100 : ℤ) * 10 ^ (1 : ℤ) ≤ 10 ^ (-1000059 : ℤ) := by
        rw [← zpow_add₀ (by norm_num)]
        exact zpow_le_zpow_right₀ (by norm_num) (by norm_num)
      change _ ≤ (10 : ℚ) ^ (-1000059 : ℤ) / 2
      rw [zpow_one] at hstep
      linarith
  have hexact : exactUnits tinyReading = 10 ^ 6 := by
    unfold exactUnits tinyReading
    rw [if_neg hzero, hblocks]
    norm_num [freeLine, roundings, RoundingMode.toInt, amountValue]
  refine ⟨validateRegister_freeMinimum, ?_, ?_⟩
  · unfold estimateCost
    rw [readings_tiny]
    change computeCost [tinyReading] = _
    have hsum : countedSum (costContext [tinyReading]) [tinyReading] = 0 := by
      rw [hctx, countedSum_cons, hcounted]
      rfl
    unfold computeCost
    rw [hknown, if_neg (List.cons_ne_nil _ _), costAmount_ok (hknown ▸ hsuits)
      (roomy_costContext _) (by rw [hsum]; positivity), hsum, hstatus]
    norm_num [writable]
  · unfold referenceCost
    rw [readings_tiny]
    change exactCost [tinyReading] = _
    have hsum : exactSum [tinyReading] = 10 ^ 6 := by
      unfold exactSum
      rw [hknown, List.map_singleton, List.sum_singleton, hexact]
    unfold exactCost
    rw [hknown, if_neg (List.cons_ne_nil _ _), hsum, hstatus]
    norm_num [writable]

end RagQs.Usage.Pricing
