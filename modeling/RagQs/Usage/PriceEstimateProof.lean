import RagQs.Usage.PriceEstimate

/-!
# What a cost estimate is exact about

## Main results

* `storedLine_of_register` — the bounds of what the catalogue stores.
* `lineTotal_eq` — the total of one line, with the blocks that are counted.
-/

namespace RagQs

open List

variable {measured : List (String × MeasuredArg)} {availability : List (String × CostStatus)}

theorem mapM_eq_ok_iff {ε α β : Type} {f : α → Except ε β} {l : List α} {bs : List β} :
    l.mapM f = .ok bs ↔ Forall₂ (fun a b => f a = .ok b) l bs := by
  induction l generalizing bs with
  | nil =>
    rw [mapM_nil, forall₂_nil_left_iff]
    constructor
    · intro h
      exact (Except.ok.inj h).symm
    · rintro rfl
      rfl
  | cons a l ih =>
    rw [mapM_cons, forall₂_cons_left_iff]
    constructor
    · intro h
      obtain ⟨b, hb, h⟩ := exists_of_bind_ok h
      obtain ⟨bs', hbs, h⟩ := exists_of_bind_ok h
      cases h
      exact ⟨b, bs', hb, ih.mp hbs, rfl⟩
    · rintro ⟨b, bs', hb, hbs, rfl⟩
      rw [hb, ih.mpr hbs]
      rfl

theorem exists_of_mem_mapM {ε α β : Type} {f : α → Except ε β} {l : List α} {bs : List β}
    (h : l.mapM f = .ok bs) : ∀ b ∈ bs, ∃ a ∈ l, f a = .ok b := by
  have hall := mapM_eq_ok_iff.mp h
  induction hall with
  | nil => simp
  | cons hab _ ih =>
    intro b hb
    rcases mem_cons.mp hb with rfl | hb
    · exact ⟨_, mem_cons_self, hab⟩
    · obtain ⟨a, ha, hfa⟩ := ih (mapM_eq_ok_iff.mpr ‹_›) b hb
      exact ⟨a, mem_cons_of_mem _ ha, hfa⟩

namespace Usage.Pricing

/-! ### What the catalogue stores -/

/-- The bounds of a line the catalogue stores. -/
structure StoredLine (l : PriceLine) : Prop where
  rate_nonneg : 0 ≤ l.rate
  rate_lt : l.rate < 10 ^ 30
  granularity_pos : 1 ≤ l.billingGranularity
  granularity_le : (l.billingGranularity : ℤ) ≤ int32Max
  minimum_le : (l.minimumBillableQuantity : ℤ) ≤ int32Max

theorem lt_pow_digits (n : ℕ) : n < 10 ^ (Nat.toDigits 10 n).length :=
  (Nat.length_toDigits_le_iff (by norm_num) Nat.length_toDigits_pos).mp le_rfl

theorem coerceRate_ok {rate : Option DecimalArg} {m : Money} (h : coerceRate rate = .ok m) :
    0 ≤ m ∧ m < 10 ^ 30 := by
  unfold coerceRate at h
  split at h
  · cases h
  · cases h
  · next r =>
    split at h
    · cases h
    · split at h
      · cases h
      · next hexp =>
        split at h
        · cases h
        · next hdigits =>
          cases h
          unfold digitCount at hdigits
          refine ⟨by positivity, ?_⟩
          have hlen : (Nat.toDigits 10 r.coeff).length + (r.exp + 10).toNat ≤ 30 := by omega
          have hlt : r.coeff * 10 ^ (r.exp + 10).toNat < 10 ^ 30 :=
            calc r.coeff * 10 ^ (r.exp + 10).toNat
                < 10 ^ (Nat.toDigits 10 r.coeff).length * 10 ^ (r.exp + 10).toNat :=
                  Nat.mul_lt_mul_of_pos_right (lt_pow_digits _) (by positivity)
              _ = 10 ^ ((Nat.toDigits 10 r.coeff).length + (r.exp + 10).toNat) := (pow_add ..).symm
              _ ≤ 10 ^ 30 := Nat.pow_le_pow_right (by norm_num) hlen
          exact_mod_cast hlt

theorem coerceInt_ok {value minimum : ℤ} {name : String} {n : ℕ}
    (h : coerceInt value name minimum = .ok n) (hmin : 0 ≤ minimum) :
    minimum ≤ n ∧ (n : ℤ) ≤ int32Max := by
  unfold coerceInt at h
  split at h
  · cases h
  · split at h
    · cases h
    · cases h
      omega

theorem storedLine_of_parse {line : LineInput} {l : PriceLine} (h : parseLine line = .ok l) :
    StoredLine l := by
  unfold parseLine at h
  obtain ⟨meter, -, h⟩ := exists_of_bind_ok h
  obtain ⟨unit, -, h⟩ := exists_of_bind_ok h
  obtain ⟨rate, hrate, h⟩ := exists_of_bind_ok h
  obtain ⟨granularity, hgranularity, h⟩ := exists_of_bind_ok h
  obtain ⟨minimum, hminimum, h⟩ := exists_of_bind_ok h
  obtain ⟨hnonneg, hlt⟩ := coerceRate_ok hrate
  obtain ⟨hpos, hle⟩ := coerceInt_ok hgranularity (by norm_num)
  obtain ⟨-, hmin⟩ := coerceInt_ok hminimum le_rfl
  split at h
  · cases h
  · cases h
    exact ⟨hnonneg, hlt, by exact_mod_cast hpos, hle, hmin⟩

theorem storedLine_of_parseLines {lines : List LineInput} {parsed : List PriceLine}
    (h : parseLines lines = .ok parsed) : parsed ≠ [] ∧ ∀ l ∈ parsed, StoredLine l := by
  unfold parseLines at h
  cases lines with
  | nil => cases h
  | cons line lines =>
    obtain ⟨parsed', hparsed, h⟩ := exists_of_bind_ok h
    split at h
    · cases h
      refine ⟨?_, fun l hl => ?_⟩
      · rintro rfl
        cases mapM_eq_ok_iff.mp hparsed
      · obtain ⟨line', -, hline⟩ := exists_of_mem_mapM hparsed l hl
        exact storedLine_of_parse hline
    · cases h

/-- **What a registration stores**: at least one line, and lines within the bounds. -/
theorem storedLine_of_register {env : Env} {a : RegisterArgs} {row : PriceRow}
    (h : validateRegister env a = .ok row) : row.lines ≠ [] ∧ ∀ l ∈ row.lines, StoredLine l := by
  unfold validateRegister at h
  obtain ⟨provider, -, h⟩ := exists_of_bind_ok h
  obtain ⟨model, -, h⟩ := exists_of_bind_ok h
  obtain ⟨operation, -, h⟩ := exists_of_bind_ok h
  obtain ⟨currency, -, h⟩ := exists_of_bind_ok h
  obtain ⟨parsed, hparsed, h⟩ := exists_of_bind_ok h
  obtain ⟨supersedes, -, h⟩ := exists_of_bind_ok h
  cases h
  obtain ⟨hne, hall⟩ := storedLine_of_parseLines hparsed
  have hperm := perm_insertionSort (fun x y : PriceLine => x.meter ≤ y.meter) parsed
  exact ⟨fun hnil => hne (hperm.symm.trans (hnil ▸ Perm.refl _)).eq_nil,
    fun l hl => hall l (hperm.mem_iff.mp hl)⟩

/-! ### Readings -/

/-- The bounds of a reading that goes into a cost, in the context of the computation. -/
structure Suits (ctx : Context) (r : Reading) : Prop where
  line : StoredLine r.line
  nonneg : 0 ≤ r.quantity.toRat
  le_max : r.quantity.toRat ≤ maxQuantity
  digits : ∃ n, 1 ≤ n ∧ r.quantity.coeff < 10 ^ n ∧ n + 60 ≤ ctx.prec
  emin : ctx.emin = -999999
  emax : ctx.emax = 999999

theorem measuredQuantity_ok {meter : String} {q : Decimal}
    (h : measuredQuantity measured meter = .ok q) : 0 ≤ q.toRat := by
  unfold measuredQuantity at h
  split at h
  · cases h
  · cases h
  · cases h
  · split at h
    · cases h
    · next hsign =>
      cases h
      unfold Decimal.toRat
      split
      · next hneg =>
        have hzero : q.coeff = 0 := by_contra fun hne => hsign ⟨hneg, hne⟩
        simp [hzero]
      · exact mul_nonneg (Nat.cast_nonneg _) (Context.ten_zpow_pos _).le

theorem reading_ok {l : PriceLine} {r : Reading} (h : reading measured availability l = .ok r) :
    r.line = l ∧ availability.lookup l.meter = some r.status ∧
      (r.status ≠ .unavailable → measuredQuantity measured l.meter = .ok r.quantity ∧
        r.quantity.toRat ≤ maxQuantity) := by
  unfold reading at h
  obtain ⟨status, hstatus, h⟩ := exists_of_bind_ok h
  have hlookup : availability.lookup l.meter = some status := by
    unfold lineStatus at hstatus
    split at hstatus
    · cases hstatus
    · cases hstatus
      assumption
  split at h
  · next hunavailable =>
    cases h
    exact ⟨rfl, hlookup, fun hne => absurd hunavailable hne⟩
  · obtain ⟨q, hq, h⟩ := exists_of_bind_ok h
    split at h
    · cases h
    · next hmax =>
      cases h
      exact ⟨rfl, hlookup, fun _ => ⟨hq, not_lt.mp hmax⟩⟩

theorem readings_ok {price : PriceFacts} {rows : List Reading}
    (h : readings price measured availability = .ok rows) :
    price.lines.mapM (reading measured availability) = .ok rows := by
  unfold readings at h
  obtain ⟨_, -, h⟩ := exists_of_bind_ok h
  exact h

theorem le_foldl_max {α : Type} (f : α → ℕ) (l : List α) (n : ℕ) :
    n ≤ l.foldl (fun m a => max m (f a)) n ∧ ∀ a ∈ l, f a ≤ l.foldl (fun m a => max m (f a)) n := by
  induction l generalizing n with
  | nil => simp
  | cons b l ih =>
    obtain ⟨hle, hall⟩ := ih (max n (f b))
    rw [foldl_cons]
    refine ⟨(le_max_left _ _).trans hle, fun a ha => ?_⟩
    rcases mem_cons.mp ha with rfl | ha
    · exact (le_max_right _ _).trans hle
    · exact hall a ha

theorem suits_of_readings {price : PriceFacts} {rows : List Reading}
    (hprice : ∀ l ∈ price.lines, StoredLine l) (h : readings price measured availability = .ok rows) :
    ∀ r ∈ known rows, Suits (costContext rows) r := by
  intro r hr
  obtain ⟨hmem, hstatus⟩ := mem_filter.mp hr
  obtain ⟨l, hl, hreading⟩ := exists_of_mem_mapM (readings_ok h) r hmem
  obtain ⟨rfl, -, hq⟩ := reading_ok hreading
  obtain ⟨hquantity, hmax⟩ := hq (of_decide_eq_true hstatus)
  refine ⟨hprice _ hl, measuredQuantity_ok hquantity, hmax, ?_, rfl, rfl⟩
  refine ⟨(Nat.toDigits 10 r.quantity.coeff).length, Nat.length_toDigits_pos, lt_pow_digits _, ?_⟩
  have hle := (le_foldl_max (fun r : Reading => (Nat.toDigits 10 r.quantity.coeff).length)
    (known rows) 1).2 r hr
  have hprec : (costContext rows).prec = max 60 (maxQuantityDigits rows + rateMaxDigits + 30) := rfl
  unfold maxQuantityDigits rateMaxDigits at hprec
  omega

/-! ### The blocks of one line -/

section Line

variable {ctx : Context} {r : Reading}

theorem Suits.prec_le (hr : Suits ctx r) : 61 ≤ ctx.prec := by
  obtain ⟨n, hpos, -, hprec⟩ := hr.digits
  omega

theorem Suits.etiny_le (hr : Suits ctx r) : ctx.etiny ≤ -1000059 := by
  have hprec := hr.prec_le
  have hemin := hr.emin
  unfold Context.etiny
  omega

theorem Suits.billable_nonneg (hr : Suits ctx r) : 0 ≤ billable r.line r.quantity.toRat :=
  hr.nonneg.trans (le_max_left _ _)

theorem Suits.billable_pos (hr : Suits ctx r) (hne : r.quantity.toRat ≠ 0) :
    0 < billable r.line r.quantity.toRat :=
  (lt_of_le_of_ne hr.nonneg hne.symm).trans_le (le_max_left _ _)

theorem Suits.billable_le (hr : Suits ctx r) : billable r.line r.quantity.toRat ≤ 10 ^ 18 := by
  refine max_le ?_ ?_
  · exact hr.le_max.trans_eq (by norm_num [maxQuantity])
  · have hmin : r.line.minimumBillableQuantity ≤ 10 ^ 18 := by
      have := hr.line.minimum_le
      unfold int32Max at this
      omega
    exact_mod_cast hmin

theorem Suits.granularity_pos (hr : Suits ctx r) : (0 : ℚ) < r.line.billingGranularity := by
  exact_mod_cast hr.line.granularity_pos

theorem Suits.quotient_le (hr : Suits ctx r) :
    billable r.line r.quantity.toRat / r.line.billingGranularity ≤ 10 ^ 18 := by
  have hone : (1 : ℚ) ≤ r.line.billingGranularity := by exact_mod_cast hr.line.granularity_pos
  exact (div_le_self hr.billable_nonneg hone).trans hr.billable_le

theorem Suits.billable_eq (hr : Suits ctx r) :
    ∃ (m : ℕ) (e : ℤ) (n : ℕ), billable r.line r.quantity.toRat = m * 10 ^ e ∧
      n + 60 ≤ ctx.prec ∧ (m < 10 ^ n ∨ e = 0) := by
  obtain ⟨n, -, hlt, hprec⟩ := hr.digits
  rcases max_choice r.quantity.toRat (r.line.minimumBillableQuantity : ℚ) with hmax | hmax
  · rcases Bool.eq_false_or_eq_true r.quantity.neg with hneg | hneg
    · have hzero : r.quantity.toRat = 0 := by
        refine le_antisymm ?_ hr.nonneg
        have hcoeff : (0 : ℚ) ≤ r.quantity.coeff * 10 ^ r.quantity.exp :=
          mul_nonneg (Nat.cast_nonneg _) (Context.ten_zpow_pos _).le
        unfold Decimal.toRat
        rw [if_pos hneg, neg_mul]
        exact neg_nonpos.mpr hcoeff
      exact ⟨0, 0, n, by rw [billable, hmax, hzero]; simp, hprec, .inr rfl⟩
    · exact ⟨r.quantity.coeff, r.quantity.exp, n, by
        rw [billable, hmax, Decimal.toRat, if_neg (by simp [hneg])], hprec, .inl hlt⟩
  · exact ⟨r.line.minimumBillableQuantity, 0, n, by rw [billable, hmax]; simp, hprec, .inr rfl⟩

end Line

theorem le_fract {m g : ℕ} {e : ℤ} {x : ℚ} (hg : 0 < g) (hx : x = m * 10 ^ e / g)
    (hne : x ≠ ⌊x⌋) : 10 ^ min e 0 / g ≤ x - ⌊x⌋ := by
  have hgpos : (0 : ℚ) < g := by exact_mod_cast hg
  have hp := Context.ten_zpow_pos (min e 0)
  obtain ⟨a, ha⟩ := Context.exists_int_of_le (m := m) (min_le_left e 0)
  obtain ⟨b, hb⟩ := Context.exists_int_of_le (m := g * ⌊x⌋) (min_le_right e 0)
  rw [div_eq_iff hp.ne'] at ha hb
  have hsub : x - ⌊x⌋ = (a - b) * 10 ^ min e 0 / g := by
    rw [eq_div_iff hgpos.ne', sub_mul, sub_mul, ← ha, ← hb]
    nth_rewrite 1 [hx]
    rw [div_mul_cancel₀ _ hgpos.ne']
    push_cast
    ring
  have hpos : 0 < x - ⌊x⌋ := sub_pos.mpr (lt_of_le_of_ne (Int.floor_le x) hne.symm)
  rw [hsub] at hpos ⊢
  have hdiff : (0 : ℚ) < a - b := by
    by_contra hle
    have : ((a : ℚ) - b) * 10 ^ min e 0 / g ≤ 0 :=
      div_nonpos_of_nonpos_of_nonneg (mul_nonpos_of_nonpos_of_nonneg (not_lt.mp hle) hp.le) hgpos.le
    linarith
  have hone : (1 : ℚ) ≤ a - b := by
    have : 0 < a - b := by exact_mod_cast hdiff
    exact_mod_cast this
  exact div_le_div_of_nonneg_right (le_mul_of_one_le_left hp.le hone) hgpos.le

section Line

variable {ctx : Context} {r : Reading}

theorem Suits.place_le (hr : Suits ctx r) (hne : r.quantity.toRat ≠ 0) {n : ℕ}
    (hn : n + 60 ≤ ctx.prec) :
    ctx.place (billable r.line r.quantity.toRat / r.line.billingGranularity) ≤ -n - 41 := by
  have hpos := div_pos (hr.billable_pos hne) hr.granularity_pos
  rw [Context.place_of_pos ctx hpos]
  have hlog : Int.log 10 (billable r.line r.quantity.toRat / r.line.billingGranularity) ≤ 18 := by
    have hself := (Context.zpow_log_le hpos).trans hr.quotient_le
    have hpow : (10 : ℚ) ^ (18 : ℕ) = 10 ^ (18 : ℤ) := by norm_num
    rw [hpow] at hself
    exact (zpow_le_zpow_iff_right₀ (by norm_num)).mp hself
  have hemin := hr.emin
  unfold Context.etiny
  omega

/-- **The blocks that are counted are the exact ones**, unless the quotient is rounded to nothing:
the precision is beyond the digits of every quantity and every granularity. -/
theorem Suits.ceil_nearest (hr : Suits ctx r) (hne : r.quantity.toRat ≠ 0) :
    ⌈ctx.nearest (billable r.line r.quantity.toRat / r.line.billingGranularity)⌉ =
      if billable r.line r.quantity.toRat / r.line.billingGranularity ≤ 10 ^ ctx.etiny / 2 then 0
      else blocks r.line r.quantity.toRat := by
  have hpos := div_pos (hr.billable_pos hne) hr.granularity_pos
  have hprec := hr.prec_le
  obtain ⟨m, e, n, hbillable, hn, hdigits⟩ := hr.billable_eq
  have hplace := hr.place_le hne hn
  refine Context.ceil_nearest (by omega) hpos (by omega) fun hone hint => ?_
  have hfract := le_fract hr.line.granularity_pos (congrArg (· / _) hbillable) hint
  have hexp : -(n : ℤ) ≤ e := by
    rcases hdigits with hlt | rfl
    · by_contra hlow
      have hsmall : (m : ℚ) * 10 ^ e < 1 :=
        calc (m : ℚ) * 10 ^ e ≤ 10 ^ n * 10 ^ e := by
              refine mul_le_mul_of_nonneg_right ?_ (Context.ten_zpow_pos e).le
              exact_mod_cast hlt.le
          _ = 10 ^ (n + e) := by rw [← zpow_natCast, ← zpow_add₀ (by norm_num)]
          _ < 10 ^ (0 : ℤ) := zpow_lt_zpow_right₀ (by norm_num) (by omega)
          _ = 1 := zpow_zero _
      have hgran : (1 : ℚ) ≤ r.line.billingGranularity := by
        exact_mod_cast hr.line.granularity_pos
      rw [one_le_div hr.granularity_pos, hbillable] at hone
      linarith
    · omega
  have hgran : (r.line.billingGranularity : ℚ) ≤ 10 ^ (10 : ℤ) := by
    have hle := hr.line.granularity_le
    unfold int32Max at hle
    have hnat : r.line.billingGranularity ≤ 10 ^ 10 := by omega
    exact_mod_cast hnat
  refine lt_of_lt_of_le ?_ hfract
  rw [lt_div_iff₀ hr.granularity_pos]
  calc (10 : ℚ) ^ ctx.place (billable r.line r.quantity.toRat / r.line.billingGranularity) / 2
        * r.line.billingGranularity
      ≤ 10 ^ (-(n : ℤ) - 41) / 2 * 10 ^ (10 : ℤ) := by
        have hten : (1 : ℚ) ≤ 10 := by norm_num
        refine mul_le_mul ?_ hgran hr.granularity_pos.le (half_pos (Context.ten_zpow_pos _)).le
        exact div_le_div_of_nonneg_right (zpow_le_zpow_right₀ hten hplace) zero_le_two
    _ = 10 ^ (-(n : ℤ) - 31) / 2 := by
        rw [div_mul_eq_mul_div, ← zpow_add₀ (by norm_num)]
        ring_nf
    _ < 10 ^ (-(n : ℤ) - 31) := half_lt_self (Context.ten_zpow_pos _)
    _ ≤ 10 ^ min e 0 := zpow_le_zpow_right₀ (by norm_num) (by omega)

/-! ### The total of one line -/

/-- The blocks that the computation counts. -/
def countedBlocks (ctx : Context) (r : Reading) : ℤ :=
  if billable r.line r.quantity.toRat / r.line.billingGranularity ≤ 10 ^ ctx.etiny / 2 then 0
  else blocks r.line r.quantity.toRat

/-- The total of one line in units of `10⁻⁶`, with the blocks that are counted. -/
def countedUnits (ctx : Context) (r : Reading) : ℤ :=
  if r.quantity.toRat = 0 then 0
  else (roundings r.line.roundingRule).toInt
    (countedBlocks ctx r * amountValue r.line.rate * 10 ^ 6)

theorem Suits.blocks_nonneg (hr : Suits ctx r) : 0 ≤ blocks r.line r.quantity.toRat :=
  Int.ceil_nonneg (div_nonneg hr.billable_nonneg hr.granularity_pos.le)

theorem Suits.blocks_le (hr : Suits ctx r) : blocks r.line r.quantity.toRat ≤ 10 ^ 18 := by
  have hle : blocks r.line r.quantity.toRat ≤ ((10 ^ 18 : ℤ)) := by
    refine Int.ceil_le.mpr ?_
    exact_mod_cast hr.quotient_le
  exact hle

theorem Suits.countedBlocks_nonneg (hr : Suits ctx r) : 0 ≤ countedBlocks ctx r := by
  unfold countedBlocks
  split
  · exact le_rfl
  · exact hr.blocks_nonneg

theorem Suits.countedBlocks_le (hr : Suits ctx r) :
    countedBlocks ctx r ≤ blocks r.line r.quantity.toRat := by
  unfold countedBlocks
  split
  · exact hr.blocks_nonneg
  · exact le_rfl

theorem Suits.rate_nonneg (hr : Suits ctx r) : 0 ≤ amountValue r.line.rate := by
  have := amountValue_le.mpr hr.line.rate_nonneg
  rwa [amountValue_zero] at this

theorem Suits.rate_le (hr : Suits ctx r) : amountValue r.line.rate ≤ 10 ^ 20 := by
  have hrate : (r.line.rate : ℚ) ≤ 10 ^ 30 := by exact_mod_cast hr.line.rate_lt.le
  unfold amountValue
  rw [div_le_iff₀ (by norm_num)]
  exact hrate.trans_eq (by norm_num)

theorem Suits.cost_le (hr : Suits ctx r) {n : ℤ} (hle : n ≤ 10 ^ 18) :
    n * amountValue r.line.rate ≤ 10 ^ 38 := by
  have hn : (n : ℚ) ≤ 10 ^ 18 := by exact_mod_cast hle
  calc n * amountValue r.line.rate ≤ 10 ^ 18 * 10 ^ 20 :=
        mul_le_mul hn hr.rate_le hr.rate_nonneg (by norm_num)
    _ = 10 ^ 38 := by norm_num

theorem Suits.capacity_le (hr : Suits ctx r) : 61 ≤ capacity ctx := by
  have hprec := hr.prec_le
  have hemax := hr.emax
  unfold capacity
  omega

theorem Suits.lt_emax (hr : Suits ctx r) {x : ℚ} (h : x ≤ 10 ^ 38) : x < 10 ^ (ctx.emax + 1) := by
  have hpow : (10 : ℚ) ^ (38 : ℕ) = 10 ^ (38 : ℤ) := by norm_num
  refine h.trans_lt ?_
  rw [hpow]
  have hemax := hr.emax
  exact zpow_lt_zpow_right₀ (by norm_num) (by omega)

theorem Suits.div_eq (hr : Suits ctx r) (hne : r.quantity.toRat ≠ 0) :
    ctx.div (billable r.line r.quantity.toRat) r.line.billingGranularity
      = .ok (ctx.nearest (billable r.line r.quantity.toRat / r.line.billingGranularity)) := by
  have hpos := div_pos (hr.billable_pos hne) hr.granularity_pos
  have hceil := (hr.ceil_nearest hne).trans_le (hr.countedBlocks_le.trans hr.blocks_le)
  have hle :
      ctx.nearest (billable r.line r.quantity.toRat / r.line.billingGranularity) ≤ 10 ^ 18 := by
    exact_mod_cast Int.ceil_le.mp hceil
  unfold Context.div Context.round
  rw [if_neg hr.granularity_pos.ne', abs_of_nonneg (Context.nearest_nonneg ctx hpos.le), if_neg]
  exact not_le.mpr (hr.lt_emax (hle.trans (by norm_num)))

/-- **The cost of one line is exact**, but for the blocks that are counted. -/
theorem Suits.lineCost_eq (hr : Suits ctx r) (hne : r.quantity.toRat ≠ 0) :
    lineCost ctx r.line r.quantity.toRat
      = .ok (countedBlocks ctx r * amountValue r.line.rate) := by
  have hceil : ⌈ctx.nearest (billable r.line r.quantity.toRat / r.line.billingGranularity)⌉
      = countedBlocks ctx r := hr.ceil_nearest hne
  have hle := hr.countedBlocks_le.trans hr.blocks_le
  have hnonneg := hr.countedBlocks_nonneg
  unfold lineCost
  rw [if_neg hne, hr.div_eq hne]
  change ctx.mul ⌈ctx.nearest _⌉ _ = _
  rw [hceil]
  refine Context.round_exact (by have := hr.prec_le; omega) ?_ ?_ (hr.lt_emax (hr.cost_le hle))
  · exact mul_nonneg (by exact_mod_cast hnonneg) hr.rate_nonneg
  · refine ⟨countedBlocks ctx r * r.line.rate, -10, ?_, ?_, ?_⟩
    · unfold amountValue
      rw [zpow_neg]
      push_cast
      rw [mul_div_assoc', div_eq_mul_inv]
      norm_num
    · have := hr.etiny_le
      omega
    · rw [abs_of_nonneg (mul_nonneg hnonneg hr.line.rate_nonneg)]
      calc countedBlocks ctx r * r.line.rate ≤ 10 ^ 18 * 10 ^ 30 :=
            mul_le_mul hle hr.line.rate_lt.le hr.line.rate_nonneg (by norm_num)
        _ = 10 ^ 48 := by norm_num
        _ ≤ 10 ^ ctx.prec := by
            have := hr.prec_le
            exact pow_le_pow_right₀ (by norm_num) (by omega)

end Line

/-! ### Rounding to a multiple of `10⁻⁶` -/

section Quantize

variable {ctx : Context} {mode : RoundingMode} {x : ℚ}

theorem div_quantum (x : ℚ) : x / 10 ^ (-6 : ℤ) = x * 10 ^ 6 := by
  rw [zpow_neg, div_inv_eq_mul]
  norm_num

/-- A context with room for sums. -/
structure Roomy (ctx : Context) : Prop where
  prec_le : 61 ≤ ctx.prec
  emin : ctx.emin = -999999
  emax : ctx.emax = 999999

theorem Suits.roomy {r : Reading} (hr : Suits ctx r) : Roomy ctx := ⟨hr.prec_le, hr.emin, hr.emax⟩

theorem roomy_costContext (rows : List Reading) : Roomy (costContext rows) := by
  refine ⟨?_, rfl, rfl⟩
  have hle := (le_foldl_max (fun r : Reading => (Nat.toDigits 10 r.quantity.coeff).length)
    (known rows) 1).1
  have hprec : (costContext rows).prec = max 60 (maxQuantityDigits rows + rateMaxDigits + 30) := rfl
  unfold maxQuantityDigits rateMaxDigits at hprec
  omega

theorem Roomy.lt_emax (hctx : Roomy ctx) {n : ℤ} (h : n < 10 ^ capacity ctx) :
    (n : ℚ) * 10 ^ (-6 : ℤ) < 10 ^ (ctx.emax + 1) := by
  have hcap : capacity ctx ≤ (ctx.emax + 7).toNat := min_le_right _ _
  have hn : (n : ℚ) < 10 ^ (ctx.emax + 7) := by
    have hemax := hctx.emax
    calc (n : ℚ) < 10 ^ capacity ctx := by exact_mod_cast h
      _ ≤ 10 ^ (ctx.emax + 7).toNat := pow_le_pow_right₀ (by norm_num) hcap
      _ = 10 ^ (ctx.emax + 7) := by rw [← zpow_natCast, Int.toNat_of_nonneg (by omega)]
  calc (n : ℚ) * 10 ^ (-6 : ℤ) < 10 ^ (ctx.emax + 7) * 10 ^ (-6 : ℤ) :=
        mul_lt_mul_of_pos_right hn (Context.ten_zpow_pos _)
    _ = 10 ^ (ctx.emax + 1) := by
        rw [← zpow_add₀ (by norm_num)]
        ring_nf

theorem lt_prec {n : ℤ} (h : n < 10 ^ capacity ctx) : n < 10 ^ ctx.prec :=
  h.trans_le (pow_le_pow_right₀ (by norm_num) (min_le_left _ _))

theorem Roomy.quantize_ok (hctx : Roomy ctx) (hx : 0 ≤ x)
    (h : mode.toInt (x * 10 ^ 6) < 10 ^ capacity ctx) :
    ctx.quantize mode (-6) x = .ok (mode.toInt (x * 10 ^ 6) * 10 ^ (-6 : ℤ)) := by
  have hn : 0 ≤ mode.toInt (x * 10 ^ 6) := RoundingMode.toInt_nonneg (by positivity)
  have hcast : (0 : ℚ) ≤ mode.toInt (x * 10 ^ 6) := by exact_mod_cast hn
  have hprec := hctx.prec_le
  have hemin := hctx.emin
  have hemax := hctx.emax
  have hetiny : ctx.etiny ≤ -1000059 := by
    unfold Context.etiny
    omega
  unfold Context.quantize
  simp only [div_quantum]
  rw [if_neg]
  rintro (hlow | hhigh | hlarge | hdigits)
  · omega
  · omega
  · rw [abs_of_nonneg (mul_nonneg hcast (Context.ten_zpow_pos _).le)] at hlarge
    exact absurd (hctx.lt_emax h) (not_lt.mpr hlarge)
  · rw [abs_of_nonneg hn] at hdigits
    exact absurd (lt_prec h) (not_lt.mpr hdigits)

theorem Roomy.quantize_error (hctx : Roomy ctx) (hx : 10 ^ capacity ctx * 10 ^ (-6 : ℤ) ≤ x) :
    ctx.quantize .halfUp (-6) x = .error .invalidOperation := by
  have hpos : (0 : ℚ) ≤ 10 ^ capacity ctx * 10 ^ (-6 : ℤ) :=
    mul_nonneg (by positivity) (Context.ten_zpow_pos _).le
  have hscaled : (10 : ℚ) ^ capacity ctx ≤ x * 10 ^ 6 := by
    rw [← div_quantum, le_div_iff₀ (Context.ten_zpow_pos _)]
    exact hx
  have hn : 10 ^ capacity ctx ≤ RoundingMode.halfUp.toInt (x * 10 ^ 6) := by
    have hmono : RoundingMode.halfUp.toInt ((10 ^ capacity ctx : ℤ) : ℚ)
        ≤ RoundingMode.halfUp.toInt (x * 10 ^ 6) :=
      RoundingMode.toInt_mono (by positivity) (by exact_mod_cast hscaled)
    rwa [RoundingMode.toInt_intCast (by positivity)] at hmono
  have hnonneg : 0 ≤ RoundingMode.halfUp.toInt (x * 10 ^ 6) := le_trans (by positivity) hn
  unfold Context.quantize
  simp only [div_quantum]
  refine if_pos (.inr (.inr ?_))
  rcases min_choice ctx.prec (ctx.emax + 7).toNat with hmin | hmin
  · right
    rw [abs_of_nonneg hnonneg, ← hmin]
    exact hn
  · left
    have hcast : (10 : ℚ) ^ capacity ctx ≤ RoundingMode.halfUp.toInt (x * 10 ^ 6) := by
      exact_mod_cast hn
    have hemax := hctx.emax
    rw [abs_of_nonneg (mul_nonneg (by exact_mod_cast hnonneg) (Context.ten_zpow_pos _).le)]
    calc (10 : ℚ) ^ (ctx.emax + 1) = 10 ^ capacity ctx * 10 ^ (-6 : ℤ) := by
          rw [capacity, hmin, ← zpow_natCast, Int.toNat_of_nonneg (by omega),
            ← zpow_add₀ (by norm_num)]
          ring_nf
      _ ≤ RoundingMode.halfUp.toInt (x * 10 ^ 6) * 10 ^ (-6 : ℤ) :=
          mul_le_mul_of_nonneg_right hcast (Context.ten_zpow_pos _).le

end Quantize

end Usage.Pricing
end RagQs
