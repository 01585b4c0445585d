import RagQs.Platform.Decimal

/-!
# Decimal arithmetic in a context

The result of an operation on decimals is the exact one, rounded to the precision of the context,
half to even; a number too small for the exponents of the context is rounded to the least place
there is.  Only the value of a number matters for the value of a result, so a decimal is here a
rational number.

## Main definitions

* `Context` — the precision and the exponents.
* `Context.round`, `Context.add`, `Context.mul`, `Context.div` — the operations.
* `RoundingMode`, `Context.quantize` — rounding to a place that is given.

## Main results

* `Context.round_exact` — what fits the precision is kept.
* `Context.le_nearest`, `Context.nearest_le` — rounding does not cross what fits.
* `Context.nearest_pos_iff` — what is not rounded to nothing.
-/

namespace RagQs

variable {n : ℤ}

/-! ### Rounding to integers -/

theorem roundHalfEven_intCast (n : ℤ) : roundHalfEven n = n := by
  unfold roundHalfEven
  rw [Int.floor_intCast, sub_self, if_pos (by norm_num)]

theorem floor_le_roundHalfEven (x : ℚ) : ⌊x⌋ ≤ roundHalfEven x := by
  unfold roundHalfEven
  split
  · exact le_refl _
  · split
    · omega
    · split <;> omega

theorem roundHalfEven_le_floor_add_one (x : ℚ) : roundHalfEven x ≤ ⌊x⌋ + 1 := by
  unfold roundHalfEven
  split
  · omega
  · split
    · exact le_refl _
    · split <;> omega

theorem abs_roundHalfEven_sub_le (x : ℚ) : |roundHalfEven x - x| ≤ 1 / 2 := by
  have hle := Int.floor_le x
  have hlt := Int.lt_floor_add_one x
  unfold roundHalfEven
  rw [abs_le]
  split
  · constructor <;> linarith
  · next hlow =>
    split
    · push_cast
      constructor <;> linarith
    · next hhigh =>
      split
      · constructor <;> linarith
      · push_cast
        constructor <;> linarith

theorem le_roundHalfEven {x : ℚ} (h : (n : ℚ) ≤ x) : n ≤ roundHalfEven x :=
  (Int.le_floor.mpr h).trans (floor_le_roundHalfEven x)

theorem roundHalfEven_le {x : ℚ} (h : x ≤ n) : roundHalfEven x ≤ n := by
  rcases eq_or_lt_of_le h with rfl | hlt
  · rw [roundHalfEven_intCast]
  · exact (roundHalfEven_le_floor_add_one x).trans (Int.floor_lt.mpr hlt)

theorem roundHalfEven_pos_iff {x : ℚ} : 0 < roundHalfEven x ↔ 1 / 2 < x := by
  rcases lt_or_ge x 1 with hlt | hge
  · rcases lt_or_ge x 0 with hneg | hnonneg
    · have hle := roundHalfEven_le (n := 0) (x := x) (by exact_mod_cast hneg.le)
      exact iff_of_false (not_lt.mpr hle) (by linarith)
    · have hfloor : ⌊x⌋ = 0 := Int.floor_eq_zero_iff.mpr ⟨hnonneg, hlt⟩
      unfold roundHalfEven
      rw [hfloor]
      split
      · next h => exact iff_of_false (by decide) (by simpa using h.le)
      · split
        · next h => exact iff_of_true (by decide) (by simpa using h)
        · next h => exact iff_of_false (by decide) (by simpa using h)
  · have hle := le_roundHalfEven (n := 1) (x := x) (by exact_mod_cast hge)
    exact iff_of_true (by omega) (by linarith)

/-! ### Contexts -/

/-- What an operation raises. -/
inductive Signal
  | invalidOperation
  | divisionByZero
  | overflow

/-- The precision and the exponents of a context. -/
structure Context where
  prec : ℕ
  emin : ℤ
  emax : ℤ
  deriving DecidableEq

namespace Context

/-- The least place a number may have a digit at. -/
def etiny (ctx : Context) : ℤ := ctx.emin - ctx.prec + 1

/-- The place of the last digit of a result. -/
def place (ctx : Context) (x : ℚ) : ℤ := max (Int.log 10 |x| - ctx.prec + 1) ctx.etiny

/-- The number next to `x` that has no digit beyond its place. -/
def nearest (ctx : Context) (x : ℚ) : ℚ := roundHalfEven (x / 10 ^ ctx.place x) * 10 ^ ctx.place x

/-- A result in the context. -/
def round (ctx : Context) (x : ℚ) : Except Signal ℚ :=
  if 10 ^ (ctx.emax + 1) ≤ |ctx.nearest x| then .error .overflow else .ok (ctx.nearest x)

/-- `x + y` -/
def add (ctx : Context) (x y : ℚ) : Except Signal ℚ := ctx.round (x + y)

/-- `x * y` -/
def mul (ctx : Context) (x y : ℚ) : Except Signal ℚ := ctx.round (x * y)

/-- `x / y` -/
def div (ctx : Context) (x y : ℚ) : Except Signal ℚ :=
  if y = 0 then .error (if x = 0 then .invalidOperation else .divisionByZero) else ctx.round (x / y)

end Context

/-- How a number is rounded to a place that is given. -/
inductive RoundingMode
  | down
  | ceiling
  | halfUp

/-- Rounding to an integer. -/
def RoundingMode.toInt : RoundingMode → ℚ → ℤ
  | .down, x => if 0 ≤ x then ⌊x⌋ else ⌈x⌉
  | .ceiling, x => ⌈x⌉
  | .halfUp, x => if 0 ≤ x then ⌊x + 1 / 2⌋ else -⌊-x + 1 / 2⌋

/-! ### Rounding to a place -/

namespace RoundingMode

variable {mode : RoundingMode} {x y : ℚ}

@[simp] theorem toInt_zero : mode.toInt 0 = 0 := by
  cases mode <;> norm_num [toInt]

theorem toInt_mono (hx : 0 ≤ x) (h : x ≤ y) : mode.toInt x ≤ mode.toInt y := by
  have hy := hx.trans h
  cases mode with
  | down =>
    simp only [toInt, if_pos hx, if_pos hy]
    exact Int.floor_le_floor h
  | ceiling => exact Int.ceil_le_ceil h
  | halfUp =>
    simp only [toInt, if_pos hx, if_pos hy]
    exact Int.floor_le_floor (by linarith)

theorem toInt_nonneg (hx : 0 ≤ x) : 0 ≤ mode.toInt x := by
  have h : mode.toInt 0 ≤ mode.toInt x := toInt_mono le_rfl hx
  rwa [toInt_zero] at h

theorem toInt_intCast (h : 0 ≤ n) : mode.toInt n = n := by
  have hcast : (0 : ℚ) ≤ n := by exact_mod_cast h
  cases mode with
  | down => simp only [toInt, if_pos hcast, Int.floor_intCast]
  | ceiling => exact Int.ceil_intCast n
  | halfUp =>
    simp only [toInt, if_pos hcast, Int.floor_intCast_add]
    norm_num

theorem toInt_le (hx : 0 ≤ x) (h : x ≤ n) : mode.toInt x ≤ n := by
  have hn : 0 ≤ n := by exact_mod_cast hx.trans h
  exact (toInt_mono hx h).trans (toInt_intCast hn).le

end RoundingMode

/-- `x.quantize(10 ** place, rounding)`: the result has to fit the precision. -/
def Context.quantize (ctx : Context) (mode : RoundingMode) (place : ℤ) (x : ℚ) : Except Signal ℚ :=
  let n := mode.toInt (x / 10 ^ place)
  if place < ctx.etiny ∨ ctx.emax < place ∨ 10 ^ (ctx.emax + 1) ≤ |(n : ℚ) * 10 ^ place| ∨
      10 ^ ctx.prec ≤ |n| then .error .invalidOperation
  else .ok (n * 10 ^ place)

namespace Context

variable {ctx : Context} {x z : ℚ}

theorem ten_zpow_pos (k : ℤ) : (0 : ℚ) < 10 ^ k := zpow_pos (by norm_num) k

/-- A number with at most as many digits as the precision has, and its place. -/
def Fits (ctx : Context) (x : ℚ) : Prop :=
  ∃ (m : ℤ) (k : ℤ), x = m * 10 ^ k ∧ ctx.etiny ≤ k ∧ |m| ≤ 10 ^ ctx.prec

theorem exists_int_of_le {m k p : ℤ} (h : p ≤ k) : ∃ n : ℤ, (m : ℚ) * 10 ^ k / 10 ^ p = n := by
  obtain ⟨j, rfl⟩ : ∃ j : ℕ, k = p + j := ⟨(k - p).toNat, by omega⟩
  refine ⟨m * 10 ^ j, ?_⟩
  rw [zpow_add₀ (by norm_num), zpow_natCast]
  have hp := (ten_zpow_pos p).ne'
  push_cast
  field_simp

theorem zpow_log_le (hx : 0 < x) : (10 : ℚ) ^ Int.log 10 x ≤ x := by
  exact_mod_cast Int.zpow_log_le_self (by norm_num : 1 < 10) hx

theorem place_of_pos (ctx : Context) (hx : 0 < x) :
    ctx.place x = max (Int.log 10 x - ctx.prec + 1) ctx.etiny := by
  unfold place
  rw [abs_of_pos hx]

theorem le_nearest_of_grid (h : n * 10 ^ ctx.place x ≤ x) :
    n * 10 ^ ctx.place x ≤ ctx.nearest x := by
  have hp := ten_zpow_pos (ctx.place x)
  refine mul_le_mul_of_nonneg_right ?_ hp.le
  exact_mod_cast le_roundHalfEven ((le_div_iff₀ hp).mpr h)

theorem nearest_le_of_grid (h : x ≤ n * 10 ^ ctx.place x) :
    ctx.nearest x ≤ n * 10 ^ ctx.place x := by
  have hp := ten_zpow_pos (ctx.place x)
  refine mul_le_mul_of_nonneg_right ?_ hp.le
  exact_mod_cast roundHalfEven_le ((div_le_iff₀ hp).mpr h)

theorem nearest_nonneg (ctx : Context) (hx : 0 ≤ x) : 0 ≤ ctx.nearest x := by
  have hgrid : ((0 : ℤ) : ℚ) * 10 ^ ctx.place x ≤ x := by simpa using hx
  simpa using le_nearest_of_grid hgrid

theorem nearest_of_grid (h : x = n * 10 ^ ctx.place x) : ctx.nearest x = x :=
  (nearest_le_of_grid h.le).trans_eq h.symm |>.antisymm (h.le.trans (le_nearest_of_grid h.ge))

theorem grid_log (hx : 0 < x) (hprec : 1 ≤ ctx.prec) (hplace : ctx.place x ≠ ctx.etiny) :
    ∃ n : ℤ, (10 : ℚ) ^ Int.log 10 x = n * 10 ^ ctx.place x := by
  have hp := (place_of_pos ctx hx).symm
  have hle : ctx.place x ≤ Int.log 10 x := by
    rcases max_choice (Int.log 10 x - ctx.prec + 1) ctx.etiny with hmax | hmax
    · rw [hp] at hmax
      omega
    · exact absurd (hp.symm.trans hmax) hplace
  obtain ⟨n, hn⟩ := exists_int_of_le (m := 1) hle
  refine ⟨n, ?_⟩
  rw [← hn, Int.cast_one, one_mul, div_mul_cancel₀ _ (ten_zpow_pos _).ne']

theorem Fits.grid_or (hz : ctx.Fits z) (hx : 0 < x) :
    (∃ n : ℤ, z = n * 10 ^ ctx.place x) ∨
      ctx.place x ≠ ctx.etiny ∧ z ≤ 10 ^ Int.log 10 x := by
  obtain ⟨m, k, rfl, hk, hm⟩ := hz
  rcases le_or_gt (ctx.place x) k with hle | hlt
  · obtain ⟨n, hn⟩ := exists_int_of_le (m := m) hle
    exact .inl ⟨n, by rw [← hn, div_mul_cancel₀ _ (ten_zpow_pos _).ne']⟩
  · have hplace : ctx.place x ≠ ctx.etiny := by omega
    refine .inr ⟨hplace, ?_⟩
    have hlog : k + ctx.prec ≤ Int.log 10 x := by
      rcases max_choice (Int.log 10 x - ctx.prec + 1) ctx.etiny with hmax | hmax
      · rw [← place_of_pos ctx hx] at hmax
        omega
      · exact absurd ((place_of_pos ctx hx).trans hmax) hplace
    calc (m : ℚ) * 10 ^ k ≤ 10 ^ ctx.prec * 10 ^ k := by
          refine mul_le_mul_of_nonneg_right ?_ (ten_zpow_pos k).le
          exact_mod_cast (le_abs_self m).trans hm
      _ = 10 ^ (k + ctx.prec) := by
          rw [← zpow_natCast, ← zpow_add₀ (by norm_num), add_comm]
      _ ≤ 10 ^ Int.log 10 x := zpow_le_zpow_right₀ (by norm_num) hlog

/-- **Rounding does not fall below what fits.** -/
theorem le_nearest (hprec : 1 ≤ ctx.prec) (hx : 0 < x) (hz : ctx.Fits z) (h : z ≤ x) :
    z ≤ ctx.nearest x := by
  rcases hz.grid_or hx with ⟨n, hn⟩ | ⟨hplace, hlog⟩
  · rw [hn] at h ⊢
    exact le_nearest_of_grid h
  · obtain ⟨n, hn⟩ := grid_log hx hprec hplace
    refine hlog.trans ?_
    have hself := zpow_log_le hx
    rw [hn] at hself ⊢
    exact le_nearest_of_grid hself

/-- **Rounding does not rise above what fits.** -/
theorem nearest_le (hprec : 1 ≤ ctx.prec) (hx : 0 < x) (hz : ctx.Fits z) (h : x ≤ z) :
    ctx.nearest x ≤ z := by
  rcases hz.grid_or hx with ⟨n, hn⟩ | ⟨hplace, hlog⟩
  · rw [hn] at h ⊢
    exact nearest_le_of_grid h
  · obtain ⟨n, hn⟩ := grid_log hx hprec hplace
    have heq : x = 10 ^ Int.log 10 x := le_antisymm (h.trans hlog) (zpow_log_le hx)
    rw [nearest_of_grid (heq.trans hn)]
    exact h

/-- **What fits the precision is kept.** -/
theorem nearest_eq (hprec : 1 ≤ ctx.prec) (hx : 0 ≤ x) (hfits : ctx.Fits x) :
    ctx.nearest x = x := by
  rcases hx.eq_or_lt with rfl | hpos
  · exact nearest_of_grid (n := 0) (by simp)
  · exact le_antisymm (nearest_le hprec hpos hfits le_rfl) (le_nearest hprec hpos hfits le_rfl)

theorem round_exact (hprec : 1 ≤ ctx.prec) (hx : 0 ≤ x) (hfits : ctx.Fits x)
    (hmax : x < 10 ^ (ctx.emax + 1)) : ctx.round x = .ok x := by
  unfold round
  rw [nearest_eq hprec hx hfits, abs_of_nonneg hx, if_neg (not_le.mpr hmax)]

/-- **What is not rounded to nothing**: more than half a unit of the least place. -/
theorem nearest_pos_iff (hprec : 1 ≤ ctx.prec) (hx : 0 < x) :
    0 < ctx.nearest x ↔ 10 ^ ctx.etiny / 2 < x := by
  by_cases hplace : ctx.place x = ctx.etiny
  · have hp := ten_zpow_pos ctx.etiny
    unfold nearest
    rw [hplace, mul_pos_iff_of_pos_right hp, Int.cast_pos, roundHalfEven_pos_iff,
      lt_div_iff₀ hp, one_div_mul_eq_div]
  · obtain ⟨n, hn⟩ := grid_log hx hprec hplace
    have hself := zpow_log_le hx
    have hlog : ctx.etiny ≤ Int.log 10 x := by
      have hmax := place_of_pos ctx hx
      rcases max_choice (Int.log 10 x - ctx.prec + 1) ctx.etiny with h | h
      · have := le_max_right (Int.log 10 x - ctx.prec + 1) ctx.etiny
        omega
      · exact absurd (hmax.trans h) hplace
    have htiny : (10 : ℚ) ^ ctx.etiny ≤ x :=
      (zpow_le_zpow_right₀ (by norm_num) hlog).trans hself
    refine iff_of_true ?_ (lt_of_lt_of_le (half_lt_self (ten_zpow_pos _)) htiny)
    calc (0 : ℚ) < 10 ^ Int.log 10 x := ten_zpow_pos _
      _ = n * 10 ^ ctx.place x := hn
      _ ≤ ctx.nearest x := le_nearest_of_grid (hn ▸ hself)

theorem abs_nearest_sub_le (ctx : Context) (x : ℚ) :
    |ctx.nearest x - x| ≤ 10 ^ ctx.place x / 2 := by
  have hp := ten_zpow_pos (ctx.place x)
  have hround := abs_roundHalfEven_sub_le (x / 10 ^ ctx.place x)
  have hsub : ctx.nearest x - x
      = (roundHalfEven (x / 10 ^ ctx.place x) - x / 10 ^ ctx.place x) * 10 ^ ctx.place x := by
    unfold nearest
    rw [sub_mul, div_mul_cancel₀ _ hp.ne']
  rw [hsub, abs_mul, abs_of_pos hp]
  calc |roundHalfEven (x / 10 ^ ctx.place x) - x / 10 ^ ctx.place x| * 10 ^ ctx.place x
      ≤ 1 / 2 * 10 ^ ctx.place x := mul_le_mul_of_nonneg_right hround hp.le
    _ = 10 ^ ctx.place x / 2 := by ring

/-- **The integer above a quotient is the one above its rounding**, unless the quotient is rounded
to nothing: a number that is not an integer must be further from the one below it than a rounding
reaches. -/
theorem ceil_nearest (hprec : 1 ≤ ctx.prec) (hx : 0 < x) (hplace : ctx.place x ≤ 0)
    (hfrac : 1 ≤ x → x ≠ ⌊x⌋ → 10 ^ ctx.place x / 2 < x - ⌊x⌋) :
    ⌈ctx.nearest x⌉ = if x ≤ 10 ^ ctx.etiny / 2 then 0 else ⌈x⌉ := by
  have hgrid : ∀ n : ℤ, ∃ m : ℤ, (n : ℚ) = m * 10 ^ ctx.place x := by
    intro n
    obtain ⟨m, hm⟩ := exists_int_of_le (m := n) hplace
    rw [zpow_zero, mul_one] at hm
    exact ⟨m, by rw [← hm, div_mul_cancel₀ _ (ten_zpow_pos _).ne']⟩
  have hpos := nearest_pos_iff hprec hx
  have hnonneg := nearest_nonneg ctx hx.le
  split
  · next hlow =>
    have hzero : ctx.nearest x = 0 := le_antisymm (by_contra fun h => by
      have := hpos.mp (not_le.mp h)
      linarith) hnonneg
    rw [hzero, Int.ceil_zero]
  · next hhigh =>
    refine le_antisymm (Int.ceil_le.mpr ?_) (Int.le_ceil_iff.mpr ?_)
    · obtain ⟨m, hm⟩ := hgrid ⌈x⌉
      have hle := Int.le_ceil x
      rw [hm] at hle ⊢
      exact nearest_le_of_grid hle
    · rcases le_or_gt x 1 with hone | hone
      · have hceil : (⌈x⌉ : ℚ) ≤ 1 := by exact_mod_cast Int.ceil_le.mpr (by exact_mod_cast hone)
        have := hpos.mpr (not_le.mp hhigh)
        linarith
      · by_cases hint : x = ⌊x⌋
        · obtain ⟨m, hm⟩ := hgrid ⌊x⌋
          rw [nearest_of_grid (hint.trans hm)]
          linarith [Int.ceil_lt_add_one x]
        · have hdist := (abs_le.mp (abs_nearest_sub_le ctx x)).1
          have hlow := hfrac hone.le hint
          have hceil : (⌈x⌉ : ℚ) ≤ ⌊x⌋ + 1 := by exact_mod_cast Int.ceil_le_floor_add_one x
          linarith

end Context
end RagQs
