import RagQs.Platform.Value
import Mathlib.Data.Int.Log
import Mathlib.Data.Rat.Floor
import Mathlib.Algebra.Order.Field.Rat

/-!
# Decimal arithmetic

Decimals are exact, but a sum or a difference is rounded to the 28 digits of the default
context, and a `NUMERIC(30, 10)` column rounds once more, to ten decimal places.

## Main definitions

* `Decimal.toRat` — the value of a decimal.
* `contextRound` — rounding to 28 significant digits, half to even.
* `columnUnits`, `amountColumn` — what a column stores, in units of `10⁻¹⁰`.
* `amountValue` — the amount a column holds.

## Main results

* `columnUnits_mono`, `columnUnits_amountValue` — storing is monotone, and keeps what a
  column holds.
-/

namespace RagQs

/-- The value of a finite decimal. -/
def Decimal.toRat (d : Decimal) : ℚ :=
  (if d.neg then -(d.coeff : ℚ) else d.coeff) * 10 ^ d.exp

/-- The integer next to a number, the even one of two that are equally near. -/
def roundHalfEven (x : ℚ) : ℤ :=
  if x - ⌊x⌋ < 1 / 2 then ⌊x⌋
  else if 1 / 2 < x - ⌊x⌋ then ⌊x⌋ + 1
  else if ⌊x⌋ % 2 = 0 then ⌊x⌋ else ⌊x⌋ + 1

/-- The place of the last of the 28 digits of a number. -/
def lastPlace (x : ℚ) : ℚ := 10 ^ (Int.log 10 |x| - 27)

/-- A result in the default context: 28 significant digits. -/
def contextRound (x : ℚ) : ℚ :=
  if x = 0 then 0 else roundHalfEven (x / lastPlace x) * lastPlace x

/-- What a column with ten decimal places stores, in units of the last place; half a unit
is rounded away from zero. -/
def columnUnits (x : ℚ) : ℤ :=
  if 0 ≤ x then ⌊x * 10 ^ 10 + 1 / 2⌋ else -⌊-x * 10 ^ 10 + 1 / 2⌋

/-- Storing an amount in a `NUMERIC(30, 10)` column. -/
def amountColumn (x : ℚ) : Except Err ℤ :=
  if |columnUnits x| < 10 ^ 30 then .ok (columnUnits x) else .error (.internal "numeric field overflow")

/-- The amount that a column holds. -/
def amountValue (units : ℤ) : ℚ := units / 10 ^ 10

theorem amountColumn_ok {x : ℚ} {units : ℤ} (h : amountColumn x = .ok units) :
    units = columnUnits x := by
  unfold amountColumn at h
  split at h
  · exact (Except.ok.inj h).symm
  · cases h

@[simp] theorem amountValue_zero : amountValue 0 = 0 := by
  unfold amountValue
  simp

theorem amountValue_le {m n : ℤ} : amountValue m ≤ amountValue n ↔ m ≤ n := by
  unfold amountValue
  rw [div_le_div_iff_of_pos_right (by norm_num), Int.cast_le]

theorem amountValue_add (m n : ℤ) : amountValue (m + n) = amountValue m + amountValue n := by
  unfold amountValue
  push_cast
  ring

theorem amountValue_sub (m n : ℤ) : amountValue (m - n) = amountValue m - amountValue n := by
  unfold amountValue
  push_cast
  ring

theorem columnUnits_of_nonneg {x : ℚ} (h : 0 ≤ x) : columnUnits x = ⌊x * 10 ^ 10 + 1 / 2⌋ := by
  unfold columnUnits
  rw [if_pos h]

theorem columnUnits_nonneg {x : ℚ} (h : 0 ≤ x) : 0 ≤ columnUnits x := by
  rw [columnUnits_of_nonneg h]
  apply Int.floor_nonneg.mpr
  positivity

/-- A column stores an amount it can hold as it is. -/
@[simp] theorem columnUnits_amountValue (n : ℤ) : columnUnits (amountValue n) = n := by
  have hvalue : amountValue n * 10 ^ 10 = n := by
    unfold amountValue
    exact div_mul_cancel₀ _ (by norm_num)
  unfold columnUnits
  split
  · rw [hvalue, Int.floor_intCast_add]
    norm_num
  · rw [neg_mul, hvalue, ← Int.cast_neg, Int.floor_intCast_add]
    norm_num

theorem columnUnits_amountValue_add {n : ℤ} {x : ℚ} (hn : 0 ≤ n) (hx : 0 ≤ x) :
    columnUnits (amountValue n + x) = n + columnUnits x := by
  have hvalue : amountValue n * 10 ^ 10 = n := by
    unfold amountValue
    exact div_mul_cancel₀ _ (by norm_num)
  have hnonneg : 0 ≤ amountValue n := by
    have := amountValue_le.mpr hn
    rwa [amountValue_zero] at this
  rw [columnUnits_of_nonneg (add_nonneg hnonneg hx), columnUnits_of_nonneg hx, add_mul, hvalue,
    add_assoc, Int.floor_intCast_add]

/-- A larger amount is not stored as a smaller one. -/
theorem columnUnits_mono {x y : ℚ} (h : x ≤ y) : columnUnits x ≤ columnUnits y := by
  unfold columnUnits
  by_cases hx : 0 ≤ x
  · rw [if_pos hx, if_pos (hx.trans h)]
    apply Int.floor_le_floor
    gcongr
  · rw [if_neg hx]
    by_cases hy : 0 ≤ y
    · rw [if_pos hy]
      have hleft : 0 ≤ ⌊-x * 10 ^ 10 + 1 / 2⌋ := Int.floor_nonneg.mpr (by nlinarith)
      have hright : 0 ≤ ⌊y * 10 ^ 10 + 1 / 2⌋ := Int.floor_nonneg.mpr (by positivity)
      omega
    · rw [if_neg hy]
      apply neg_le_neg
      apply Int.floor_le_floor
      gcongr

theorem columnUnits_le {x : ℚ} {n : ℤ} (h : x ≤ amountValue n) : columnUnits x ≤ n := by
  have := columnUnits_mono h
  rwa [columnUnits_amountValue] at this

end RagQs
