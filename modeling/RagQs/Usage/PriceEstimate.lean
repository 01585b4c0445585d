import RagQs.Usage.Price
import RagQs.Platform.Context

/-!
# Cost estimation

A cost is computed from measured decimals, in a context whose precision follows their digits.
Beside it stands the cost in rational arithmetic: the number that the estimate is an estimate of.

## Main definitions

* `readings` — the input checks: the line, the status and the quantity of every meter.
* `estimateCost` — the cost in decimal arithmetic.
* `referenceCost` — the cost in rational arithmetic.
* `Exact` — no quotient is lost, and the sum has no more digits than it may have.
-/

namespace RagQs.Usage.Pricing

/-! ### The input -/

/-- A measured value: a decimal, or a value whose text is none. -/
inductive MeasuredArg
  | decimal (d : DecimalArg)
  | text

/-- `_measured_quantity` -/
def measuredQuantity (measured : List (String × MeasuredArg)) (meter : String) :
    Except Err Decimal :=
  match measured.lookup meter with
  | none => .error (validationError ("measured quantity is missing for meter " ++ pyRepr meter))
  | some .text => .error (validationError
      ("measured quantity for meter " ++ pyRepr meter ++ " must be a decimal"))
  | some (.decimal .special) => .error (validationError
      ("measured quantity for meter " ++ pyRepr meter ++ " must be non-negative and finite"))
  | some (.decimal (.finite q)) =>
    if q.neg ∧ q.coeff ≠ 0 then .error (validationError
      ("measured quantity for meter " ++ pyRepr meter ++ " must be non-negative and finite"))
    else .ok q

/-- What is known of the meter of one line; an unavailable meter has no quantity. -/
structure Reading where
  line : PriceLine
  status : CostStatus
  quantity : Decimal

/-- The availability and the quantity of one line. -/
def reading (measured : List (String × MeasuredArg)) (availability : List (String × CostStatus))
    (line : PriceLine) : Except Err Reading := do
  let status ← lineStatus availability line
  if status = .unavailable then .ok ⟨line, status, ⟨false, 0, 0⟩⟩
  else do
    let quantity ← measuredQuantity measured line.meter
    if (maxQuantity : ℚ) < quantity.toRat then .error (validationError
      ("measured quantity for meter " ++ pyRepr line.meter ++ " exceeds the supported maximum"))
    else .ok ⟨line, status, quantity⟩

/-- The input checks: every availability first, then every quantity. -/
def readings (price : PriceFacts) (measured : List (String × MeasuredArg))
    (availability : List (String × CostStatus)) : Except Err (List Reading) := do
  let _ ← price.lines.mapM (lineStatus availability)
  price.lines.mapM (reading measured availability)

/-- The readings that go into the cost. -/
def known (rows : List Reading) : List Reading := rows.filter fun r => r.status ≠ .unavailable

/-- The status of a cost. -/
def costStatus (rows : List Reading) : CostStatus :=
  if known rows = [] then .unavailable
  else if rows.all fun r => r.status = .complete then .complete else .partially

/-! ### Decimal arithmetic -/

/-- `_RATE_MAX_DIGITS` -/
def rateMaxDigits : ℕ := 30

/-- The digits of the longest quantity. -/
def maxQuantityDigits (rows : List Reading) : ℕ :=
  (known rows).foldl (fun digits r => max digits (Nat.toDigits 10 r.quantity.coeff).length) 1

/-- The context of the computation: its precision follows the quantities, its exponents are
those of the default context. -/
def costContext (rows : List Reading) : Context where
  prec := max 60 (maxQuantityDigits rows + rateMaxDigits + 30)
  emin := -999999
  emax := 999999

/-- `_ROUNDINGS` -/
def roundings : Rounding → RoundingMode
  | .floor => .down
  | .ceil => .ceiling
  | .halfUp => .halfUp

/-- What is billed of a quantity. -/
def billable (line : PriceLine) (q : ℚ) : ℚ := max q line.minimumBillableQuantity

/-- The cost of a quantity before it is rounded. -/
def lineCost (ctx : Context) (line : PriceLine) (q : ℚ) : Except Signal ℚ :=
  if q = 0 then .ok 0
  else do
    let quotient ← ctx.div (billable line q) line.billingGranularity
    ctx.mul ⌈quotient⌉ (amountValue line.rate)

/-- The total of one line. -/
def lineTotal (ctx : Context) (r : Reading) : Except Signal ℚ := do
  let cost ← lineCost ctx r.line r.quantity.toRat
  ctx.quantize (roundings r.line.roundingRule) (-6) cost

/-- One turn of the loop over the lines. -/
def addLine (ctx : Context) (total : ℚ) (r : Reading) : Except Signal ℚ := do
  let cost ← lineTotal ctx r
  ctx.add total cost

/-- The amount of the lines that are known. -/
def costAmount (ctx : Context) (rows : List Reading) : Except Signal ℚ := do
  let total ← rows.foldlM (addLine ctx) 0
  ctx.quantize .halfUp (-6) total

/-- The name of a signal that nobody catches. -/
def Signal.name : Signal → String
  | .invalidOperation => "InvalidOperation"
  | .divisionByZero => "DivisionByZero"
  | .overflow => "Overflow"

/-- An amount that its column cannot hold. -/
def costExceedsLimit (amount : ℚ) : Err :=
  .platform {
    code := "estimated_cost_exceeds_limit"
    message := "Estimated cost exceeds the Numeric(30,10) storage limit"
    details := [("estimated_cost_amount", .decimal ⟨false, ⌊amount * 10 ^ 6⌋.toNat, -6⟩)]
    statusCode := 422 }

/-- The amount is returned when its column can hold it. -/
def writable (amount : ℚ) (status : CostStatus) : Except Err (Option ℚ × CostStatus) :=
  if 10 ^ 20 ≤ amount then .error (costExceedsLimit amount) else .ok (some amount, status)

/-- The cost of the readings, in decimal arithmetic. -/
def computeCost (rows : List Reading) : Except Err (Option ℚ × CostStatus) :=
  if known rows = [] then .ok (none, costStatus rows)
  else match costAmount (costContext rows) (known rows) with
    | .error signal => .error (.internal (Signal.name signal))
    | .ok amount => writable amount (costStatus rows)

/-- `estimate_cost` -/
def estimateCost (price : PriceFacts) (measured : List (String × MeasuredArg))
    (availability : List (String × CostStatus)) : Except Err (Option ℚ × CostStatus) := do
  let rows ← readings price measured availability
  computeCost rows

/-! ### Rational arithmetic -/

/-- The blocks that are billed. -/
def blocks (line : PriceLine) (q : ℚ) : ℤ := ⌈billable line q / line.billingGranularity⌉

/-- The total of one line, in units of `10⁻⁶`. -/
def exactUnits (r : Reading) : ℤ :=
  if r.quantity.toRat = 0 then 0
  else (roundings r.line.roundingRule).toInt
    (blocks r.line r.quantity.toRat * amountValue r.line.rate * 10 ^ 6)

/-- The sum of the totals, in units of `10⁻⁶`. -/
def exactSum (rows : List Reading) : ℤ := ((known rows).map exactUnits).sum

/-- The cost of the readings, in rational arithmetic. -/
def exactCost (rows : List Reading) : Except Err (Option ℚ × CostStatus) :=
  if known rows = [] then .ok (none, costStatus rows)
  else writable (exactSum rows / 10 ^ 6) (costStatus rows)

/-- What `estimate_cost` is an estimate of. -/
def referenceCost (price : PriceFacts) (measured : List (String × MeasuredArg))
    (availability : List (String × CostStatus)) : Except Err (Option ℚ × CostStatus) := do
  let rows ← readings price measured availability
  exactCost rows

/-! ### Exactness -/

/-- A positive quantity whose quotient is rounded to nothing, though its one block costs
something. -/
def Lost (ctx : Context) (r : Reading) : Prop :=
  r.quantity.toRat ≠ 0 ∧
    billable r.line r.quantity.toRat / r.line.billingGranularity ≤ 10 ^ ctx.etiny / 2 ∧
    exactUnits r ≠ 0

/-- The digits that a sum of totals may have. -/
def capacity (ctx : Context) : ℕ := min ctx.prec (ctx.emax + 7).toNat

/-- No quotient is lost, and the sum has no more digits than it may have. -/
def ExactOn (rows : List Reading) : Prop :=
  (∀ r ∈ known rows, ¬ Lost (costContext rows) r) ∧
    exactSum rows < 10 ^ capacity (costContext rows)

/-- The readings of an input, if it has any, can be computed with. -/
def Exact (price : PriceFacts) (measured : List (String × MeasuredArg))
    (availability : List (String × CostStatus)) : Prop :=
  ∀ rows, readings price measured availability = .ok rows → ExactOn rows

end RagQs.Usage.Pricing
