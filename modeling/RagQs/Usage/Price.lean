import RagQs.Usage.Calendar
import Mathlib.Data.List.MinMax
import Mathlib.Data.List.Sort

/-!
# The price catalogue

Versions of a scope hold half-open intervals.  A version is closed once, by its
successor or on its own; writers of one scope are serialised by its scope row, and a
version that pending sends or recorded usage still need cannot be closed under them.

## Main definitions

* `register`, `closeVersion` — the two writers.
* `selectFor`, `lockForUsage` — the version in force at a time, and its row lock.
* `estimateCost` — the cost of measured quantities.
-/

namespace RagQs.Usage

open Txn List

variable {p : String × PriceRow}
variable {scope : Scope} {l : List (String × PriceRow)}

/-- `_ISO4217_CURRENCIES` -/
def iso4217Currencies : List String :=
  ["AED", "AFN", "ALL", "AMD", "AOA", "ARS", "AUD", "AWG", "AZN", "BAM", "BBD", "BDT", "BHD",
   "BIF", "BMD", "BND", "BOB", "BOV", "BRL", "BSD", "BTN", "BWP", "BYN", "BZD", "CAD", "CDF",
   "CHE", "CHF", "CHW", "CLF", "CLP", "CNY", "COP", "COU", "CRC", "CUP", "CVE", "CZK", "DJF",
   "DKK", "DOP", "DZD", "EGP", "ERN", "ETB", "EUR", "FJD", "FKP", "GBP", "GEL", "GHS", "GIP",
   "GMD", "GNF", "GTQ", "GYD", "HKD", "HNL", "HTG", "HUF", "IDR", "ILS", "INR", "IQD", "IRR",
   "ISK", "JMD", "JOD", "JPY", "KES", "KGS", "KHR", "KMF", "KPW", "KRW", "KWD", "KYD", "KZT",
   "LAK", "LBP", "LKR", "LRD", "LSL", "LYD", "MAD", "MDL", "MGA", "MKD", "MMK", "MNT", "MOP",
   "MRU", "MUR", "MVR", "MWK", "MXN", "MXV", "MYR", "MZN", "NAD", "NGN", "NIO", "NOK", "NPR",
   "NZD", "OMR", "PAB", "PEN", "PGK", "PHP", "PKR", "PLN", "PYG", "QAR", "RON", "RSD", "RUB",
   "RWF", "SAR", "SBD", "SCR", "SDG", "SEK", "SGD", "SHP", "SLE", "SOS", "SRD", "SSP", "STN",
   "SVC", "SYP", "SZL", "THB", "TJS", "TMT", "TND", "TOP", "TRY", "TTD", "TWD", "TZS", "UAH",
   "UGX", "USD", "USN", "UYI", "UYU", "UYW", "UZS", "VED", "VES", "VND", "VUV", "WST", "XAD",
   "XAF", "XAG", "XAU", "XBA", "XBB", "XBC", "XBD", "XCD", "XCG", "XDR", "XOF", "XPD", "XPF",
   "XPT", "XSU", "XTS", "XUA", "XXX", "YER", "ZAR", "ZMW", "ZWG"]

/-- `_INT32_MAX` -/
def int32Max : ℤ := 2 ^ 31 - 1

/-- `_MAX_QUANTITY` -/
def maxQuantity : ℕ := 10 ^ 18

/-- A line of a price to register; the defaults are those of `_parse_lines`. -/
structure LineInput where
  meter : String
  unit : String
  rate : Option DecimalArg
  billingGranularity : ℤ := 1
  minimumBillableQuantity : ℤ := 1
  roundingRule : String := "floor"

/-- A version as the catalogue returns it. -/
structure PriceVersion extends PriceRow where
  id : String

/-! ### Errors -/

/-- `_scope_conflict` -/
def scopeConflict (message : String) : Err :=
  .platform { code := "price_scope_conflict", message, statusCode := 409 }

/-- `_close_conflict` -/
def closeConflict (message : String) : Err :=
  .platform { code := "price_close_conflict", message, statusCode := 409 }

/-- A version that is not there. -/
def priceNotFound (message : String) : Err :=
  .platform { code := "price_not_found", message, statusCode := 404 }

/-- The time is outside the interval of the locked version. -/
def priceIntervalConflict (id : String) (row : PriceRow) : Err :=
  .platform {
    code := "price_interval_conflict"
    message := "Usage time falls outside the version effective interval"
    details := [("price_version_id", .str id),
      ("effective_from_utc", .datetime row.effectiveFromUtc),
      ("effective_to_utc", row.effectiveToUtc.elim .null .datetime)]
    statusCode := 409 }

/-! ### Validation -/

/-- `normalize_currency_code` -/
def normalizeCurrencyCode (env : Env) (value : String) : Except Err String :=
  if strip value = "" then .error (validationError "currency_code is required")
  else
    let currency := env.upper (strip value)
    if currency ∈ iso4217Currencies then .ok currency
    else .error (validationError
      ("currency_code must be a valid ISO 4217 currency code (got " ++ pyRepr currency ++ ")"))

/-- The number of digits of a coefficient. -/
def digitCount (n : ℕ) : ℤ := (Nat.toDigits 10 n).length

/-- `_coerce_rate`: a rate that fits `Numeric(30, 10)`, in its units. -/
def coerceRate : Option DecimalArg → Except Err Money
  | none => .error (validationError "rate is required")
  | some .special => .error (validationError "rate must be finite")
  | some (.finite r) =>
    if r.neg ∧ r.coeff ≠ 0 then .error (validationError "rate must be >= 0")
    else if r.exp < -10 then
      .error (validationError "rate scale must not exceed 10 decimal places")
    else if 20 < digitCount r.coeff + r.exp then
      .error (validationError "rate must fit Numeric(30,10) precision")
    else .ok (r.coeff * 10 ^ (r.exp + 10).toNat)

/-- `_coerce_int` -/
def coerceInt (value : ℤ) (name : String) (minimum : ℤ) : Except Err ℕ :=
  if value < minimum then
    .error (validationError (name ++ " must be >= " ++ toString minimum))
  else if int32Max < value then
    .error (validationError (name ++ " must be at most " ++ toString int32Max))
  else .ok value.toNat

/-- The rounding rule of a text. -/
def roundingOf : String → Option Rounding
  | "floor" => some .floor
  | "ceil" => some .ceil
  | "half_up" => some .halfUp
  | _ => none

/-- One line of `_parse_lines`. -/
def parseLine (line : LineInput) : Except Err PriceLine := do
  let meter ← requireText line.meter "meter" 32
  let unit ← requireText line.unit "unit" 32
  let rate ← coerceRate line.rate
  let granularity ← coerceInt line.billingGranularity "billing_granularity" 1
  let minimum ← coerceInt line.minimumBillableQuantity "minimum_billable_quantity" 0
  match roundingOf line.roundingRule with
  | none => .error (validationError "rounding_rule must be floor, ceil or half_up")
  | some rule => .ok ⟨meter, unit, rate, granularity, minimum, rule⟩

/-- `_parse_lines` -/
def parseLines (lines : List LineInput) : Except Err (List PriceLine) := do
  if lines.isEmpty then throw (validationError "Price version needs at least one line")
  let parsed ← lines.mapM parseLine
  if (parsed.map PriceLine.meter).Nodup then return parsed
  else throw (validationError "Each meter may appear at most once per price version")

/-! ### Queries -/

/-- The versions of a scope. -/
def versions (v : Db) (scope : Scope) : List (String × PriceRow) :=
  (prices v).filter fun p => p.2.scope = scope

/-- `ORDER BY effective_from_utc DESC LIMIT 1` -/
def newest (l : List (String × PriceRow)) : Option (String × PriceRow) :=
  -- the order by name: the search may find one that does not compute
  @argmax _ Time Int.instLinearOrder.toPreorder Int.instLinearOrder.toDecidableLT
    (fun p => p.2.effectiveFromUtc) l

/-- The version of a scope in force at a time, the newest of them. -/
def covering (v : Db) (scope : Scope) (at_ : Time) : Option (String × PriceRow) :=
  newest ((versions v scope).filter fun p => p.2.contains at_)

theorem mem_versions {v : Db} :
    p ∈ versions v scope ↔ v.get (.price p.1) = some p.2 ∧ p.2.scope = scope := by
  unfold versions
  rw [mem_filter, decide_eq_true_eq]
  exact and_congr_left fun _ => mem_prices

theorem mem_of_newest (h : newest l = some p) : p ∈ l := argmax_mem h

theorem newest_eq_none : newest l = none ↔ l = [] :=
  argmax_eq_none

theorem covering_some {v : Db} {at_ : Time} (h : covering v scope at_ = some p) :
    v.get (.price p.1) = some p.2 ∧ p.2.scope = scope ∧ p.2.contains at_ = true := by
  obtain ⟨hmem, hcontains⟩ := mem_filter.mp (mem_of_newest h)
  obtain ⟨hget, hscope⟩ := mem_versions.mp hmem
  exact ⟨hget, hscope, hcontains⟩

theorem covering_none {v : Db} {at_ : Time} (h : covering v scope at_ = none) {p : String}
    {a : PriceRow} (hget : v.get (.price p) = some a) (hscope : a.scope = scope) :
    a.contains at_ = false := by
  have hnil := newest_eq_none.mp h
  rw [filter_eq_nil_iff] at hnil
  simpa using hnil (p, a) (mem_versions.mpr ⟨hget, hscope⟩)

/-- `select_for`: the version in force at a time. -/
def selectFor (scope : Scope) (at_ : Time) : Tx PriceVersion := do
  let row ← Prog.select fun v => covering v scope at_
  let p ← orRaise row (priceNotFound "No price version covers the scope at the given time")
  return { p.2 with id := p.1 }

/-- `lock_for_usage`: lock the version's row and check that the time is in its interval. -/
def lockForUsage (id : String) (actualSendAt : Time) : Tx PriceVersion := do
  let row ← lockRow (.price id)
  let row ← orRaise (row : Option PriceRow) (priceNotFound "Price version was not found")
  raiseIf (row.contains actualSendAt = false) (priceIntervalConflict id row)
  return { row with id := id }

/-! ### Writers -/

/-- `_scope_lock`: reserve the scope's row and update it, which holds its lock until the
transaction ends. -/
def scopeLock (scope : Scope) (now : Time) : Tx Unit := do
  let _ ← insertDoNothing (.priceScope scope) []
    [⟨.priceScope scope, some (⟨0, now⟩ : ScopeRow)⟩]
  let _ ← updateWhere (.priceScope scope) (fun _ => true) fun r : ScopeRow =>
    { r with lockVersion := r.lockVersion + 1 }
  return ()

/-- `_ensure_no_history` -/
def ensureNoHistory (scope : Scope) : Tx Unit := do
  let existing ← Prog.select fun v => versions v scope
  raiseIf (existing ≠ []) (scopeConflict
    ("This scope already has price versions; "
      ++ "register with supersedes_version_id of the latest version"))

/-- `_reject_pending_dispatches`: no call of the scope that has left at or after the time
may still be open. -/
def rejectPendingDispatches (scope : Scope) (closeAtUtc : Time) : Tx Unit := do
  let pending ← Prog.select fun v => (calls v).any fun c =>
    c.2.scope = scope && (c.2.status = .dispatching || c.2.status = .unknown) &&
      c.2.startedAtUtc.any (closeAtUtc ≤ ·)
  raiseIf (pending = true) (closeConflict
    "Price interval has dispatching or unknown provider calls at or after the close time")

/-- `_reject_any_usage` -/
def rejectAnyUsage (id : String) : Tx Unit := do
  let used ← Prog.select fun v => (events v).any fun e => e.2.priceVersionId = id
  raiseIf (used = true) (closeConflict
    ("Price version is referenced by usage events; "
      ++ "append a superseding version instead"))

/-- `_reject_retroactive_close` -/
def rejectRetroactiveClose (id : String) (closeAtUtc : Time) : Tx Unit := do
  let used ← Prog.select fun v => (events v).any fun e => e.2.priceVersionId = id &&
    (closeAtUtc ≤ e.2.startedAtUtc || closeAtUtc ≤ e.2.effectiveAtUtc)
  raiseIf (used = true) (closeConflict
    ("Price version has usage events at or after the close time; "
      ++ "choose a later effective_from instead"))

/-- The update that closes a version; it leaves the index of open versions. -/
def closeRow (id : String) (effectiveToUtc : Time) : Tx Unit :=
  Prog.update (fun v => match (v.get (.price id) : Option PriceRow) with
    | none => []
    | some r =>
      [⟨.price id, some ({ r with effectiveToUtc := some effectiveToUtc } : PriceRow)⟩,
       ⟨.priceOpen r.scope, none⟩]) fun _ => ()

/-- `_close_predecessor`: the version to supersede has to be the newest of the scope; an
open one is closed at the successor's start, which no pending send and no recorded
usage may contradict. -/
def closePredecessor (scope : Scope) (effectiveFrom : Time) (supersedes : String) : Tx Unit := do
  let target ← readRow (.price supersedes)
  let target ← orRaise (target : Option PriceRow) (priceNotFound "Price version was not found")
  raiseIf (target.scope ≠ scope)
    (validationError "supersedes_version_id must belong to the same price scope")
  let latest ← Prog.selectForUpdate
    (fun v => ((newest (versions v scope)).map fun p => Key.price p.1).toList)
    fun v => newest (versions v scope)
  let latest ← orRaise (latest.filter fun p => p.1 = supersedes)
    (scopeConflict "Must supersede the latest version of this scope")
  raiseIf (latest.2.effectiveToUtc = none ∧ effectiveFrom ≤ latest.2.effectiveFromUtc)
    (scopeConflict "A successor effective_from must be later than the version it supersedes")
  raiseIf (latest.2.effectiveToUtc.any (effectiveFrom < ·) = true) (scopeConflict
    ("A successor effective_from must not be earlier than "
      ++ "the superseded version's effective_to"))
  rejectRetroactiveClose supersedes effectiveFrom
  if latest.2.effectiveToUtc = none then do
    rejectPendingDispatches scope effectiveFrom
    closeRow supersedes effectiveFrom
  else return ()

/-- The arguments of `register`, with the clock reading and the random part of the
version id. -/
structure RegisterArgs where
  provider : String
  model : String
  operation : String
  currencyCode : String
  lines : List LineInput
  effectiveFromUtc : Time
  supersedesVersionId : Option String := none
  now : Time
  token : String

/-- A price from time `0` on. -/
def sampleRegister : RegisterArgs where
  provider := "openai"
  model := "m"
  operation := "chat"
  currencyCode := "USD"
  lines := [{ meter := "input_tokens", unit := "token", rate := some (.finite ⟨false, 1, 0⟩) }]
  effectiveFromUtc := 0
  now := 0
  token := "1"

/-- The row a registration inserts, from its validated arguments. -/
def newVersion (a : RegisterArgs) (scope : Scope) (currency : String) (lines : List PriceLine)
    (supersedes : Option String) : PriceRow where
  scope := scope
  currencyCode := currency
  effectiveFromUtc := a.effectiveFromUtc
  supersedesVersionId := supersedes
  createdAtUtc := a.now
  lines := lines.insertionSort fun x y => x.meter ≤ y.meter
  effectiveToUtc := none

/-- The input checks of `register`: the row to insert. -/
def validateRegister (env : Env) (a : RegisterArgs) : Except Err PriceRow := do
  let provider ← requireText a.provider "provider" 64
  let model ← requireText a.model "model" 128
  let operation ← requireText a.operation "operation" 64
  let currency ← normalizeCurrencyCode env a.currencyCode
  let parsed ← parseLines a.lines
  let supersedes ← optionalText a.supersedesVersionId "supersedes_version_id" 64
  return newVersion a ⟨provider, model, operation⟩ currency parsed supersedes

theorem validateRegister_ok {env : Env} {a : RegisterArgs} {row : PriceRow}
    (h : validateRegister env a = .ok row) :
    row.effectiveToUtc = none ∧ row.effectiveFromUtc = a.effectiveFromUtc := by
  unfold validateRegister at h
  obtain ⟨provider, _, h⟩ := exists_of_bind_ok h
  obtain ⟨model, _, h⟩ := exists_of_bind_ok h
  obtain ⟨operation, _, h⟩ := exists_of_bind_ok h
  obtain ⟨currency, _, h⟩ := exists_of_bind_ok h
  obtain ⟨parsed, _, h⟩ := exists_of_bind_ok h
  obtain ⟨supersedes, _, h⟩ := exists_of_bind_ok h
  cases h
  exact ⟨rfl, rfl⟩

/-- The insert of a version, with the entries of the two unique indexes; a violated
constraint is reported as a scope conflict. -/
def insertVersion (id : String) (row : PriceRow) : Tx Unit :=
  insert (scopeConflict "A price version conflict occurred for this scope")
    [.price id, .priceFrom row.scope row.effectiveFromUtc, .priceOpen row.scope]
    [⟨.price id, some row⟩, ⟨.priceFrom row.scope row.effectiveFromUtc, some id⟩,
     ⟨.priceOpen row.scope, some id⟩]

/-- A version either closes the one it supersedes or is the first of its scope. -/
def supersede (row : PriceRow) : Tx Unit :=
  match row.supersedesVersionId with
  | none => ensureNoHistory row.scope
  | some supersedes => closePredecessor row.scope row.effectiveFromUtc supersedes

/-- What `register` does inside its savepoint. -/
def addVersion (id : String) (row : PriceRow) : Tx Unit := do
  supersede row
  insertVersion id row

/-- `register`: a new version, which supersedes the newest one of its scope unless it is
the first.  The scope is locked outside the savepoint. -/
def register (env : Env) (a : RegisterArgs) : Tx PriceVersion := do
  let row ← check (validateRegister env a)
  let versionId := "price_" ++ a.token
  scopeLock row.scope a.now
  savepoint (addVersion versionId row)
  let stored ← readRow (.price versionId)
  let stored ← orRaise (stored : Option PriceRow) (priceNotFound "Price version was not found")
  return { stored with id := versionId }

/-- `close_version`: close an open version that no usage refers to. -/
def closeVersion (versionId : String) (effectiveTo now : Time) : Tx Unit := do
  let row ← readRow (.price versionId)
  let row ← orRaise (row : Option PriceRow) (priceNotFound "Price version was not found")
  scopeLock row.scope now
  let locked ← lockRow (.price versionId)
  let locked ← orRaise (locked : Option PriceRow) (priceNotFound "Price version was not found")
  raiseIf (locked.effectiveToUtc ≠ none)
    (closeConflict "Price version is already closed; its interval cannot be modified")
  raiseIf (effectiveTo ≤ locked.effectiveFromUtc)
    (closeConflict "Close time must be after the version effective_from")
  rejectAnyUsage versionId
  rejectPendingDispatches row.scope effectiveTo
  closeRow versionId effectiveTo

/-! ### Cost -/

/-- Round a non-negative amount in units of `10⁻¹⁰` to a multiple of `10⁻⁶`. -/
def roundMoney (rule : Rounding) (x : Money) : Money :=
  match rule with
  | .floor => x / 10000 * 10000
  | .ceil => (x + 9999) / 10000 * 10000
  | .halfUp => (x + 5000) / 10000 * 10000

/-- The total of one line: the billable quantity in whole blocks, times the rate. -/
def lineTotal (line : PriceLine) (quantity : ℕ) : Money :=
  if quantity = 0 then 0
  else
    let billable := max quantity line.minimumBillableQuantity
    let blocks := (billable + line.billingGranularity - 1) / line.billingGranularity
    roundMoney line.roundingRule (blocks * line.rate)

/-- The availability of the meter of one line. -/
def lineStatus (availability : List (String × CostStatus)) (line : PriceLine) :
    Except Err CostStatus :=
  match availability.lookup line.meter with
  | none => .error (validationError
      ("availability must provide a legal status for priced meter " ++ pyRepr line.meter))
  | some status => .ok status

/-- The availability and the quantity of one line; an unavailable meter has none. -/
def lineQuantity (measured : List (String × ℕ)) (availability : List (String × CostStatus))
    (line : PriceLine) : Except Err (PriceLine × CostStatus × ℕ) := do
  let status ← lineStatus availability line
  if status = .unavailable then .ok (line, status, 0)
  else match measured.lookup line.meter with
    | none => .error (validationError
        ("measured quantity is missing for meter " ++ pyRepr line.meter))
    | some quantity =>
      if maxQuantity < quantity then .error (validationError
        ("measured quantity for meter " ++ pyRepr line.meter
          ++ " exceeds the supported maximum"))
      else .ok (line, status, quantity)

/-- `estimate_cost`: the sum of the line totals that are known, and how much of the cost
that is.  The quantities are integers, and the precision of the arithmetic is large
enough for it to be exact. -/
def estimateCost (price : PriceFacts) (measured : List (String × ℕ))
    (availability : List (String × CostStatus)) : Except Err (Option Money × CostStatus) := do
  let _ ← price.lines.mapM (lineStatus availability)
  let rows ← price.lines.mapM (lineQuantity measured availability)
  let known := rows.filter fun r => r.2.1 ≠ .unavailable
  let amount := roundMoney .halfUp (known.map fun r => lineTotal r.1 r.2.2).sum
  if known = [] then .ok (none, .unavailable)
  else if 10 ^ 30 ≤ amount then .error (.platform {
    code := "estimated_cost_exceeds_limit"
    message := "Estimated cost exceeds the Numeric(30,10) storage limit"
    details := [("estimated_cost_amount", .decimal ⟨false, (amount / 10000).toNat, -6⟩)]
    statusCode := 422 })
  else .ok (some amount, if rows.all fun r => r.2.1 = .complete then .complete else .partially)

end RagQs.Usage
