import RagQs.Usage.Sql

/-!
# The business calendar

One row, created by the first transaction that needs it, fixes the business timezone
for good.

## Main definitions

* `Env` — the functions of the standard library the usage services are given.
* `CalendarLock`, `lockOrVerify` — the locked version of the calendar.
-/

namespace RagQs.Usage

open Txn Txn.Discipline

/-- What the services take from outside: the configured timezone, and the library
functions they apply. -/
structure Env where
  /-- The configured business timezone. -/
  timezone : String
  /-- The month `YYYY-MM` of a time in a timezone (`astimezone(ZoneInfo(...))`). -/
  periodFor : String → Time → String
  /-- `ledger_fingerprint`: the keyed hash of the canonical form of a payload. -/
  ledgerFingerprint : String → Val → String
  /-- `rc_` and the name-based UUID of a provider call id. -/
  stableReconciliationId : String → String
  /-- `str.upper`. -/
  upper : String → String
  /-- The keyed hash of the canonical form of a payload, under a key of its own. -/
  hmacSha256 : String → Val → String
  /-- The value of a decimal digit, which `\d` matches. -/
  decimalDigit : Char → Option ℕ
  /-- The configured page limit of a month. -/
  baseLimit : ℤ

/-- The library functions of the sample runs. -/
def sampleEnv : Env where
  timezone := "UTC"
  periodFor _ _ := "2026-01"
  ledgerFingerprint _ _ := "fingerprint"
  stableReconciliationId id := "rc_" ++ id
  upper := id
  hmacSha256 _ _ := "hmac"
  decimalDigit c := if c.isDigit then some (c.toNat - '0'.toNat) else none
  baseLimit := 500

/-- The ownership of the facts of the user `"u"`. -/
def sampleOwnership : OwnershipSnapshot where
  actorUserId := "u"
  actorRoleSnapshot := "user"
  actorDepartmentIdSnapshot := none
  quotaSubjectUserId := some "u"
  costCenterKey := "user:u"

/-- The locked calendar version. -/
structure CalendarLock where
  versionId : String
  timezone : String
  effectiveFromUtc : Time

/-- `_read_existing_lock`: the row, whose timezone has to be the configured one. -/
def readExistingLock (env : Env) : Tx (Option CalendarLock) := do
  let row ← readRow .calendar
  match (row : Option CalendarRow) with
  | none => return none
  | some row => do
    raiseIf (row.timezone ≠ env.timezone) (.platform {
      code := "calendar_timezone_conflict"
      message := "Business timezone no longer matches the locked calendar version"
      details := [("locked_timezone", .str row.timezone)]
      statusCode := 503
      retryable := true })
    return some ⟨row.versionId, row.timezone, row.effectiveFromUtc⟩

/-- `lock_or_verify`: the calendar row, inserted when it is not there yet. -/
def lockOrVerify (env : Env) (now : Time) (token : String) : Tx CalendarLock := do
  let existing ← readExistingLock env
  match existing with
  | some lock => return lock
  | none => do
    let versionId := "cal_" ++ token
    let inserted ← insertDoNothing .calendar []
      [⟨.calendar, some (⟨versionId, env.timezone, now, now⟩ : CalendarRow)⟩]
    if inserted then return ⟨versionId, env.timezone, now⟩
    else do
      let lock ← readExistingLock env
      orRaise lock (.platform {
        code := "calendar_ledger_invariant"
        message := "business calendar singleton row is missing after lock attempt" })

end RagQs.Usage
