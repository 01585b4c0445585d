import RagQs.Platform.Value
import RagQs.Txn.Statement

/-!
# Leases and fences

A lease on a resource has an owner, an expiry and a fence token.  A lease that has expired
can be taken over under the next token.  A fenced transaction does its work only when the
lease is current, and once more makes sure of it, by an update that locks the lease, before
it commits.  The times are what the database clock returned to each statement.

## Main definitions

* `LeaseRow`, `Lease` — the row of a resource, and what an owner is given.
* `acquire`, `renew`, `assertFence`, `fencedTransaction` — the operations.
* `LeaseOp`, `leaseBody` — each in a transaction of its own.
-/

namespace RagQs.Platform

open Txn

/-- A row of `platform_lease`. -/
structure LeaseRow where
  owner : String
  fenceToken : ℕ
  expiresAtUtc : Time
  updatedAtUtc : Time

/-- `Lease` -/
structure Lease where
  resource : String
  owner : String
  fenceToken : ℕ
  expiresAtUtc : Time
  deriving DecidableEq

/-- The exceptions of the lease store, and those of the work it is given. -/
inductive LeaseErr
  | valueError (message : String)
  | leaseUnavailable (message : String)
  | fenceViolation (message : String)
  /-- `scalar_one` without a row. -/
  | noResultFound
  | work (name : String)

/-- The keys of the database: the leases, and everything else. -/
inductive LeaseKey (K : Type)
  | lease (resource : String)
  | data (key : K)
  deriving DecidableEq

section Operations

variable {K : Type} [DecidableEq K] {V : K → Type} {α : Type}

/-- The rows: leases, and rows of other tables. -/
@[reducible] def LeaseEntry (V : K → Type) : LeaseKey K → Type
  | .lease _ => LeaseRow
  | .data k => V k

/-- A transaction on a database with leases. -/
abbrev LeaseTx (V : K → Type) := Prog (LeaseEntry V) LeaseErr

/-- `_validate_ttl` -/
def validateTtl (ttl : ℤ) : Except LeaseErr Unit :=
  if ttl ≤ 0 then .error (.valueError "lease ttl must be positive") else .ok ()

/-- The lease has this owner and this token, and has not expired. -/
def LeaseRow.current (owner : String) (fenceToken : ℕ) (now : Time) (row : LeaseRow) : Bool :=
  row.owner = owner && row.fenceToken = fenceToken && now < row.expiresAtUtc

/-- The row of a lease that is taken over. -/
def LeaseRow.takeOver (owner : String) (expiresAt now : Time) (row : LeaseRow) : LeaseRow where
  owner
  fenceToken := row.fenceToken + 1
  expiresAtUtc := expiresAt
  updatedAtUtc := now

/-- The refusal of a fence that is not current. -/
def staleFence (resource : String) : LeaseErr := .fenceViolation ("stale fence for " ++ resource)

/-- `acquire`: a new lease, or one that has expired. -/
def acquire (resource owner : String) (ttl : ℤ) (now : Time) : LeaseTx V Lease := do
  check (validateTtl ttl)
  let expiresAt := now + ttl
  let row : LeaseRow := ⟨owner, 1, expiresAt, now⟩
  let inserted ← insertOrSkip (.work "IntegrityError") (LeaseKey.lease resource) []
    [⟨.lease resource, some row⟩]
  if inserted then return ⟨resource, owner, 1, expiresAt⟩
  else do
    let updated ← updateWhere (LeaseKey.lease resource)
      (fun row : LeaseRow => decide (row.expiresAtUtc ≤ now)) (·.takeOver owner expiresAt now)
    raiseIf (updated ≠ 1) (.leaseUnavailable ("lease is held for " ++ resource))
    let row ← readRow (LeaseKey.lease resource)
    let row ← orRaise (row : Option LeaseRow) .noResultFound
    return ⟨resource, owner, row.fenceToken, expiresAt⟩

/-- `renew` -/
def renew (lease : Lease) (ttl : ℤ) (now : Time) : LeaseTx V Lease := do
  check (validateTtl ttl)
  let expiresAt := now + ttl
  let renewed ← updateWhere (LeaseKey.lease lease.resource)
    (LeaseRow.current lease.owner lease.fenceToken now)
    fun row => { row with expiresAtUtc := expiresAt, updatedAtUtc := now }
  raiseIf (renewed ≠ 1) (staleFence lease.resource)
  return { lease with expiresAtUtc := expiresAt }

/-- `assert_fence` -/
def assertFence (resource owner : String) (fenceToken : ℕ) (now : Time) : LeaseTx V Unit := do
  let record ← readRow (LeaseKey.lease resource)
  raiseIf (¬ (record : Option LeaseRow).any (LeaseRow.current owner fenceToken now) = true)
    (staleFence resource)

/-- A program that writes to other tables only. -/
def OnlyData : LeaseTx V α → Prop
  | .done _ => True
  | .fail _ => True
  | .stmt _ writes next =>
    (∀ v, ∀ w ∈ writes v, ∃ k, w.1 = .data k) ∧ ∀ v, OnlyData (next v)

/-- The work of a fenced transaction: any program on the other tables, which may raise. -/
structure Work (V : K → Type) where
  run : LeaseTx V Unit
  onlyData : OnlyData run

/-- The operations, with the readings of the clock. -/
inductive LeaseOp (V : K → Type)
  | acquire (resource owner : String) (ttl : ℤ) (now : Time)
  | renew (lease : Lease) (ttl : ℤ) (now : Time)
  | assertFence (resource owner : String) (fenceToken : ℕ) (now : Time)
  | fenced (lease : Lease) (now later : Time) (work : Work V)

end Operations
end RagQs.Platform
