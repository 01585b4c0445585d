import RagQs.Txn.Statement
import RagQs.Usage.Schema

/-!
# The statements of the usage domain

The insert that skips a row that is there, with the error of the domain, and the rows of its
tables.

## Main definitions

* `insertDoNothing` — `INSERT ... ON CONFLICT DO NOTHING`.
* `calls`, `events`, `prices`, `reconciliations` — the rows of a table.
-/

namespace RagQs.Usage

open Txn Txn.Discipline

variable {α β : Type}
variable {id : String}

/-- `INSERT ... ON CONFLICT DO NOTHING` on one index, and whether it inserted. -/
abbrev insertDoNothing (arbiter : Key) (others : List Key) (ws : List (Write Row)) : Tx Bool :=
  insertOrSkip .integrity arbiter others ws

/-- The provider calls. -/
def calls (v : Db) : List (String × CallRow) :=
  table v fun
    | .call id, r => some (id, r)
    | _, _ => none

/-- The usage events. -/
def events (v : Db) : List (String × EventRow) :=
  table v fun
    | .event id, r => some (id, r)
    | _, _ => none

/-- The price versions. -/
def prices (v : Db) : List (String × PriceRow) :=
  table v fun
    | .price id, r => some (id, r)
    | _, _ => none

/-- The reconciliation facts. -/
def reconciliations (v : Db) : List (String × ReconciliationRow) :=
  table v fun
    | .reconciliation id, r => some (id, r)
    | _, _ => none

theorem mem_calls {v : Db} {r : CallRow} : (id, r) ∈ calls v ↔ v.get (.call id) = some r := by
  refine mem_table.trans ⟨?_, fun h => ⟨.call id, r, h, rfl⟩⟩
  rintro ⟨k, x, hget, hpick⟩
  cases k <;> cases hpick
  exact hget

theorem mem_events {v : Db} {r : EventRow} : (id, r) ∈ events v ↔ v.get (.event id) = some r := by
  refine mem_table.trans ⟨?_, fun h => ⟨.event id, r, h, rfl⟩⟩
  rintro ⟨k, x, hget, hpick⟩
  cases k <;> cases hpick
  exact hget

theorem mem_prices {v : Db} {r : PriceRow} : (id, r) ∈ prices v ↔ v.get (.price id) = some r := by
  refine mem_table.trans ⟨?_, fun h => ⟨.price id, r, h, rfl⟩⟩
  rintro ⟨k, x, hget, hpick⟩
  cases k <;> cases hpick
  exact hget

theorem mem_reconciliations {v : Db} {r : ReconciliationRow} :
    (id, r) ∈ reconciliations v ↔ v.get (.reconciliation id) = some r := by
  refine mem_table.trans ⟨?_, fun h => ⟨.reconciliation id, r, h, rfl⟩⟩
  rintro ⟨k, x, hget, hpick⟩
  cases k <;> cases hpick
  exact hget

end RagQs.Usage
