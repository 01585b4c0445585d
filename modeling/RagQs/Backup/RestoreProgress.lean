import RagQs.Backup.RestoreFinish

/-!
# A restore can be finished

A session that is alone is completed by finitely many calls once nothing is wrong, if and only if
the repair targets it has open are those of expected objects.  No other one is ever resolved by a
call that advances the session: not that of a derived resource, though the stage that opened it has
succeeded since, and not that of an object that nothing expects.

## Main definitions

* `advances` — calls that advance a session.
* `Stuck` — a session with an open target that no call resolves.

## Main results

* `finishes_of_going`, `stuck_advances` — the two directions.
* `restore_finishes` — **when a restore can be finished, and what a validation leaves open.**
* `rebuild_failed_once` — a session that is never completed.
-/

namespace RagQs.Backup

open Txn List Store

variable {stage : Stage} {resourceId : String}

/-- Calls that advance the session, one after another. -/
def advances (r : String) (answers : ℕ → Answers) (now : ℕ → Time) (k : ℕ) : List RestoreOp :=
  (range k).map fun i => .advance r (answers i) (now i)

variable {E : String → Prop} {c₀ v v' : Db} {r : String} {n m : ℕ} {answers : ℕ → Answers}
  {now : ℕ → Time}

theorem execAll_advances_succ {u : Unit} {k : ℕ}
    (h : (advanceRestore r (answers 0) (now 0)).exec v = .ok (u, v')) :
    execAll RestoreOp.body v (advances r answers now (k + 1))
      = execAll RestoreOp.body v'
          (advances r (fun i => answers (i + 1)) (fun i => now (i + 1)) k) := by
  have hone : execOne RestoreOp.body v (.advance r (answers 0) (now 0)) = v' := by
    have hbody : (RestoreOp.body (.advance r (answers 0) (now 0))).exec v = .ok (u, v') := h
    unfold execOne
    rw [hbody]
  unfold advances
  rw [range_succ_eq_map, map_cons, map_map, execAll_cons, hone]
  rfl

/-- **A session that nothing stands in the way of** is completed. -/
theorem finishes_of_going (hclean : ∀ i, Clean E (answers i)) (h : Going E r n v)
    (hm : 2 * (7 - n) ≤ m) (hm' : ¬ HasStatus v r .blocked → 2 * (7 - n) + 1 ≤ m) :
    ∃ k, Finished (execAll RestoreOp.body v (advances r answers now k)) r := by
  -- every call runs a stage, or blocks a session that was not blocked, or completes it
  induction m using Nat.strongRecOn generalizing n v answers now with
  | ind m ih =>
    have hyields : (advanceRestore r (answers 0) (now 0)).Yields v _ := yields_advance (hclean 0) h
    obtain ⟨_, v', hexec, hnext⟩ := hyields
    have hlater : ∀ n', Going E r n' v' → 2 * (7 - n') + 1 ≤ m →
        (¬ HasStatus v' r .blocked → 2 * (7 - n') + 2 ≤ m) →
        ∃ k, Finished (execAll RestoreOp.body v (advances r answers now k)) r := by
      intro n' hgoing hle hle'
      obtain ⟨k, hk⟩ : ∃ k, Finished (execAll RestoreOp.body v'
          (advances r (fun i => answers (i + 1)) (fun i => now (i + 1)) k)) r := by
        refine ih (m - 1) (by omega) (fun i => hclean (i + 1)) hgoing (by omega) fun hnot => ?_
        have := hle' hnot
        omega
      exact ⟨k + 1, by rw [execAll_advances_succ hexec]; exact hk⟩
    rcases hnext with hfinished | ⟨hlt, hgoing⟩ | ⟨hgoing, hblocked, hnot⟩
    · exact ⟨1, by rw [execAll_advances_succ hexec]; exact hfinished⟩
    · exact hlater (n + 1) hgoing (by omega) fun _ => by omega
    · exact hlater n hgoing (hm' hnot) fun hfree => absurd hblocked hfree

/-! ### Targets that stay open -/

/-- The session is active, and has an open target. -/
structure Stuck (c₀ : Db) (r : String) (stage : Stage) (resourceId : String) (v : Db) : Prop where
  inv : RestoreInv c₀ v
  active : Active v r
  repair : OpenRepair v r stage resourceId

/-- **Where nothing is wrong** a call does not write a repair target that is not that of an expected
object. -/
theorem Clean.writes {answers : Answers} {now : Time} (hclean : Clean E answers)
    (hbad : ¬ (stage = .objectStore ∧ E resourceId)) :
    PartsWrite r answers now (· ≠ Key.repair r stage resourceId) where
  progress k hk := by
    rintro rfl
    exact hk
  facts n := by
    unfold validateFacts
    cases hfacts : answers.factValidation with
    | none => exact .done
    | some validation =>
      obtain ⟨expected, actual, hanswer, hagree, hkeys⟩ := hclean.facts validation hfacts n
      refine .check_bind fun x hx => ?_
      cases hanswer.symm.trans hx
      unfold compareFacts
      dsimp only
      rw [openFindings_eq_done fun key _ => hagree key]
      refine writes_resolveAll fun key hkey heq => hbad ?_
      obtain ⟨-, hstage, hid⟩ := Key.repair.inj heq
      exact ⟨hstage.symm, hid ▸ (hkeys key).mp (mem_consistentKeys.mp hkey).1⟩
  upsert _ _ := writes_upsertTargets nofun
  execute stage' rebuild hrebuild := by
    obtain ⟨rebuild', hrebuild', -, hsucceeds⟩ := hclean.derived
    cases hrebuild.symm.trans hrebuild'
    refine .bind .select fun _ => writes_runTargets nofun fun id => ?_
    unfold settleTarget
    rw [hsucceeds]
    exact writes_updateTarget nofun

theorem SessionKept.active_of (h : SessionKept v r v') (hv : Active v r) : Active v' r := by
  obtain ⟨row, row₀, hrow, hrow₀, -, hstatus⟩ := h
  obtain ⟨row', hrow', hactive⟩ := hv
  cases hrow₀.symm.trans hrow'
  refine ⟨row, hrow, ?_⟩
  rcases hstatus with hsame | ⟨hactive', -⟩
  · rw [hsame]
    exact hactive
  · exact hactive'

theorem Stuck.advance {answers : Answers} {now : Time} (hclean : Clean E answers)
    (hbad : ¬ (stage = .objectStore ∧ E resourceId)) (h : Stuck c₀ r stage resourceId v) {u : Unit}
    (hexec : (advanceRestore r answers now).exec v = .ok (u, v')) :
    Stuck c₀ r stage resourceId v' := by
  have hbody : (RestoreOp.advance r answers now).body.exec v = .ok (u, v') := hexec
  obtain ⟨hinv, -, heffect⟩ := Regions.exec_of_keeps (restore_keeps c₀) h.inv hbody
  have hrepair : OpenRepair v' r stage resourceId := by
    unfold OpenRepair
    rw [Prog.get_of_exec (hclean.writes hbad).advance hexec (not_not_intro rfl)]
    exact h.repair
  refine ⟨hinv, ?_, hrepair⟩
  rcases heffect with hmoved | hcompleted
  · exact hmoved.2.active_of h.active
  · obtain ⟨row, hrow, hopen⟩ := hrepair
    have hany := anyOpenRepair_iff.mpr ⟨stage, resourceId, row, hrow, hopen⟩
    cases hcompleted.repairs.symm.trans hany

/-- **A target that is not that of an expected object** stays open, and the session active. -/
theorem stuck_advances (hclean : ∀ i, Clean E (answers i))
    (hbad : ¬ (stage = .objectStore ∧ E resourceId)) (h : Stuck c₀ r stage resourceId v) (k : ℕ) :
    Stuck c₀ r stage resourceId (execAll RestoreOp.body v (advances r answers now k)) := by
  induction k with
  | zero => exact h
  | succ k ih =>
    unfold advances
    rw [range_succ, map_append, execAll_append]
    exact execOne_induction (fun _ _ hexec => ih.advance (hclean k) hbad hexec) ih

theorem Stuck.not_finished (h : Stuck c₀ r stage resourceId v) : ¬ Finished v r := by
  rintro ⟨⟨row, hrow, hstatus⟩, -⟩
  obtain ⟨row', hrow', hactive⟩ := h.active
  cases hrow.symm.trans hrow'
  rw [hstatus] at hactive
  cases hactive

/-! ### When a restore can be finished -/

/-- No other session is active. -/
def Alone (v : Db) (r : String) : Prop := ∀ r', Active v r' → r' = r

/-- Every backup set has its components. -/
def Stocked (c₀ : Db) : Prop :=
  ∀ backupId kind, (c₀.get (Key.set backupId)).isSome = true →
    (c₀.get (Key.component backupId kind)).isSome = true

theorem RestoreInv.ready (h : RestoreInv c₀ v) (hstocked : Stocked c₀) (hactive : Active v r)
    (halone : Alone v r) (hrepairs : Repairable E v r) : Ready E r v := by
  obtain ⟨row, hrow, -⟩ := hactive
  refine ⟨⟨row, hrow, fun kind => ?_⟩, fun status r' hr' => ?_, hrepairs⟩
  · rw [h.sets (Key.component row.backupId kind) trivial]
    exact hstocked _ kind (h.backed r row hrow)
  · obtain ⟨row', hrow', hstatus, hactive'⟩ := h.index status r' hr'
    exact halone r' ⟨row', hrow', hstatus ▸ hactive'⟩

/-- **When a restore can be finished.**  In every store a run reaches, an active session that is
alone is completed, and the gate opened, by finitely many calls that find nothing wrong if and only
if the repair targets it has open are those of expected objects.  And the targets a validation
leaves open are those of the objects it finds wrong if and only if no open one is of an object in
neither list and none that was resolved is of an object found wrong. -/
theorem restore_finishes (h₀ : NoSession c₀) (hstocked : Stocked c₀) {ms : List (Move RestoreOp)}
    {s : RestoreSys} (hrun : run RestoreOp.body (Sys.init c₀) ms = some s)
    (hactive : Active s.db r) :
    (Alone s.db r → ∀ (E : String → Prop) (answers : ℕ → Answers) (now : ℕ → Time),
      (∀ i, Clean E (answers i)) →
        ((∃ k, Finished (execAll RestoreOp.body s.db (advances r answers now k)) r) ↔
          Repairable E s.db r)) ∧
    ∀ (v v' : Db) (expected actual : List ObjectFact) (now : Time),
      (compareFacts r expected actual now).exec v = .ok ((), v') →
        ((∀ key, OpenRepair v' r .objectStore key ↔ (findingOf expected actual key).isSome = true) ↔
          ∀ key, (repairStatus v r key = some .open →
              key ∈ keysOf expected ∨ key ∈ keysOf actual) ∧
            (repairStatus v r key = some .succeeded → findingOf expected actual key = none)) := by
  refine ⟨fun halone E answers now hclean => ⟨?_, fun hrepairs => ?_⟩,
    fun v v' expected actual now h => openRepair_compareFacts h⟩
  · rintro ⟨k, hfinished⟩ stage resourceId hopen
    by_contra hbad
    have hstuck : Stuck c₀ r stage resourceId s.db :=
      ⟨Regions.inv_of_run (restore_keeps c₀) h₀.inv hrun, hactive, hopen⟩
    exact (stuck_advances hclean hbad hstuck k).not_finished hfinished
  · have hinv := Regions.inv_of_run (restore_keeps c₀) h₀.inv hrun
    obtain ⟨row, hrow, hstatus⟩ := hactive
    obtain ⟨n, hstages⟩ := hinv.stages r (by rw [hrow]; rfl)
    exact finishes_of_going (m := 2 * (7 - n) + 1) hclean
      ⟨hinv.ready hstocked ⟨row, hrow, hstatus⟩ halone hrepairs, hstages, ⟨row, hrow, hstatus⟩⟩
      (Nat.le_succ _) fun _ => le_rfl

/-- A backup set with its components. -/
def stocked : Db :=
  restorable.set (Key.component "b1" .objectManifest) (some ⟨.succeeded, 0, some "m", none, some 0⟩)

theorem stocked_noSession : NoSession stocked := by
  constructor <;> intro <;> simp [stocked, restorable, get_set_of_ne]

theorem stocked_stocked : Stocked stocked := by
  intro backupId kind hset
  by_cases heq : backupId = "b1"
  · subst heq
    cases kind <;> decide +kernel
  · simp [stocked, restorable, get_set_of_ne, heq] at hset

/-- Ports that find nothing wrong, and list the resource and the object that were found wrong. -/
def repairedAnswers : Answers :=
  { cleanAnswers with
    factValidation := some fun _ => .ok ([⟨"o", 1, "h", []⟩], [⟨"o", 1, "h", []⟩])
    derivedRebuild := some ⟨fun _ => .ok ["m"], fun _ _ => none⟩ }

theorem repairedAnswers_clean : Clean (· = "o") repairedAnswers where
  postgres _ := rfl
  objects _ := rfl
  facts validation hvalidation n := by
    cases hvalidation
    refine ⟨_, _, rfl, fun key => ?_, fun key => by simp [keysOf]⟩
    by_cases heq : key = "o"
    · subst heq
      decide +kernel
    · have hne : "o" ≠ key := fun h => heq h.symm
      simp [findingOf, factOf, hne]
  unvalidated := nofun
  derived := by
    refine ⟨_, rfl, fun stage => ⟨["m"], rfl, fun resourceId hmem => ?_⟩, fun _ _ => rfl⟩
    rw [mem_singleton.mp hmem]
    decide +kernel
  postGate := rfl

/-- An object is found missing. -/
def lostOnce : List (Move RestoreOp) :=
  alone 0 (.start "b1" "r1" 0) 14 ++ alone 0 (.advance "r1" cleanAnswers 1) 9 ++
    alone 0 (.advance "r1" objectLost 2) 12

/-- A test of the state of the session `r1`: it is alone, and the target of the object is the only
one. -/
def lostTest (v : Db) : Bool :=
  (v.get (Key.session "r1")).any (·.status.isActive) && v.rows.all fun
    | ⟨.session restoreId, row⟩ => !row.status.isActive || restoreId = "r1"
    | ⟨.repair _ stage resourceId, _⟩ => stage = .objectStore && resourceId = "o"
    | _ => true

/-- **The session is completed** once the object is there again. -/
theorem restore_finishes_lostOnce :
    ∃ s, run RestoreOp.body (Sys.init stocked) lostOnce = some s ∧
      OpenRepair s.db "r1" .objectStore "o" ∧
      ∃ k, Finished (execAll RestoreOp.body s.db
        (advances "r1" (fun _ => repairedAnswers) (fun i => i) k)) "r1" := by
  have hend : (run RestoreOp.body (Sys.init stocked) lostOnce).any (fun s =>
      lostTest s.db && (s.db.get (Key.repair "r1" .objectStore "o")).any (·.status = .open))
        = true := by decide +kernel
  obtain ⟨s, hs, htest⟩ := (Option.any_eq_true _ _).mp hend
  rw [Bool.and_eq_true, lostTest, Bool.and_eq_true, List.all_eq_true] at htest
  obtain ⟨⟨hactive, hrows⟩, hopen⟩ := htest
  have hopen : OpenRepair s.db "r1" .objectStore "o" := by
    obtain ⟨row, hrow, hstatus⟩ := (Option.any_eq_true _ _).mp hopen
    exact ⟨row, hrow, by simpa using hstatus⟩
  refine ⟨s, hs, hopen, ?_⟩
  refine ((restore_finishes stocked_noSession stocked_stocked hs
    ((Option.any_eq_true _ _).mp hactive)).1 ?_ (· = "o") _ _ fun _ => repairedAnswers_clean).mpr ?_
  · rintro r ⟨row, hrow, hstatus⟩
    have := hrows ⟨Key.session r, row⟩ (Store.mem_rows.mpr hrow)
    simpa [hstatus] using this
  · rintro stage resourceId ⟨row, hrow, -⟩
    have := hrows ⟨Key.repair "r1" stage resourceId, row⟩ (Store.mem_rows.mpr hrow)
    simpa using this

/-- A rebuild fails. -/
def rebuildFails : Answers :=
  { cleanAnswers with derivedRebuild := some ⟨fun _ => .ok ["m"], fun _ _ =>
      some ⟨"TimeoutError", "timed out"⟩⟩ }

/-- A rebuild of the first derived stage fails. -/
def failedOnce : List (Move RestoreOp) :=
  alone 0 (.start "b1" "r1" 0) 14 ++ alone 0 (.advance "r1" cleanAnswers 1) 9 ++
    alone 0 (.advance "r1" cleanAnswers 2) 10 ++ alone 0 (.advance "r1" rebuildFails 3) 15

/-- **A session that is never completed**: its target stays open, though every later rebuild
succeeds and nothing is found wrong. -/
theorem rebuild_failed_once :
    ∃ s, run RestoreOp.body (Sys.init stocked) failedOnce = some s ∧ Active s.db "r1" ∧
      ∀ k, ¬ Finished (execAll RestoreOp.body s.db
        (advances "r1" (fun _ => repairedAnswers) (fun i => i) k)) "r1" := by
  have hend : (run RestoreOp.body (Sys.init stocked) failedOnce).any (fun s =>
      (s.db.get (Key.session "r1")).any (·.status.isActive) &&
        (s.db.get (Key.repair "r1" .milvus "m")).any (·.status = .open)) = true := by
    decide +kernel
  obtain ⟨s, hs, htest⟩ := (Option.any_eq_true _ _).mp hend
  rw [Bool.and_eq_true] at htest
  obtain ⟨hactive, hopen⟩ := htest
  have hactive : Active s.db "r1" := (Option.any_eq_true _ _).mp hactive
  obtain ⟨row, hrow, hstatus⟩ := (Option.any_eq_true _ _).mp hopen
  have hstuck : Stuck stocked "r1" .milvus "m" s.db :=
    ⟨Regions.inv_of_run (restore_keeps stocked) stocked_noSession.inv hs, hactive, row, hrow,
      by simpa using hstatus⟩
  exact ⟨s, hs, hactive, fun k =>
    (stuck_advances (fun _ => repairedAnswers_clean) (by simp) hstuck k).not_finished⟩

end RagQs.Backup
