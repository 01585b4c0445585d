import RagQs.Backup.Restores
import RagQs.Txn.Locked

/-!
# The stages of a restore

The stages of a session that have succeeded come before the others, which are pending but for the
first of them.  That stage is the one the next call runs.

## Main definitions

* `UpTo` — the stages before a position have succeeded, and those after it are pending.
* `AtStage`, `StagesOk` — the stages of a session between two transactions.
* `restoreRegions` — the rows of a session are a region.

## Main results

* `AtStage.runnable`, `done_of_runnable` — the stage a call runs.
* `StagesOk.complete` — a stage that was run.
-/

namespace RagQs.Backup

open Txn List Option Store

namespace Stage

theorem exists_position : ∀ n < 7, ∃ stage : Stage, stage.position = n
  | 0, _ => ⟨.postgres, rfl⟩
  | 1, _ => ⟨.objectStore, rfl⟩
  | 2, _ => ⟨.milvus, rfl⟩
  | 3, _ => ⟨.sparse, rfl⟩
  | 4, _ => ⟨.summary, rfl⟩
  | 5, _ => ⟨.graph, rfl⟩
  | 6, _ => ⟨.cache, rfl⟩

theorem position_lt (stage : Stage) : stage.position < 7 := by
  cases stage <;> decide

theorem position_inj {stage stage' : Stage} (h : stage.position = stage'.position) :
    stage = stage' := by
  cases stage <;> cases stage' <;> first | rfl | cases h

theorem all_sorted : all.Pairwise fun stage stage' => stage.position < stage'.position := by
  decide

end Stage

variable {v v' b c d : Db} {r : String} {n : ℕ} {stage : Stage} {now : Time}

/-! ### The stages of a session -/

/-- The stage has succeeded, and is validated. -/
def Done (v : Db) (r : String) (stage : Stage) : Prop :=
  ∃ row, v.get (Key.stage r stage) = some row ∧ row.status = .succeeded ∧ row.validated = true

/-- All seven stages have. -/
def AllDone (v : Db) (r : String) : Prop := ∀ stage, Done v r stage

/-- The stages before the position have succeeded, and those after it are pending. -/
def UpTo (v : Db) (r : String) (n : ℕ) : Prop :=
  ∀ stage, ∃ row, v.get (Key.stage r stage) = some row ∧ row.position = stage.position ∧
    (stage.position < n → row.status = .succeeded ∧ row.validated = true) ∧
    (n < stage.position → row.status = .pending)

/-- The stages of a session between two transactions. -/
def StagesOk (v : Db) (r : String) : Prop :=
  ∃ n, UpTo v r n ∧ ∀ stage row, stage.position = n → v.get (Key.stage r stage) = some row →
    row.status = .pending ∨ row.status = .failed

/-- The stages before the position have succeeded, and the one at it has not. -/
def AtStage (v : Db) (r : String) (n : ℕ) : Prop :=
  UpTo v r n ∧ ∀ stage row, stage.position = n → v.get (Key.stage r stage) = some row →
    row.status = .pending ∨ row.status = .failed

theorem UpTo.congr (h : UpTo v r n)
    (heq : ∀ stage, v'.get (Key.stage r stage) = v.get (Key.stage r stage)) : UpTo v' r n := by
  unfold UpTo
  simp only [heq]
  exact h

theorem AtStage.congr (h : AtStage v r n)
    (heq : ∀ stage, v'.get (Key.stage r stage) = v.get (Key.stage r stage)) : AtStage v' r n := by
  refine ⟨h.1.congr heq, fun stage row hstage hrow => h.2 stage row hstage ?_⟩
  rw [← heq stage]
  exact hrow

theorem StagesOk.congr (h : StagesOk v r)
    (heq : ∀ stage, v'.get (Key.stage r stage) = v.get (Key.stage r stage)) : StagesOk v' r := by
  obtain ⟨n, hn⟩ := h
  exact ⟨n, AtStage.congr hn heq⟩

theorem AllDone.congr (h : AllDone v r)
    (heq : ∀ stage, v'.get (Key.stage r stage) = v.get (Key.stage r stage)) : AllDone v' r := by
  intro stage
  unfold Done
  rw [heq stage]
  exact h stage

/-- The rows that are read, in the order of the stages. -/
theorem stagesOf_eq {f : Stage → StageRow}
    (hf : ∀ stage, v.get (Key.stage r stage) = some (f stage))
    (hposition : ∀ stage, (f stage).position = stage.position) :
    stagesOf v r = Stage.all.map fun stage => (stage, f stage) := by
  have hread : (Stage.all.filterMap fun stage =>
      (v.get (Key.stage r stage)).map fun row => (stage, row))
        = Stage.all.map fun stage => (stage, f stage) := by
    rw [← filterMap_eq_map]
    refine filterMap_congr fun stage _ => ?_
    rw [hf stage]
    rfl
  unfold stagesOf
  rw [hread]
  refine List.Pairwise.insertionSort_eq (pairwise_map.mpr (Stage.all_sorted.imp ?_))
  intro stage stage' hlt
  simp only [hposition]
  exact hlt.le

/-- The rows of the stages are there. -/
theorem UpTo.rows (h : UpTo v r n) : ∃ f : Stage → StageRow,
    (∀ stage, v.get (Key.stage r stage) = some (f stage)) ∧
    (∀ stage, (f stage).position = stage.position) ∧
    (∀ stage, stage.position < n → (f stage).status = .succeeded ∧ (f stage).validated = true) ∧
    (∀ stage, n < stage.position → (f stage).status = .pending) ∧
    stagesOf v r = Stage.all.map fun stage => (stage, f stage) := by
  choose f hf hposition hdone hpending using h
  exact ⟨f, hf, hposition, hdone, hpending, stagesOf_eq hf hposition⟩

/-- **The stage a call runs** is the first that has not succeeded. -/
theorem AtStage.runnable {status : Progress} (h : AtStage v r n)
    (hrun : runnableStage (stagesOf v r) = some (stage, status)) :
    stage.position = n ∧ (status = .pending ∨ status = .failed) := by
  obtain ⟨hn, hat⟩ := h
  obtain ⟨f, hf, -, hdone, hpending, hread⟩ := hn.rows
  unfold runnableStage at hrun
  rw [hread, map_eq_some_iff] at hrun
  obtain ⟨x, hfind, hpair⟩ := hrun
  rw [List.find?_map, map_eq_some_iff] at hfind
  obtain ⟨found, hfind, rfl⟩ := hfind
  obtain ⟨rfl, rfl⟩ := Prod.mk.inj hpair
  change found.position = n ∧ ((f found).status = .pending ∨ (f found).status = .failed)
  generalize found = stage at *
  obtain ⟨hstops, before, after, hsplit, hbefore⟩ := List.find?_eq_some_iff_append.mp hfind
  have hposition : stage.position = n := by
    rcases Nat.lt_trichotomy stage.position n with hlt | heq | hgt
    · simp [(hdone stage hlt).1] at hstops
    · exact heq
    · -- the stage at the position comes before, and is not done
      obtain ⟨first, hfirst⟩ := Stage.exists_position n (hgt.trans stage.position_lt)
      have hmem : first ∈ before := by
        have hall := first.mem_all
        have hsorted := Stage.all_sorted
        rw [hsplit] at hall hsorted
        rcases mem_append.mp hall with hmem | hmem
        · exact hmem
        · obtain ⟨-, hsorted, -⟩ := pairwise_append.mp hsorted
          rcases mem_cons.mp hmem with rfl | hmem
          · omega
          · have := rel_of_pairwise_cons hsorted hmem
            omega
      have hnot := hbefore first hmem
      rcases hat first (f first) hfirst (hf first) with hstatus | hstatus <;>
        simp [hstatus] at hnot
  exact ⟨hposition, hat stage _ hposition (hf stage)⟩

theorem upTo_of_runnable {status : Progress} (h : StagesOk v r)
    (hrun : runnableStage (stagesOf v r) = some (stage, status)) : UpTo v r stage.position := by
  obtain ⟨n, hn⟩ := h
  rw [(AtStage.runnable hn hrun).1]
  exact hn.1

/-- **Where no stage is left** to run all have succeeded. -/
theorem done_of_runnable (h : StagesOk v r) (hrun : runnableStage (stagesOf v r) = none) :
    AllDone v r := by
  obtain ⟨n, hn, hat⟩ := h
  obtain ⟨f, hf, -, hdone, hpending, hread⟩ := hn.rows
  unfold runnableStage at hrun
  rw [hread, map_eq_none_iff, List.find?_map, map_eq_none_iff,
    List.find?_eq_none] at hrun
  intro stage
  have hnot := hrun stage stage.mem_all
  refine ⟨f stage, hf stage, hdone stage ?_⟩
  by_contra hge
  rcases Nat.eq_or_lt_of_not_lt hge with heq | hlt
  · rcases hat stage (f stage) heq (hf stage) with hstatus | hstatus <;>
      simp [hstatus] at hnot
  · simp [hpending stage hlt] at hnot

theorem done_of_allSucceeded (h : StagesOk v r) (hall : allSucceeded (stagesOf v r) = true) :
    AllDone v r := by
  refine done_of_runnable h ?_
  unfold runnableStage
  unfold allSucceeded at hall
  rw [map_eq_none_iff, List.find?_eq_none]
  intro x hx
  have := List.all_eq_true.mp hall x hx
  simp only [decide_eq_true_eq] at this
  simp [this]

theorem AllDone.allSucceeded (h : AllDone v r) (hok : StagesOk v r) :
    allSucceeded (stagesOf v r) = true := by
  obtain ⟨n, hn, -⟩ := hok
  obtain ⟨f, hf, -, -, -, hread⟩ := hn.rows
  unfold Backup.allSucceeded
  rw [hread, List.all_map, List.all_eq_true]
  intro stage _
  obtain ⟨row, hrow, hstatus, -⟩ := h stage
  cases (hf stage).symm.trans hrow
  simpa using hstatus

theorem UpTo.set {row : StageRow} (h : UpTo v r stage.position)
    (hposition : row.position = stage.position) :
    UpTo (v.set (Key.stage r stage) (some row)) r stage.position := by
  intro stage'
  by_cases heq : stage' = stage
  · subst heq
    exact ⟨row, get_set_self .., hposition, fun hlt => absurd hlt (Nat.lt_irrefl _),
      fun hlt => absurd hlt (Nat.lt_irrefl _)⟩
  · obtain ⟨row', hrow', h'⟩ := h stage'
    exact ⟨row', (get_set_of_ne (by simpa using heq)).trans hrow', h'⟩

/-- A stage that has succeeded. -/
theorem UpTo.succeed {row : StageRow} (h : UpTo v r stage.position)
    (hposition : row.position = stage.position) (hstatus : row.status = .succeeded)
    (hvalidated : row.validated = true) :
    AtStage (v.set (Key.stage r stage) (some row)) r (stage.position + 1) := by
  refine ⟨fun stage' => ?_, fun stage' row' heq hrow' => .inl ?_⟩
  · obtain ⟨row', hrow', hposition', hdone, hpending⟩ := h.set hposition stage'
    refine ⟨row', hrow', hposition', fun hlt => ?_, fun hlt => hpending (by omega)⟩
    rcases Nat.lt_or_eq_of_le (Nat.le_of_lt_succ hlt) with hlt | heq
    · exact hdone hlt
    · obtain rfl := Stage.position_inj heq
      cases (get_set_self ..).symm.trans hrow'
      exact ⟨hstatus, hvalidated⟩
  · obtain ⟨row'', hrow'', -, -, hpending⟩ := h.set hposition stage'
    cases hrow''.symm.trans hrow'
    exact hpending (by omega)

/-- **A stage that was run** has succeeded and is validated, or has failed. -/
theorem StagesOk.complete {row : StageRow} {validated : Bool} (h : UpTo v r stage.position)
    (hposition : row.position = stage.position)
    (hstatus : row.status = if validated then .succeeded else .failed)
    (hvalidated : row.validated = validated) :
    StagesOk (v.set (Key.stage r stage) (some row)) r := by
  cases validated with
  | false =>
    refine ⟨stage.position, h.set hposition, fun stage' row' heq hrow' => .inr ?_⟩
    obtain rfl := Stage.position_inj heq
    cases (get_set_self ..).symm.trans hrow'
    exact hstatus
  | true => exact ⟨stage.position + 1, h.succeed hposition hstatus hvalidated⟩

/-! ### The rows of a session -/

/-- The rows of a session are a region; an operation works in the one of its session. -/
def restoreRegions : Regions Key RestoreOp String where
  region
    | .session r | .stage r _ | .target r _ _ | .repair r _ _ => some r
    | _ => none
  of := RestoreOp.restoreId

/-- The session is accepted, running or blocked. -/
def Active (c : Db) (r : String) : Prop :=
  ∃ row, c.get (Key.session r) = some row ∧ row.status.isActive = true

theorem Active.same (h : Active v r) (hsame : restoreRegions.Same r v v') : Active v' r := by
  obtain ⟨row, hrow, hactive⟩ := h
  exact ⟨row, (hsame _ rfl).trans hrow, hactive⟩

theorem StagesOk.same (h : StagesOk v r) (hsame : restoreRegions.Same r v v') : StagesOk v' r :=
  h.congr fun _ => hsame _ rfl

theorem anyOpenRepair_iff : anyOpenRepair v r = true ↔
    ∃ stage resourceId row, v.get (Key.repair r stage resourceId) = some row ∧
      row.status = .open := by
  unfold anyOpenRepair
  rw [decide_eq_true_eq, ne_eq, eq_nil_iff_forall_not_mem, not_forall]
  simp only [not_not, mem_table]
  constructor
  · rintro ⟨u, k, row, hrow, hpick⟩
    cases k with
    | repair r' stage resourceId =>
      simp only [ite_none_right_eq_some, and_true] at hpick
      obtain ⟨rfl, hopen⟩ := hpick
      exact ⟨stage, resourceId, row, hrow, hopen⟩
    | _ => cases hpick
  · rintro ⟨stage, resourceId, row, hrow, hopen⟩
    exact ⟨(), Key.repair r stage resourceId, row, hrow, by simp [hopen]⟩

theorem reads_anyOpenRepair : restoreRegions.Reads r fun v => anyOpenRepair v r := by
  intro v v' hsame
  have hiff : anyOpenRepair v' r = true ↔ anyOpenRepair v r = true := by
    rw [anyOpenRepair_iff, anyOpenRepair_iff]
    simp only [hsame (Key.repair r _ _) rfl]
  exact Bool.eq_iff_iff.mpr hiff

theorem reads_stagesOf : restoreRegions.Reads r fun v => stagesOf v r := by
  intro v v' hsame
  unfold stagesOf
  simp only [hsame (Key.stage r _) rfl]

end RagQs.Backup
