import RagQs.Backup.RetentionSteps
import RagQs.Machine.Run

/-!
# Restores and sweeps

A set of which a restore is accepted, running or blocked has all its snapshots, where a session is
only started for a set that is not being deleted, and results are only recorded for sets that are not
complete.

The service itself looks at neither the cleanup targets nor the mark of a set: a deletion that has
failed in part is tried again while a restore of the set is active.

## Main definitions

* `Vault.init` — the vault before the first move.
* `Cautious` — the condition on the moves of a run.
* `MayPurge` — a sweep may purge the set.

## Main results

* `evolves_step` — what a move does.
* `restore_has_artifacts` — runs in which every move meets the condition.
* `deleted_during_restore` — a run in which a snapshot of a set is deleted while it is restored.
-/

namespace RagQs.Backup

open Txn List Option Function

variable {s t : Vault} {B : String} {m : RetentionMove} {ms : List RetentionMove}
  {policy : Option PolicyRow} {clock : Time}

/-- The vault before the first move. -/
def Vault.init (policy : Option PolicyRow) (clock : Time) : Vault where
  db := ∅
  cleanups := []
  policy := policy
  deleted := []
  clock := clock
  starts _ := none
  sweeps _ := none

/-- **The condition on a move**: a session is started for a set that is not purged, has no unfinished
cleanup target, and has not been found unprotected by a sweep that is about to insert one; results are
recorded for sets that are not complete, nor being deleted; and the executions that have failed are
those of sets that are not complete. -/
def Cautious (s : Vault) : RetentionMove → Prop
  | .set op => ¬ CompleteSet s.db op.backupId ∧ ¬ Touched s op.backupId
  | .ensureCleanup backupId _ _ => ¬ CompleteSet s.db backupId
  | .start i => ∀ tx, s.starts i = some tx → ¬ Touched s tx.backupId
  | _ => True

/-- A complete set is purged by a move. -/
def PurgedBy (s t : Vault) (B : String) : Prop :=
  ∃ row row', s.db.get (Key.set B) = some row ∧ row.status = .complete ∧ row.purgedAt = none ∧
    t.db.get (Key.set B) = some row' ∧ row'.purgedAt ≠ none

/-- The set is older than the retention period, it is not among the newest, and it is not the last
that has all its snapshots. -/
def MayPurge (s : Vault) (B : String) : Prop :=
  ∃ row completedAt, s.db.get (Key.set B) = some row ∧ row.completedAt = some completedAt ∧
    completedAt < cutoff s.clock s.policyRow.retentionDays ∧
    (B, completedAt) ∉ (restorableBackups s.db).take s.policyRow.keepLast ∧
    ∃ B', B' ≠ B ∧ (∃ t, (B', t) ∈ restorableBackups s.db) ∧ Intact s B'

/-! ### Moves -/

theorem vaultInv_init : VaultInv (Vault.init policy clock) where
  restores := NoSession.inv ⟨fun _ => rfl, fun _ => rfl⟩
  sessions B := by
    rintro ⟨r, row, hrow, -⟩
    cases hrow
  starts := by simp [Vault.init]
  exclusive B := by
    rintro ((⟨row, hrow, -⟩ | ⟨row, hrow, -⟩) | ⟨i, sweep, hsweep, -⟩)
    · cases hrow
    · cases hrow
    · cases hsweep
  deleted := by simp [Vault.init]
  aged B := by
    rintro - ⟨row, hrow, -⟩
    cases hrow
  targets := by simp [Vault.init]
  ids := nodup_nil
  sweeps := by simp [Vault.init]

theorem complete_of_startChecks {v c : Db} {a : Unit} (h : (startChecks B).exec v = .ok (a, c)) :
    CompleteSet v B := by
  obtain ⟨x, u, hcomplete, -⟩ := Prog.exec_bind_ok h
  obtain ⟨backup, u', hread, hcomplete⟩ := Prog.exec_bind_ok hcomplete
  cases hread
  dsimp only at hcomplete
  cases hrow : v.get (Key.set B) with
  | none =>
    rw [hrow] at hcomplete
    cases hcomplete
  | some row =>
    rw [hrow] at hcomplete
    refine ⟨row, hrow, ?_⟩
    by_contra hstatus
    change (raiseIf (row.status ≠ .complete) _ : Tx Unit).exec v = _ at hcomplete
    rw [raiseIf, if_pos hstatus] at hcomplete
    cases hcomplete

/-- **What a move does.** -/
theorem evolves_step (h : VaultInv s) (hm : Cautious s m) (hstep : retentionStep s m = some t) :
    Evolves s t := by
  have hsweeps : ∀ i sweep, s.sweeps i = some sweep → s.sweeps i = some sweep ∨
    (sweep.now ≤ s.clock ∧ ∃ limit, sweep.phase = .due limit) := fun i sweep hsweep => .inl hsweep
  cases m with
  | tick now =>
    rw [retentionStep, ite_none_right_eq_some] at hstep
    obtain ⟨hle, hstep⟩ := hstep
    cases hstep
    exact evolves_idle h rfl rfl rfl rfl hle h.starts fun i sweep hsweep => .inl hsweep
  | set op =>
    cases hstep
    exact evolves_set h hm.1 hm.2
  | ensureCleanup backupId targetId error =>
    cases hstep
    exact evolves_ensureCleanup h hm targetId error
  | check i backupId restoreId =>
    rw [retentionStep] at hstep
    split at hstep
    · next hnone hchecks =>
      cases hstep
      refine evolves_idle h rfl rfl rfl rfl le_rfl (fun j tx htx => ?_) hsweeps
      rcases Machine.of_update htx with ⟨-, heq⟩ | ⟨-, hold⟩
      · cases heq
        exact complete_of_startChecks hchecks
      · exact h.starts j tx hold
    · cases hstep
  | start i =>
    rw [retentionStep, map_eq_some_iff] at hstep
    obtain ⟨tx, htx, rfl⟩ := hstep
    exact evolves_start h htx (hm tx htx)
  | abandon i =>
    cases hstep
    refine evolves_idle h rfl rfl rfl rfl le_rfl (fun j tx htx => ?_) hsweeps
    exact h.starts j tx ((Machine.of_update htx).resolve_left nofun).2
  | restore op =>
    rw [retentionStep] at hstep
    split at hstep
    · cases hstep
    · next hop =>
      cases hstep
      exact evolves_restore h (Bool.eq_false_iff.mpr hop)
  | begin i limit =>
    rw [retentionStep] at hstep
    split at hstep
    · cases hstep
      refine evolves_idle h rfl rfl rfl rfl le_rfl h.starts fun j sweep hsweep => ?_
      rcases Machine.of_update hsweep with ⟨-, heq⟩ | ⟨-, hold⟩
      · cases heq
        exact .inr ⟨le_rfl, limit, rfl⟩
      · exact .inl hold
    · cases hstep
  | sweep i given =>
    rw [retentionStep, map_eq_some_iff] at hstep
    obtain ⟨sweep, hsweep, rfl⟩ := hstep
    exact evolves_sweep h hsweep
  | crash i =>
    cases hstep
    refine evolves_idle h rfl rfl rfl rfl le_rfl h.starts fun j sweep hsweep => ?_
    exact .inl ((Machine.of_update hsweep).resolve_left nofun).2

theorem vaultInv_step (h : VaultInv s) (hm : Cautious s m) (hstep : retentionStep s m = some t) :
    VaultInv t := h.evolve (evolves_step h hm hstep)

theorem VaultInv.intact (h : VaultInv s) (hB : ¬ Touched s B) : Intact s B :=
  fun kind hdeleted => hB (.inl (h.deleted B kind hdeleted))

theorem Evolves.mayPurge (h : VaultInv s) (he : Evolves s t) (hB : PurgedBy s t B) :
    MayPurge s B := by
  obtain ⟨row, row', hrow, hcomplete, -, hrow', hpurged⟩ := hB
  obtain ⟨hold, htouched⟩ := he.aged B (.inl ⟨row', hrow', hpurged⟩)
    (he.completeSet ⟨row, hrow, hcomplete⟩)
  have haged := h.aged_of_touched htouched hold
  have ⟨row₀, completedAt, hrow₀, _, hat, hlt, _⟩ := haged
  obtain ⟨hnewest, hother⟩ := kept_of_aged h haged hrow₀ hat
  exact ⟨row₀, completedAt, hrow₀, hat, hlt, hnewest, hother⟩

/-! ### Runs -/

/-- **A restore always has its artifacts**, where every move meets the condition: the set of a session
that is accepted, running or blocked is complete and has all its snapshots; no snapshot of it is
deleted; a session is only started for such a set; and a complete set is purged only if it may be. -/
theorem restore_has_artifacts
    (hms : Machine.Moves retentionStep Cautious (Vault.init policy clock) ms) :
    (∀ s, Machine.Reaches retentionStep (Vault.init policy clock) ms s →
      ∀ B, Restoring s.db B → CompleteSet s.db B ∧ Intact s B) ∧
    ∀ m s t, Machine.At retentionStep (Vault.init policy clock) ms m s t →
      (∀ B kind, t.deleted = (B, kind) :: s.deleted → ¬ Restoring s.db B) ∧
      (∀ r row, s.db.get (Key.session r) = none → t.db.get (Key.session r) = some row →
        CompleteSet s.db row.backupId ∧ Intact s row.backupId) ∧
      ∀ B, PurgedBy s t B → MayPurge s B := by
  constructor
  · intro s hs B hB
    have h := Machine.reaches_preserves (fun _ _ _ => vaultInv_step) vaultInv_init hms hs
    exact ⟨h.sessions B hB, h.intact fun htouched => h.exclusive B htouched hB⟩
  · intro m s t hat
    obtain ⟨h, hm⟩ := Machine.at_preserves (fun _ _ _ => vaultInv_step) vaultInv_init hms hat
    obtain ⟨-, -, -, hstep⟩ := hat
    have he := evolves_step h hm hstep
    refine ⟨fun B kind hdeleted hB => ?_, fun r row hnone hrow => ?_, fun B => he.mayPurge h⟩
    · have hcondemned := he.deleted B kind (hdeleted ▸ List.mem_cons_self)
      exact h.exclusive B (.inl hcondemned) hB
    · obtain ⟨hcomplete, htouched⟩ := he.started r row hnone hrow
      exact ⟨hcomplete, h.intact htouched⟩

/-! ### Two runs -/

/-- A test that a set is complete. -/
def completeTest (v : Db) (B : String) : Bool :=
  (v.get (Key.set B)).any fun row => row.status = .complete

/-- A test that a set is touched, where there is one sweep only. -/
def touchedTest (s : Vault) (B : String) : Bool :=
  (s.db.get (Key.set B)).any (fun row => row.purgedAt ≠ none) ||
    s.cleanups.any (fun row => row.backupId = B && row.status.isUnfinished) ||
    (s.sweeps 0).any fun sweep => sweep.phase.checked = some B

/-- A test of the condition on a move, where there is one sweep only. -/
def cautiousTest (s : Vault) : RetentionMove → Bool
  | .set op => !completeTest s.db op.backupId && !touchedTest s op.backupId
  | .ensureCleanup backupId _ _ => !completeTest s.db backupId
  | .start i => (s.starts i).all fun tx => !touchedTest s tx.backupId
  | .begin i _ => i = 0
  | _ => true

/-- There is one sweep only. -/
def OneSweep (s : Vault) : Prop := ∀ j, j ≠ 0 → s.sweeps j = none

theorem completeTest_of (h : CompleteSet s.db B) : completeTest s.db B = true := by
  obtain ⟨row, hrow, hcomplete⟩ := h
  rw [completeTest, hrow, any_some, decide_eq_true hcomplete]

theorem touchedTest_of (hs : OneSweep s) (h : Touched s B) : touchedTest s B = true := by
  simp only [touchedTest, Bool.or_eq_true, List.any_eq_true, Bool.and_eq_true, decide_eq_true_eq,
    Option.any_eq_true]
  rcases h with (⟨row, hrow, hpurged⟩ | ⟨row, hrow, hB, hunfinished⟩) | ⟨i, sweep, hsweep, hB⟩
  · exact .inl (.inl ⟨row, hrow, hpurged⟩)
  · exact .inl (.inr ⟨row, hrow, hB, hunfinished⟩)
  · by_cases hi : i = 0
    · exact .inr ⟨sweep, hi ▸ hsweep, hB⟩
    · rw [hs i hi] at hsweep
      cases hsweep

theorem cautious_of_test (hs : OneSweep s) (h : cautiousTest s m = true) : Cautious s m := by
  cases m with
  | set op =>
    rw [cautiousTest, Bool.and_eq_true, Bool.not_eq_true', Bool.not_eq_true'] at h
    exact ⟨fun hB => Bool.false_ne_true (h.1.symm.trans (completeTest_of hB)),
      fun hB => Bool.false_ne_true (h.2.symm.trans (touchedTest_of hs hB))⟩
  | ensureCleanup backupId targetId error =>
    rw [cautiousTest, Bool.not_eq_true'] at h
    exact fun hB => Bool.false_ne_true (h.symm.trans (completeTest_of hB))
  | start i =>
    intro tx htx hB
    rw [cautiousTest, htx, all_some, Bool.not_eq_true'] at h
    exact Bool.false_ne_true (h.symm.trans (touchedTest_of hs hB))
  | _ => trivial

theorem OneSweep.update (hs : OneSweep s) {i : ℕ} {o : Option Sweep} (hi : i = 0) :
    ∀ j, j ≠ 0 → update s.sweeps i o j = none := by
  intro j hj
  rw [update_of_ne (hi ▸ hj)]
  exact hs j hj

theorem oneSweep_step (hs : OneSweep s) (htest : cautiousTest s m = true)
    (hstep : retentionStep s m = some t) : OneSweep t := by
  cases m with
  | tick now =>
    rw [retentionStep, ite_none_right_eq_some] at hstep
    obtain ⟨-, hstep⟩ := hstep
    cases hstep
    exact hs
  | ensureCleanup backupId targetId error =>
    cases hstep
    unfold ensureCleanupTarget
    split
    · exact hs
    · exact hs
  | check i backupId restoreId =>
    rw [retentionStep] at hstep
    split at hstep
    · cases hstep
      exact hs
    · cases hstep
  | start i =>
    rw [retentionStep, map_eq_some_iff] at hstep
    obtain ⟨tx, -, rfl⟩ := hstep
    exact hs
  | restore op =>
    rw [retentionStep] at hstep
    split at hstep
    · cases hstep
    · cases hstep
      exact hs
  | begin i limit =>
    rw [retentionStep] at hstep
    split at hstep
    · cases hstep
      exact hs.update (of_decide_eq_true htest)
    · cases hstep
  | sweep i given =>
    rw [retentionStep, map_eq_some_iff] at hstep
    obtain ⟨sweep, hsweep, rfl⟩ := hstep
    refine hs.update ?_
    by_contra hi
    cases (hs i hi).symm.trans hsweep
  | crash i =>
    cases hstep
    intro j hj
    by_contra hne
    obtain ⟨sweep, hsweep⟩ := ne_none_iff_exists'.mp hne
    cases (hs j hj).symm.trans ((Machine.of_update hsweep).resolve_left (by simp)).2
  | _ =>
    cases hstep
    exact hs

/-- A set is created and its components are recorded. -/
def completed (B : String) (now : Time) : List RetentionMove :=
  [.set (.create B now), .set (.complete B "postgres_snapshot" "p" now),
    .set (.complete B "object_store_snapshot" "s" now), .set (.record B [] now)]

/-- A provider that deletes what it is asked to. -/
def deletes : Given := ⟨"c", none, false⟩

/-- A provider that fails. -/
def fails : Given := ⟨"c", some "storage unavailable", false⟩

/-- The newest set is kept, and others for a day. -/
def keepOne : PolicyRow := ⟨1, 1, by decide, by decide⟩

/-- An old set is deleted, and the newest is restored. -/
def sweptThenRestored : List RetentionMove :=
  completed "b1" 0 ++ completed "b2" 1 ++ [.tick 864000000000, .begin 0 10] ++
    replicate 14 (.sweep 0 deletes) ++ [.check 0 "b2" "r", .start 0]

/-- **The restored set has its snapshots**, and the other set is purged. -/
theorem restore_has_artifacts_sweptThenRestored : ∃ s,
    Machine.run retentionStep (Vault.init (some keepOne) 0) sweptThenRestored = some s ∧
      Restoring s.db "b2" ∧ Intact s "b2" ∧ ¬ Intact s "b1" := by
  have hend : (Machine.run retentionStep (Vault.init (some keepOne) 0) sweptThenRestored).any
      (fun s => decide (s.deleted = [("b1", .objectStoreSnapshot), ("b1", .postgresSnapshot)]) &&
        (s.db.get (Key.session "r")).any fun row =>
          row.backupId = "b2" && row.status.isActive) = true := by decide +kernel
  obtain ⟨s, hs, hend⟩ := (Option.any_eq_true _ _).mp hend
  rw [Bool.and_eq_true, decide_eq_true_eq, Option.any_eq_true] at hend
  obtain ⟨hdeleted, row, hrow, hsession⟩ := hend
  rw [Bool.and_eq_true, decide_eq_true_eq] at hsession
  have hrestoring : Restoring s.db "b2" := ⟨"r", row, hrow, hsession.1, hsession.2⟩
  refine ⟨s, hs, hrestoring, ?_, fun h => h .postgresSnapshot (by simp [hdeleted])⟩
  refine ((restore_has_artifacts (Machine.moves_of_checks_inv (fun _ _ => cautious_of_test)
    (fun _ _ _ => oneSweep_step) (fun _ _ => rfl) (by decide +kernel))).1 s
      ⟨_, List.prefix_refl _, hs⟩ "b2" hrestoring).2

/-- A deletion that fails in part, a restore of the set, and the next sweep. -/
def retriedDuringRestore : List RetentionMove :=
  completed "b1" 0 ++ completed "b2" 1 ++ [.tick 864000000000, .begin 0 10] ++
    replicate 11 (.sweep 0 deletes) ++ [.sweep 0 fails, .sweep 0 deletes, .crash 0] ++
    [.check 0 "b1" "r", .start 0, .tick 865000000000, .begin 0 10] ++
    replicate 5 (.sweep 0 deletes)

/-- **A snapshot is deleted during a restore**: a session is started for a set one of whose snapshots
is gone already, and the deletion is tried again. -/
theorem deleted_during_restore : ∃ s t,
    Machine.run retentionStep (Vault.init (some keepOne) 0) retriedDuringRestore = some s ∧
      retentionStep s (.sweep 0 deletes) = some t ∧
      Restoring s.db "b1" ∧ ¬ Intact s "b1" ∧
      t.deleted = ("b1", .objectStoreSnapshot) :: s.deleted := by
  have hend : (Machine.run retentionStep (Vault.init (some keepOne) 0) retriedDuringRestore).any
      (fun s => (retentionStep s (.sweep 0 deletes)).any fun t =>
        decide (s.deleted = [("b1", .postgresSnapshot), ("b1", .postgresSnapshot)]) &&
          decide (t.deleted = ("b1", .objectStoreSnapshot) :: s.deleted) &&
          (s.db.get (Key.session "r")).any fun row =>
            row.backupId = "b1" && row.status.isActive) = true := by decide +kernel
  obtain ⟨s, hs, hend⟩ := (Option.any_eq_true _ _).mp hend
  obtain ⟨t, ht, hend⟩ := (Option.any_eq_true _ _).mp hend
  rw [Bool.and_eq_true, Bool.and_eq_true, decide_eq_true_eq, decide_eq_true_eq,
    Option.any_eq_true] at hend
  obtain ⟨⟨hdeleted, hnew⟩, row, hrow, hsession⟩ := hend
  rw [Bool.and_eq_true, decide_eq_true_eq] at hsession
  exact ⟨s, t, hs, ht, ⟨"r", row, hrow, hsession.1, hsession.2⟩,
    fun h => h .postgresSnapshot (by simp [hdeleted]), hnew⟩

end RagQs.Backup
