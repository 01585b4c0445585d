import RagQs.Backup.RetentionProof
import RagQs.Backup.SetProof

/-!
# What moves do to the vault

Sets that are complete stay so, and what a sweep has read stays true, whatever else is done.  A move
deletes snapshots of sets that are condemned only, and purges a set that is touched.

## Main definitions

* `Grows` — what is never taken back.
* `Evolves` — what a move does.

## Main results

* `VaultInv.evolve` — such a move keeps the invariant.
* `evolves_sweep`, `evolves_start`, `evolves_restore`, `evolves_set` — the moves.
-/

namespace RagQs.Backup

open Txn List Option Function Store

variable {v v' : Db} {s t u : Vault} {B : String}
variable {targetId : String} {f : CleanupRow → CleanupRow} {row : CleanupRow}
variable {cleanups : List CleanupRow} {c : Db}

/-! ### What is never taken back -/

/-- The policy is the same, complete sets stay complete, and sets that are condemned stay so. -/
structure Grows (s t : Vault) : Prop where
  policy : t.policy = s.policy
  clock : s.clock ≤ t.clock
  complete : ∀ B row, s.db.get (Key.set B) = some row → row.status = .complete →
    ∃ row', t.db.get (Key.set B) = some row' ∧ row'.status = .complete ∧
      row'.completedAt = row.completedAt
  condemned : ∀ B, Condemned s B → Condemned t B
  targets : ∀ row ∈ s.cleanups, ∃ row' ∈ t.cleanups, row'.id = row.id ∧ row'.backupId = row.backupId

namespace Grows

theorem completeSet (h : Grows s t) (hB : CompleteSet s.db B) : CompleteSet t.db B := by
  obtain ⟨row, hrow, hcomplete⟩ := hB
  obtain ⟨row', hrow', hcomplete', -⟩ := h.complete B row hrow hcomplete
  exact ⟨row', hrow', hcomplete'⟩

theorem policyRow (h : Grows s t) : t.policyRow = s.policyRow := by
  unfold Vault.policyRow
  rw [h.policy]

theorem aged (h : Grows s t) (hB : Aged s B) : Aged t B := by
  obtain ⟨row, completedAt, hrow, hcomplete, hat, hold, hcount⟩ := hB
  obtain ⟨row', hrow', hcomplete', hat'⟩ := h.complete B row hrow hcomplete
  refine ⟨row', completedAt, hrow', hcomplete', hat'.trans hat, ?_, ?_⟩
  · rw [h.policyRow]
    exact hold.trans_le (cutoff_le h.clock)
  · rw [h.policyRow]
    refine hcount.trans
      (Machine.countP_le_of_subset (nodup_of_newer completeBackups_newer) fun x hx _ => ?_)
    obtain ⟨row, hrow, hcomplete, hat⟩ := mem_completeBackups.mp hx
    obtain ⟨row', hrow', hcomplete', hat'⟩ := h.complete _ row hrow hcomplete
    exact mem_completeBackups.mpr ⟨row', hrow', hcomplete', hat'.trans hat⟩

theorem works {job : Job} (h : Grows s t) (hjob : Works s job) : Works t job := by
  obtain ⟨hcondemned, row, hrow, hid, hbackup⟩ := hjob
  obtain ⟨row', hrow', hid', hbackup'⟩ := h.targets row hrow
  exact ⟨h.condemned _ hcondemned, row', hrow', hid'.trans hid, hbackup'.trans hbackup⟩

theorem restOk {rest : Rest} (h : Grows s t) (hrest : RestOk s rest) : RestOk t rest := by
  cases rest with
  | retries jobs budget => exact fun job hjob => h.works (hrest job hjob)
  | candidates backupIds remaining budget => exact fun B hB => h.aged (hrest B hB)

theorem phaseOk {phase : Phase} (h : Grows s t) (hphase : PhaseOk s phase) : PhaseOk t phase := by
  cases phase with
  | due limit => trivial
  | policy budget => trivial
  | loop rest => exact h.restOk hphase
  | restorable keepLast retentionDays budget =>
    rw [PhaseOk, h.policyRow]
    exact hphase
  | repairs c => exact ⟨h.aged hphase.1, fun B hB => h.aged (hphase.2 B hB)⟩
  | unfinished c => exact ⟨h.aged hphase.1, fun B hB => h.aged (hphase.2 B hB)⟩
  | create c => exact ⟨h.aged hphase.1, fun B hB => h.aged (hphase.2 B hB)⟩
  | mark job rest => exact ⟨h.works hphase.1, h.restOk hphase.2⟩
  | references job rest => exact ⟨h.works hphase.1, h.restOk hphase.2⟩
  | delete job references rest => exact ⟨h.works hphase.1, h.restOk hphase.2⟩
  | fail job error rest => exact ⟨h.works hphase.1, h.restOk hphase.2⟩

theorem of_same (hpolicy : t.policy = s.policy) (hclock : s.clock ≤ t.clock)
    (hsets : ∀ B, t.db.get (Key.set B) = s.db.get (Key.set B)) (hcleanups : t.cleanups = s.cleanups) :
    Grows s t where
  policy := hpolicy
  clock := hclock
  complete B row hrow hcomplete := ⟨row, (hsets B).trans hrow, hcomplete, rfl⟩
  condemned B h := by
    unfold Condemned
    rw [hsets, hcleanups]
    exact h
  targets row hrow := ⟨row, hcleanups ▸ hrow, rfl, rfl⟩

end Grows

/-! ### What a move does -/

/-- A move that respects the restores: what it makes of the sessions, the cleanup targets, the
deleted snapshots and the sweeps. -/
structure Evolves (s t : Vault) : Prop extends Grows s t where
  restores : RestoreInv t.db t.db
  restoring : ∀ B, Restoring t.db B → Restoring s.db B ∨ (CompleteSet s.db B ∧ ¬ Touched t B)
  started : ∀ r row, s.db.get (Key.session r) = none → t.db.get (Key.session r) = some row →
    CompleteSet s.db row.backupId ∧ ¬ Touched s row.backupId
  starts : ∀ i tx, t.starts i = some tx → CompleteSet s.db tx.backupId
  touched : ∀ B, Touched t B → Touched s B ∨ ¬ Restoring t.db B
  deleted : ∀ B kind, (B, kind) ∈ t.deleted → Condemned s B
  aged : ∀ B, Condemned t B → CompleteSet t.db B → CompleteSet s.db B ∧ Touched s B
  present : ∀ row ∈ t.cleanups, (t.db.get (Key.set row.backupId)).isSome = true
  ids : (t.cleanups.map CleanupRow.id).Nodup
  sweeps : ∀ i sweep, t.sweeps i = some sweep →
    s.sweeps i = some sweep ∨ (sweep.now ≤ t.clock ∧ PhaseOk t sweep.phase)

/-- **Such a move keeps the invariant.** -/
theorem VaultInv.evolve (h : VaultInv s) (he : Evolves s t) : VaultInv t where
  restores := he.restores
  sessions B hB := by
    rcases he.restoring B hB with hB | ⟨hB, -⟩
    · exact he.completeSet (h.sessions B hB)
    · exact he.completeSet hB
  starts i tx htx := he.completeSet (he.starts i tx htx)
  exclusive B hB hrestoring := by
    rcases he.restoring B hrestoring with hold | ⟨-, hnot⟩
    · exact (he.touched B hB).elim (fun htouched => h.exclusive B htouched hold)
        fun hnot => hnot hrestoring
    · exact hnot hB
  deleted B kind hB := he.condemned B (he.deleted B kind hB)
  aged B hB hcomplete := by
    obtain ⟨hold, htouched⟩ := he.aged B hB hcomplete
    exact he.toGrows.aged (h.aged_of_touched htouched hold)
  targets := he.present
  ids := he.ids
  sweeps i sweep hsweep := by
    rcases he.sweeps i sweep hsweep with hold | hnew
    · exact ⟨(h.sweeps i sweep hold).1.trans he.clock, he.phaseOk (h.sweeps i sweep hold).2⟩
    · exact hnew

/-! ### Cleanup targets -/

theorem mem_updateCleanup :
    row ∈ updateCleanup cleanups targetId f ↔
      ∃ row' ∈ cleanups, (if row'.id = targetId then f row' else row') = row := by
  unfold updateCleanup
  rw [List.mem_map]

theorem map_updateCleanup {β : Type} {g : CleanupRow → β} (hg : ∀ row, g (f row) = g row) :
    (updateCleanup cleanups targetId f).map g = cleanups.map g := by
  unfold updateCleanup
  rw [List.map_map]
  refine map_congr_left fun row _ => ?_
  rw [comp_apply]
  split
  · exact hg row
  · rfl

theorem Works.backupId_eq (h : VaultInv s) {job : Job} (hjob : Works s job)
    (hrow : row ∈ s.cleanups) (hid : row.id = job.targetId) : row.backupId = job.backupId := by
  obtain ⟨-, row', hrow', hid', hbackup⟩ := hjob
  rw [inj_on_of_nodup_map h.ids hrow hrow' (hid.trans hid'.symm)]
  exact hbackup

theorem targets_updateCleanup (hid : ∀ row, (f row).id = row.id)
    (hbackup : ∀ row, (f row).backupId = row.backupId) (hrow : row ∈ s.cleanups) :
    ∃ row' ∈ updateCleanup s.cleanups targetId f, row'.id = row.id ∧
      row'.backupId = row.backupId := by
  refine ⟨_, mem_updateCleanup.mpr ⟨row, hrow, rfl⟩, ?_⟩
  split
  · exact ⟨hid row, hbackup row⟩
  · exact ⟨rfl, rfl⟩

theorem backupId_updateCleanup (hbackup : ∀ row, (f row).backupId = row.backupId)
    (hrow : row ∈ updateCleanup s.cleanups targetId f) :
    ∃ row' ∈ s.cleanups, row'.backupId = row.backupId := by
  obtain ⟨row', hrow', rfl⟩ := mem_updateCleanup.mp hrow
  refine ⟨row', hrow', ?_⟩
  split
  · exact (hbackup row').symm
  · rfl

/-! ### Marks -/

theorem get_markPurged_of_ne {now : Time} {k : Key} (hk : k ≠ Key.set B) :
    (markPurged v B now).get k = v.get k := by
  unfold markPurged
  split
  · rfl
  · exact get_set_of_ne hk

theorem get_set_markPurged (v : Db) (B B' : String) (now : Time) :
    (markPurged v B now).get (Key.set B') = (v.get (Key.set B')).map fun row =>
      if B' = B then { row with purgedAt := some now } else row := by
  by_cases hB : B' = B
  · subst hB
    unfold markPurged
    split
    · next hnone => rw [hnone, map_none]
    · next row hrow => rw [get_set_self, hrow, map_some, if_pos rfl]
  · rw [get_markPurged_of_ne fun heq => hB (Key.set.inj heq)]
    simp only [if_neg hB, Option.map_id']

/-! ### Rows of restores -/

/-- The rows of sets, and of objects. -/
def IsSetRow : Key → Prop
  | .set _ | .component _ _ | .object _ => True
  | _ => False

/-- The rows of restores are the same. -/
def SameRestores (v v' : Db) : Prop := ∀ k, ¬ IsSetRow k → v'.get k = v.get k

theorem SameRestores.restoring (h : SameRestores v v') (hB : Restoring v' B) : Restoring v B := by
  obtain ⟨r, row, hrow, hbackup, hactive⟩ := hB
  exact ⟨r, row, (h _ id).symm.trans hrow, hbackup, hactive⟩

theorem SameRestores.inv (h : SameRestores v v') (hv : RestoreInv v v)
    (hsets : ∀ B, (v.get (Key.set B)).isSome = true → (v'.get (Key.set B)).isSome = true) :
    RestoreInv v' v' := by
  refine ⟨fun r hr => ?_, fun status r hr => ?_, fun k _ => rfl, fun r row hrow => ?_⟩
  · rw [h _ id] at hr
    exact (hv.stages r hr).congr fun stage => h _ id
  · rw [h _ id] at hr ⊢
    exact hv.index status r hr
  · rw [h _ id] at hrow
    exact hsets _ (hv.backed r row hrow)

/-! ### Sweeps -/

/-- What a step of a sweep does, `checked` being the set it has found unprotected. -/
structure Swept (s u : Vault) (checked : Option String) : Prop extends Grows s u where
  same : SameRestores s.db u.db
  sets : ∀ B, (s.db.get (Key.set B)).isSome = true → (u.db.get (Key.set B)).isSome = true
  completes : ∀ B, CompleteSet u.db B → CompleteSet s.db B
  condemns : ∀ B, Condemned u B → Condemned s B ∨ checked = some B
  deletes : ∀ B kind, (B, kind) ∈ u.deleted → Condemned s B
  present : ∀ row ∈ u.cleanups, (u.db.get (Key.set row.backupId)).isSome = true
  ids : (u.cleanups.map CleanupRow.id).Nodup
  starts : u.starts = s.starts
  sweeps : u.sweeps = s.sweeps

namespace Swept

variable {checked : Option String} {job : Job}

theorem refl (h : VaultInv s) : Swept s s checked where
  toGrows := .of_same rfl le_rfl (fun _ => rfl) rfl
  same _ _ := rfl
  sets _ h := h
  completes _ h := h
  condemns _ h := .inl h
  deletes := h.deleted
  present := h.targets
  ids := h.ids
  starts := rfl
  sweeps := rfl

theorem create (h : VaultInv s) (row : CleanupRow) (hnew : row.id ∉ s.cleanups.map CleanupRow.id)
    (hset : (s.db.get (Key.set row.backupId)).isSome = true) (hchecked : checked = some row.backupId) :
    Swept s { s with cleanups := s.cleanups ++ [row] } checked where
  policy := rfl
  clock := le_rfl
  complete B row hrow hcomplete := ⟨row, hrow, hcomplete, rfl⟩
  condemned B hB := hB.imp_right fun ⟨row', hrow', hB⟩ => ⟨row', mem_append_left _ hrow', hB⟩
  targets row' hrow' := ⟨row', mem_append_left _ hrow', rfl, rfl⟩
  same _ _ := rfl
  sets _ h := h
  completes _ h := h
  condemns B hB := by
    rcases hB with hB | ⟨row', hrow', hbackup, hunfinished⟩
    · exact .inl (.inl hB)
    · rcases mem_append.mp hrow' with hrow' | hrow'
      · exact .inl (.inr ⟨row', hrow', hbackup, hunfinished⟩)
      · rw [mem_singleton.mp hrow'] at hbackup
        exact .inr (hchecked.trans (congrArg some hbackup))
  deletes := h.deleted
  present row' hrow' := by
    rcases mem_append.mp hrow' with hrow' | hrow'
    · exact h.targets row' hrow'
    · rw [mem_singleton.mp hrow']
      exact hset
  ids := by
    rw [map_append, map_singleton, nodup_append]
    refine ⟨h.ids, nodup_singleton _, fun id hid id' hid' heq => hnew ?_⟩
    rw [← mem_singleton.mp hid', ← heq]
    exact hid
  starts := rfl
  sweeps := rfl

theorem update (h : VaultInv s) (hjob : Works s job) (hid : ∀ row, (f row).id = row.id)
    (hbackup : ∀ row, (f row).backupId = row.backupId)
    (hf : ∀ row, (f row).status.isUnfinished = true) :
    Swept s { s with cleanups := updateCleanup s.cleanups job.targetId f } checked where
  policy := rfl
  clock := le_rfl
  complete B row hrow hcomplete := ⟨row, hrow, hcomplete, rfl⟩
  condemned B hB := by
    refine hB.imp_right fun ⟨row, hrow, hB, hunfinished⟩ => ?_
    refine ⟨_, mem_updateCleanup.mpr ⟨row, hrow, rfl⟩, ?_⟩
    split
    · exact ⟨(hbackup row).trans hB, hf row⟩
    · exact ⟨hB, hunfinished⟩
  targets row hrow := targets_updateCleanup hid hbackup hrow
  same _ _ := rfl
  sets _ h := h
  completes _ h := h
  condemns B hB := by
    rcases hB with hB | ⟨row', hrow', hB, hunfinished⟩
    · exact .inl (.inl hB)
    · obtain ⟨row, hrow, rfl⟩ := mem_updateCleanup.mp hrow'
      split at hB
      · next heq =>
        -- the target was updated: it is that of the job
        rw [hbackup, hjob.backupId_eq h hrow heq] at hB
        exact .inl (hB ▸ hjob.1)
      · next hne =>
        rw [if_neg hne] at hunfinished
        exact .inl (.inr ⟨row, hrow, hB, hunfinished⟩)
  deletes := h.deleted
  present row hrow := by
    obtain ⟨row', hrow', heq⟩ := backupId_updateCleanup hbackup hrow
    rw [← heq]
    exact h.targets row' hrow'
  ids := by
    rw [map_updateCleanup hid]
    exact h.ids
  starts := rfl
  sweeps := rfl

theorem deletes_one (h : VaultInv s) (hjob : Works s job) (kind : ComponentKind) :
    Swept s { s with deleted := (job.backupId, kind) :: s.deleted } checked where
  toGrows := .of_same rfl le_rfl (fun _ => rfl) rfl
  same _ _ := rfl
  sets _ h := h
  completes _ h := h
  condemns _ h := .inl h
  deletes B kind' hB := by
    rcases mem_cons.mp hB with heq | hB
    · cases heq
      exact hjob.1
    · exact h.deleted B kind' hB
  present := h.targets
  ids := h.ids
  starts := rfl
  sweeps := rfl

theorem purge (h : VaultInv s) (hjob : Works s job) {now : Time} (hid : ∀ row, (f row).id = row.id)
    (hbackup : ∀ row, (f row).backupId = row.backupId) (hf : ∀ row, (f row).status = .done) :
    Swept s { s with
      db := markPurged s.db job.backupId now
      cleanups := updateCleanup s.cleanups job.targetId f } checked where
  policy := rfl
  clock := le_rfl
  complete B row hrow hcomplete := by
    refine ⟨_, (get_set_markPurged ..).trans (congrArg _ hrow), ?_⟩
    split
    · exact ⟨hcomplete, rfl⟩
    · exact ⟨hcomplete, rfl⟩
  condemned B hB := by
    rcases hB with ⟨row, hrow, hpurged⟩ | ⟨row, hrow, hB, hunfinished⟩
    · refine .inl ⟨_, (get_set_markPurged ..).trans (congrArg _ hrow), ?_⟩
      split
      · nofun
      · exact hpurged
    · by_cases heq : row.id = job.targetId
      · -- the set of the target that is done is purged now
        obtain ⟨set, hset⟩ := isSome_iff_exists.mp (h.targets row hrow)
        rw [hB] at hset
        obtain rfl := hB.symm.trans (hjob.backupId_eq h hrow heq)
        refine .inl ⟨_, (get_set_markPurged ..).trans (congrArg _ hset), ?_⟩
        simp
      · exact .inr ⟨_, mem_updateCleanup.mpr ⟨row, hrow, if_neg heq⟩, hB, hunfinished⟩
  targets row hrow := targets_updateCleanup hid hbackup hrow
  same k hk := get_markPurged_of_ne fun heq => hk (heq ▸ trivial)
  sets B hB := by
    rw [get_set_markPurged, isSome_map]
    exact hB
  completes B hB := by
    obtain ⟨row, hrow, hcomplete⟩ := hB
    rw [get_set_markPurged, map_eq_some_iff] at hrow
    obtain ⟨row, hrow, rfl⟩ := hrow
    refine ⟨row, hrow, ?_⟩
    split at hcomplete
    · exact hcomplete
    · exact hcomplete
  condemns B hB := by
    rcases hB with ⟨row, hrow, hpurged⟩ | ⟨row', hrow', hB, hunfinished⟩
    · rw [get_set_markPurged, map_eq_some_iff] at hrow
      obtain ⟨row, hrow, rfl⟩ := hrow
      split at hpurged
      · next heq => exact .inl (heq ▸ hjob.1)
      · exact .inl (.inl ⟨row, hrow, hpurged⟩)
    · obtain ⟨row, hrow, rfl⟩ := mem_updateCleanup.mp hrow'
      split at hunfinished
      · rw [hf row] at hunfinished
        cases hunfinished
      · next hne =>
        rw [if_neg hne] at hB
        exact .inl (.inr ⟨row, hrow, hB, hunfinished⟩)
  deletes := h.deleted
  present row hrow := by
    obtain ⟨row', hrow', heq⟩ := backupId_updateCleanup hbackup hrow
    rw [get_set_markPurged, isSome_map, ← heq]
    exact h.targets row' hrow'
  ids := by
    rw [map_updateCleanup hid]
    exact h.ids
  starts := rfl
  sweeps := rfl

end Swept

section Sweeps

variable {phase next : Phase} {now : Time} {given : Given}

theorem swept_sweepStep (now : Time) (given : Given) (h : VaultInv s) (hphase : PhaseOk s phase) :
    Swept s (sweepStep s now given phase).1 phase.checked := by
  cases phase with
  | create c =>
    change Swept s (createCleanupTarget s c given.targetId now).1 _
    unfold createCleanupTarget
    split
    · exact .refl h
    · next hnew =>
      obtain ⟨row, hrow, -⟩ := hphase.1.complete
      exact .create h _ hnew (isSome_iff_exists.mpr ⟨row, hrow⟩) rfl
  | mark job rest => exact .update h hphase.1 (fun _ => rfl) (fun _ => rfl) fun _ => rfl
  | fail job error rest => exact .update h hphase.1 (fun _ => rfl) (fun _ => rfl) fun _ => rfl
  | delete job references rest =>
    cases references with
    | nil => exact .purge h hphase.1 (fun _ => rfl) (fun _ => rfl) fun _ => rfl
    | cons x references =>
      change Swept s (deleteSnapshot s job x.1 references rest given).1 _
      unfold deleteSnapshot
      split
      · exact .refl h
      · split
        · exact .deletes_one h hphase.1 x.1
        · dsimp only
          split
          · exact .deletes_one h hphase.1 x.1
          · exact .refl h
  | _ => exact .refl h

theorem not_restoring_of_activeRestores (h : activeRestores v B = []) : ¬ Restoring v B := by
  rintro ⟨r, row, hrow, hbackup, hactive⟩
  have hmem : r ∈ activeRestores v B := by
    unfold activeRestores
    exact mem_table.mpr ⟨_, row, hrow, if_pos ⟨hbackup, hactive⟩⟩
  rw [h] at hmem
  cases hmem

theorem phaseOk_nextPhase {rest : Rest} (hrest : RestOk s rest)
    (hnext : nextPhase s.db rest = some next) : PhaseOk s next := by
  unfold nextPhase at hnext
  split at hnext
  · cases hnext
    trivial
  · next job jobs budget =>
    split at hnext
    · cases hnext
      trivial
    · cases hnext
      exact ⟨hrest job mem_cons_self, fun job' h => hrest job' (mem_cons_of_mem _ h)⟩
  · cases hnext
  · next B backupIds remaining budget =>
    have hlater : ∀ B' ∈ backupIds, Aged s B' := fun B' h => hrest B' (mem_cons_of_mem _ h)
    split at hnext
    · cases hnext
    · split at hnext
      · cases hnext
        exact ⟨hrest B mem_cons_self, hlater⟩
      · cases hnext
        exact hlater
      · cases hnext

theorem works_of_due {job : Job} (hjob : job ∈ dueCleanupTargets s.cleanups now) : Works s job := by
  unfold dueCleanupTargets at hjob
  obtain ⟨row, hrow, rfl⟩ := List.mem_map.mp hjob
  rw [mem_insertionSort, mem_filter, Bool.and_eq_true] at hrow
  exact ⟨.inr ⟨row, hrow.1, rfl, hrow.2.1⟩, row, hrow.1, rfl, rfl⟩

/-- **What a sweep has read stays true** of the vault after its step. -/
theorem phaseOk_sweepStep (h : VaultInv s) (hnow : now ≤ s.clock) (hphase : PhaseOk s phase)
    (hnext : (sweepStep s now given phase).2 = some next) :
    PhaseOk (sweepStep s now given phase).1 next := by
  have hgrows := (swept_sweepStep now given h hphase).toGrows
  cases phase with
  | due limit =>
    cases hnext
    exact fun job hjob => works_of_due hjob
  | loop rest => exact phaseOk_nextPhase hphase hnext
  | policy budget =>
    cases hnext
    exact ⟨rfl, rfl⟩
  | restorable keepLast retentionDays budget =>
    cases hnext
    obtain ⟨rfl, rfl⟩ := hphase
    exact fun B hB => aged_of_expired hnow hB
  | repairs c =>
    change protectedPhase s.db c = some next at hnext
    unfold protectedPhase at hnext
    split at hnext
    · split at hnext
      · cases hnext
        exact hphase.2
      · cases hnext
        exact hphase
    · cases hnext
      exact hphase.2
    · cases hnext
  | unfinished c =>
    change unfinishedPhase s.cleanups c = some next at hnext
    unfold unfinishedPhase at hnext
    split at hnext
    · cases hnext
      exact hphase
    · cases hnext
      exact hphase.2
    · cases hnext
  | create c =>
    change (createCleanupTarget s c given.targetId now).2 = some next at hnext
    change Grows s (createCleanupTarget s c given.targetId now).1 at hgrows
    change PhaseOk (createCleanupTarget s c given.targetId now).1 next
    unfold createCleanupTarget at hnext hgrows ⊢
    split at hnext
    · cases hnext
    · next hnew =>
      cases hnext
      rw [if_neg hnew] at hgrows ⊢
      refine ⟨⟨.inr ⟨_, mem_append_right _ (mem_singleton_self _), rfl, rfl⟩, _,
        mem_append_right _ (mem_singleton_self _), rfl, rfl⟩, fun B hB => ?_⟩
      exact hgrows.aged (hphase.2 B hB)
  | mark job rest =>
    cases hnext
    exact hgrows.phaseOk hphase
  | references job rest =>
    cases hnext
    exact hgrows.phaseOk hphase
  | fail job error rest =>
    cases hnext
    exact hgrows.restOk hphase.2
  | delete job references rest =>
    cases references with
    | nil =>
      cases hnext
      refine hgrows.restOk ?_
      cases rest with
      | retries jobs budget => exact hphase.2
      | candidates backupIds remaining budget => exact hphase.2
    | cons x references =>
      change (deleteSnapshot s job x.1 references rest given).2 = some next at hnext
      have hsame : Works s job ∧ RestOk s rest → PhaseOk s next := by
        intro hphase
        unfold deleteSnapshot at hnext
        split at hnext
        · cases hnext
          exact hphase
        · split at hnext
          · cases hnext
            exact hphase
          · cases hnext
            exact hphase
      exact hgrows.phaseOk (hsame hphase)

theorem checked_sweepStep (hnext : (sweepStep s now given phase).2 = some next)
    (hB : next.checked = some B) : phase.checked = some B ∨ ¬ Restoring s.db B := by
  cases phase with
  | loop rest =>
    change nextPhase s.db rest = some next at hnext
    unfold nextPhase at hnext
    split at hnext
    · cases hnext
      cases hB
    · split at hnext
      · cases hnext
        cases hB
      · cases hnext
        cases hB
    · cases hnext
    · split at hnext
      · cases hnext
      · split at hnext
        · next hactive =>
          cases hnext
          cases hB
          exact .inr (not_restoring_of_activeRestores hactive)
        · cases hnext
          cases hB
        · cases hnext
  | repairs c =>
    change protectedPhase s.db c = some next at hnext
    unfold protectedPhase at hnext
    split at hnext
    · split at hnext
      · cases hnext
        cases hB
      · cases hnext
        exact .inl hB
    · cases hnext
      cases hB
    · cases hnext
  | unfinished c =>
    change unfinishedPhase s.cleanups c = some next at hnext
    unfold unfinishedPhase at hnext
    split at hnext
    · cases hnext
      exact .inl hB
    · cases hnext
      cases hB
    · cases hnext
  | create c =>
    change (createCleanupTarget s c given.targetId now).2 = some next at hnext
    unfold createCleanupTarget at hnext
    split at hnext
    · cases hnext
    · cases hnext
      cases hB
  | delete job references rest =>
    cases references with
    | nil =>
      cases hnext
      cases hB
    | cons x references =>
      change (deleteSnapshot s job x.1 references rest given).2 = some next at hnext
      unfold deleteSnapshot at hnext
      split at hnext
      · cases hnext
        cases hB
      · split at hnext
        · cases hnext
          cases hB
        · cases hnext
          cases hB
  | _ =>
    cases hnext
    cases hB

end Sweeps

/-! ### Moves that leave the restores alone -/

theorem Swept.evolves (h : VaultInv s) {checked : Option String} (hu : Swept s u checked)
    (hchecked : ∀ B, checked = some B → Touched s B ∨ ¬ CompleteSet s.db B)
    (hdb : t.db = u.db) (hcleanups : t.cleanups = u.cleanups) (hdeleted : t.deleted = u.deleted)
    (hpolicy : t.policy = u.policy) (hclock : u.clock ≤ t.clock)
    (hstarts : ∀ i tx, t.starts i = some tx → CompleteSet s.db tx.backupId)
    (hsweeps : ∀ i sweep, t.sweeps i = some sweep → s.sweeps i = some sweep ∨
      (sweep.now ≤ t.clock ∧ PhaseOk u sweep.phase ∧
        ∀ B, sweep.phase.checked = some B → Touched s B ∨ ¬ Restoring s.db B)) : Evolves s t := by
  have hgrows : Grows u t := .of_same hpolicy hclock (fun B => by rw [hdb]) hcleanups
  have hcondemned : ∀ B, Condemned t B → Condemned u B := by
    intro B hB
    unfold Condemned at hB ⊢
    rw [hdb, hcleanups] at hB
    exact hB
  have hrestoring : ∀ B, Restoring t.db B → Restoring s.db B := fun B hB =>
    hu.same.restoring (hdb ▸ hB)
  constructor
  case toGrows =>
    exact {
      policy := hgrows.policy.trans hu.policy
      clock := hu.clock.trans hclock
      complete := hdb ▸ hu.complete
      condemned := fun B hB => hgrows.condemned B (hu.condemned B hB)
      targets := hcleanups ▸ hu.targets }
  case restores =>
    rw [hdb]
    exact hu.same.inv h.restores hu.sets
  case restoring => exact fun B hB => .inl (hrestoring B hB)
  case started =>
    intro r row hnone hrow
    rw [hdb, hu.same _ id, hnone] at hrow
    cases hrow
  case starts => exact hstarts
  case touched =>
    rintro B (hB | ⟨i, sweep, hsweep, hB⟩)
    · rcases hu.condemns B (hcondemned B hB) with hold | hnew
      · exact .inl (.inl hold)
      · exact (hchecked B hnew).imp_right fun hnot hB => hnot (h.sessions B (hrestoring B hB))
    · rcases hsweeps i sweep hsweep with hold | ⟨-, -, hnew⟩
      · exact .inl (.inr ⟨i, sweep, hold, hB⟩)
      · exact (hnew B hB).imp_right fun hnot hB => hnot (hrestoring B hB)
  case deleted =>
    rw [hdeleted]
    exact hu.deletes
  case aged =>
    intro B hB hcomplete
    rw [hdb] at hcomplete
    refine ⟨hu.completes B hcomplete, ?_⟩
    rcases hu.condemns B (hcondemned B hB) with hold | hnew
    · exact .inl hold
    · exact (hchecked B hnew).resolve_right fun hnot => hnot (hu.completes B hcomplete)
  case present =>
    rw [hdb, hcleanups]
    exact hu.present
  case ids =>
    rw [hcleanups]
    exact hu.ids
  case sweeps =>
    intro i sweep hsweep
    exact (hsweeps i sweep hsweep).imp_right fun ⟨hnow, hphase, _⟩ =>
      ⟨hnow, hgrows.phaseOk hphase⟩

theorem evolves_idle (h : VaultInv s) (hdb : t.db = s.db) (hcleanups : t.cleanups = s.cleanups)
    (hdeleted : t.deleted = s.deleted) (hpolicy : t.policy = s.policy) (hclock : s.clock ≤ t.clock)
    (hstarts : ∀ i tx, t.starts i = some tx → CompleteSet s.db tx.backupId)
    (hsweeps : ∀ i sweep, t.sweeps i = some sweep → s.sweeps i = some sweep ∨
      (sweep.now ≤ t.clock ∧ ∃ limit, sweep.phase = .due limit)) : Evolves s t := by
  refine (.refl h : Swept s s none).evolves h nofun hdb hcleanups hdeleted hpolicy hclock
    hstarts fun i sweep hsweep => (hsweeps i sweep hsweep).imp_right ?_
  rintro ⟨hnow, limit, hphase⟩
  rw [hphase]
  exact ⟨hnow, trivial, nofun⟩

/-- **A step of a sweep.** -/
theorem evolves_sweep (h : VaultInv s) {i : ℕ} {sweep : Sweep} {given : Given}
    (hsweep : s.sweeps i = some sweep) :
    Evolves s { (sweepStep s sweep.now given sweep.phase).1 with
      sweeps := update s.sweeps i
        ((sweepStep s sweep.now given sweep.phase).2.map fun phase => ⟨sweep.now, phase⟩) } := by
  obtain ⟨hnow, hphase⟩ := h.sweeps i sweep hsweep
  have hu := swept_sweepStep sweep.now given h hphase
  refine hu.evolves h (fun B hB => .inl (.inr ⟨i, sweep, hsweep, hB⟩)) rfl rfl rfl rfl le_rfl
    (fun j tx htx => h.starts j tx (hu.starts ▸ htx)) fun j sweep' hsweep' => ?_
  rcases Machine.of_update hsweep' with ⟨-, heq⟩ | ⟨-, hold⟩
  · obtain ⟨phase, hnext, rfl⟩ := map_eq_some_iff.mp heq
    refine .inr ⟨hnow.trans hu.clock, phaseOk_sweepStep h hnow hphase hnext, fun B hB => ?_⟩
    exact (checked_sweepStep hnext hB).imp_left fun hB => .inr ⟨i, sweep, hsweep, hB⟩
  · exact .inl hold

theorem evolves_ensureCleanup (h : VaultInv s) (hB : ¬ CompleteSet s.db B) (targetId error : String) :
    Evolves s (ensureCleanupTarget s B targetId error) := by
  have hstarts := h.starts
  unfold ensureCleanupTarget
  split
  · exact evolves_idle h rfl rfl rfl rfl le_rfl hstarts fun i sweep hsweep => .inl hsweep
  · next hnot =>
    simp only [not_or] at hnot
    have hcreate : Swept s _ (some B) := .create h
      ⟨targetId, B, .pending, 0, s.clock, s.clock, some error, none⟩ hnot.2.2.1
      (isSome_iff_ne_none.mpr hnot.2.2.2) rfl
    refine hcreate.evolves h (fun B' hB' => .inr ?_) rfl rfl rfl rfl le_rfl hstarts
      fun i sweep hsweep => .inl hsweep
    cases hB'
    exact hB

/-! ### Operations on sets -/

theorem commitOf_cases (p : Tx Unit) (v : Db) :
    commitOf p v = v ∨ ∃ a, p.exec v = .ok (a, commitOf p v) := by
  unfold commitOf
  cases p.exec v with
  | ok x => exact .inr ⟨x.1, rfl⟩
  | error e => exact .inl rfl

theorem get_commitOf {p : Tx Unit} {W : Key → Prop} (hp : p.Writes W) {k : Key} (hk : ¬ W k) :
    (commitOf p v).get k = v.get k := by
  rcases commitOf_cases p v with heq | ⟨a, ha⟩
  · rw [heq]
  · exact Prog.get_of_exec hp ha hk

theorem commitOf_preserves {p : Tx Unit} {P : Db → Prop} (hp : p.Preserves P) (hv : P v) :
    P (commitOf p v) := by
  rcases commitOf_cases p v with heq | ⟨a, ha⟩
  · rw [heq]
    exact hv
  · exact hp.exec hv ha

/-- What no new row of a set and no result breaks. -/
structure Unmarked (P : Option BackupSetRow → Prop) : Prop where
  new : ∀ now, P (some ⟨.creating, now, none, none⟩)
  result : ∀ row status completedAt, P (some row) → P (some { row with status, completedAt })

section Sets

variable {P : Option BackupSetRow → Prop} {kind : ComponentKind} {now : Time}

theorem preserves_updateSet (hP : Unmarked P) {f : BackupSetRow → BackupSetRow}
    (hf : ∀ row, ∃ status completedAt, f row = { row with status, completedAt }) :
    (updateSet B f).Preserves fun v => P (v.get (Key.set B)) := by
  refine .bind (.updateWhere fun v row hv hrow => ?_) fun _ => trivial
  rw [get_set_self]
  rw [hrow] at hv
  obtain ⟨status, completedAt, heq⟩ := hf row
  rw [heq]
  exact hP.result row status completedAt hv

theorem preserves_updateComponent {f : ComponentRow → ComponentRow} :
    (updateComponent B kind f).Preserves fun v => P (v.get (Key.set B)) :=
  .other (writes_updateComponent (by simp))

theorem preserves_succeed (hP : Unmarked P) {reference : String} :
    (succeed B kind reference now).Preserves fun v => P (v.get (Key.set B)) := by
  refine .bind (.other .check) fun _ => .bind preserves_updateComponent fun _ =>
    .bind (.other .select) fun _ => ?_
  split
  · trivial
  · exact preserves_updateSet hP fun row => ⟨_, _, rfl⟩

/-- **An operation does not mark its set.** -/
theorem SetOp.preserves (op : SetOp) (hP : Unmarked P) :
    op.body.Preserves fun v => P (v.get (Key.set op.backupId)) := by
  cases op with
  | create B now =>
    refine .bind (.insert fun v _ _ => ?_) fun _ =>
      .other (writes_insertComponents fun _ => by simp)
    rw [applyAll_cons, applyAll_nil, SetOp.backupId, get_set_self]
    exact hP.new now
  | record B facts now =>
    exact .bind (.other writes_requireComponent) fun _ =>
      .bind (.other (writes_insertObjects fun _ => by simp [SetOp.backupId])) fun _ =>
        preserves_succeed hP
  | complete B kind reference now =>
    exact .bind (.other .check) fun _ =>
      .bind (.other writes_requireComponent) fun _ => preserves_succeed hP
  | fail B kind reason now =>
    exact .bind (.other writes_requireComponent) fun _ =>
      .bind (.other .check) fun _ => .bind preserves_updateComponent fun _ =>
        preserves_updateSet hP fun row => ⟨_, _, rfl⟩

end Sets

/-- **An operation on a set** that is neither complete nor touched. -/
theorem evolves_set (h : VaultInv s) {op : SetOp} (hcomplete : ¬ CompleteSet s.db op.backupId)
    (htouched : ¬ Touched s op.backupId) : Evolves s { s with db := commitOf op.body s.db } := by
  have hother : ∀ k, ¬ SetRow op.backupId k → (commitOf op.body s.db).get k = s.db.get k :=
    fun k hk => get_commitOf op.writes_setRow hk
  have hset : ∀ B, B ≠ op.backupId →
      (commitOf op.body s.db).get (Key.set B) = s.db.get (Key.set B) := by
    intro B hB
    refine hother _ ?_
    rintro (hk | ⟨key, hk⟩)
    · exact hB (some.inj hk)
    · cases hk
  have hsame : SameRestores s.db (commitOf op.body s.db) := by
    refine fun k hk => hother k ?_
    rintro (hk' | ⟨key, rfl⟩)
    · cases k with
      | set _ => exact hk trivial
      | component _ _ => exact hk trivial
      | _ => cases hk'
    · exact hk trivial
  have hpresent : ∀ B, (s.db.get (Key.set B)).isSome = true →
      ((commitOf op.body s.db).get (Key.set B)).isSome = true := by
    intro B hB
    by_cases heq : B = op.backupId
    · rw [heq] at hB ⊢
      exact commitOf_preserves (P := fun v => (v.get (Key.set op.backupId)).isSome = true)
        (op.preserves (P := fun o => o.isSome = true) ⟨fun _ => rfl, fun _ _ _ _ => rfl⟩) hB
    · rw [hset B heq]
      exact hB
  have hunmarked : ∀ row, (commitOf op.body s.db).get (Key.set op.backupId) = some row →
      row.purgedAt = none := by
    refine commitOf_preserves (P := fun v => ∀ row, v.get (Key.set op.backupId) = some row →
      row.purgedAt = none) (op.preserves (P := fun o => ∀ row, o = some row → row.purgedAt = none)
        ⟨fun now row hrow => ?_, fun row status completedAt hrow row' hrow' => ?_⟩) fun row hrow => ?_
    · cases hrow
      rfl
    · cases hrow'
      exact hrow row rfl
    · by_contra hpurged
      exact htouched (.inl (.inl ⟨row, hrow, hpurged⟩))
  have hold : ∀ B, Condemned { s with db := commitOf op.body s.db } B →
      Condemned s B ∧ B ≠ op.backupId := by
    intro B hB
    have hne : Condemned s B → B ≠ op.backupId := fun hB heq => htouched (.inl (heq ▸ hB))
    rcases hB with ⟨row, hrow, hpurged⟩ | hB
    · have hne' : B ≠ op.backupId := fun heq => hpurged (hunmarked row (heq ▸ hrow))
      exact ⟨.inl ⟨row, (hset B hne').symm.trans hrow, hpurged⟩, hne'⟩
    · exact ⟨.inr hB, hne (.inr hB)⟩
  constructor
  case toGrows =>
    refine ⟨rfl, le_rfl, fun B row hrow hstatus => ?_, fun B hB => ?_, fun row hrow =>
      ⟨row, hrow, rfl, rfl⟩⟩
    · have hne : B ≠ op.backupId := fun heq => hcomplete (heq ▸ ⟨row, hrow, hstatus⟩)
      exact ⟨row, (hset B hne).trans hrow, hstatus, rfl⟩
    · refine hB.imp_left fun ⟨row, hrow, hpurged⟩ => ⟨row, (hset B ?_).trans hrow, hpurged⟩
      exact fun heq => htouched (.inl (heq ▸ hB))
  case restores => exact hsame.inv h.restores hpresent
  case restoring => exact fun B hB => .inl (hsame.restoring hB)
  case started =>
    intro r row hnone hrow
    cases ((hsame _ id).trans hnone).symm.trans hrow
  case starts => exact h.starts
  case touched =>
    rintro B (hB | hB)
    · exact .inl (.inl (hold B hB).1)
    · exact .inl (.inr hB)
  case deleted => exact h.deleted
  case aged =>
    intro B hB ⟨row, hrow, hstatus⟩
    obtain ⟨hB, hne⟩ := hold B hB
    exact ⟨⟨row, (hset B hne).symm.trans hrow, hstatus⟩, .inl hB⟩
  case present => exact fun row hrow => hpresent _ (h.targets row hrow)
  case ids => exact h.ids
  case sweeps => exact fun i sweep hsweep => .inl hsweep

/-! ### Operations on restores -/

theorem RestoreInv.rebase {c₀ : Db} (h : RestoreInv c₀ c) : RestoreInv c c where
  stages := h.stages
  index := h.index
  sets _ _ := rfl
  backed r row hrow := by
    rw [h.sets (Key.set row.backupId) trivial]
    exact h.backed r row hrow

theorem evolves_sessions (h : VaultInv s) {starts : ℕ → Option StartTx} (hc : RestoreInv s.db c)
    (hstarts : ∀ i tx, starts i = some tx → s.starts i = some tx)
    (hrestoring : ∀ B, Restoring c B → Restoring s.db B ∨ (CompleteSet s.db B ∧ ¬ Touched s B))
    (hstarted : ∀ r row, s.db.get (Key.session r) = none → c.get (Key.session r) = some row →
      CompleteSet s.db row.backupId ∧ ¬ Touched s row.backupId) :
    Evolves s { s with db := c, starts := starts } := by
  have hset : ∀ B, c.get (Key.set B) = s.db.get (Key.set B) := fun B => hc.sets _ trivial
  have hcondemned : ∀ B, Condemned { s with db := c, starts := starts } B → Condemned s B := by
    intro B hB
    unfold Condemned at hB
    simp only [hset] at hB
    exact hB
  have htouched : ∀ B, Touched { s with db := c, starts := starts } B → Touched s B :=
    fun B hB => hB.imp_left (hcondemned B)
  constructor
  case toGrows => exact .of_same rfl le_rfl hset rfl
  case restores => exact hc.rebase
  case restoring =>
    exact fun B hB => (hrestoring B hB).imp_right fun hB => ⟨hB.1, fun h => hB.2 (htouched B h)⟩
  case started => exact hstarted
  case starts => exact fun i tx htx => h.starts i tx (hstarts i tx htx)
  case touched => exact fun B hB => .inl (htouched B hB)
  case deleted => exact h.deleted
  case aged =>
    rintro B hB ⟨row, hrow, hcomplete⟩
    exact ⟨⟨row, (hset B).symm.trans hrow, hcomplete⟩, .inl (hcondemned B hB)⟩
  case present =>
    intro row hrow
    rw [hset]
    exact h.targets row hrow
  case ids => exact h.ids
  case sweeps => exact fun i sweep hsweep => .inl hsweep

theorem sessions_of_effect {op : RestoreOp} (hop : op.isStart = false) (h : restoreEffect op v c) :
    (∀ B, Restoring c B → Restoring v B) ∧
      ∀ r row, v.get (Key.session r) = none → c.get (Key.session r) ≠ some row := by
  have hmoved : Moved v c op.restoreId ∨ Completed v c op.restoreId := by
    cases op with
    | start => cases hop
    | opsStart => cases hop
    | advance => exact h.2
    | retryTarget => exact h.2
    | retryRepairTarget => exact h.2
  constructor
  · rintro B ⟨r, row, hrow, hbackup, hactive⟩
    by_cases heq : r = op.restoreId
    · subst heq
      rcases hmoved with ⟨-, hkept⟩ | hcompleted
      · obtain ⟨row', hrow', hactive'⟩ := hkept.active ⟨row, hrow, hactive⟩
        obtain ⟨row₁, row₀, hrow₁, hrow₀, hbackup₁, -⟩ := hkept
        obtain rfl := some.inj (hrow₁.symm.trans hrow)
        obtain rfl := some.inj (hrow₀.symm.trans hrow')
        exact ⟨_, row₀, hrow₀, hbackup₁.symm.trans hbackup, hactive'⟩
      · exact absurd ⟨row, hrow, hactive⟩ hcompleted.not_active
    · exact ⟨r, row, (h.1 r heq _ rfl).symm.trans hrow, hbackup, hactive⟩
  · intro r row hnone hrow
    by_cases heq : r = op.restoreId
    · subst heq
      rcases hmoved with ⟨-, row₁, row₀, -, hrow₀, -⟩ | hcompleted
      · cases hnone.symm.trans hrow₀
      · obtain ⟨row₀, hrow₀, -⟩ := hcompleted.before
        cases hnone.symm.trans hrow₀
    · cases ((h.1 r heq _ rfl).trans hnone).symm.trans hrow

/-- **An operation on a session that is there.** -/
theorem evolves_restore (h : VaultInv s) {op : RestoreOp} (hop : op.isStart = false) :
    Evolves s { s with db := commitOf op.body s.db } := by
  rcases commitOf_cases op.body s.db with heq | ⟨a, ha⟩
  · rw [heq]
    exact evolves_idle h rfl rfl rfl rfl le_rfl h.starts fun i sweep hsweep => .inl hsweep
  · obtain ⟨hinv, heffect⟩ := Regions.exec_of_keeps (restore_keeps s.db) h.restores ha
    obtain ⟨hrestoring, hstarted⟩ := sessions_of_effect hop heffect
    exact evolves_sessions h hinv (fun _ _ htx => htx) (fun B hB => .inl (hrestoring B hB))
      fun r row hnone hrow => absurd hrow (hstarted r row hnone)

theorem backupId_of_startWrites {r : String} {now : Time} {a : Unit} {row : SessionRow}
    (hnone : v.get (Key.session r) = none) (h : (startWrites B r now).exec v = .ok (a, c))
    (hrow : c.get (Key.session r) = some row) : row.backupId = B := by
  have hkeeps : (startWrites B r now).Preserves fun v =>
      ∀ row, v.get (Key.session r) = some row → row.backupId = B := by
    refine .bind (.insert fun v _ _ row hrow => ?_) fun _ => .bind
      (.other (k := Key.session r) (P := fun o => ∀ row, o = some row → row.backupId = B)
        (writes_insertStages fun _ => by simp)) fun _ =>
      .other (k := Key.session r) (P := fun o => ∀ row, o = some row → row.backupId = B)
        (writes_closeReads (by simp))
    rw [applyAll_cons, applyAll_cons, applyAll_nil,
      get_set_of_ne (by simp), get_set_self] at hrow
    cases hrow
    rfl
  refine hkeeps.exec (fun row hrow => ?_) h row hrow
  cases hnone.symm.trans hrow

/-- **A session is started** for a set that is complete and not touched. -/
theorem evolves_start (h : VaultInv s) {i : ℕ} {tx : StartTx} (htx : s.starts i = some tx)
    (hB : ¬ Touched s tx.backupId) :
    Evolves s { s with
      db := commitOf (startWrites tx.backupId tx.restoreId tx.now) s.db
      starts := update s.starts i none } := by
  have hcomplete := h.starts i tx htx
  have hstarts : ∀ j tx', update s.starts i none j = some tx' → s.starts j = some tx' :=
    fun j tx' htx' => ((Machine.of_update htx').resolve_left nofun).2
  rcases commitOf_cases (startWrites tx.backupId tx.restoreId tx.now) s.db with heq | ⟨a, ha⟩
  · rw [heq]
    exact evolves_idle h rfl rfl rfl rfl le_rfl (fun j tx' htx' => h.starts j tx' (hstarts j tx' htx'))
      fun i sweep hsweep => .inl hsweep
  · obtain ⟨row₀, hrow₀, -⟩ := hcomplete
    have hends : (restoreDiscipline s.db).Ends s.db (fun d H => d = ∅ ∧ H = fun _ => False)
        (startWrites tx.backupId tx.restoreId tx.now)
        (fun _ => OnSession s.db tx.restoreId (NewSession s.db s.db tx.restoreId)) fun _ => True :=
      (ends_startWrites h.restores (isSome_iff_exists.mpr ⟨row₀, hrow₀⟩)).pre
        fun d H h => h.1
    have hkeeps := keeps_of_ends (Q := fun c => (∀ r, r ≠ tx.restoreId →
      restoreRegions.Same r s.db c) ∧ Started s.db c tx.restoreId) writes_startWrites h.restores hends
      (fun v h => h.stages) (fun v h => h.index) (fun v h => h.backed)
      fun t h hsame => ⟨hsame, h.started⟩
    obtain ⟨d, H, heq, hinv, -, hsame, hstarted⟩ := hkeeps.exec h.restores ⟨rfl, rfl⟩ ha
    rw [← heq] at hinv hsame hstarted
    have hsession : ∀ row, (commitOf (startWrites tx.backupId tx.restoreId tx.now) s.db).get
        (Key.session tx.restoreId) = some row → row.backupId = tx.backupId := fun row hrow =>
      backupId_of_startWrites hstarted.before ha hrow
    refine evolves_sessions h hinv hstarts (fun B hrestoring => ?_) fun r row hnone hrow => ?_
    · obtain ⟨r, row, hrow, hbackup, hactive⟩ := hrestoring
      by_cases hr : r = tx.restoreId
      · subst hr
        obtain rfl := (hsession row hrow).symm.trans hbackup
        exact .inr ⟨h.starts i tx htx, hB⟩
      · exact .inl ⟨r, row, (hsame r hr _ rfl).symm.trans hrow, hbackup, hactive⟩
    · by_cases hr : r = tx.restoreId
      · subst hr
        rw [hsession row hrow]
        exact ⟨h.starts i tx htx, hB⟩
      · cases ((hsame r hr _ rfl).trans hnone).symm.trans hrow

end RagQs.Backup
