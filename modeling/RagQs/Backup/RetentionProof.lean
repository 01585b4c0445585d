import RagQs.Backup.Retention
import RagQs.Machine.Ranked

/-!
# What sweeps leave alone

A set that a sweep has begun to delete has expired, and so never is among the newest; a set that is
among them has all its snapshots.

## Main definitions

* `Condemned`, `Touched` — a set is purged or has an unfinished cleanup target, or has been checked.
* `Aged` — a set is older than the retention period, and enough complete sets are newer.
* `VaultInv` — what holds in every state.

## Main results

* `aged_of_expired` — the sets that a sweep looks at.
* `newest_untouched` — **the newest complete sets are neither purged nor touched.**
-/

namespace RagQs.Backup

open Txn List Option

variable {v v' : Db} {s t : Vault} {B : String} {n : ℕ}
variable {x : String × Time}

/-! ### The newest sets -/

/-- The set is complete. -/
def CompleteSet (v : Db) (B : String) : Prop :=
  ∃ row, v.get (Key.set B) = some row ∧ row.status = .complete

/-- Strictly newer; sets of one time are told apart by their identity. -/
def newer (x y : String × Time) : Prop := y.2 < x.2 ∨ (y.2 = x.2 ∧ y.1 < x.1)

instance : DecidableRel newer := fun x y => by
  unfold newer
  infer_instance

/-- The complete sets, purged or not. -/
def completeBackups (v : Db) : List (String × Time) :=
  (table v fun
    | .set backupId, row => if row.status = .complete then
        row.completedAt.map fun completedAt => (backupId, completedAt) else none
    | _, _ => none).insertionSort newestFirst

theorem newer_asymm (x y : String × Time) (h : newer x y) : ¬ newer y x := by
  unfold newer at *
  rintro (h' | ⟨h', h''⟩)
  · rcases h with h | ⟨h, -⟩
    · exact lt_asymm h h'
    · exact h'.ne h.symm
  · rcases h with h | ⟨-, h⟩
    · exact h.ne h'.symm
    · exact lt_asymm h h''

instance : Std.Total newestFirst := by
  refine ⟨fun x y => ?_⟩
  unfold newestFirst
  rcases lt_trichotomy x.2 y.2 with h | h | h
  · exact .inr (.inl h)
  · rcases le_total x.1 y.1 with h' | h'
    · exact .inr (.inr ⟨h, h'⟩)
    · exact .inl (.inr ⟨h.symm, h'⟩)
  · exact .inl (.inl h)

instance : IsTrans (String × Time) newestFirst := by
  refine ⟨fun x y z hxy hyz => ?_⟩
  unfold newestFirst at *
  rcases hxy with hxy | ⟨hxy, hxy'⟩
  · rcases hyz with hyz | ⟨hyz, -⟩
    · exact .inl (hyz.trans hxy)
    · exact .inl (hyz ▸ hxy)
  · rcases hyz with hyz | ⟨hyz, hyz'⟩
    · exact .inl (hxy ▸ hyz)
    · exact .inr ⟨hyz.trans hxy, hyz'.trans hxy'⟩

theorem pairwise_newer {l : List (String × Time)} (hl : (l.map Prod.fst).Nodup) :
    (l.insertionSort newestFirst).Pairwise newer := by
  have hne : (l.insertionSort newestFirst).Pairwise fun x y => x.1 ≠ y.1 :=
    pairwise_map.mp (((perm_insertionSort newestFirst l).map Prod.fst).nodup_iff.mpr hl)
  refine ((pairwise_insertionSort newestFirst l).and hne).imp fun {x y} h => ?_
  rcases h with ⟨h | ⟨h, h'⟩, hid⟩
  · exact .inl h
  · exact .inr ⟨h, lt_of_le_of_ne h' hid.symm⟩

theorem nodup_of_newer {l : List (String × Time)} (hl : l.Pairwise newer) : l.Nodup := by
  refine hl.imp fun {x y} h heq => ?_
  subst heq
  exact newer_asymm x x h h

theorem mem_restorableBackups : x ∈ restorableBackups v ↔
    ∃ row, v.get (Key.set x.1) = some row ∧ row.status = .complete ∧ row.purgedAt = none ∧
      row.completedAt = some x.2 := by
  unfold restorableBackups
  rw [mem_insertionSort, mem_table]
  constructor
  · rintro ⟨k, row, hrow, hpick⟩
    cases k with
    | set backupId =>
      simp only [ite_none_right_eq_some, map_eq_some_iff] at hpick
      obtain ⟨⟨hcomplete, hpurged⟩, completedAt, hat, rfl⟩ := hpick
      exact ⟨row, hrow, hcomplete, hpurged, hat⟩
    | _ => cases hpick
  · rintro ⟨row, hrow, hcomplete, hpurged, hat⟩
    exact ⟨_, row, hrow, by simp [hcomplete, hpurged, hat]⟩

theorem mem_completeBackups : x ∈ completeBackups v ↔
    ∃ row, v.get (Key.set x.1) = some row ∧ row.status = .complete ∧
      row.completedAt = some x.2 := by
  unfold completeBackups
  rw [mem_insertionSort, mem_table]
  constructor
  · rintro ⟨k, row, hrow, hpick⟩
    cases k with
    | set backupId =>
      simp only [ite_none_right_eq_some, map_eq_some_iff] at hpick
      obtain ⟨hcomplete, completedAt, hat, rfl⟩ := hpick
      exact ⟨row, hrow, hcomplete, hat⟩
    | _ => cases hpick
  · rintro ⟨row, hrow, hcomplete, hat⟩
    exact ⟨_, row, hrow, by simp [hcomplete, hat]⟩

theorem restorableBackups_newer : (restorableBackups v).Pairwise newer := by
  refine pairwise_newer (nodup_table fun k row b k' row' b' hb hb' heq => ?_)
  cases k with
  | set backupId =>
    cases k' with
    | set backupId' =>
      simp only [ite_none_right_eq_some, map_eq_some_iff] at hb hb'
      obtain ⟨-, _, -, rfl⟩ := hb
      obtain ⟨-, _, -, rfl⟩ := hb'
      exact congrArg Key.set heq
    | _ => cases hb'
  | _ => cases hb

theorem completeBackups_newer : (completeBackups v).Pairwise newer := by
  refine pairwise_newer (nodup_table fun k row b k' row' b' hb hb' heq => ?_)
  cases k with
  | set backupId =>
    cases k' with
    | set backupId' =>
      simp only [ite_none_right_eq_some, map_eq_some_iff] at hb hb'
      obtain ⟨-, _, -, rfl⟩ := hb
      obtain ⟨-, _, -, rfl⟩ := hb'
      exact congrArg Key.set heq
    | _ => cases hb'
  | _ => cases hb

/-! ### Sets that have expired -/

/-- The policy that is in force. -/
def Vault.policyRow (s : Vault) : PolicyRow := s.policy.getD defaultPolicy

/-- The set is complete and older than the retention period, and as many complete sets are newer as
are kept. -/
def Aged (s : Vault) (B : String) : Prop :=
  ∃ row completedAt, s.db.get (Key.set B) = some row ∧ row.status = .complete ∧
    row.completedAt = some completedAt ∧ completedAt < cutoff s.clock s.policyRow.retentionDays ∧
    s.policyRow.keepLast ≤ (completeBackups s.db).countP fun x => newer x (B, completedAt)

theorem Aged.complete (h : Aged s B) : CompleteSet s.db B := by
  obtain ⟨row, -, hrow, hcomplete, -⟩ := h
  exact ⟨row, hrow, hcomplete⟩

theorem cutoff_le {now now' : Time} (h : now ≤ now') : cutoff now n ≤ cutoff now' n :=
  sub_le_sub_right h _

/-- **The sets that a sweep looks at** have expired. -/
theorem aged_of_expired {now : Time} (hnow : now ≤ s.clock)
    (hB : B ∈ expiredBackups (restorableBackups s.db) s.policyRow.keepLast
      (cutoff now s.policyRow.retentionDays)) : Aged s B := by
  unfold expiredBackups at hB
  rw [mem_reverse, List.mem_map] at hB
  obtain ⟨⟨B', completedAt⟩, hmem, rfl⟩ := hB
  rw [mem_filter, decide_eq_true_eq] at hmem
  obtain ⟨hmem, hkeep, hold⟩ := hmem
  obtain ⟨row, hrow, hcomplete, -, hat⟩ := mem_restorableBackups.mp hmem
  refine ⟨row, completedAt, hrow, hcomplete, hat, hold.trans_le (cutoff_le hnow), ?_⟩
  have hnot : (B', completedAt) ∉ (restorableBackups s.db).take s.policyRow.keepLast :=
    fun h => hkeep (List.mem_map_of_mem h)
  rw [Machine.mem_take_iff_countP newer_asymm restorableBackups_newer hmem, not_lt] at hnot
  refine hnot.trans (Machine.countP_le_of_subset (nodup_of_newer restorableBackups_newer) ?_)
  intro x hx _
  obtain ⟨row', hrow', hcomplete', -, hat'⟩ := mem_restorableBackups.mp hx
  exact mem_completeBackups.mpr ⟨row', hrow', hcomplete', hat'⟩

/-! ### Sets that are deleted -/

/-- A restore of the set is accepted, running or blocked. -/
def Restoring (v : Db) (B : String) : Prop :=
  ∃ r row, v.get (Key.session r) = some row ∧ row.backupId = B ∧ row.status.isActive = true

/-- The set is purged, or has an unfinished cleanup target. -/
def Condemned (s : Vault) (B : String) : Prop :=
  (∃ row, s.db.get (Key.set B) = some row ∧ row.purgedAt ≠ none) ∨
    ∃ row ∈ s.cleanups, row.backupId = B ∧ row.status.isUnfinished = true

/-- The set that a sweep has found unprotected, and has not inserted a cleanup target for. -/
def Phase.checked : Phase → Option String
  | .repairs c | .unfinished c | .create c => some c.backupId
  | _ => none

/-- The set is purged, has an unfinished cleanup target, or was found unprotected by a sweep that is
about to insert one. -/
def Touched (s : Vault) (B : String) : Prop :=
  Condemned s B ∨ ∃ i sweep, s.sweeps i = some sweep ∧ sweep.phase.checked = some B

/-- No snapshot of the set was deleted. -/
def Intact (s : Vault) (B : String) : Prop := ∀ kind, (B, kind) ∉ s.deleted

/-- A cleanup target as a sweep has read it is there. -/
def Works (s : Vault) (job : Job) : Prop :=
  Condemned s job.backupId ∧
    ∃ row ∈ s.cleanups, row.id = job.targetId ∧ row.backupId = job.backupId

/-- What a sweep has still to do is about targets that are there, and sets that have expired. -/
def RestOk (s : Vault) : Rest → Prop
  | .retries jobs _ => ∀ job ∈ jobs, Works s job
  | .candidates backupIds _ _ => ∀ B ∈ backupIds, Aged s B

/-- So is all that it has read. -/
def PhaseOk (s : Vault) : Phase → Prop
  | .due _ | .policy _ => True
  | .loop rest => RestOk s rest
  | .restorable keepLast retentionDays _ =>
    keepLast = s.policyRow.keepLast ∧ retentionDays = s.policyRow.retentionDays
  | .repairs c | .unfinished c | .create c => Aged s c.backupId ∧ ∀ B ∈ c.later, Aged s B
  | .mark job rest | .references job rest | .delete job _ rest | .fail job _ rest =>
    Works s job ∧ RestOk s rest

/-- What holds in every state. -/
structure VaultInv (s : Vault) : Prop where
  restores : RestoreInv s.db s.db
  sessions : ∀ B, Restoring s.db B → CompleteSet s.db B
  starts : ∀ i tx, s.starts i = some tx → CompleteSet s.db tx.backupId
  exclusive : ∀ B, Touched s B → ¬ Restoring s.db B
  deleted : ∀ B kind, (B, kind) ∈ s.deleted → Condemned s B
  aged : ∀ B, Condemned s B → CompleteSet s.db B → Aged s B
  targets : ∀ row ∈ s.cleanups, (s.db.get (Key.set row.backupId)).isSome = true
  ids : (s.cleanups.map CleanupRow.id).Nodup
  sweeps : ∀ i sweep, s.sweeps i = some sweep → sweep.now ≤ s.clock ∧ PhaseOk s sweep.phase

theorem PhaseOk.aged {phase : Phase} (h : PhaseOk s phase) (hB : phase.checked = some B) :
    Aged s B := by
  cases phase with
  | repairs c =>
    cases hB
    exact h.1
  | unfinished c =>
    cases hB
    exact h.1
  | create c =>
    cases hB
    exact h.1
  | _ => cases hB

theorem VaultInv.aged_of_touched (h : VaultInv s) (hB : Touched s B) (hcomplete : CompleteSet s.db B) :
    Aged s B := by
  rcases hB with hB | ⟨i, sweep, hsweep, hB⟩
  · exact h.aged B hB hcomplete
  · exact (h.sweeps i sweep hsweep).2.aged hB

/-- **The newest complete sets** are neither purged nor touched. -/
theorem newest_untouched (h : VaultInv s)
    (hx : x ∈ (completeBackups s.db).take s.policyRow.keepLast) :
    ¬ Touched s x.1 ∧ x ∈ restorableBackups s.db := by
  have hmem := mem_of_mem_take hx
  obtain ⟨row, hrow, hcomplete, hat⟩ := mem_completeBackups.mp hmem
  have hnot : ¬ Touched s x.1 := by
    intro htouched
    obtain ⟨row', completedAt, hrow', -, hat', -, hcount⟩ :=
      h.aged_of_touched htouched ⟨row, hrow, hcomplete⟩
    cases hrow.symm.trans hrow'
    cases hat.symm.trans hat'
    rw [Machine.mem_take_iff_countP newer_asymm completeBackups_newer hmem] at hx
    exact absurd hcount (not_le.mpr hx)
  refine ⟨hnot, mem_restorableBackups.mpr ⟨row, hrow, hcomplete, ?_, hat⟩⟩
  by_contra hpurged
  exact hnot (.inl (.inl ⟨row, hrow, hpurged⟩))

/-- **A set that has expired** is not among the newest that are not purged, and another has all its
snapshots. -/
theorem kept_of_aged (h : VaultInv s) {completedAt : Time} {row : BackupSetRow} (hB : Aged s B)
    (hrow : s.db.get (Key.set B) = some row) (hat : row.completedAt = some completedAt) :
    (B, completedAt) ∉ (restorableBackups s.db).take s.policyRow.keepLast ∧
      ∃ B', B' ≠ B ∧ (∃ t, (B', t) ∈ restorableBackups s.db) ∧ Intact s B' := by
  obtain ⟨row', completedAt', hrow', hcomplete, hat', -, hcount⟩ := hB
  cases hrow.symm.trans hrow'
  cases hat.symm.trans hat'
  have hmem : (B, completedAt) ∈ completeBackups s.db :=
    mem_completeBackups.mpr ⟨row, hrow, hcomplete, hat⟩
  have hnot : (B, completedAt) ∉ (completeBackups s.db).take s.policyRow.keepLast := by
    rw [Machine.mem_take_iff_countP newer_asymm completeBackups_newer hmem]
    exact not_lt.mpr hcount
  have hbefore : ∀ x ∈ (completeBackups s.db).take s.policyRow.keepLast, newer x (B, completedAt) :=
    fun x hx => Machine.before_of_mem_take completeBackups_newer hx hmem hnot
  have hlength : ((completeBackups s.db).take s.policyRow.keepLast).length
      = s.policyRow.keepLast :=
    length_take_of_le (hcount.trans countP_le_length)
  constructor
  · intro hkept
    -- as many sets as are kept are newer, and none of these is purged
    rw [Machine.mem_take_iff_countP newer_asymm restorableBackups_newer (mem_of_mem_take hkept)]
      at hkept
    refine absurd ?_ (not_le.mpr hkept)
    have hall : ((completeBackups s.db).take s.policyRow.keepLast).countP
        (fun x => newer x (B, completedAt)) = s.policyRow.keepLast :=
      (countP_eq_length.mpr fun x hx => by simpa using hbefore x hx).trans hlength
    rw [← hall]
    refine Machine.countP_le_of_subset ?_ fun x hx _ => (newest_untouched h hx).2
    exact (nodup_of_newer completeBackups_newer).sublist (take_sublist _ _)
  · obtain ⟨x, hx⟩ := exists_mem_of_length_pos (hlength.symm ▸ s.policyRow.keepLast_pos :
      0 < ((completeBackups s.db).take s.policyRow.keepLast).length)
    obtain ⟨huntouched, hrestorable⟩ := newest_untouched h hx
    refine ⟨x.1, fun heq => ?_, ⟨x.2, hrestorable⟩, fun kind hdeleted =>
      huntouched (.inl (h.deleted _ kind hdeleted))⟩
    obtain ⟨row', hrow', -, hat'⟩ := mem_completeBackups.mp (mem_of_mem_take hx)
    rw [heq] at hrow'
    cases hrow.symm.trans hrow'
    obtain heq' := some.inj (hat.symm.trans hat')
    have hself := hbefore x hx
    rw [show x = (B, completedAt) from Prod.ext heq heq'.symm] at hself
    exact newer_asymm _ _ hself hself

end RagQs.Backup
