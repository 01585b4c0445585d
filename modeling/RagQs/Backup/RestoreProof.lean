import RagQs.Backup.RestoreStages

/-!
# What the operations on restores do

An operation on a session that is there locks its row, and leaves all others alone.  It leaves the
gate as it is, or opens it and completes the session, whose stages have then all succeeded and which
has no open repair target.

## Main definitions

* `Moved`, `Completed`, `Started` — what an operation does.
* `restoreEffect` — what each of them may do.

## Main results

* `ends_runPostGate`, `ends_runStage`, `ends_advance`, `ends_start` — the operations.
* `restore_keeps` — all of them.
-/

namespace RagQs.Backup

open Txn Discipline List Option Store AList

variable {resourceId backupId : String} {rebuild : DerivedRebuild} {ws : List (Write Row)} {V : Db →
  Prop} {status : SessionStatus} {f : SessionRow → SessionRow} {row : SessionRow}

variable {keys : List String} {k : Key} {α : Type} {kind : ComponentKind} {stageText : String}
  {stages : List Stage}

/-! ### What an operation does -/

/-- The session keeps its set, and its status, or is active as it was before. -/
def SessionKept (b : Db) (r : String) (v : Db) : Prop :=
  ∃ row row₀, v.get (Key.session r) = some row ∧ b.get (Key.session r) = some row₀ ∧
    row.backupId = row₀.backupId ∧
    (row.status = row₀.status ∨ (row.status.isActive = true ∧ row₀.status.isActive = true))

/-- The gate is as it was, and so is the session, unless it is active. -/
def Moved (b t : Db) (r : String) : Prop :=
  t.get Key.maintenance = b.get Key.maintenance ∧ SessionKept b r t

/-- The session was active and is completed, its stages have all succeeded, and it has no open
repair target. -/
structure Completed (b t : Db) (r : String) : Prop where
  before : Active b r
  session : ∃ row, t.get (Key.session r) = some row ∧ row.status = .completed
  stages : AllDone t r
  repairs : anyOpenRepair t r = false

/-- The session is new, and the gate is closed for it. -/
structure Started (b t : Db) (r : String) : Prop where
  before : b.get (Key.session r) = none
  session : ∃ row, t.get (Key.session r) = some row ∧ row.status = .accepted
  gate : ∃ now, t.get Key.maintenance = some ⟨true, some r, now⟩

/-- What an operation may do: nothing to other sessions. -/
def restoreEffect (op : RestoreOp) (b t : Db) : Prop :=
  (∀ r, r ≠ op.restoreId → restoreRegions.Same r b t) ∧
    match op with
    | .start _ r _ | .opsStart _ r _ => Started b t r
    | .advance r _ _ | .retryTarget r _ _ _ _ | .retryRepairTarget r _ _ _ _ =>
      Moved b t r ∨ Completed b t r

/-- The rows of backup sets. -/
def IsBackup : Key → Prop
  | .set _ | .component _ _ => True
  | _ => False

/-- What holds of every committed store, `c₀` being the first: the stages of all sessions are as they
should be, an entry of the index names a session with its status, and the backup sets, which no
operation writes, are those the sessions were started for. -/
structure RestoreInv (c₀ c : Db) : Prop where
  stages : ∀ r, (c.get (Key.session r)).isSome = true → StagesOk c r
  index : ∀ status r, c.get (Key.activeSession status) = some r →
    ∃ row, c.get (Key.session r) = some row ∧ row.status = status ∧ status.isActive = true
  sets : ∀ k, IsBackup k → c.get k = c₀.get k
  backed : ∀ r row, c.get (Key.session r) = some row →
    (c₀.get (Key.set row.backupId)).isSome = true

/-- The discipline of the lock on a session. -/
abbrev restoreDiscipline (c₀ : Db) : Discipline Row :=
  restoreRegions.locked Key.session (RestoreInv c₀)

/-- The session is locked, and the view of the commit has a property. -/
abbrev OnSession (b : Db) (r : String) (V : Db → Prop) : Pend Row := Regions.On Key.session b r V

variable {c₀ b c d v : Db} {r : String} {stage : Stage} {now : Time} {answers : Answers}

/-! ### Parts that write targets and repair targets only -/

/-- The key of a target, or of a repair target, of the session. -/
def IsTarget (r : String) (k : Key) : Prop :=
  ∃ stage resourceId, k = .target r stage resourceId ∨ k = .repair r stage resourceId

theorem isTarget_target : IsTarget r (.target r stage resourceId) :=
  ⟨stage, resourceId, .inl rfl⟩

theorem isTarget_repair : IsTarget r (.repair r stage resourceId) :=
  ⟨stage, resourceId, .inr rfl⟩

theorem writes_openRepairTarget {classification detail : String} :
    (openRepairTarget r stage resourceId classification detail now).Writes (IsTarget r) := by
  refine .bind .select fun existing => .ite (fun _ => .done)
    fun _ => .bind .check fun row => .insert fun x hx => ?_
  rw [mem_singleton.mp hx]
  exact isTarget_repair

theorem writes_resolveRepairTarget {W : Key → Prop} (hW : W (.repair r stage resourceId)) :
    (resolveRepairTarget r stage resourceId now).Writes W :=
  .bind (.updateWhere (W := W) hW) fun _ => .done

theorem writes_openFindings {expected actual : List ObjectFact} :
    (openFindings r expected actual now keys).Writes (IsTarget r) := by
  induction keys with
  | nil => exact .done
  | cons key keys ih =>
    unfold openFindings
    split
    · exact ih
    · exact writes_openRepairTarget.bind fun _ => ih

theorem writes_resolveAll {W : Key → Prop} (hW : ∀ key ∈ keys, W (.repair r .objectStore key)) :
    (resolveAll r now keys).Writes W := by
  induction keys with
  | nil => exact .done
  | cons key keys ih =>
    exact (writes_resolveRepairTarget (hW key mem_cons_self)).bind fun _ =>
      ih fun key' hkey' => hW key' (mem_cons_of_mem _ hkey')

theorem writes_validateFacts {n : ℕ} : (validateFacts r answers n now).Writes (IsTarget r) := by
  unfold validateFacts
  split
  · exact .done
  · exact .bind .check fun x => writes_openFindings.bind fun _ =>
      writes_resolveAll fun _ _ => isTarget_repair

theorem writes_upsertTargets {resourceIds : List String} {W : Key → Prop}
    (hW : ∀ resourceId, W (.target r stage resourceId)) :
    (upsertTargets r stage now resourceIds).Writes W := by
  induction resourceIds with
  | nil => exact .done
  | cons resourceId resourceIds ih =>
    refine .bind .select fun existing => .ite (fun _ => ih) fun _ =>
      .bind .check fun _ => .bind (.insert fun x hx => ?_) fun _ => ih
    rw [mem_singleton.mp hx]
    exact hW resourceId

theorem writes_updateTarget {f : TargetRow → TargetRow} {W : Key → Prop}
    (hW : W (.target r stage resourceId)) : (updateTarget r stage resourceId f).Writes W :=
  .bind (.updateWhere (W := W) hW) fun _ => .done

theorem writes_targetFailed {failure : RebuildFailure} :
    (targetFailed r stage resourceId failure now).Writes (IsTarget r) :=
  .bind .check fun _ => (writes_updateTarget isTarget_target).bind fun _ =>
    writes_openRepairTarget

theorem writes_runTargets {targets : List (String × TargetRow)} {W : Key → Prop}
    (hW : ∀ resourceId, W (.target r stage resourceId))
    (hsettle : ∀ resourceId, (settleTarget r stage resourceId rebuild now).Writes W) :
    (runTargets r stage rebuild now targets).Writes W := by
  induction targets with
  | nil => exact .done
  | cons target targets ih =>
    exact (writes_updateTarget (hW _)).bind fun _ => (hsettle _).bind fun _ => ih

theorem writes_executeTargets : (executeTargets r stage rebuild now).Writes (IsTarget r) := by
  refine .bind .select fun _ => writes_runTargets (fun _ => isTarget_target) fun _ => ?_
  unfold settleTarget
  split
  · exact writes_targetFailed
  · exact writes_updateTarget isTarget_target

theorem writes_rebuildTarget {target : TargetRow} :
    (rebuildTarget r stage resourceId target rebuild now).Writes (IsTarget r) := by
  refine (writes_updateTarget isTarget_target).bind fun _ => ?_
  split
  · exact writes_targetFailed
  · exact (writes_updateTarget isTarget_target).bind fun _ =>
      writes_resolveRepairTarget isTarget_repair

theorem writes_retryRepair {repair : RepairRow} :
    (retryRepair r stage resourceId repair answers now).Writes (IsTarget r) :=
  .bind (.updateWhere (W := IsTarget r) isTarget_repair) fun _ =>
    writes_validateFacts.bind fun _ => .bind .select fun _ =>
      .ite (fun _ => writes_resolveRepairTarget isTarget_repair) fun _ =>
        .done

theorem get_of_isTarget (hws : ∀ x ∈ ws, IsTarget r x.1) (hk : ¬ IsTarget r k) :
    (v.applyAll ws).get k = v.get k := by
  refine get_applyAll_of_notMem fun hmem => hk ?_
  obtain ⟨x, hx, rfl⟩ := List.mem_map.mp hmem
  exact hws x hx

/-! ### On a session that is locked -/

/-- The entries of the index that name the session have its status, and the others are as they
were. -/
def OwnIndex (b : Db) (r : String) (v : Db) : Prop :=
  ∀ status r', v.get (Key.activeSession status) = some r' →
    (r' = r → ∃ row, v.get (Key.session r) = some row ∧ row.status = status ∧
      status.isActive = true) ∧ (r' ≠ r → b.get (Key.activeSession status) = some r')

/-- The gate is as it was, and so is the session, unless it is active. -/
structure Held (b : Db) (r : String) (v : Db) : Prop where
  gate : v.get Key.maintenance = b.get Key.maintenance
  session : SessionKept b r v
  index : OwnIndex b r v

/-- Moreover the stages of the session are as they should be. -/
structure Steady (b : Db) (r : String) (v : Db) : Prop extends Held b r v where
  stages : StagesOk v r

/-- While a stage is run, those before and after it are as they should be. -/
structure Running (b : Db) (r : String) (stage : Stage) (v : Db) : Prop extends Held b r v where
  stages : UpTo v r stage.position

theorem Held.congr {v' : Db} (h : Held b r v)
    (heq : ∀ k, k = Key.maintenance ∨ k = Key.session r ∨ (∃ status, k = Key.activeSession status) →
      v'.get k = v.get k) : Held b r v' := by
  have hsession := heq (Key.session r) (.inr (.inl rfl))
  refine ⟨(heq _ (.inl rfl)).trans h.gate, ?_, fun status r' hr' => ?_⟩
  · unfold SessionKept
    rw [hsession]
    exact h.session
  · rw [heq _ (.inr (.inr ⟨status, rfl⟩))] at hr'
    rw [hsession]
    exact h.index status r' hr'

theorem Held.targets (hws : ∀ x ∈ ws, IsTarget r x.1) (h : Held b r v) :
    Held b r (v.applyAll ws) := by
  refine h.congr fun k hk => get_of_isTarget hws ?_
  rintro ⟨stage, resourceId, rfl | rfl⟩ <;> simp at hk

theorem Held.setStage {o : Option StageRow} (h : Held b r v) :
    Held b r (v.set (Key.stage r stage) o) := by
  refine h.congr fun k hk => get_set_of_ne ?_
  rintro rfl
  simp at hk

theorem Steady.targets (hws : ∀ x ∈ ws, IsTarget r x.1) (h : Steady b r v) :
    Steady b r (v.applyAll ws) :=
  ⟨h.toHeld.targets hws, h.stages.congr fun _ => get_of_isTarget hws (by simp [IsTarget])⟩

theorem Running.targets (hws : ∀ x ∈ ws, IsTarget r x.1) (h : Running b r stage v) :
    Running b r stage (v.applyAll ws) :=
  ⟨h.toHeld.targets hws, h.stages.congr fun _ => get_of_isTarget hws (by simp [IsTarget])⟩

/-- A part that writes targets only. -/
theorem ends_targets {p : Tx α} (hp : p.Writes (IsTarget r))
    (hV : ∀ v ws, (∀ x ∈ ws, IsTarget r x.1) → V v → V (v.applyAll ws)) :
    (restoreDiscipline c₀).Ends b (OnSession b r V) p (fun _ => OnSession b r V) fun _ => True :=
  Regions.On.inside hp hV

theorem ends_hasOpen :
    (restoreDiscipline c₀).Ends b (OnSession b r V) (hasOpenRepairTargets r)
      (fun stillOpen => OnSession b r fun v => V v ∧ stillOpen = anyOpenRepair v r)
      fun _ => True :=
  Regions.On.select reads_anyOpenRepair

theorem activeEntries_keys {o : Option String} {x : Write Row} (hx : x ∈ activeEntries status o) :
    ∃ status, x.1 = Key.activeSession status := by
  unfold activeEntries at hx
  split at hx
  · rw [mem_singleton.mp hx]
    exact ⟨status, rfl⟩
  · cases hx

/-- What an update of the session writes. -/
def updatedSession (r : String) (f : SessionRow → SessionRow) (row : SessionRow) (v : Db) : Db :=
  (v.set (Key.session r) (some (f row))).applyAll
    (activeEntries row.status none ++ activeEntries (f row).status (some r))

/-- An update of the session changes its row, and entries of the index. -/
theorem ends_updateSession {U : Db → Prop}
    (hV : ∀ v row, V v → v.get (Key.session r) = some row → U (updatedSession r f row v))
    (hsome : ∀ v, V v → (v.get (Key.session r)).isSome = true) :
    (restoreDiscipline c₀).Ends b (OnSession b r V) (updateSession r f) (fun _ => OnSession b r U)
      fun _ => True := by
  refine .stmt fun c d H _ hb h => ?_
  have hlocked : H (Key.session r) := h.1
  have hview : (d ∪ c : Db).get (Key.session r) = (d ∪ b : Db).get (Key.session r) :=
    Regions.get_of_rely hb (.inl hlocked) rfl
  obtain ⟨row, hrow⟩ := isSome_iff_exists.mp (hsome _ h.2)
  have hrow' := hview.trans hrow
  cases htaken : statusTaken (d ∪ c) r (f row).status with
  | true =>
    simp only [hrow', htaken, any_some, if_true]
    exact .fail trivial
  | false =>
    simp only [hrow', htaken, any_some, Bool.false_eq_true, if_false]
    refine .done fun d' H' hd => ?_
    obtain ⟨rfl, rfl⟩ := hd
    refine ⟨.inl hlocked, ?_⟩
    unfold sessionWrites
    simp only [hrow', htaken, Bool.false_eq_true, if_false, applyAll_cons]
    rw [applyAll_union, set_union]
    exact hV _ row h.2 hrow

theorem get_updatedSession (hk : ∀ status, k ≠ Key.activeSession status) (hne : k ≠ Key.session r) :
    (updatedSession r f row v).get k = v.get k := by
  unfold updatedSession
  rw [get_applyAll_of_notMem fun hmem => ?_, get_set_of_ne hne]
  obtain ⟨x, hx, rfl⟩ := List.mem_map.mp hmem
  rcases mem_append.mp hx with hx | hx <;>
  · obtain ⟨status, hstatus⟩ := activeEntries_keys hx
    exact hk status hstatus

theorem get_updatedSession_self :
    (updatedSession r f row v).get (Key.session r) = some (f row) := by
  unfold updatedSession
  rw [get_applyAll_of_notMem fun hmem => ?_, get_set_self]
  obtain ⟨x, hx, hkey⟩ := List.mem_map.mp hmem
  rcases mem_append.mp hx with hx | hx <;>
  · obtain ⟨status, hstatus⟩ := activeEntries_keys hx
    rw [hkey] at hstatus
    cases hstatus

/-- The entries it leaves. -/
theorem get_updatedSession_entry : (updatedSession r f row v).get (Key.activeSession status)
      = if status = (f row).status ∧ status.isActive = true then some r
        else if status = row.status ∧ status.isActive = true then none
        else v.get (Key.activeSession status) := by
  have hentry : ∀ (u : Db) (status' : SessionStatus) (o : Option String),
      (u.applyAll (activeEntries status' o)).get (Key.activeSession status)
        = if status = status' ∧ status.isActive = true then o
          else u.get (Key.activeSession status) := by
    intro u status' o
    unfold activeEntries
    by_cases hstatus : status = status'
    · subst hstatus
      cases status.isActive <;> simp
    · cases status'.isActive
      · simp [hstatus]
      · simp only [if_true, applyAll_cons, applyAll_nil, hstatus, false_and, if_false]
        exact get_set_of_ne (by simpa using hstatus)
  unfold updatedSession
  rw [applyAll_append, hentry, hentry, get_set_of_ne (by simp)]

theorem OwnIndex.updated (h : OwnIndex b r v) (hrow : v.get (Key.session r) = some row) :
    OwnIndex b r (updatedSession r f row v) := by
  intro status r' hr'
  rw [get_updatedSession_entry] at hr'
  rw [get_updatedSession_self]
  split at hr'
  · next hnew =>
    cases hr'
    exact ⟨fun _ => ⟨f row, rfl, hnew.1.symm, hnew.2⟩, fun hne => absurd rfl hne⟩
  · split at hr'
    · cases hr'
    · next hold =>
      refine ⟨fun heq => ?_, (h status r' hr').2⟩
      obtain ⟨row', hrow', hstatus, hactive⟩ := (h status r' hr').1 heq
      cases hrow.symm.trans hrow'
      exact absurd ⟨hstatus.symm, hactive⟩ hold

theorem Held.present (h : Held b r v) : (v.get (Key.session r)).isSome = true := by
  obtain ⟨row, -, hrow, -⟩ := h.session
  rw [hrow]
  rfl

/-- An update of an active session that leaves it active. -/
theorem Held.updated (h : Held b r v) (hb : Active b r) (hrow : v.get (Key.session r) = some row)
    (hset : (f row).backupId = row.backupId) (hactive : (f row).status.isActive = true) :
    Held b r (updatedSession r f row v) := by
  obtain ⟨row', row₀, hrow', hrow₀, hbackup, -⟩ := h.session
  cases hrow.symm.trans hrow'
  obtain ⟨row₁, hrow₁, hactive₁⟩ := hb
  cases hrow₀.symm.trans hrow₁
  refine ⟨?_, ⟨f row, row₀, get_updatedSession_self, hrow₀, hset.trans hbackup, .inr
    ⟨hactive, hactive₁⟩⟩, h.index.updated hrow⟩
  rw [get_updatedSession (by simp) (by simp)]
  exact h.gate

theorem Steady.updated (h : Steady b r v) (hb : Active b r)
    (hrow : v.get (Key.session r) = some row) (hset : (f row).backupId = row.backupId)
    (hactive : (f row).status.isActive = true) : Steady b r (updatedSession r f row v) :=
  ⟨h.toHeld.updated hb hrow hset hactive,
    h.stages.congr fun _ => get_updatedSession (by simp) (by simp)⟩

theorem Running.updated (h : Running b r stage v) (hb : Active b r)
    (hrow : v.get (Key.session r) = some row) (hset : (f row).backupId = row.backupId)
    (hactive : (f row).status.isActive = true) : Running b r stage (updatedSession r f row v) :=
  ⟨h.toHeld.updated hb hrow hset hactive,
    h.stages.congr fun _ => get_updatedSession (by simp) (by simp)⟩

/-! ### Stages -/

/-- A change of the row of the stage that is run. -/
theorem ends_updateStage {f : StageRow → StageRow}
    (hf : ∀ row : StageRow, (f row).position = row.position) :
    (restoreDiscipline c₀).Ends b (OnSession b r (Running b r stage)) (updateStage r stage f)
      (fun _ => OnSession b r (Running b r stage)) fun _ => True := by
  refine .bind (Regions.On.updateWhere (U := fun _ => Running b r stage) rfl
    (fun v h _ => h) fun v row h hrow _ => ⟨h.toHeld.setStage, ?_⟩) fun _ => .done fun _ _ h => h
  obtain ⟨row', hrow', hposition, -⟩ := h.stages stage
  cases hrow'.symm.trans hrow
  exact h.stages.set ((hf _).trans hposition)

/-- **A stage that was run** leaves the stages as they should be. -/
theorem ends_completeStage {validated : Bool} :
    (restoreDiscipline c₀).Ends b (OnSession b r (Running b r stage))
      (completeStage r stage now validated) (fun _ => OnSession b r (Steady b r))
      fun _ => True := by
  refine .bind (Regions.On.updateWhere (U := fun _ => Steady b r) rfl (fun v h hmiss => ?_)
    fun v row h hrow _ => ⟨h.toHeld.setStage, ?_⟩) fun _ => .done fun _ _ h => h
  · obtain ⟨row, hrow, -⟩ := h.stages stage
    cases hmiss row hrow
  · obtain ⟨row', hrow', hposition, -⟩ := h.stages stage
    cases hrow'.symm.trans hrow
    exact .complete h.stages hposition rfl rfl

theorem ends_componentReference :
    (restoreDiscipline c₀).Ends b (OnSession b r V) (componentReference r kind)
      (fun _ => OnSession b r V) fun _ => True :=
  .bind Regions.On.read fun _ => .bind (.orRaise (fun _ _ _ _ h => h) fun _ => trivial) fun _ =>
    .bind Regions.On.read fun _ => .bind (.orRaise (fun _ _ _ _ h => h) fun _ => trivial) fun _ =>
      .done fun _ _ h => h

theorem ends_check {x : Except Err α} :
    (restoreDiscipline c₀).Ends b (OnSession b r V) (check x : Tx α) (fun _ => OnSession b r V)
      fun _ => True :=
  .check (fun _ _ _ _ h => h) fun _ _ => trivial

theorem ends_executeStage :
    (restoreDiscipline c₀).Ends b (OnSession b r (Running b r stage))
      (executeStage r stage answers now) (fun _ => OnSession b r (Steady b r)) fun _ => True := by
  have hderived : (restoreDiscipline c₀).Ends b (OnSession b r (Running b r stage))
      (executeDerived r stage answers now) (fun _ => OnSession b r (Steady b r)) fun _ => True :=
    .bind (.orRaise (fun _ _ _ _ h => h) fun _ => trivial) fun rebuild => .bind ends_check fun _ =>
      .bind (ends_targets (writes_upsertTargets fun _ => isTarget_target)
        fun _ _ hws h => h.targets hws) fun _ =>
      .bind (ends_targets writes_executeTargets fun _ _ hws h => h.targets hws) fun _ =>
      .bind Regions.On.read fun _ => ends_completeStage
  refine .bind (ends_updateStage fun _ => rfl) fun _ => ?_
  cases stage with
  | postgres =>
    exact .bind ends_componentReference fun _ => .bind ends_check fun _ => ends_completeStage
  | objectStore =>
    refine .bind ends_componentReference fun _ => .bind ends_check fun _ =>
      .bind (ends_targets writes_validateFacts fun _ _ hws h => h.targets hws) fun _ =>
      .bind ends_hasOpen fun _ => ?_
    exact ends_completeStage.pre fun _ _ h => ⟨h.1, h.2.1⟩
  | _ => exact hderived

/-! ### Advancing -/

/-- What an operation on a session that is there leaves. -/
structure Advanced (b : Db) (r : String) (v : Db) : Prop where
  stages : StagesOk v r
  index : OwnIndex b r v
  session : ∃ row row₀, v.get (Key.session r) = some row ∧ b.get (Key.session r) = some row₀ ∧
    row.backupId = row₀.backupId
  effect : Moved b v r ∨ Completed b v r

theorem Steady.advanced (h : Steady b r v) : Advanced b r v := by
  obtain ⟨row, row₀, hrow, hrow₀, hbackup, -⟩ := h.session
  exact ⟨h.stages, h.index, ⟨row, row₀, hrow, hrow₀, hbackup⟩, .inl ⟨h.gate, h.session⟩⟩

theorem ends_setStatus (hstatus : status.isActive = true)
    (hV : ∀ v, V v → (v.get (Key.session r)).isSome = true)
    (hupdated : ∀ v row f, V v → v.get (Key.session r) = some row →
      (f row).backupId = row.backupId → (f row).status.isActive = true →
      V (updatedSession r f row v)) :
    (restoreDiscipline c₀).Ends b (OnSession b r V) (setStatus r status now)
      (fun _ => OnSession b r V) fun _ => True :=
  ends_updateSession (fun v row h hrow => hupdated v row _ h hrow rfl hstatus) hV

/-- **The gate is opened** for a session whose stages have all succeeded and that has no open repair
target. -/
theorem ends_finishRestore (hb : Active b r) :
    (restoreDiscipline c₀).Ends b (OnSession b r fun v => Steady b r v ∧ AllDone v r ∧
      anyOpenRepair v r = false) (finishRestore r now) (fun _ => OnSession b r (Advanced b r))
      fun _ => True := by
  refine .bind (ψ := fun _ => OnSession b r fun v => OwnIndex b r v ∧ SessionKept b r v ∧
    StagesOk v r ∧ AllDone v r ∧ anyOpenRepair v r = false) (.updateWhere ?_ ?_) fun _ => ?_
  · exact fun c d H _ _ h _ => ⟨h.1, h.2.1.index, h.2.1.session, h.2.1.stages, h.2.2⟩
  · intro c d H row _ _ h _ _
    have hother : ∀ k : Key, k ≠ Key.maintenance →
        ((d ∪ b : Db).set Key.maintenance (some (⟨false, none, now⟩ : MaintenanceRow))).get k
          = (d ∪ b : Db).get k := fun k hk => get_set_of_ne hk
    refine ⟨.inl h.1, ?_⟩
    rw [set_union]
    refine ⟨fun status r' hr' => ?_, ?_, h.2.1.stages.congr fun stage => hother _ (by simp),
      h.2.2.1.congr fun stage => hother _ (by simp), ?_⟩
    · rw [hother _ (by simp)] at hr' ⊢
      exact h.2.1.index status r' hr'
    · unfold SessionKept
      rw [hother _ (by simp)]
      exact h.2.1.session
    · refine (reads_anyOpenRepair (d ∪ b) _ fun k hk => hother k ?_).trans h.2.2.2
      rintro rfl
      cases hk
  · refine ends_updateSession (fun v row h hrow => ?_) fun v h => ?_
    · obtain ⟨hindex, ⟨row', row₀, hrow', hrow₀, hbackup, -⟩, hstages, hdone, hrepairs⟩ := h
      cases hrow.symm.trans hrow'
      refine ⟨hstages.congr fun stage => get_updatedSession (by simp) (by simp),
        hindex.updated hrow, ⟨_, row₀, get_updatedSession_self, hrow₀, hbackup⟩,
        .inr ⟨hb, ⟨_, get_updatedSession_self, rfl⟩,
          hdone.congr fun stage => get_updatedSession (by simp) (by simp), ?_⟩⟩
      refine Bool.eq_false_iff.mpr fun hopen => Bool.eq_false_iff.mp hrepairs ?_
      rw [anyOpenRepair_iff] at hopen ⊢
      obtain ⟨stage, resourceId, repair, hrepair, hstatus⟩ := hopen
      rw [get_updatedSession (by simp) (by simp)] at hrepair
      exact ⟨stage, resourceId, repair, hrepair, hstatus⟩
    · obtain ⟨-, ⟨row, -, hrow, -⟩, -⟩ := h
      rw [hrow]
      rfl

theorem ends_runPostGate (hb : Active b r) :
    (restoreDiscipline c₀).Ends b (OnSession b r fun v => Steady b r v ∧ AllDone v r)
      (runPostGate r answers now) (fun _ => OnSession b r (Advanced b r)) fun _ => True := by
  refine .bind ends_check fun findings => .bind ends_hasOpen fun stillOpen => ?_
  by_cases hclear : findings = [] ∧ stillOpen = false
  · rw [if_pos hclear]
    refine (ends_finishRestore hb).pre fun d H h => ⟨h.1, h.2.1.1, h.2.1.2, ?_⟩
    exact h.2.2.symm.trans hclear.2
  · rw [if_neg hclear]
    refine .bind ends_check fun _ => ends_updateSession (fun v row h hrow => ?_) fun v h =>
      h.1.1.present
    exact (h.1.1.updated hb hrow rfl rfl).advanced

theorem ends_retryFactStage (hb : Active b r) :
    (restoreDiscipline c₀).Ends b
      (OnSession b r fun v => Steady b r v ∧ Running b r stage v)
      (retryFactStage r stage answers now) (fun _ => OnSession b r (Advanced b r))
      fun _ => True := by
  refine .bind (ends_targets writes_validateFacts fun v ws hws h =>
    ⟨h.1.targets hws, h.2.targets hws⟩) fun _ => .bind ends_hasOpen fun stillOpen => ?_
  cases stillOpen with
  | true =>
    refine (ends_setStatus rfl (fun v h => h.present) fun v row f h hrow hset hactive =>
      h.updated hb hrow hset hactive).conseq (fun _ _ h => ⟨h.1, h.2.1.1⟩)
        (fun _ _ _ h => ⟨h.1, h.2.advanced⟩) fun _ h => h
  | false =>
    exact ends_completeStage.conseq (fun _ _ h => ⟨h.1, h.2.1.2⟩)
      (fun _ _ _ h => ⟨h.1, h.2.advanced⟩) fun _ h => h

theorem ends_runStage (hb : Active b r) :
    (restoreDiscipline c₀).Ends b (OnSession b r (Running b r stage))
      (runStage r stage answers now) (fun _ => OnSession b r (Advanced b r)) fun _ => True := by
  refine .bind (ends_setStatus rfl (fun v h => h.present) fun v row f h hrow hset hactive =>
    h.updated hb hrow hset hactive) fun _ => .bind ends_executeStage fun _ =>
      .bind (Regions.On.select reads_stagesOf) fun refreshed => ?_
  by_cases hall : refreshed ≠ [] ∧ allSucceeded refreshed = true
  · rw [if_pos hall]
    refine (ends_runPostGate hb).pre fun d H h => ⟨h.1, h.2.1, ?_⟩
    exact done_of_allSucceeded h.2.1.stages (h.2.2 ▸ hall.2)
  · rw [if_neg hall]
    exact .done fun _ _ h => ⟨h.1, h.2.1.advanced⟩

theorem ends_advanceStages (hb : Active b r) :
    (restoreDiscipline c₀).Ends b (OnSession b r (Steady b r)) (advanceStages r answers now)
      (fun _ => OnSession b r (Advanced b r)) fun _ => True := by
  refine .bind (Regions.On.select reads_stagesOf) fun stages => ?_
  cases hrun : runnableStage stages with
  | none =>
    simp only
    by_cases hall : allSucceeded stages = true
    · rw [if_pos hall]
      refine (ends_runPostGate hb).pre fun d H h => ⟨h.1, h.2.1, ?_⟩
      exact done_of_runnable h.2.1.stages (h.2.2 ▸ hrun)
    · rw [if_neg hall]
      exact .done fun _ _ h => ⟨h.1, h.2.1.advanced⟩
  | some next =>
    obtain ⟨stage, status⟩ := next
    have hupTo : ∀ v, Steady b r v ∧ stages = stagesOf v r → Running b r stage v :=
      fun v h => ⟨h.1.toHeld, upTo_of_runnable h.1.stages (h.2 ▸ hrun)⟩
    simp only
    by_cases hfact : status = .failed ∧ stage.isFact = true
    · rw [if_pos hfact]
      exact (ends_retryFactStage hb).pre fun d H h => ⟨h.1, h.2.1, hupTo _ h.2⟩
    · rw [if_neg hfact]
      exact (ends_runStage hb).pre fun d H h => ⟨h.1, hupTo _ h.2⟩

theorem ends_advanceBlocked (hb : Active b r) :
    (restoreDiscipline c₀).Ends b (OnSession b r (Steady b r)) (advanceBlocked r answers now)
      (fun _ => OnSession b r (Advanced b r)) fun _ => True := by
  refine .bind (ends_targets writes_validateFacts fun _ _ hws h => h.targets hws) fun _ =>
    .bind ends_hasOpen fun stillOpen => ?_
  cases stillOpen with
  | true => exact .done fun _ _ h => ⟨h.1, h.2.1.advanced⟩
  | false =>
    exact (Ends.bind (ends_setStatus rfl (fun v h => h.present) fun v row f h hrow hset hactive =>
      h.updated hb hrow hset hactive) fun _ => ends_advanceStages hb).pre
        fun _ _ h => ⟨h.1, h.2.1⟩

/-- A session that is locked is as the commit finds it. -/
theorem ends_lockedSession (hb : RestoreInv c₀ b) :
    (restoreDiscipline c₀).Ends b (fun d H => d = ∅ ∧ H = fun _ => False) (lockedSession r)
      (fun session => OnSession b r fun v => b.get (Key.session r) = some session ∧ Steady b r v)
      fun _ => True := by
  refine .bind (ψ := fun session => fun d H => ∀ row, session = some row → OnSession b r (fun v =>
    b.get (Key.session r) = some row ∧ Steady b r v) d H)
    (.lockRow (fun _ _ _ row hrow => ?_) fun c d H row _ _ h hget row' hrow' => ?_)
    fun session => .orRaise (fun row hrow _ _ h => h row hrow) fun _ => trivial
  · cases hrow
  · obtain ⟨rfl, rfl⟩ := h
    cases hrow'
    refine ⟨.inr rfl, ?_⟩
    rw [empty_union] at hget ⊢
    have hsome : (b.get (Key.session r)).isSome = true := by
      rw [hget]
      rfl
    refine ⟨hget, ⟨rfl, ⟨row, row, hget, hget, rfl, .inl rfl⟩, fun status r' hr' =>
      ⟨fun heq => ?_, fun _ => hr'⟩⟩, hb.stages r hsome⟩
    subst heq
    exact hb.index status r' hr'

/-- **Advancing a session.** -/
theorem ends_advance (hb : RestoreInv c₀ b) :
    (restoreDiscipline c₀).Ends b (fun d H => d = ∅ ∧ H = fun _ => False)
      (advanceRestore r answers now) (fun _ => OnSession b r (Advanced b r)) fun _ => True := by
  refine .bind (ends_lockedSession hb) fun session => .of_fact (P := b.get (Key.session r)
    = some session) (fun _ _ h => h.2.1) fun hsession => .pre (φ := OnSession b r (Steady b r)) ?_
    fun d H h => ⟨h.1, h.2.2⟩
  have hactive : session.status.isActive = true → Active b r := fun h => ⟨session, hsession, h⟩
  have hstay : (restoreDiscipline c₀).Ends b (OnSession b r (Steady b r)) (.done () : Tx Unit)
      (fun _ => OnSession b r (Advanced b r)) fun _ => True :=
    .done fun d H h => ⟨h.1, h.2.advanced⟩
  obtain ⟨backupId, status, _, _, _, _⟩ := session
  cases status with
  | accepted => exact ends_advanceStages (hactive rfl)
  | running => exact ends_advanceStages (hactive rfl)
  | blocked => exact ends_advanceBlocked (hactive rfl)
  | completed => exact hstay
  | failed => exact hstay

/-- A retry changes targets only. -/
theorem ends_retry {p : SessionRow → Tx α} (hb : RestoreInv c₀ b)
    (hp : ∀ session, (p session).Writes (IsTarget r)) :
    (restoreDiscipline c₀).Ends b (fun d H => d = ∅ ∧ H = fun _ => False)
      (lockedSession r >>= p) (fun _ => OnSession b r (Advanced b r)) fun _ => True :=
  .bind (ends_lockedSession hb) fun session =>
    (ends_targets (hp session) fun _ _ hws h => h.targets hws).conseq
      (fun _ _ h => ⟨h.1, h.2.2⟩) (fun _ _ _ h => ⟨h.1, h.2.advanced⟩) fun _ h => h

theorem writes_retryLockedTarget :
    (retryLockedTarget r stageText resourceId answers now).Writes (IsTarget r) :=
  .bind .select fun _ => .bind .orRaise fun _ =>
    .ite (fun _ => .done) fun _ => .bind .orRaise fun _ =>
      writes_rebuildTarget

theorem writes_retryLockedRepair :
    (retryLockedRepair r stageText resourceId answers now).Writes (IsTarget r) :=
  .bind .select fun _ => .bind .orRaise fun _ =>
    .ite (fun _ => .done) fun _ => writes_retryRepair

/-! ### Starting -/

/-- The session has been inserted, with some of its stages. -/
def Inserted (b : Db) (backupId r : String) (stages : List Stage) : Pend Row := fun d H =>
  H (Key.session r) ∧ b.get (Key.session r) = none ∧
    (∃ row, (d ∪ b : Db).get (Key.session r) = some row ∧ row.status = .accepted ∧
      row.backupId = backupId) ∧
    (∀ status, (d ∪ b : Db).get (Key.activeSession status)
      = if status = .accepted then some r else b.get (Key.activeSession status)) ∧
    ∀ stage ∈ stages, (d ∪ b : Db).get (Key.stage r stage)
      = some ⟨stage.position, .pending, false, none, none⟩

theorem ends_insertStages {earlier : List Stage} :
    (restoreDiscipline c₀).Ends b (Inserted b backupId r earlier) (insertStages r stages)
      (fun _ => Inserted b backupId r (earlier ++ stages)) fun _ => True := by
  induction stages generalizing earlier with
  | nil =>
    rw [append_nil]
    exact .done fun _ _ h => h
  | cons stage stages ih =>
    refine .bind (ψ := fun _ => Inserted b backupId r (earlier ++ [stage]))
      (.insert (fun c d H _ _ h _ => ?_) trivial) fun _ => ?_
    · obtain ⟨hH, hnone, ⟨row, hrow, hnew⟩, hindex, hstages⟩ := h
      rw [applyAll_cons, applyAll_nil]
      refine ⟨.inl hH, hnone, ⟨row, ?_, hnew⟩, fun status => ?_, fun stage' hstage' => ?_⟩
      · rw [set_union, get_set_of_ne (by simp), hrow]
      · rw [set_union, get_set_of_ne (by simp), hindex]
      · rw [set_union]
        by_cases heq : stage' = stage
        · rw [heq, get_set_self]
        · rw [get_set_of_ne (by simpa using heq)]
          exact hstages stage' (by simpa [heq] using hstage')
    · have happend : earlier ++ stage :: stages = earlier ++ [stage] ++ stages := by simp
      rw [happend]
      exact ih

/-- A part that writes nothing. -/
theorem ends_reads {p : Tx α} {φ : Pend Row} (hp : p.Writes fun _ => False)
    (hφ : ∀ d H H', (∀ k, H k → H' k) → φ d H → φ d H') :
    (restoreDiscipline c₀).Ends b φ p (fun _ => φ) fun _ => True := by
  refine .inside hp fun d H ws H' hws hH _ h => ?_
  have hnil : ws = [] := eq_nil_iff_forall_not_mem.mpr fun x hx => hws x hx
  rw [hnil, applyAll_nil]
  exact hφ d H H' hH h

theorem writes_requireComplete : (requireComplete backupId).Writes fun _ => False :=
  .bind .readRow fun _ => .bind .orRaise fun _ =>
    .bind .select fun _ => .raiseIf

theorem writes_requireNoActive {statuses : List SessionStatus} :
    (requireNoActive statuses).Writes fun _ => False := by
  refine .bind .select fun active => ?_
  cases active with
  | nil => exact .done
  | cons restoreId active => exact .fail

theorem ends_requireComplete :
    (restoreDiscipline c₀).Ends b (fun d _ => d = ∅) (requireComplete backupId)
      (fun _ d _ => d = ∅ ∧ (c₀.get (Key.set backupId)).isSome = true) fun _ => True := by
  refine .bind (ψ := fun backup d _ => d = ∅ ∧ backup = c₀.get (Key.set backupId))
    (.select fun c d H hc _ hd => ?_) fun backup => .bind (ψ := fun _ d _ => d = ∅ ∧
      (c₀.get (Key.set backupId)).isSome = true) (.orRaise (fun row hrow d H h => ?_)
        fun _ => trivial) fun row => .bind (.select fun _ _ _ _ _ h => h) fun _ =>
      .raiseIf (fun _ _ _ h => h) fun _ => trivial
  · subst hd
    rw [empty_union]
    exact ⟨rfl, hc.sets _ trivial⟩
  · rw [← h.2, hrow]
    exact ⟨h.1, rfl⟩

/-- What starting a session leaves. -/
structure NewSession (c₀ b : Db) (r : String) (v : Db) : Prop where
  stages : StagesOk v r
  index : OwnIndex b r v
  backed : ∀ row, v.get (Key.session r) = some row →
    (c₀.get (Key.set row.backupId)).isSome = true
  started : Started b v r

/-- The gate is closed for a session that has been inserted. -/
theorem Inserted.close {H H' : Key → Prop} (hb : RestoreInv c₀ b)
    (hset : (c₀.get (Key.set backupId)).isSome = true) (hH : ∀ k, H k → H' k)
    (h : Inserted b backupId r ([] ++ Stage.all) d H) :
    OnSession b r (NewSession c₀ b r) (d.set Key.maintenance (some ⟨true, some r, now⟩)) H' := by
  obtain ⟨hlock, hnone, ⟨row, hrow, hstatus, hbackup⟩, hindex, hstages⟩ := h
  have hother : ∀ k : Key, k ≠ Key.maintenance →
      (d.set Key.maintenance (some (⟨true, some r, now⟩ : MaintenanceRow)) ∪ b : Db).get k
        = (d ∪ b : Db).get k := by
    intro k hk
    rw [set_union, get_set_of_ne hk]
  have hsession := (hother (Key.session r) (by simp)).trans hrow
  have hstage : ∀ stage, _ = some _ := fun stage =>
    (hother (Key.stage r stage) (by simp)).trans (hstages stage stage.mem_all)
  refine ⟨hH _ hlock, ⟨0, fun stage => ⟨_, hstage stage, rfl, fun h => absurd h (by omega),
    fun _ => rfl⟩, fun stage row' _ hrow' => .inl ?_⟩, fun status r' hr' => ?_, fun row' hrow' => ?_,
    hnone, ⟨row, hsession, hstatus⟩, now, ?_⟩
  · cases (hstage stage).symm.trans hrow'
    rfl
  · rw [hother _ (by simp), hindex] at hr'
    split at hr'
    · next haccepted =>
      cases hr'
      exact ⟨fun _ => ⟨row, hsession, hstatus.trans haccepted.symm, haccepted ▸ rfl⟩,
        fun hne => absurd rfl hne⟩
    · refine ⟨fun heq => ?_, fun _ => hr'⟩
      subst heq
      obtain ⟨row', hrow', -⟩ := hb.index status r' hr'
      cases hnone.symm.trans hrow'
  · cases hsession.symm.trans hrow'
    rw [hbackup]
    exact hset
  · rw [set_union, get_set_self]

/-- What is written for a session that is started. -/
theorem ends_startWrites (hb : RestoreInv c₀ b) (hset : (c₀.get (Key.set backupId)).isSome = true) :
    (restoreDiscipline c₀).Ends b (fun d _ => d = ∅) (startWrites backupId r now)
      (fun _ => OnSession b r (NewSession c₀ b r)) fun _ => True := by
  refine .bind (ψ := fun _ => Inserted b backupId r []) (.insert ?_ trivial) fun _ =>
    .bind ends_insertStages fun _ => ?_
  · rintro c d H - hlater rfl htaken
    rw [empty_union] at htaken
    have hfree : c.get (Key.session r) = none := by
      simp only [taken, any_cons, any_nil, Bool.or_eq_false_iff,
        isSome_eq_false_iff, isNone_iff_eq_none] at htaken
      exact htaken.1
    refine ⟨.inr (by simp), (hlater.rows _ (.inr (by simp))).trans hfree,
      ⟨⟨backupId, .accepted, now, now, none, none⟩, ?_, rfl, rfl⟩, fun status => ?_, (by simp)⟩
    · rw [applyAll_cons, applyAll_cons, applyAll_nil, set_union,
        set_union, get_set_of_ne (by simp), get_set_self]
    · rw [applyAll_cons, applyAll_cons, applyAll_nil, set_union,
        set_union]
      by_cases hstatus : status = .accepted
      · rw [if_pos hstatus, hstatus, get_set_self]
      · rw [if_neg hstatus, get_set_of_ne (by simpa using hstatus),
          get_set_of_ne (by simp), empty_union]
  · refine .bind (ψ := fun n d H => (n = 0 → Inserted b backupId r ([] ++ Stage.all) d H) ∧
      (n = 1 → OnSession b r (NewSession c₀ b r) d H) ∧ (n = 0 ∨ n = 1))
      (.updateWhere (fun c d H _ _ h _ => ⟨fun _ => h, (by simp), .inl rfl⟩)
        fun c d H row _ _ h _ _ => ⟨(by simp), fun _ => h.close hb hset fun k hk => .inl hk, .inr rfl⟩)
      fun n => ?_
    by_cases hn : n = 0
    · rw [if_pos hn]
      refine .insert (fun c d H _ _ h _ => ?_) trivial
      rw [applyAll_cons, applyAll_nil]
      exact (h.1 hn).close hb hset fun k hk => .inl hk
    · rw [if_neg hn]
      exact .done fun d H h => h.2.1 (h.2.2.resolve_left hn)

/-- **Starting a session.** -/
theorem ends_start (hb : RestoreInv c₀ b) :
    (restoreDiscipline c₀).Ends b (fun d _ => d = ∅) (startRestore backupId r now)
      (fun _ => OnSession b r (NewSession c₀ b r)) fun _ => True := by
  rw [startRestore_eq]
  refine .bind (ψ := fun _ d _ => d = ∅ ∧ (c₀.get (Key.set backupId)).isSome = true) ?_
    fun _ => .of_fact (P := (c₀.get (Key.set backupId)).isSome = true) (fun _ _ h => h.2)
      fun hset => (ends_startWrites hb hset).pre fun _ _ h => h.1
  exact .bind ends_requireComplete fun _ => ends_reads writes_requireNoActive fun _ _ _ _ h => h

/-! ### All operations -/

/-- The rows of the session, and rows of none that are not of a backup set. -/
def Mine (r : String) (k : Key) : Prop :=
  (∀ r', restoreRegions.region k = some r' → r' = r) ∧ ¬ IsBackup k

theorem IsTarget.mine (h : IsTarget r k) : Mine r k := by
  obtain ⟨stage, resourceId, rfl | rfl⟩ := h <;>
  · refine ⟨fun r' hr' => ?_, id⟩
    cases hr'
    rfl

theorem mine_session : Mine r (.session r) := by
  refine ⟨fun r' hr' => ?_, id⟩
  cases hr'
  rfl

theorem mine_stage : Mine r (.stage r stage) := by
  refine ⟨fun r' hr' => ?_, id⟩
  cases hr'
  rfl

theorem mine_activeSession : Mine r (.activeSession status) := ⟨nofun, id⟩

theorem mine_maintenance : Mine r .maintenance := ⟨nofun, id⟩

theorem writes_lockedSession {W : Key → Prop} : (lockedSession r).Writes W :=
  .bind .lockRow fun _ => .orRaise

/-- The row of the session, its stages, the index of the active sessions and the gate. -/
def IsProgress (r : String) : Key → Prop
  | .session r' | .stage r' _ => r' = r
  | .activeSession _ | .maintenance => True
  | _ => False

theorem IsProgress.mine (h : IsProgress r k) : Mine r k := by
  cases k with
  | session r' => exact h ▸ mine_session
  | stage r' stage => exact h ▸ mine_stage
  | activeSession status => exact mine_activeSession
  | maintenance => exact mine_maintenance
  | _ => exact h.elim

theorem writes_updateSession : (updateSession r f).Writes (IsProgress r) := by
  refine ⟨fun v x hx => ?_, fun v => ?_⟩
  · unfold sessionWrites at hx
    split at hx
    · cases hx
    · split at hx
      · cases hx
      · rcases mem_cons.mp hx with rfl | hx
        · exact rfl
        · have hentry : ∃ status, x.1 = Key.activeSession status := by
            rcases mem_append.mp hx with hx | hx <;> exact activeEntries_keys hx
          obtain ⟨status, hstatus⟩ := hentry
          rw [hstatus]
          trivial
  · exact .ite (fun _ => .fail) fun _ => .done

theorem writes_updateStage {f : StageRow → StageRow} :
    (updateStage r stage f).Writes (IsProgress r) :=
  .bind (.updateWhere (W := IsProgress r) (k := Key.stage r stage) rfl) fun _ =>
    .done

theorem writes_maintenance {f : MaintenanceRow → MaintenanceRow} :
    (updateWhere Key.maintenance (fun _ => true) f : Tx ℕ).Writes (IsProgress r) :=
  .updateWhere (W := IsProgress r) trivial

theorem writes_runPostGate : (runPostGate r answers now).Writes (IsProgress r) :=
  .bind .check fun _ => .bind .select fun _ =>
    .ite (fun _ => writes_maintenance.bind fun _ => writes_updateSession) fun _ =>
      .bind .check fun _ => writes_updateSession

theorem writes_componentReference {W : Key → Prop} : (componentReference r kind).Writes W :=
  .bind .select fun _ => .bind .orRaise fun _ =>
    .bind .select fun _ => .bind .orRaise fun _ => .done

/-- The parts of a call that advances a session only write rows of `W`. -/
structure PartsWrite (r : String) (answers : Answers) (now : Time) (W : Key → Prop) : Prop where
  progress : ∀ k, IsProgress r k → W k
  facts : ∀ n, (validateFacts r answers n now).Writes W
  upsert : ∀ stage resourceIds, (upsertTargets r stage now resourceIds).Writes W
  execute : ∀ stage rebuild, answers.derivedRebuild = some rebuild →
    (executeTargets r stage rebuild now).Writes W

namespace PartsWrite

variable {W : Key → Prop}

theorem executeStage (h : PartsWrite r answers now W) :
    (executeStage r stage answers now).Writes W := by
  have hcomplete : ∀ validated, (completeStage r stage now validated).Writes W := fun _ =>
    writes_updateStage.mono h.progress
  have hderived : (executeDerived r stage answers now).Writes W := by
    unfold executeDerived
    cases hrebuild : answers.derivedRebuild with
    | none => exact .fail
    | some rebuild =>
      exact Prog.Writes.check.bind fun _ => (h.upsert stage _).bind fun _ =>
        (h.execute stage rebuild hrebuild).bind fun _ => .bind .select fun _ =>
        hcomplete _
  refine (writes_updateStage.mono h.progress).bind fun _ => ?_
  cases stage with
  | postgres =>
    exact writes_componentReference.bind fun _ => .bind .check fun _ => hcomplete _
  | objectStore =>
    exact writes_componentReference.bind fun _ => .bind .check fun _ =>
      (h.facts 1).bind fun _ => .bind .select fun _ => hcomplete _
  | _ => exact hderived

theorem advanceStages (h : PartsWrite r answers now W) :
    (advanceStages r answers now).Writes W := by
  have hgate : (runPostGate r answers now).Writes W := writes_runPostGate.mono h.progress
  refine .bind .select fun stages => ?_
  split
  · exact .ite (fun _ => hgate) fun _ => .done
  · refine .ite (fun _ => ?_) fun _ => ?_
    · exact (h.facts 1).bind fun _ => .bind .select fun _ =>
        .ite (fun _ => writes_updateSession.mono h.progress)
          fun _ => writes_updateStage.mono h.progress
    · exact (writes_updateSession.mono h.progress).bind fun _ => h.executeStage.bind fun _ =>
        .bind .select fun _ =>
        .ite (fun _ => hgate) fun _ => .done

/-- **A call that advances a session.** -/
theorem advance (h : PartsWrite r answers now W) : (advanceRestore r answers now).Writes W := by
  refine writes_lockedSession.bind fun session => ?_
  split
  · exact .done
  · exact .done
  · exact (h.facts 0).bind fun _ => .bind .select fun _ =>
      .ite (fun _ => .done) fun _ =>
      (writes_updateSession.mono h.progress).bind fun _ => h.advanceStages
  · exact h.advanceStages
  · exact h.advanceStages

theorem mine : PartsWrite r answers now (Mine r) where
  progress _ h := h.mine
  facts _ := writes_validateFacts.mono fun _ h => h.mine
  upsert _ _ := writes_upsertTargets fun _ => isTarget_target.mine
  execute _ _ _ := writes_executeTargets.mono fun _ h => h.mine

end PartsWrite

theorem writes_insertStages {W : Key → Prop} (hW : ∀ stage, W (Key.stage r stage)) :
    (insertStages r stages).Writes W := by
  induction stages with
  | nil => exact .done
  | cons stage stages ih =>
    refine .bind (.insert fun x hx => ?_) fun _ => ih
    rw [mem_singleton.mp hx]
    exact hW stage

theorem writes_closeReads {W : Key → Prop} (hW : W Key.maintenance) : (closeReads r now).Writes W := by
  refine .bind (.updateWhere hW) fun _ =>
    .ite (fun _ => .insert fun x hx => ?_) fun _ => .done
  rw [mem_singleton.mp hx]
  exact hW

theorem writes_startWrites : (startWrites backupId r now).Writes (Mine r) := by
  refine .bind (.insert fun x hx => ?_) fun _ =>
    (writes_insertStages fun _ => mine_stage).bind fun _ => writes_closeReads mine_maintenance
  rcases mem_cons.mp hx with rfl | hx
  · exact mine_session
  · rw [mem_singleton.mp hx]
    exact mine_activeSession

theorem writes_startRestore : (startRestore backupId r now).Writes (Mine r) := by
  rw [startRestore_eq]
  refine .bind ?_ fun _ => writes_startWrites
  exact (writes_requireComplete.mono nofun).bind fun _ => writes_requireNoActive.mono nofun

/-- **An operation writes rows of its session**, and rows of none. -/
theorem RestoreOp.writes (op : RestoreOp) : op.body.Writes (Mine op.restoreId) := by
  cases op with
  | start backupId r now => exact writes_startRestore
  | opsStart backupId r now =>
    exact (writes_requireNoActive.mono (by simp)).bind fun _ => writes_startRestore
  | advance r answers now => exact PartsWrite.mine.advance
  | retryTarget r stage resourceId answers now =>
    exact writes_lockedSession.bind fun _ => writes_retryLockedTarget.mono fun k h => h.mine
  | retryRepairTarget r stage resourceId answers now =>
    exact writes_lockedSession.bind fun _ => writes_retryLockedRepair.mono fun k h => h.mine

/-- The invariant, and an effect, from what a transaction leaves of its session. -/
theorem keeps_of_ends {p : Tx Unit} {Q : Db → Prop} (hp : p.Writes (Mine r)) (hb : RestoreInv c₀ b)
    (h : (restoreDiscipline c₀).Ends b (fun d H => d = ∅ ∧ H = fun _ => False) p
      (fun _ => OnSession b r V) fun _ => True) (hstages : ∀ v, V v → StagesOk v r)
    (hindex : ∀ v, V v → OwnIndex b r v)
    (hbacked : ∀ v, V v → ∀ row, v.get (Key.session r) = some row →
      (c₀.get (Key.set row.backupId)).isSome = true)
    (heffect : ∀ t, V t → (∀ r', r' ≠ r → restoreRegions.Same r' b t) → Q t) :
    (restoreDiscipline c₀).Ends b (fun d H => d = ∅ ∧ H = fun _ => False) p
      (fun _ d H => RestoreInv c₀ (d ∪ b) ∧ (∀ r, restoreRegions.Pends r d → H (Key.session r)) ∧
        Q (d ∪ b)) fun _ => True := by
  have hown : (restoreDiscipline c₀).Ends b (fun d _ => ∀ k ∈ d, Mine r k) p
      (fun _ d _ => ∀ k ∈ d, Mine r k) fun _ => True := by
    refine .inside hp fun d H ws H' hws _ _ h k hk => ?_
    rcases mem_applyAll.mp hk with hk | hk
    · obtain ⟨x, hx, rfl⟩ := List.mem_map.mp hk
      exact hws x hx
    · exact h k hk
  refine (h.and hown).conseq (fun d H h => ⟨h, ?_⟩) (fun _ d H h => ?_) fun _ _ => trivial
  · rw [h.1]
    exact fun k hk => absurd hk (notMem_empty k)
  · obtain ⟨⟨hH, hV⟩, hmine⟩ := h
    have hsame : ∀ r', r' ≠ r → restoreRegions.Same r' b (d ∪ b) :=
      fun r' hne => .union fun ⟨k, hk, hregion⟩ => hne ((hmine k hk).1 r' hregion)
    refine ⟨⟨fun r' hr => ?_, fun status r' hr => ?_, fun k hk => ?_, fun r' row hrow => ?_⟩,
      fun r' ⟨k, hk, hregion⟩ => ?_, heffect _ hV hsame⟩
    · by_cases heq : r' = r
      · rw [heq]
        exact hstages _ hV
      · rw [hsame r' heq _ rfl] at hr
        exact (hb.stages r' hr).same (hsame r' heq)
    · by_cases heq : r' = r
      · rw [heq]
        exact (hindex _ hV status r' hr).1 heq
      · rw [hsame r' heq _ rfl]
        exact hb.index status r' ((hindex _ hV status r' hr).2 heq)
    · rw [get_union_of_notMem fun hmem => (hmine k hmem).2 hk]
      exact hb.sets k hk
    · by_cases heq : r' = r
      · subst heq
        exact hbacked _ hV row hrow
      · rw [hsame r' heq _ rfl] at hrow
        exact hb.backed r' row hrow
    · rw [(hmine k hk).1 r' hregion]
      exact hH

/-- What an operation on a session that is there leaves. -/
theorem keeps_of_advanced {op : RestoreOp} (hb : RestoreInv c₀ b)
    (h : (restoreDiscipline c₀).Ends b (fun d H => d = ∅ ∧ H = fun _ => False) op.body
      (fun _ => OnSession b op.restoreId (Advanced b op.restoreId)) fun _ => True)
    (heffect : ∀ t, (∀ r, r ≠ op.restoreId → restoreRegions.Same r b t) →
      Moved b t op.restoreId ∨ Completed b t op.restoreId → restoreEffect op b t) :
    (restoreDiscipline c₀).Ends b (fun d H => d = ∅ ∧ H = fun _ => False) op.body
      (fun _ d H => RestoreInv c₀ (d ∪ b) ∧ (∀ r, restoreRegions.Pends r d → H (Key.session r)) ∧
        restoreEffect op b (d ∪ b)) fun _ => True := by
  refine keeps_of_ends op.writes hb h (fun v h => h.stages) (fun v h => h.index) (fun v h row hrow => ?_)
    fun t h hsame => heffect t hsame h.effect
  obtain ⟨row', row₀, hrow', hrow₀, hbackup⟩ := h.session
  cases hrow'.symm.trans hrow
  rw [hbackup]
  exact hb.backed _ _ hrow₀

/-- **What every operation does.** -/
theorem restore_keeps (c₀ : Db) :
    Regions.Keeps restoreRegions Key.session (RestoreInv c₀) RestoreOp.body restoreEffect := by
  intro op b hb
  have hnew : ∀ {op : RestoreOp}, (∀ t, (∀ r, r ≠ op.restoreId → restoreRegions.Same r b t) →
      Started b t op.restoreId → restoreEffect op b t) → _ := fun {op} heffect h =>
    keeps_of_ends (V := NewSession c₀ b op.restoreId) op.writes hb h (fun v h => h.stages)
      (fun v h => h.index) (fun v h => h.backed) fun t h hsame => heffect t hsame h.started
  cases op with
  | start backupId r now =>
    exact hnew (fun t hsame h => ⟨hsame, h⟩) ((ends_start hb).pre fun d H h => h.1)
  | opsStart backupId r now =>
    refine hnew (fun t hsame h => ⟨hsame, h⟩) ?_
    exact (Ends.bind (ends_reads writes_requireNoActive fun _ _ _ _ h => h)
      fun _ => ends_start hb).pre fun d H h => h.1
  | advance r answers now =>
    exact keeps_of_advanced hb (ends_advance hb) fun t hsame h => ⟨hsame, h⟩
  | retryTarget r stage resourceId answers now =>
    exact keeps_of_advanced hb (ends_retry hb fun _ => writes_retryLockedTarget)
      fun t hsame h => ⟨hsame, h⟩
  | retryRepairTarget r stage resourceId answers now =>
    exact keeps_of_advanced hb (ends_retry hb fun _ => writes_retryLockedRepair)
      fun t hsame h => ⟨hsame, h⟩

end RagQs.Backup
