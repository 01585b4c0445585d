import RagQs.Backup.RestoreFacts
import RagQs.Backup.RestoreRuns

/-!
# Advancing a session when nothing is wrong

Where the ports find nothing wrong a call does not fail, runs the next stage to its end, and
completes the session after the last one, if the repair targets it has open are those of expected
objects: these are resolved when the facts are validated.

## Main definitions

* `Clean` — answers of the ports that find nothing wrong.
* `Repairable` — the open repair targets of a session are those of expected objects.
* `Ready` — nothing stands in the way of an update of a session.
* `Finished` — the session is completed, and the gate is open.

## Main results

* `yields_validateFacts`, `yields_executeStage`, `yields_runPostGate` — the parts of a call.
* `yields_advance` — **a call runs the next stage**, and completes the session after the last.
-/

namespace RagQs.Backup

open Txn List Option Store

variable {status : SessionStatus} {rebuild : DerivedRebuild}

/-- The ports find nothing wrong: nothing fails, the resources fit their column, and the facts
agree, the expected objects being those of `E`. -/
structure Clean (E : String → Prop) (answers : Answers) : Prop where
  postgres : ∀ reference, answers.restorePostgres reference = .ok ()
  objects : ∀ reference, answers.restoreObjects reference = .ok ()
  facts : ∀ validation, answers.factValidation = some validation → ∀ n, ∃ expected actual,
    validation n = .ok (expected, actual) ∧ (∀ key, findingOf expected actual key = none) ∧
      ∀ key, key ∈ keysOf expected ↔ E key
  unvalidated : answers.factValidation = none → ∀ key, ¬ E key
  derived : ∃ rebuild, answers.derivedRebuild = some rebuild ∧
    (∀ stage, ∃ resourceIds, rebuild.listResources stage = .ok resourceIds ∧
      ∀ resourceId ∈ resourceIds, resourceId.length ≤ 128) ∧
    ∀ stage resourceId, rebuild.rebuild stage resourceId = none
  postGate : answers.postGateValidation.getD (.ok []) = .ok []

/-- The open repair targets of the session are those of expected objects. -/
def Repairable (E : String → Prop) (v : Db) (r : String) : Prop :=
  ∀ stage resourceId, OpenRepair v r stage resourceId → stage = .objectStore ∧ E resourceId

/-- The session is completed, and the gate is open. -/
def Finished (v : Db) (r : String) : Prop :=
  (∃ row, v.get (Key.session r) = some row ∧ row.status = .completed) ∧ ¬ GateClosed v

/-- The session has the status. -/
def HasStatus (v : Db) (r : String) (status : SessionStatus) : Prop :=
  ∃ row, v.get (Key.session r) = some row ∧ row.status = status

/-- The session is there with the components of its set, no entry of the index names another, and
its open repair targets are those of expected objects. -/
structure Ready (E : String → Prop) (r : String) (v : Db) : Prop where
  session : ∃ row, v.get (Key.session r) = some row ∧
    ∀ kind, (v.get (Key.component row.backupId kind)).isSome = true
  index : ∀ status r', v.get (Key.activeSession status) = some r' → r' = r
  repairs : Repairable E v r

variable {E : String → Prop} {v v' : Db} {r : String} {stage : Stage} {n : ℕ} {now : Time}
  {answers : Answers}

theorem Ready.congr (h : Ready E r v) (heq : ∀ k, k = Key.session r ∨
    (∃ status, k = Key.activeSession status) ∨
    (∃ stage resourceId, k = Key.repair r stage resourceId) ∨
    (∃ backupId kind, k = Key.component backupId kind) → v'.get k = v.get k) : Ready E r v' := by
  obtain ⟨row, hrow, hkinds⟩ := h.session
  refine ⟨⟨row, (heq _ (.inl rfl)).trans hrow, fun kind => ?_⟩, fun status r' hr' => ?_,
    fun stage resourceId hopen => ?_⟩
  · rw [heq _ (.inr (.inr (.inr ⟨_, kind, rfl⟩)))]
    exact hkinds kind
  · rw [heq _ (.inr (.inl ⟨status, rfl⟩))] at hr'
    exact h.index status r' hr'
  · refine h.repairs stage resourceId ?_
    unfold OpenRepair at hopen ⊢
    rw [heq _ (.inr (.inr (.inl ⟨stage, resourceId, rfl⟩)))] at hopen
    exact hopen

/-- No open repair target is left. -/
def NoneOpen (v : Db) (r : String) : Prop := ∀ stage resourceId, ¬ OpenRepair v r stage resourceId

theorem anyOpenRepair_eq_false (h : NoneOpen v r) : anyOpenRepair v r = false := by
  rw [Bool.eq_false_iff]
  intro hany
  obtain ⟨stage, resourceId, hopen⟩ := anyOpenRepair_iff.mp hany
  exact h stage resourceId hopen

/-- **A validation resolves the repair targets** of a session. -/
theorem yields_validateFacts (hclean : Clean E answers) (h : Ready E r v) {n : ℕ} :
    (validateFacts r answers n now).Yields v fun _ v' => (Ready E r v' ∧ NoneOpen v' r) ∧
      ∀ k, (∀ objectKey, k ≠ Key.repair r .objectStore objectKey) → v'.get k = v.get k := by
  cases hfacts : answers.factValidation with
  | none =>
    unfold validateFacts
    rw [hfacts]
    refine .done ⟨⟨h, fun stage resourceId hopen => ?_⟩, fun _ _ => rfl⟩
    exact hclean.unvalidated hfacts _ (h.repairs stage resourceId hopen).2
  | some validation =>
    obtain ⟨expected, actual, hanswer, hagree, hkeys⟩ := hclean.facts validation hfacts n
    unfold validateFacts
    rw [hfacts]
    refine .bind (.check hanswer (Q := fun x u => x = (expected, actual) ∧ v = u) ⟨rfl, rfl⟩) ?_
    rintro _ _ ⟨rfl, rfl⟩
    unfold compareFacts
    dsimp only
    rw [openFindings_eq_done fun key _ => hagree key]
    refine .mono resolveAll_yields fun _ v' hv' => ?_
    have hnone : NoneOpen v' r := by
      intro stage resourceId hopen
      by_cases hstage : stage = .objectStore
      · subst hstage
        rw [openRepair_iff, hv'.1, map_eq_some_iff] at hopen
        obtain ⟨status, hstatus, hopen⟩ := hopen
        by_cases hmem : resourceId ∈ consistentKeys expected actual
        · rw [if_pos hmem] at hopen
          cases hopen
        · rw [if_neg hmem] at hopen
          have hE := (h.repairs .objectStore resourceId (openRepair_iff.mpr (hopen ▸ hstatus))).2
          exact hmem (mem_consistentKeys.mpr ⟨(hkeys resourceId).mpr hE, hagree resourceId⟩)
      · unfold OpenRepair at hopen
        rw [hv'.2 _ (by simp [hstage])] at hopen
        exact hstage (h.repairs stage resourceId hopen).1
    refine ⟨⟨⟨?_, fun status r' hr' => ?_, fun stage resourceId hopen => absurd hopen
      (hnone stage resourceId)⟩, hnone⟩, hv'.2⟩
    · obtain ⟨row, hrow, hkinds⟩ := h.session
      refine ⟨row, (hv'.2 _ (by simp)).trans hrow, fun kind => ?_⟩
      rw [hv'.2 _ (by simp)]
      exact hkinds kind
    · rw [hv'.2 _ (by simp)] at hr'
      exact h.index status r' hr'

/-! ### Parts of a call -/

theorem yields_updateSession {f : SessionRow → SessionRow} (h : Ready E r v)
    (hf : ∀ row, (f row).backupId = row.backupId) :
    (updateSession r f).Yields v fun _ v' => Ready E r v' ∧ ∃ row,
      v.get (Key.session r) = some row ∧ v' = updatedSession r f row v := by
  obtain ⟨row, hrow, hkinds⟩ := h.session
  have htaken : statusTaken v r (f row).status = false := by
    unfold statusTaken
    rw [Bool.and_eq_false_iff]
    right
    rw [Option.any_eq_false]
    intro r' hr'
    simpa using h.index _ r' hr'
  refine ⟨(), updatedSession r f row v, ?_, ⟨⟨f row, get_updatedSession_self, fun kind => ?_⟩,
    fun status r' hr' => ?_, fun stage resourceId hopen => ?_⟩, row, hrow, rfl⟩
  · unfold updateSession
    rw [Prog.exec_stmt]
    unfold sessionWrites
    simp only [hrow, htaken, any_some, Bool.false_eq_true, if_false]
    rfl
  · rw [hf, get_updatedSession (by simp) (by simp)]
    exact hkinds kind
  · rw [get_updatedSession_entry] at hr'
    split at hr'
    · cases hr'
      rfl
    · split at hr'
      · cases hr'
      · exact h.index status r' hr'
  · unfold OpenRepair at hopen
    rw [get_updatedSession (by simp) (by simp)] at hopen
    exact h.repairs stage resourceId hopen

theorem yields_setStatus (h : Ready E r v) :
    (setStatus r status now).Yields v fun _ v' => Ready E r v' ∧
      HasStatus v' r status ∧
        ∀ k, ¬ IsProgress r k ∨ (∃ stage, k = Key.stage r stage) → v'.get k = v.get k := by
  refine .mono (yields_updateSession h fun _ => rfl) ?_
  rintro - _ ⟨hready, row, -, rfl⟩
  refine ⟨hready, ⟨_, get_updatedSession_self, rfl⟩, ?_⟩
  rintro k (hk | ⟨stage, rfl⟩)
  · refine get_updatedSession (fun status hkey => hk ?_) fun hkey => hk ?_
    · rw [hkey]
      trivial
    · rw [hkey]
      rfl
  · exact get_updatedSession (by simp) (by simp)

theorem yields_updateStage {f : StageRow → StageRow} (h : Ready E r v)
    (hstages : UpTo v r stage.position) :
    (updateStage r stage f).Yields v fun _ v' => Ready E r v' ∧ ∃ row,
      v.get (Key.stage r stage) = some row ∧ row.position = stage.position ∧
        v' = v.set (Key.stage r stage) (some (f row)) := by
  obtain ⟨row, hrow, hposition, -⟩ := hstages stage
  refine .bind (.updateWhere (Q := fun _ v' => v' = v.set (Key.stage r stage) (some (f row)))
    (fun hmiss => ?_) fun row' hrow' _ => ?_) fun _ v' hv' => .done ⟨?_, row, hrow, hposition, hv'⟩
  · cases hmiss row hrow
  · cases hrow.symm.trans hrow'
    rfl
  · subst hv'
    refine h.congr fun k hk => get_set_of_ne ?_
    rintro rfl
    simp at hk

/-- The stage has succeeded, and the next has not. -/
structure Succeeded (E : String → Prop) (r : String) (stage : Stage) (v v' : Db) : Prop where
  ready : Ready E r v'
  stages : AtStage v' r (stage.position + 1)
  session : v'.get (Key.session r) = v.get (Key.session r)

/-- **A stage that is validated** has succeeded. -/
theorem yields_completeStage (h : Ready E r v) (hstages : UpTo v r stage.position) :
    (completeStage r stage now true).Yields v fun _ v' => Succeeded E r stage v v' := by
  refine .mono (yields_updateStage h hstages) ?_
  rintro - _ ⟨hready, row, -, hposition, rfl⟩
  exact ⟨hready, hstages.succeed hposition rfl rfl, get_set_of_ne (by simp)⟩

/-! ### The stages -/

theorem yields_componentReference (h : Ready E r v) {kind : ComponentKind} :
    (componentReference r kind).Yields v fun _ v' => v = v' := by
  obtain ⟨row, hrow, hkinds⟩ := h.session
  obtain ⟨component, hcomponent⟩ := isSome_iff_exists.mp (hkinds kind)
  refine .bind (.select (Q := fun x u => x = some row.backupId ∧ v = u) ⟨by rw [hrow]; rfl, rfl⟩) ?_
  rintro _ _ ⟨rfl, rfl⟩
  refine .bind (.orRaise rfl (Q := fun x u => x = row.backupId ∧ v = u) ⟨rfl, rfl⟩) ?_
  rintro _ _ ⟨rfl, rfl⟩
  refine .bind (.select (Q := fun x u => x = some component ∧ v = u) ⟨hcomponent, rfl⟩) ?_
  rintro _ _ ⟨rfl, rfl⟩
  refine .bind (.orRaise rfl (Q := fun x u => x = component ∧ v = u) ⟨rfl, rfl⟩) ?_
  rintro _ _ ⟨rfl, rfl⟩
  exact .done rfl

/-- Only targets of the stage are different. -/
def TargetsOnly (v : Db) (r : String) (stage : Stage) (v' : Db) : Prop :=
  ∀ k, (∀ resourceId, k ≠ Key.target r stage resourceId) → v'.get k = v.get k

theorem Ready.targetsOnly (h : Ready E r v) (honly : TargetsOnly v r stage v') : Ready E r v' := by
  refine h.congr fun k hk => honly k fun resourceId hkey => ?_
  subst hkey
  simp at hk

theorem yields_upsertTargets {resourceIds : List String}
    (hfit : ∀ resourceId ∈ resourceIds, resourceId.length ≤ 128) :
    (upsertTargets r stage now resourceIds).Yields v fun _ v' => TargetsOnly v r stage v' := by
  induction resourceIds generalizing v with
  | nil => exact .done fun _ _ => rfl
  | cons resourceId resourceIds ih =>
    have hrest := fun u => ih (v := u) fun id hid => hfit id (mem_cons_of_mem _ hid)
    refine .bind (.select (Q := fun x u =>
      x = (v.get (Key.target r stage resourceId)).isSome ∧ v = u) ⟨rfl, rfl⟩) ?_
    rintro _ _ ⟨rfl, rfl⟩
    cases hold : v.get (Key.target r stage resourceId) with
    | some row => exact hrest v
    | none =>
      have hcolumn := columnText_fits (hfit resourceId mem_cons_self)
      rw [isSome_none, if_neg Bool.false_ne_true]
      refine .bind (.check hcolumn (Q := fun _ u => v = u) rfl) ?_
      rintro _ _ rfl
      refine .bind (.insert (Q := fun _ u => TargetsOnly v r stage u) ?_ fun k hk => ?_)
        fun _ u hu => (hrest u).mono fun _ v' hv' k hk => (hv' k hk).trans (hu k hk)
      · simp [taken, hold]
      · exact get_set_of_ne (hk resourceId)

theorem yields_updateTarget {resourceId : String} {f : TargetRow → TargetRow} :
    (updateTarget r stage resourceId f).Yields v fun _ v' =>
      (∀ k, k ≠ Key.target r stage resourceId → v'.get k = v.get k) ∧
        v'.get (Key.target r stage resourceId) = (v.get (Key.target r stage resourceId)).map f := by
  refine .bind (.updateWhere (Q := fun _ v' => (∀ k, k ≠ Key.target r stage resourceId →
    v'.get k = v.get k) ∧ v'.get (Key.target r stage resourceId)
      = (v.get (Key.target r stage resourceId)).map f) (fun hmiss => ⟨fun _ _ => rfl, ?_⟩)
    fun row hrow _ => ⟨fun k hk => get_set_of_ne hk, ?_⟩) fun _ _ h => .done h
  · cases hrow : v.get (Key.target r stage resourceId) with
    | none => rfl
    | some row => cases hmiss row hrow
  · rw [get_set_self, hrow]
    rfl

/-- **The targets that are run** succeed; the others are as they were. -/
theorem yields_runTargets {targets : List (String × TargetRow)}
    (hrebuild : ∀ resourceId, rebuild.rebuild stage resourceId = none) :
    (runTargets r stage rebuild now targets).Yields v fun _ v' => TargetsOnly v r stage v' ∧
      ∀ resourceId row, v'.get (Key.target r stage resourceId) = some row →
        row.status = .succeeded ∨ (resourceId ∉ targets.map Prod.fst ∧
          v.get (Key.target r stage resourceId) = some row) := by
  induction targets generalizing v with
  | nil => exact .done ⟨fun _ _ => rfl, fun _ _ hrow => .inr ⟨not_mem_nil, hrow⟩⟩
  | cons target targets ih =>
    obtain ⟨resourceId, target⟩ := target
    refine yields_updateTarget.bind fun _ u hu => ?_
    unfold settleTarget
    rw [hrebuild resourceId]
    refine yields_updateTarget.bind fun _ w hw => ih.mono fun _ v' hv' => ⟨fun k hk => ?_,
      fun resourceId' row hrow => ?_⟩
    · exact (hv'.1 k hk).trans ((hw.1 k (hk resourceId)).trans (hu.1 k (hk resourceId)))
    · rcases hv'.2 resourceId' row hrow with hdone | ⟨hnot, hold⟩
      · exact .inl hdone
      · by_cases heq : resourceId' = resourceId
        · subst heq
          rw [hw.2, map_eq_some_iff] at hold
          obtain ⟨row', -, rfl⟩ := hold
          exact .inl rfl
        · have hne : Key.target r stage resourceId' ≠ Key.target r stage resourceId := by
            simpa using heq
          rw [hw.1 _ hne, hu.1 _ hne] at hold
          exact .inr ⟨by simpa [heq] using hnot, hold⟩

theorem yields_executeTargets (hrebuild : ∀ resourceId, rebuild.rebuild stage resourceId = none) :
    (executeTargets r stage rebuild now).Yields v fun _ v' => TargetsOnly v r stage v' ∧
      anyFailedTarget v' r stage = false := by
  refine .bind (.select (Q := fun targets u => targets = unfinishedTargets v r stage ∧ v = u)
    ⟨rfl, rfl⟩) ?_
  rintro _ _ ⟨rfl, rfl⟩
  refine (yields_runTargets hrebuild).mono fun _ v' hv' => ⟨hv'.1, ?_⟩
  unfold anyFailedTarget
  rw [decide_eq_false_iff_not, not_not, eq_nil_iff_forall_not_mem]
  intro _ hmem
  obtain ⟨k, row, hrow, hpick⟩ := mem_table.mp hmem
  cases k with
  | target r' stage' resourceId =>
    simp only [ite_none_right_eq_some] at hpick
    obtain ⟨⟨rfl, rfl, hfailed⟩, -⟩ := hpick
    rcases hv'.2 resourceId row hrow with hdone | ⟨hnot, hold⟩
    · cases hdone.symm.trans hfailed
    · refine hnot (List.mem_map.mpr ⟨(resourceId, row), mem_table.mpr ⟨_, row, hold, ?_⟩, rfl⟩)
      simp [hfailed]
  | _ => cases hpick

theorem yields_executePostgres (hclean : Clean E answers) (h : Ready E r v)
    (hstages : UpTo v r Stage.postgres.position) :
    (executePostgres r answers now).Yields v fun _ v' => Succeeded E r .postgres v v' := by
  refine (yields_componentReference h).bind ?_
  rintro reference _ rfl
  refine .bind (.check (hclean.postgres reference) (Q := fun _ u => v = u) rfl) ?_
  rintro _ _ rfl
  exact yields_completeStage h hstages

theorem yields_executeObjectStore (hclean : Clean E answers) (h : Ready E r v)
    (hstages : UpTo v r Stage.objectStore.position) :
    (executeObjectStore r answers now).Yields v fun _ v' => Succeeded E r .objectStore v v' := by
  refine (yields_componentReference h).bind ?_
  rintro reference _ rfl
  refine .bind (.check (hclean.objects reference) (Q := fun _ u => v = u) rfl) ?_
  rintro _ _ rfl
  refine (yields_validateFacts hclean h).bind fun _ u hu => ?_
  refine .bind (.select (Q := fun x w => x = false ∧ u = w) ⟨anyOpenRepair_eq_false hu.1.2, rfl⟩) ?_
  rintro _ _ ⟨rfl, rfl⟩
  refine (yields_completeStage hu.1.1 (hstages.congr fun _ => hu.2 _ (by simp))).mono ?_
  exact fun _ v' hv' => ⟨hv'.ready, hv'.stages, hv'.session.trans (hu.2 _ (by simp))⟩

theorem yields_executeDerived (hclean : Clean E answers) (h : Ready E r v)
    (hstages : UpTo v r stage.position) :
    (executeDerived r stage answers now).Yields v fun _ v' => Succeeded E r stage v v' := by
  obtain ⟨rebuild, hrebuild, hlist, hsucceeds⟩ := hclean.derived
  obtain ⟨resourceIds, hresources, hfit⟩ := hlist stage
  refine .bind (.orRaise hrebuild (Q := fun x u => x = rebuild ∧ v = u) ⟨rfl, rfl⟩) ?_
  rintro _ _ ⟨rfl, rfl⟩
  refine .bind (.check hresources (Q := fun x u => x = resourceIds ∧ v = u) ⟨rfl, rfl⟩) ?_
  rintro _ _ ⟨rfl, rfl⟩
  refine (yields_upsertTargets hfit).bind fun _ u hu => ?_
  refine (yields_executeTargets (hsucceeds stage)).bind fun _ w hw => ?_
  have honly : TargetsOnly v r stage w := fun k hk => (hw.1 k hk).trans (hu k hk)
  refine .bind (.select (Q := fun x w' => x = false ∧ w = w') ⟨hw.2, rfl⟩) ?_
  rintro _ _ ⟨rfl, rfl⟩
  have hsame : UpTo w r stage.position := hstages.congr fun _ => honly _ (by simp)
  refine (yields_completeStage (h.targetsOnly honly) hsame).mono ?_
  exact fun _ v' hv' => ⟨hv'.ready, hv'.stages, hv'.session.trans (honly _ (by simp))⟩

/-- **A stage that is run when nothing is wrong** succeeds. -/
theorem yields_executeStage (hclean : Clean E answers) (h : Ready E r v)
    (hstages : UpTo v r stage.position) :
    (executeStage r stage answers now).Yields v fun _ v' => Succeeded E r stage v v' := by
  refine (yields_updateStage h hstages).bind fun _ u hu => ?_
  obtain ⟨hready, row, -, hposition, heq⟩ := hu
  have hrunning : UpTo u r stage.position := heq ▸ hstages.set hposition
  have hsession : u.get (Key.session r) = v.get (Key.session r) := by
    rw [heq]
    exact get_set_of_ne (by simp)
  refine .mono (Q := fun _ v' => Succeeded E r stage u v') ?_
    fun _ v' hv' => ⟨hv'.ready, hv'.stages, hv'.session.trans hsession⟩
  cases stage with
  | postgres => exact yields_executePostgres hclean hready hrunning
  | objectStore => exact yields_executeObjectStore hclean hready hrunning
  | _ => exact yields_executeDerived hclean hready hrunning

/-! ### A call -/

/-- Nothing stands in the way of the session, which is active; the stages before the position have
succeeded, and the one at it has not. -/
structure Going (E : String → Prop) (r : String) (n : ℕ) (v : Db) : Prop where
  ready : Ready E r v
  stages : AtStage v r n
  active : Active v r

theorem HasStatus.active (h : HasStatus v r status) (hstatus : status.isActive = true) :
    Active v r := by
  obtain ⟨row, hrow, rfl⟩ := h
  exact ⟨row, hrow, hstatus⟩

theorem Active.congr (h : Active v r) (heq : v'.get (Key.session r) = v.get (Key.session r)) :
    Active v' r := by
  unfold Active
  rw [heq]
  exact h

theorem yields_finishRestore (h : Ready E r v) :
    (finishRestore r now).Yields v fun _ v' => Finished v' r := by
  refine .bind (.updateWhere (Q := fun _ u => Ready E r u ∧ ¬ GateClosed u) (fun hmiss => ⟨h, ?_⟩)
    fun row _ _ => ⟨h.congr fun k hk => get_set_of_ne ?_, ?_⟩) fun _ u hu => ?_
  · rintro ⟨row, hrow, -⟩
    cases hmiss row hrow
  · rintro rfl
    simp at hk
  · rintro ⟨row', hrow', hclosed⟩
    cases (get_set_self ..).symm.trans hrow'
    cases hclosed
  · refine .mono (yields_updateSession hu.1 fun _ => rfl) ?_
    rintro - _ ⟨-, row, -, rfl⟩
    refine ⟨⟨_, get_updatedSession_self, rfl⟩, fun hclosed => hu.2 ?_⟩
    unfold GateClosed at hclosed ⊢
    rw [get_updatedSession (by simp) (by simp)] at hclosed
    exact hclosed

/-- **After the last stage** the session is completed, or is blocked for a target that is open. -/
theorem yields_runPostGate (hclean : Clean E answers) (h : Going E r n v) :
    (runPostGate r answers now).Yields v fun _ v' => Finished v' r ∨
      Going E r n v' ∧ HasStatus v' r .blocked ∧ ¬ NoneOpen v r := by
  refine .bind (.check hclean.postGate (Q := fun x u => x = [] ∧ v = u) ⟨rfl, rfl⟩) ?_
  rintro _ _ ⟨rfl, rfl⟩
  refine .bind (.select (Q := fun x u => x = anyOpenRepair v r ∧ v = u) ⟨rfl, rfl⟩) ?_
  rintro _ _ ⟨rfl, rfl⟩
  cases hopen : anyOpenRepair v r with
  | false =>
    rw [if_pos ⟨rfl, rfl⟩]
    exact (yields_finishRestore h.ready).mono fun _ _ hv' => .inl hv'
  | true =>
    rw [if_neg (by simp)]
    have hfits : (String.intercalate ";" ["repair_targets_open"]).length ≤ 512 := by decide +kernel
    refine .bind (.check (columnText_fits hfits) (Q := fun _ u => v = u) rfl) ?_
    rintro reason _ rfl
    refine .mono (yields_updateSession h.ready fun _ => rfl) ?_
    rintro - v' ⟨hready, row, -, heq⟩
    have hblocked : HasStatus v' r .blocked := by
      rw [heq]
      exact ⟨_, get_updatedSession_self, rfl⟩
    refine .inr ⟨⟨hready, h.stages.congr fun _ => ?_, hblocked.active rfl⟩, hblocked,
      fun hnone => ?_⟩
    · rw [heq]
      exact get_updatedSession (by simp) (by simp)
    · cases (anyOpenRepair_eq_false hnone).symm.trans hopen

theorem yields_retryFactStage (hclean : Clean E answers) (h : Going E r stage.position v) :
    (retryFactStage r stage answers now).Yields v
      fun _ v' => Going E r (stage.position + 1) v' := by
  refine (yields_validateFacts hclean h.ready).bind fun _ u hu => ?_
  refine .bind (.select (Q := fun x w => x = false ∧ u = w) ⟨anyOpenRepair_eq_false hu.1.2, rfl⟩) ?_
  rintro _ _ ⟨rfl, rfl⟩
  rw [if_neg Bool.false_ne_true]
  refine (yields_completeStage hu.1.1 (h.stages.1.congr fun _ => hu.2 _ (by simp))).mono ?_
  exact fun _ v' hv' => ⟨hv'.ready, hv'.stages,
    h.active.congr (hv'.session.trans (hu.2 _ (by simp)))⟩

/-- **The next stage is run**, and the session is completed after the last. -/
theorem yields_runStage (hclean : Clean E answers) (h : Going E r stage.position v) :
    (runStage r stage answers now).Yields v fun _ v' =>
      Finished v' r ∨ Going E r (stage.position + 1) v' := by
  refine (yields_setStatus h.ready).bind fun _ u hu => ?_
  obtain ⟨hready, hrunning, hsame⟩ := hu
  refine (yields_executeStage hclean hready
    (h.stages.1.congr fun stage => hsame _ (.inr ⟨stage, rfl⟩))).bind fun _ w hw => ?_
  have hgoing : Going E r (stage.position + 1) w :=
    ⟨hw.ready, hw.stages, (hrunning.active rfl).congr hw.session⟩
  refine .bind (.select (Q := fun x w' => x = stagesOf w r ∧ w = w') ⟨rfl, rfl⟩) ?_
  rintro _ _ ⟨rfl, rfl⟩
  by_cases hall : stagesOf w r ≠ [] ∧ allSucceeded (stagesOf w r) = true
  · rw [if_pos hall]
    exact (yields_runPostGate hclean hgoing).mono fun _ v' hv' => hv'.imp id And.left
  · rw [if_neg hall]
    exact .done (.inr hgoing)

/-- What is left to do: the next stage was run, or the session is blocked at its end. -/
def Advances (E : String → Prop) (r : String) (n : ℕ) (v v' : Db) : Prop :=
  Finished v' r ∨ (n < 7 ∧ Going E r (n + 1) v') ∨
    Going E r n v' ∧ HasStatus v' r .blocked ∧ ¬ NoneOpen v r

theorem yields_advanceStages (hclean : Clean E answers) (h : Going E r n v) :
    (advanceStages r answers now).Yields v fun _ v' => Advances E r n v v' := by
  refine .bind (.select (Q := fun x u => x = stagesOf v r ∧ v = u) ⟨rfl, rfl⟩) ?_
  rintro _ _ ⟨rfl, rfl⟩
  cases hrun : runnableStage (stagesOf v r) with
  | none =>
    have hall := (done_of_runnable ⟨n, h.stages⟩ hrun).allSucceeded ⟨n, h.stages⟩
    simp only [hall, if_true]
    exact (yields_runPostGate hclean h).mono fun _ v' hv' => hv'.imp id .inr
  | some next =>
    obtain ⟨stage, status⟩ := next
    obtain ⟨rfl, -⟩ := h.stages.runnable hrun
    have hlt := stage.position_lt
    simp only
    by_cases hfact : status = .failed ∧ stage.isFact = true
    · rw [if_pos hfact]
      exact (yields_retryFactStage hclean h).mono fun _ v' hv' => .inr (.inl ⟨hlt, hv'⟩)
    · rw [if_neg hfact]
      exact (yields_runStage hclean h).mono fun _ v' hv' => hv'.imp id fun h => .inl ⟨hlt, h⟩

/-- **A call runs the next stage**, and completes the session after the last; only a session that
was not blocked is blocked. -/
theorem yields_advance (hclean : Clean E answers) (h : Going E r n v) :
    (advanceRestore r answers now).Yields v fun _ v' => Finished v' r ∨
      (n < 7 ∧ Going E r (n + 1) v') ∨
        Going E r n v' ∧ HasStatus v' r .blocked ∧ ¬ HasStatus v r .blocked := by
  obtain ⟨session, hsession, hactive⟩ := h.active
  have hlocked : (lockedSession r).Yields v fun x u => session = x ∧ v = u := by
    refine .bind (.lockRow (Q := fun x u => x = some session ∧ v = u) ⟨hsession, rfl⟩) ?_
    rintro _ _ ⟨rfl, rfl⟩
    exact .orRaise rfl ⟨rfl, rfl⟩
  refine hlocked.bind ?_
  rintro _ _ ⟨rfl, rfl⟩
  have hgo : session.status ≠ .blocked → (advanceStages r answers now).Yields v fun _ v' =>
      Finished v' r ∨ (n < 7 ∧ Going E r (n + 1) v') ∨
        Going E r n v' ∧ HasStatus v' r .blocked ∧ ¬ HasStatus v r .blocked := by
    intro hstatus
    refine (yields_advanceStages hclean h).mono fun _ v' hv' => hv'.imp id (.imp id ?_)
    rintro ⟨hgoing, hblocked, -⟩
    refine ⟨hgoing, hblocked, ?_⟩
    rintro ⟨row, hrow, hrowstatus⟩
    cases hsession.symm.trans hrow
    exact hstatus hrowstatus
  cases hstatus : session.status with
  | completed =>
    rw [hstatus] at hactive
    cases hactive
  | failed =>
    rw [hstatus] at hactive
    cases hactive
  | accepted => exact hgo (by rw [hstatus]; decide)
  | running => exact hgo (by rw [hstatus]; decide)
  | blocked =>
    refine (yields_validateFacts hclean h.ready).bind fun _ u hu => ?_
    obtain ⟨⟨hready, hnone⟩, hsame⟩ := hu
    refine .bind (.select (Q := fun x w => x = false ∧ u = w)
      ⟨anyOpenRepair_eq_false hnone, rfl⟩) ?_
    rintro _ _ ⟨rfl, rfl⟩
    rw [if_neg Bool.false_ne_true]
    refine (yields_setStatus hready).bind fun _ w hw => ?_
    obtain ⟨hready', hrunning, hsame'⟩ := hw
    have hgoing : Going E r n w := by
      refine ⟨hready', h.stages.congr fun stage => ?_, hrunning.active rfl⟩
      exact (hsame' _ (.inr ⟨stage, rfl⟩)).trans (hsame _ (by simp))
    refine (yields_advanceStages hclean hgoing).mono fun _ v' hv' => ?_
    rcases hv' with hfinished | hnext | ⟨-, -, hopen⟩
    · exact .inl hfinished
    · exact .inr (.inl hnext)
    · refine absurd (fun stage resourceId hrepair => hnone stage resourceId ?_) hopen
      unfold OpenRepair at hrepair ⊢
      rw [hsame' _ (.inl id)] at hrepair
      exact hrepair

end RagQs.Backup
