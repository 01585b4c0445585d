import RagQs.Backup.Sets
import RagQs.Txn.Apart

/-!
# What the operations on backup sets leave

An operation writes the rows of its set, and objects.  Where it is made on a set that is still
creating, and nothing else writes the set meanwhile, it leaves the set complete if and only if all
components have succeeded.

## Main definitions

* `SetOk` — a set is complete if and only if all its components have succeeded.
* `Calm` — what an operation is made on.

## Main results

* `leaves_complete`, `leaves_record`, `leaves_fail`, `leaves_create` — what an operation leaves.
-/

namespace RagQs.Backup

open Txn List Option Store AList

variable {f : ComponentRow → ComponentRow} {reference : String} {facts : List ObjectFact} {W : Key →
  Prop}

/-! ### Sets that are as they should be -/

/-- All components of the set have succeeded. -/
def AllSucceeded (c : Db) (backupId : String) : Prop :=
  ∀ kind, ∃ r, c.get (Key.component backupId kind) = some r ∧ r.status = .succeeded

/-- The set has its components, and is complete if and only if all of them have succeeded. -/
def SetOk (c : Db) (backupId : String) : Prop :=
  match c.get (Key.set backupId) with
  | none => ∀ kind, c.get (Key.component backupId kind) = none
  | some r => (∀ kind, (c.get (Key.component backupId kind)).isSome = true) ∧
    (r.status = .complete ↔ AllSucceeded c backupId)

/-- The references of the components of a set. -/
def referenceOf (c : Db) (backupId : String) (kind : ComponentKind) : Option String :=
  (c.get (Key.component backupId kind)).bind ComponentRow.reference

/-- The rows of a set are a region; an operation works in the one of its set. -/
def setRegions : Regions Key SetOp String where
  region
    | .set backupId | .component backupId _ => some backupId
    | _ => none
  of := SetOp.backupId

variable {b c c' d : Db} {B : String}

theorem SetOk.same (hc : SetOk c B) (h : setRegions.Same B c c') : SetOk c' B := by
  have hcomponent : ∀ kind, c'.get (Key.component B kind) = c.get (Key.component B kind) :=
    fun kind => h _ rfl
  unfold SetOk AllSucceeded at hc ⊢
  simp only [h (Key.set B) rfl, hcomponent]
  exact hc

theorem setOk_of_row {r : BackupSetRow} (hr : c.get (Key.set B) = some r) (h : SetOk c B) :
    (∀ kind, (c.get (Key.component B kind)).isSome = true) ∧
      (r.status = .complete ↔ AllSucceeded c B) := by
  unfold SetOk at h
  rwa [hr] at h

theorem setOk_of_none (hr : c.get (Key.set B) = none) (h : SetOk c B) :
    ∀ kind, c.get (Key.component B kind) = none := by
  unfold SetOk at h
  rwa [hr] at h

theorem exists_set_of_component {kind : ComponentKind} {r : ComponentRow}
    (hr : c.get (Key.component B kind) = some r) (h : SetOk c B) :
    ∃ row, c.get (Key.set B) = some row := by
  cases hset : c.get (Key.set B) with
  | none =>
    rw [setOk_of_none hset h kind] at hr
    cases hr
  | some row => exact ⟨row, rfl⟩

theorem allSucceeded_iff (hall : ∀ kind, (c.get (Key.component B kind)).isSome = true) :
    AllSucceeded c B ↔
      ¬ (componentsOf c B = [] ∨
        (componentsOf c B).any (fun r => r.status ≠ .succeeded) = true) := by
  obtain ⟨r₁, h₁⟩ := isSome_iff_exists.mp (hall .postgresSnapshot)
  obtain ⟨r₂, h₂⟩ := isSome_iff_exists.mp (hall .objectStoreSnapshot)
  obtain ⟨r₃, h₃⟩ := isSome_iff_exists.mp (hall .objectManifest)
  have hread : componentsOf c B = [r₁, r₂, r₃] := by
    simp [componentsOf, ComponentKind.all, h₁, h₂, h₃]
  rw [hread]
  constructor
  · intro h
    obtain ⟨_, hr₁, hs₁⟩ := h .postgresSnapshot
    obtain ⟨_, hr₂, hs₂⟩ := h .objectStoreSnapshot
    obtain ⟨_, hr₃, hs₃⟩ := h .objectManifest
    cases h₁.symm.trans hr₁
    cases h₂.symm.trans hr₂
    cases h₃.symm.trans hr₃
    simp [hs₁, hs₂, hs₃]
  · intro h kind
    simp only [cons_ne_nil, any_cons, any_nil, false_or, Bool.or_false,
      Bool.not_eq_true, Bool.or_eq_false_iff, decide_eq_false_iff_not, not_not] at h
    obtain ⟨hs₁, hs₂, hs₃⟩ := h
    cases kind with
    | postgresSnapshot => exact ⟨r₁, h₁, hs₁⟩
    | objectStoreSnapshot => exact ⟨r₂, h₂, hs₂⟩
    | objectManifest => exact ⟨r₃, h₃, hs₃⟩

/-! ### What an operation is made on -/

/-- The set, if it is there, is creating. -/
def Creating (c : Db) (backupId : String) : Prop :=
  ∀ r, c.get (Key.set backupId) = some r → r.status = .creating

/-- What an operation is made on: a set that is creating, or for a failure one that is not
complete; and for a manifest, that no object of the set is recorded yet, that no set has recorded
one of its keys, that its keys are distinct, and that it fits the columns. -/
def Calm : SetOp → Db → Db → Prop
  | .create _ _, _, _ => True
  | .record B facts _, _, c => Creating c B ∧
    (∀ key row, c.get (Key.object key) = some row → row.backupId ≠ B) ∧
    (∀ fact ∈ facts, c.get (Key.object fact.objectKey) = none) ∧
    (facts.map ObjectFact.objectKey).Nodup ∧
    (∀ fact ∈ facts, (objectRow B fact).isOk = true) ∧
    (columnText 512 ("manifest:" ++ toString facts.length)).isOk = true
  | .complete B _ _ _, _, c => Creating c B
  | .fail B _ _ _, _, c => ∀ r, c.get (Key.set B) = some r → r.status ≠ .complete

/-! ### The parts of the operations -/

section Parts

variable {C : Db → Db → Prop} {η : Err → Prop} {now : Time} {kind : ComponentKind}

/-- Nothing is pending in the region of the set. -/
abbrev Idle (B : String) (d : Db) : Prop := ¬ setRegions.Pends B d

theorem Idle.get {k : Key} (h : Idle B d) (hk : setRegions.region k = some B) :
    (d ∪ c : Db).get k = c.get k :=
  get_union_of_notMem fun hmem => h ⟨k, hmem, hk⟩

/-- One component of the set has been rewritten. -/
def Rewritten (b : Db) (B : String) (kind : ComponentKind) (f : ComponentRow → ComponentRow)
    (d : Db) : Prop :=
  ∃ d₀ r, Idle B d₀ ∧ b.get (Key.component B kind) = some r ∧
    d = d₀.set (Key.component B kind) (some (f r))

theorem leaves_updateComponent :
    setRegions.Leaves B C b (Idle B) (updateComponent B kind f)
      (fun _ d => Idle B d ∨ Rewritten b B kind f d) η := by
  refine .bind (ψ := fun _ d => Idle B d ∨ Rewritten b B kind f d)
    (.updateWhere rfl (fun d c hd _ _ _ => .inl hd) ?_) fun _ => .done fun _ h => h
  intro d c r hd _ hsame hget _
  rw [Idle.get hd rfl] at hget
  exact .inr ⟨d, r, hd, (hsame _ rfl).trans hget, rfl⟩

theorem Rewritten.pends (h : Rewritten b B kind f d) : setRegions.Pends B d := by
  obtain ⟨d₀, r, -, -, rfl⟩ := h
  exact ⟨_, (Store.mem_set ..).mpr (.inl rfl), rfl⟩

theorem Rewritten.view (h : Rewritten b B kind f d) (hb : SetOk b B) :
    ∃ row r, b.get (Key.set B) = some row ∧ (d ∪ b : Db).get (Key.set B) = some row ∧
      b.get (Key.component B kind) = some r ∧
      (d ∪ b : Db).get (Key.component B kind) = some (f r) ∧
      (∀ kind', kind' ≠ kind → (d ∪ b : Db).get (Key.component B kind')
        = b.get (Key.component B kind')) ∧
      ∀ kind', ((d ∪ b : Db).get (Key.component B kind')).isSome = true := by
  obtain ⟨d₀, r, hidle, hr, rfl⟩ := h
  obtain ⟨row, hrow⟩ := exists_set_of_component hr hb
  have hset : (d₀.set (Key.component B kind) (some (f r)) ∪ b : Db).get (Key.set B) = some row := by
    rw [set_union, get_set_of_ne (by simp), hidle.get rfl, hrow]
  have hself : (d₀.set (Key.component B kind) (some (f r)) ∪ b : Db).get (Key.component B kind)
      = some (f r) := by
    rw [set_union, get_set_self]
  have hother : ∀ kind', kind' ≠ kind →
      (d₀.set (Key.component B kind) (some (f r)) ∪ b : Db).get (Key.component B kind')
        = b.get (Key.component B kind') := by
    intro kind' hne
    rw [set_union, get_set_of_ne (by simpa using hne), hidle.get rfl]
  refine ⟨row, r, hrow, hset, hr, hself, hother, fun kind' => ?_⟩
  by_cases hkind : kind' = kind
  · rw [hkind, hself]
    rfl
  · rw [hother kind' hkind]
    exact (setOk_of_row hrow hb).1 kind'

theorem not_allSucceeded_of_creating (h : Creating c B) (hc : SetOk c B) :
    componentsOf c B = [] ∨ (componentsOf c B).any (fun r => r.status ≠ .succeeded) = true := by
  cases hset : c.get (Key.set B) with
  | none =>
    left
    unfold componentsOf
    rw [filterMap_eq_nil_iff]
    exact fun kind _ => setOk_of_none hset hc kind
  | some r =>
    by_contra hall
    obtain ⟨hcomponents, hiff⟩ := setOk_of_row hset hc
    have hcomplete := hiff.mpr ((allSucceeded_iff hcomponents).mpr hall)
    rw [h r hset] at hcomplete
    cases hcomplete

theorem get_component_set {o : Option BackupSetRow} {B' : String} {kind : ComponentKind} :
    (d.set (Key.set B) o ∪ b : Db).get (Key.component B' kind)
      = (d ∪ b : Db).get (Key.component B' kind) := by
  rw [set_union, get_set_of_ne (by simp)]

theorem setOk_of_set {row : BackupSetRow}
    (hall : ∀ kind, ((d ∪ b : Db).get (Key.component B kind)).isSome = true)
    (hiff : row.status = .complete ↔ AllSucceeded (d ∪ b) B) :
    SetOk (d.set (Key.set B) (some row) ∪ b) B := by
  unfold SetOk AllSucceeded
  simp only [get_component_set]
  rw [set_union, get_set_self]
  exact ⟨hall, hiff⟩

/-- **The set is left complete if and only if all components have succeeded.** -/
theorem leaves_maybeComplete (hC : ∀ d c, C d c → Creating c B ∧ SetOk c B) (hb : SetOk b B) :
    setRegions.Leaves B C b (fun d => Idle B d ∨ Rewritten b B kind f d)
      (maybeCompleteBackupSet B now) (fun _ d => SetOk (d ∪ b) B) η := by
  refine .bind (ψ := fun components d =>
    (Idle B d ∧ (components = [] ∨ components.any (fun r => r.status ≠ .succeeded) = true)) ∨
      (Rewritten b B kind f d ∧ components = componentsOf (d ∪ b) B ∧ Creating b B)) ?_ ?_
  · refine .select fun d c hd hc hsame => ?_
    obtain ⟨hcreating, hok⟩ := hC d c hc
    rcases hd with hd | hd
    · have hread : componentsOf (d ∪ c) B = componentsOf c B := by
        unfold componentsOf
        exact filterMap_congr fun kind _ => hd.get rfl
      rw [hread]
      exact .inl ⟨hd, not_allSucceeded_of_creating hcreating hok⟩
    · have hsame := hsame hd.pends
      refine .inr ⟨hd, ?_, fun r hr => hcreating r ((hsame _ rfl).symm.trans hr)⟩
      unfold componentsOf
      exact filterMap_congr fun kind _ => (hsame.view rfl).symm
  · intro components
    by_cases hwait : components = [] ∨ components.any (fun r => r.status ≠ .succeeded) = true
    · rw [if_pos hwait]
      refine .done fun d hd => ?_
      rcases hd with ⟨hd, -⟩ | ⟨hd, rfl, hcreating⟩
      · exact hb.same (.union hd)
      · obtain ⟨row, r, hrow, hset, -, -, -, hall⟩ := hd.view hb
        unfold SetOk
        rw [hset]
        refine ⟨hall, iff_of_false ?_ fun h => (allSucceeded_iff hall).mp h hwait⟩
        rw [hcreating row hrow]
        nofun
    · rw [if_neg hwait]
      refine .bind (ψ := fun _ d => SetOk (d ∪ b) B) (.updateWhere rfl ?_ ?_) fun _ =>
        .done fun _ h => h
      · rintro d c (⟨-, h⟩ | ⟨hd, -, -⟩) hc hsame hmiss
        · exact absurd h hwait
        · obtain ⟨row, r, hrow, hset, -⟩ := hd.view hb
          have hview := hmiss row (((hsame hd.pends).view rfl).symm.trans hset)
          cases hview
      · rintro d c row (⟨-, h⟩ | ⟨hd, rfl, -⟩) hc hsame hget -
        · exact absurd h hwait
        · obtain ⟨_, r, hrow, hset, -, -, -, hall⟩ := hd.view hb
          exact setOk_of_set hall (iff_of_true rfl ((allSucceeded_iff hall).mpr hwait))

theorem leaves_succeed (hC : ∀ d c, C d c → Creating c B ∧ SetOk c B) (hb : SetOk b B)
    (he : ∀ e, columnText 512 reference = .error e → η e) :
    setRegions.Leaves B C b (Idle B) (succeed B kind reference now)
      (fun _ d => SetOk (d ∪ b) B) η :=
  .bind (ψ := fun _ => Idle B) (.check (fun _ _ _ h => h) fun e h _ _ => he e h) fun _ =>
    .bind leaves_updateComponent fun _ => leaves_maybeComplete hC hb

theorem leaves_requireComponent {kindText : String} {φ : Db → Prop}
    (he : ∀ c d, φ d → C d c → (ComponentKind.ofText kindText).filter
      (fun k => ((d ∪ c : Db).get (Key.component B k)).isSome) = none → η componentNotFound) :
    setRegions.Leaves B C b φ (requireComponent B kindText) (fun _ => φ) η := by
  refine .bind (ψ := fun found d => φ d ∧ (found = none → η componentNotFound)) ?_ fun found => ?_
  · exact .select fun d c hd hc _ => ⟨hd, he c d hd hc⟩
  · exact .orRaise (fun _ _ _ h => h.1) fun hnone d h => h.2 hnone

/-! ### Manifests -/

/-- The pending writes are the objects of the facts. -/
structure ObjectsIn (B : String) (facts : List ObjectFact) (d : Db) : Prop where
  stored : ∀ fact ∈ facts, ∃ row, objectRow B fact = .ok row ∧ Key.object fact.objectKey ∈ d ∧
    d.get (Key.object fact.objectKey) = some row
  only : ∀ key, Key.object key ∈ d → ∃ fact ∈ facts, key = fact.objectKey

theorem ObjectsIn.applyAll (h : ObjectsIn B facts d) {ws : List (Write Row)}
    (hws : ∀ x ∈ ws, setRegions.region x.1 = some B) : ObjectsIn B facts (d.applyAll ws) := by
  have hkey : ∀ key, Key.object key ∉ ws.map Sigma.fst := by
    intro key hmem
    obtain ⟨x, hx, hx₁⟩ := List.mem_map.mp hmem
    have := hws x hx
    rw [hx₁] at this
    cases this
  refine ⟨fun fact hfact => ?_, fun key hmem => ?_⟩
  · obtain ⟨row, hrow, hmem, hget⟩ := h.stored fact hfact
    exact ⟨row, hrow, mem_applyAll.mpr (.inr hmem),
      (get_applyAll_of_notMem (hkey _)).trans hget⟩
  · exact h.only key ((mem_applyAll.mp hmem).resolve_left (hkey key))

/-- **The inserts of a manifest go through** when no key is taken. -/
theorem leaves_insertObjects {earlier : List ObjectFact}
    (hC : ∀ d c, C d c → ∀ fact ∈ facts, c.get (Key.object fact.objectKey) = none)
    (hnodup : ((earlier ++ facts).map ObjectFact.objectKey).Nodup)
    (hfit : ∀ fact ∈ facts, (objectRow B fact).isOk = true) :
    setRegions.Leaves B C b (fun d => Idle B d ∧ ObjectsIn B earlier d) (insertObjects B facts)
      (fun _ d => Idle B d ∧ ObjectsIn B (earlier ++ facts) d) η := by
  induction facts generalizing earlier with
  | nil =>
    rw [append_nil]
    exact .done fun _ h => h
  | cons fact facts ih =>
    refine .bind (ψ := fun row d => objectRow B fact = .ok row ∧ Idle B d ∧ ObjectsIn B earlier d)
      (.check (fun row hrow d hd => ⟨hrow, hd⟩) fun e he => ?_) fun row => ?_
    · have := hfit fact mem_cons_self
      rw [he] at this
      cases this
    refine .bind (ψ := fun _ d => Idle B d ∧ ObjectsIn B (earlier ++ [fact]) d)
      (.insert ?_ ?_) fun _ => ?_
    · rintro d c ⟨hrow, hidle, hobjects⟩ hc - -
      rw [applyAll_cons, applyAll_nil]
      refine ⟨?_, fun earlierFact hmem => ?_, fun key hmem => ?_⟩
      · rintro ⟨k, hk, hregion⟩
        rcases (Store.mem_set ..).mp hk with rfl | hk
        · cases hregion
        · exact hidle ⟨k, hk, hregion⟩
      · rcases mem_append.mp hmem with hmem | hmem
        · obtain ⟨row', hrow', hmem', hget⟩ := hobjects.stored earlierFact hmem
          have hne : Key.object earlierFact.objectKey ≠ Key.object fact.objectKey := by
            rintro heq
            rw [map_append, nodup_append] at hnodup
            exact hnodup.2.2 _ (List.mem_map_of_mem hmem) _ (by simp) (Key.object.inj heq)
          exact ⟨row', hrow', (Store.mem_set ..).mpr (.inr hmem'),
            (get_set_of_ne hne).trans hget⟩
        · obtain rfl := mem_singleton.mp hmem
          exact ⟨row, hrow, (Store.mem_set ..).mpr (.inl rfl), get_set_self ..⟩
      · rcases (Store.mem_set ..).mp hmem with heq | hmem
        · exact ⟨fact, by simp, Key.object.inj heq⟩
        · obtain ⟨fact', hfact', hkey⟩ := hobjects.only key hmem
          exact ⟨fact', mem_append_left _ hfact', hkey⟩
    · rintro d c ⟨-, -, hobjects⟩ hc htaken
      -- the key is neither recorded nor pending
      have hfree : (d ∪ c : Db).get (Key.object fact.objectKey) = none := by
        rw [get_union_of_notMem fun hmem => ?_]
        · exact hC d c hc fact mem_cons_self
        · obtain ⟨fact', hfact', hkey⟩ := hobjects.only _ hmem
          rw [map_append, nodup_append] at hnodup
          exact hnodup.2.2 _ (List.mem_map_of_mem hfact') _ (by simp) hkey.symm
      simp [taken, hfree] at htaken
    · have happend : earlier ++ fact :: facts = earlier ++ [fact] ++ facts := by simp
      rw [happend] at hnodup ⊢
      exact ih (fun d c hc fact' hfact' => hC d c hc fact' (mem_cons_of_mem _ hfact'))
        hnodup fun fact' hfact' => hfit fact' (mem_cons_of_mem _ hfact')

/-- The rows of the set only. -/
abbrev InRegion (B : String) (k : Key) : Prop := setRegions.region k = some B

theorem writes_updateComponent (hW : W (Key.component B kind)) :
    (updateComponent B kind f).Writes W :=
  .bind (.updateWhere hW) fun _ => .done

theorem writes_updateSet {f : BackupSetRow → BackupSetRow} :
    (updateSet B f).Writes (InRegion B) :=
  .bind (.updateWhere (W := InRegion B) rfl) fun _ => .done

theorem writes_succeed : (succeed B kind reference now).Writes (InRegion B) :=
  .bind .check fun _ => (writes_updateComponent (W := InRegion B) rfl).bind fun _ =>
    .bind .select fun _ => .ite (fun _ => .done) fun _ =>
      writes_updateSet

theorem writes_requireComponent {kindText : String} : (requireComponent B kindText).Writes W :=
  .bind .select fun _ => .orRaise

end Parts

/-! ### The operations -/

section Operations

variable {η : Err → Prop} {now : Time} {kind : String}

/-- **A component of a snapshot.** -/
theorem leaves_complete {C : Db → Db → Prop} (hC : ∀ d c, C d c → Creating c B ∧ SetOk c B)
    (hb : SetOk b B) :
    setRegions.Leaves B C b (Idle B) (completeSnapshotComponent B kind reference now)
      (fun _ d => SetOk (d ∪ b) B) fun _ => True :=
  .bind (ψ := fun _ => Idle B) (.check (fun _ _ _ h => h) fun _ _ _ _ => trivial) fun _ =>
    .bind (leaves_requireComponent fun _ _ _ _ _ => trivial) fun _ =>
      leaves_succeed hC hb fun _ _ => trivial

/-- **A manifest**: its objects are stored, and the only error is that there is no such set. -/
theorem leaves_record {C : Db → Db → Prop} {Q : Db → Prop}
    (hC : ∀ d c, C d c → Calm (.record B facts now) d c ∧ SetOk c B ∧ Q c) (hb : SetOk b B) :
    setRegions.Leaves B C b (· = ∅) (recordManifestObjects B facts now)
      (fun _ d => SetOk (d ∪ b) B ∧ ObjectsIn B facts d) fun e =>
        e = componentNotFound ∧
          ∃ c, Q c ∧ c.get (Key.component B .objectManifest) = none := by
  have hempty : ∀ d : Db, d = ∅ → Idle B d ∧ ObjectsIn B [] d := by
    rintro _ rfl
    exact ⟨fun ⟨k, hk, _⟩ => notMem_empty k hk, (by simp),
      fun key hmem => absurd hmem (notMem_empty _)⟩
  -- what is known of the manifest is known as soon as a statement has run
  refine .bind (ψ := fun _ d => d = ∅ ∧ (facts.map ObjectFact.objectKey).Nodup ∧
      (∀ fact ∈ facts, (objectRow B fact).isOk = true) ∧
      (columnText 512 ("manifest:" ++ toString facts.length)).isOk = true) ?_ fun _ => ?_
  · refine .bind (ψ := fun found d => (d = ∅ ∧ (facts.map ObjectFact.objectKey).Nodup ∧
        (∀ fact ∈ facts, (objectRow B fact).isOk = true) ∧
        (columnText 512 ("manifest:" ++ toString facts.length)).isOk = true) ∧
        (found = none → ∃ c, Q c ∧ c.get (Key.component B .objectManifest) = none)) ?_
      fun found => ?_
    · refine .select fun d c hd hc _ => ?_
      obtain ⟨⟨-, -, -, hnodup, hfit, href⟩, -, hQ⟩ := hC d c hc
      refine ⟨⟨hd, hnodup, hfit, href⟩, fun hnone => ⟨c, hQ, ?_⟩⟩
      subst hd
      have hkind : ComponentKind.ofText "object_manifest" = some .objectManifest := by decide
      rw [hkind, empty_union] at hnone
      simpa using hnone
    · exact .orRaise (fun _ _ _ h => h.1) fun hnone d h => ⟨rfl, h.2 hnone⟩
  · refine .of_each fun d₀ hd₀ => ?_
    obtain ⟨rfl, hnodup, hfit, href⟩ := hd₀
    have hobjects : setRegions.Leaves B C b (fun d => Idle B d ∧ ObjectsIn B [] d)
        (insertObjects B facts) (fun _ d => Idle B d ∧ ObjectsIn B ([] ++ facts) d)
        fun e => e = componentNotFound ∧
          ∃ c, Q c ∧ c.get (Key.component B .objectManifest) = none :=
      leaves_insertObjects (fun d c hc => (hC d c hc).1.2.2.1) hnodup hfit
    refine .bind (hobjects.pre hempty) fun _ => ?_
    have hsucceed : setRegions.Leaves B C b (Idle B)
        (succeed B .objectManifest ("manifest:" ++ toString facts.length) now)
        (fun _ d => SetOk (d ∪ b) B) fun _ => False := by
      refine leaves_succeed (fun d c hc => ⟨(hC d c hc).1.1, (hC d c hc).2.1⟩) hb fun e he => ?_
      rw [he] at href
      cases href
    have hkeep : setRegions.Leaves B C b (ObjectsIn B facts)
        (succeed B .objectManifest ("manifest:" ++ toString facts.length) now)
        (fun _ => ObjectsIn B facts) fun _ => True :=
      .inside writes_succeed fun d ws hws h => h.applyAll hws
    exact (hsucceed.and hkeep).conseq (fun _ h => h) (fun _ _ h => h) fun _ h => h.1.elim

/-- What an operation leaves of a set that was not creating. -/
def Kept (c c' : Db) (B : String) : Prop :=
  ∀ r, c.get (Key.set B) = some r → r.status ≠ .creating →
    (∃ r', c'.get (Key.set B) = some r' ∧ r'.status = r.status) ∧
      ∀ kind, referenceOf c' B kind = referenceOf c B kind

/-- **A failure**: the set is left failed, with the references it had. -/
theorem leaves_fail {C : Db → Db → Prop} {reason : String}
    (hb : SetOk b B) (hbefore : ∀ r, b.get (Key.set B) = some r → r.status ≠ .complete) :
    setRegions.Leaves B C b (Idle B) (failComponent B kind reason now)
      (fun _ d => SetOk (d ∪ b) B ∧ Kept b (d ∪ b) B) fun _ => True := by
  refine .bind (leaves_requireComponent fun _ _ _ _ _ => trivial) fun kind => ?_
  refine .bind (ψ := fun _ => Idle B) (.check (fun _ _ _ h => h) fun _ _ _ _ => trivial)
    fun reason => ?_
  refine .bind leaves_updateComponent fun _ => .bind (ψ := fun _ d =>
    SetOk (d ∪ b) B ∧ Kept b (d ∪ b) B) (.updateWhere rfl ?_ ?_) fun _ => .done fun _ h => h
  · rintro d c (hd | hd) hc hsame hmiss
    · have hview : setRegions.Same B b (d ∪ b) := .union hd
      refine ⟨hb.same hview, fun r hr hne => ⟨⟨r, (hview _ rfl).trans hr, rfl⟩, fun kind' => ?_⟩⟩
      unfold referenceOf
      rw [hview _ rfl]
    · obtain ⟨row, r, hrow, hset, -⟩ := hd.view hb
      cases hmiss row (((hsame hd.pends).view rfl).symm.trans hset)
  · rintro d c row hd hc hsame hget -
    -- the set is there, and a component of it has not succeeded
    have hleft : ∀ kind', referenceOf (d ∪ b) B kind' = referenceOf b B kind' ∧
        ((d ∪ b : Db).get (Key.component B kind')).isSome = true := by
      rcases hd with hd | hd
      · intro kind'
        have hview : setRegions.Same B b (d ∪ b) := .union hd
        have hrow : b.get (Key.set B) = some row := by
          rw [hsame _ rfl, ← hd.get rfl]
          exact hget
        unfold referenceOf
        rw [hview _ rfl]
        exact ⟨rfl, (setOk_of_row hrow hb).1 kind'⟩
      · obtain ⟨_, r, _, _, hr, hself, hother, hall⟩ := hd.view hb
        intro kind'
        refine ⟨?_, hall kind'⟩
        unfold referenceOf
        by_cases hkind : kind' = kind
        · subst hkind
          rw [hself, hr]
          rfl
        · rw [hother kind' hkind]
    have hnot : ¬ AllSucceeded (d ∪ b) B := by
      intro hsucceeded
      rcases hd with hd | hd
      · have hrow : b.get (Key.set B) = some row := by
          rw [hsame _ rfl, ← hd.get rfl]
          exact hget
        refine hbefore row hrow ((setOk_of_row hrow hb).2.mpr fun kind' => ?_)
        have hview : setRegions.Same B b (d ∪ b) := .union hd
        rw [← hview _ rfl]
        exact hsucceeded kind'
      · obtain ⟨_, r, _, _, hr, hself, _⟩ := hd.view hb
        obtain ⟨r', hr', hstatus⟩ := hsucceeded kind
        cases hself.symm.trans hr'
        cases hstatus
    refine ⟨setOk_of_set (fun kind' => (hleft kind').2) (iff_of_false nofun hnot),
      fun r hr hne => ⟨⟨{ row with status := .failed, completedAt := some now }, ?_, ?_⟩,
        fun kind' => ?_⟩⟩
    · rw [set_union, get_set_self]
    · have hfailed := hbefore r hr
      cases hstatus : r.status with
      | creating => exact absurd hstatus hne
      | complete => exact absurd hstatus hfailed
      | failed => rfl
    · unfold referenceOf
      rw [get_component_set]
      exact (hleft kind').1

/-- The components of a new set that have been inserted. -/
def Fresh (b : Db) (B : String) (now : Time) (kinds : List ComponentKind) (d : Db) : Prop :=
  b.get (Key.set B) = none ∧
    (d ∪ b : Db).get (Key.set B) = some ⟨.creating, now, none, none⟩ ∧
    ∀ kind ∈ kinds,
      (d ∪ b : Db).get (Key.component B kind) = some ⟨.pending, now, none, none, none⟩

theorem leaves_insertComponents {C : Db → Db → Prop} {earlier kinds : List ComponentKind} :
    setRegions.Leaves B C b (Fresh b B now earlier) (insertComponents B now kinds)
      (fun _ => Fresh b B now (earlier ++ kinds)) fun _ => True := by
  induction kinds generalizing earlier with
  | nil =>
    rw [append_nil]
    exact .done fun _ h => h
  | cons kind kinds ih =>
    refine .bind (ψ := fun _ => Fresh b B now (earlier ++ [kind])) (.insert ?_ ?_) fun _ => ?_
    · rintro d c ⟨hnone, hset, hcomponents⟩ - - -
      rw [applyAll_cons, applyAll_nil]
      refine ⟨hnone, ?_, fun kind' hkind' => ?_⟩
      · rw [set_union, get_set_of_ne (by simp), hset]
      · rw [set_union]
        by_cases hkind : kind' = kind
        · rw [hkind, get_set_self]
        · rw [get_set_of_ne (by simpa using hkind)]
          exact hcomponents kind' (by simpa [hkind] using hkind')
    · exact fun _ _ _ _ _ => trivial
    · have happend : earlier ++ kind :: kinds = earlier ++ [kind] ++ kinds := by simp
      rw [happend]
      exact ih

/-- **A new set**: it was not there, and has its components. -/
theorem leaves_create {C : Db → Db → Prop} :
    setRegions.Leaves B C b (Idle B) (createBackupSet B now)
      (fun _ d => SetOk (d ∪ b) B ∧ b.get (Key.set B) = none) fun _ => True := by
  refine .bind (ψ := fun _ => Fresh b B now []) (.insert ?_ fun _ _ _ _ _ => trivial) fun _ => ?_
  · intro d c hd _ htaken hsame
    rw [applyAll_cons, applyAll_nil] at hsame ⊢
    refine ⟨?_, ?_, (by simp)⟩
    · have hc : c.get (Key.set B) = none := by
        rw [← hd.get rfl]
        simpa [taken] using htaken
      exact (hsame ⟨_, (Store.mem_set ..).mpr (.inl rfl), rfl⟩ _ rfl).trans hc
    · rw [set_union, get_set_self]
  · refine leaves_insertComponents.conseq (fun _ h => h) (fun _ d h => ?_) fun _ h => h
    obtain ⟨hnone, hset, hcomponents⟩ := h
    have hall : ∀ kind, (d ∪ b : Db).get (Key.component B kind)
        = some ⟨.pending, now, none, none, none⟩ := fun kind => hcomponents kind kind.mem_all
    refine ⟨?_, hnone⟩
    unfold SetOk
    rw [hset]
    refine ⟨fun kind => by rw [hall kind]; rfl, iff_of_false (by simp) fun h => ?_⟩
    obtain ⟨r, hr, hstatus⟩ := h .postgresSnapshot
    cases (hall _).symm.trans hr
    cases hstatus

end Operations

/-! ### What the operations write -/

theorem writes_insertObjects (hW : ∀ key, W (Key.object key)) :
    (insertObjects B facts).Writes W := by
  induction facts with
  | nil => exact .done
  | cons fact facts ih =>
    refine .bind .check fun row => .bind (.insert fun x hx => ?_) fun _ => ih
    rw [mem_singleton.mp hx]
    exact hW _

theorem writes_insertComponents {now : Time} {kinds : List ComponentKind}
    (hW : ∀ kind, W (Key.component B kind)) : (insertComponents B now kinds).Writes W := by
  induction kinds with
  | nil => exact .done
  | cons kind kinds ih =>
    refine .bind (.insert fun x hx => ?_) fun _ => ih
    rw [mem_singleton.mp hx]
    exact hW kind

/-- The rows of the set, and objects. -/
def SetRow (B : String) (k : Key) : Prop := InRegion B k ∨ ∃ key, k = Key.object key

/-- **An operation writes the rows of its set**, and objects. -/
theorem SetOp.writes_setRow (op : SetOp) : op.body.Writes (SetRow op.backupId) := by
  cases op with
  | create B now =>
    refine .bind (.insert fun x hx => ?_) fun _ =>
      writes_insertComponents fun _ => .inl rfl
    rw [mem_singleton.mp hx]
    exact .inl rfl
  | record B facts now =>
    exact writes_requireComponent.bind fun _ =>
      (writes_insertObjects fun key => .inr ⟨key, rfl⟩).bind fun _ =>
        writes_succeed.mono fun k hk => .inl hk
  | complete B kind reference now =>
    exact .bind .check fun _ => writes_requireComponent.bind fun _ =>
      writes_succeed.mono fun k hk => .inl hk
  | fail B kind reason now =>
    exact writes_requireComponent.bind fun _ => .bind .check fun _ =>
      (writes_updateComponent (.inl rfl)).bind fun _ => writes_updateSet.mono fun k hk => .inl hk

theorem SetOp.writes (op : SetOp) : op.body.Writes (setRegions.Allowed op) := by
  refine op.writes_setRow.mono ?_
  rintro k (hk | ⟨key, rfl⟩) B hB
  · exact some.inj (hB.symm.trans hk)
  · cases hB

end RagQs.Backup
