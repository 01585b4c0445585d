import RagQs.Backup.RestoreStages
import RagQs.Txn.Yields

/-!
# What a validation of the facts leaves

A validation opens repair targets for what it finds, leaving those that are there as they are, and
resolves those of expected objects that agree.  So a target that is open stays open where its key
is in neither list, and one that was resolved stays so when its object is found wrong again.

## Main definitions

* `OpenRepair` — a repair target is open.
* `repairStatus` — the status of the target of an object.

## Main results

* `openFindings_status`, `resolveAll_yields` — the two parts of a validation.
* `openRepair_compareFacts` — **when the open targets are those of the keys found wrong.**
-/

namespace RagQs.Backup

open Txn List Option Store

variable {keys : List String}

/-- The repair target is open. -/
def OpenRepair (v : Db) (r : String) (stage : Stage) (resourceId : String) : Prop :=
  ∃ row, v.get (Key.repair r stage resourceId) = some row ∧ row.status = .open

/-- The status of the repair target of an object. -/
def repairStatus (v : Db) (r objectKey : String) : Option RepairStatus :=
  (v.get (Key.repair r .objectStore objectKey)).map RepairRow.status

variable {v v' : Db} {r objectKey : String} {now : Time} {expected actual : List ObjectFact}

theorem openRepair_iff :
    OpenRepair v r .objectStore objectKey ↔ repairStatus v r objectKey = some .open := by
  unfold OpenRepair repairStatus
  rw [map_eq_some_iff]

/-! ### Facts -/

theorem isSome_factOf {facts : List ObjectFact} :
    (factOf facts objectKey).isSome = true ↔ objectKey ∈ keysOf facts := by
  unfold factOf keysOf
  rw [List.find?_isSome, mem_dedup, List.mem_map]
  simp only [mem_reverse, decide_eq_true_eq]

theorem mem_of_finding (h : (findingOf expected actual objectKey).isSome = true) :
    objectKey ∈ keysOf expected ∨ objectKey ∈ keysOf actual := by
  rw [← isSome_factOf, ← isSome_factOf]
  unfold findingOf at h
  split at h
  · next he _ => exact .inl (he ▸ rfl)
  · next he _ => exact .inl (he ▸ rfl)
  · next ha => exact .inr (ha ▸ rfl)
  · cases h

theorem notMem_of_notFinding (h : findingOf expected actual objectKey = none)
    (hkey : objectKey ∉ keysOf expected) : objectKey ∉ keysOf actual := by
  rw [← isSome_factOf] at hkey ⊢
  intro hactual
  obtain ⟨observed, hobserved⟩ := isSome_iff_exists.mp hactual
  rw [not_isSome_iff_eq_none] at hkey
  unfold findingOf at h
  rw [hkey, hobserved] at h
  cases h

theorem mem_keysToCompare : objectKey ∈ keysToCompare expected actual ↔
    objectKey ∈ keysOf expected ∨ objectKey ∈ keysOf actual := by
  unfold keysToCompare
  rw [mem_append, mem_filter, decide_eq_true_eq]
  constructor
  · rintro (h | h)
    · exact .inl h
    · exact .inr h.1
  · by_cases h : objectKey ∈ keysOf expected
    · exact fun _ => .inl h
    · exact fun h' => .inr ⟨h'.resolve_left h, h⟩

theorem mem_consistentKeys : objectKey ∈ consistentKeys expected actual ↔
    objectKey ∈ keysOf expected ∧ findingOf expected actual objectKey = none := by
  unfold consistentKeys
  rw [mem_filter, isNone_iff_eq_none]

/-! ### The parts of a validation -/

theorem openFindings_eq_done (h : ∀ key ∈ keys, findingOf expected actual key = none) :
    openFindings r expected actual now keys = .done () := by
  induction keys with
  | nil => rfl
  | cons key keys ih =>
    unfold openFindings
    rw [h key mem_cons_self]
    exact ih fun key' hkey' => h key' (mem_cons_of_mem _ hkey')

theorem repairRow_open {key classification detail : String} {row : RepairRow}
    (h : repairRow key classification detail now = .ok row) : row.status = .open := by
  obtain ⟨_, _, h⟩ := exists_of_bind_ok h
  obtain ⟨_, _, h⟩ := exists_of_bind_ok h
  obtain ⟨_, _, h⟩ := exists_of_bind_ok h
  cases h
  rfl

theorem openRepairTarget_status {key classification detail : String}
    (h : (openRepairTarget r .objectStore key classification detail now).exec v = .ok ((), v')) :
    repairStatus v' r objectKey
      = (repairStatus v r objectKey).or (if objectKey = key then some .open else none) := by
  have hrest := exec_select_bind h
  cases hold : v.get (Key.repair r .objectStore key) with
  | some row =>
    rw [hold] at hrest
    cases hrest
    by_cases heq : objectKey = key
    · subst heq
      unfold repairStatus
      rw [hold]
      rfl
    · rw [if_neg heq, or_none]
  | none =>
    rw [hold, isSome_none, if_neg Bool.false_ne_true] at hrest
    obtain ⟨row, hrow, hinsert⟩ := exec_check_bind hrest
    rw [exec_insert] at hinsert
    split at hinsert
    · cases hinsert
    · cases hinsert
      unfold repairStatus
      rw [applyAll_cons, applyAll_nil]
      by_cases heq : objectKey = key
      · subst heq
        rw [get_set_self, hold, if_pos rfl, map_some, repairRow_open hrow]
        rfl
      · rw [get_set_of_ne (by simpa using heq), if_neg heq, or_none]

/-- **What is found wrong** is opened, unless it was there. -/
theorem openFindings_status (h : (openFindings r expected actual now keys).exec v = .ok ((), v')) :
    repairStatus v' r objectKey = (repairStatus v r objectKey).or
      (if objectKey ∈ keys ∧ (findingOf expected actual objectKey).isSome = true then some .open
        else none) := by
  induction keys generalizing v with
  | nil =>
    cases h
    simp
  | cons key keys ih =>
    unfold openFindings at h
    cases hfound : findingOf expected actual key with
    | none =>
      rw [hfound] at h
      rw [ih h]
      by_cases heq : objectKey = key
      · subst heq
        simp [hfound]
      · simp [heq]
    | some finding =>
      obtain ⟨classification, detail⟩ := finding
      rw [hfound] at h
      obtain ⟨_, u, hopen, hrest⟩ := Prog.exec_bind_ok h
      rw [ih hrest, openRepairTarget_status hopen, Option.or_assoc]
      by_cases heq : objectKey = key
      · subst heq
        simp [hfound]
      · simp [heq]

theorem resolveRepairTarget_yields {key : String} :
    (resolveRepairTarget r .objectStore key now).Yields v fun _ v' =>
      (∀ objectKey, repairStatus v' r objectKey = (repairStatus v r objectKey).map fun status =>
        if objectKey = key then .succeeded else status) ∧
      ∀ k, (∀ objectKey, k ≠ Key.repair r .objectStore objectKey) → v'.get k = v.get k := by
  refine .bind (.updateWhere (Q := fun _ v' => (∀ objectKey, repairStatus v' r objectKey
    = (repairStatus v r objectKey).map fun status =>
      if objectKey = key then .succeeded else status) ∧
    ∀ k, (∀ objectKey, k ≠ Key.repair r .objectStore objectKey) → v'.get k = v.get k) ?_ ?_)
    fun _ _ h => .done h
  · refine fun hmiss => ⟨fun objectKey => ?_, fun _ _ => rfl⟩
    by_cases heq : objectKey = key
    · subst heq
      have hnone : repairStatus v r objectKey = none := by
        unfold repairStatus
        rw [map_eq_none_iff]
        by_contra hsome
        obtain ⟨row, hrow⟩ := ne_none_iff_exists'.mp hsome
        cases hmiss row hrow
      rw [hnone]
      rfl
    · simp [heq]
  · refine fun row hrow _ => ⟨fun objectKey => ?_, fun k hk => get_set_of_ne (hk key)⟩
    unfold repairStatus
    by_cases heq : objectKey = key
    · subst heq
      rw [get_set_self, hrow, map_some, map_some, map_some, if_pos rfl]
    · rw [get_set_of_ne (by simpa using heq)]
      simp only [heq, if_false, Option.map_map]
      rfl

/-- **The targets of the keys have succeeded**, if they are there; nothing else is written. -/
theorem resolveAll_yields :
    (resolveAll r now keys).Yields v fun _ v' =>
      (∀ objectKey, repairStatus v' r objectKey = (repairStatus v r objectKey).map fun status =>
        if objectKey ∈ keys then .succeeded else status) ∧
      ∀ k, (∀ objectKey, k ≠ Key.repair r .objectStore objectKey) → v'.get k = v.get k := by
  induction keys generalizing v with
  | nil =>
    refine .done ⟨fun objectKey => ?_, fun _ _ => rfl⟩
    simp
  | cons key keys ih =>
    refine resolveRepairTarget_yields.bind fun _ u hu => ih.mono fun _ v' hv' =>
      ⟨fun objectKey => ?_, fun k hk => (hv'.2 k hk).trans (hu.2 k hk)⟩
    rw [hv'.1, hu.1, Option.map_map]
    congr 1
    funext status
    by_cases hmem : objectKey ∈ keys <;> by_cases heq : objectKey = key <;> simp [hmem, heq]

/-! ### A validation -/

theorem compareFacts_status
    (h : (compareFacts r expected actual now).exec v = .ok ((), v')) :
    repairStatus v' r objectKey = ((repairStatus v r objectKey).or
      (if (findingOf expected actual objectKey).isSome = true then some .open else none)).map
        fun status =>
          if objectKey ∈ consistentKeys expected actual then .succeeded else status := by
  obtain ⟨_, u, hfindings, hresolve⟩ := Prog.exec_bind_ok h
  have hyields : (resolveAll r now (consistentKeys expected actual)).Yields u _ :=
    resolveAll_yields
  obtain ⟨_, w, hw, hstatus, -⟩ := hyields
  cases hw.symm.trans hresolve
  rw [hstatus, openFindings_status hfindings]
  have hiff : (objectKey ∈ keysToCompare expected actual ∧
      (findingOf expected actual objectKey).isSome = true)
        ↔ (findingOf expected actual objectKey).isSome = true :=
    ⟨And.right, fun hfound => ⟨mem_keysToCompare.mpr (mem_of_finding hfound), hfound⟩⟩
  simp only [hiff]

/-- **When the open targets are those of the keys found wrong**: no target is open whose key is in
neither list, and none has succeeded whose key is found wrong. -/
theorem openRepair_compareFacts
    (h : (compareFacts r expected actual now).exec v = .ok ((), v')) :
    (∀ key, OpenRepair v' r .objectStore key ↔ (findingOf expected actual key).isSome = true) ↔
      ∀ key, (repairStatus v r key = some .open → key ∈ keysOf expected ∨ key ∈ keysOf actual) ∧
        (repairStatus v r key = some .succeeded → findingOf expected actual key = none) := by
  refine forall_congr' fun key => ?_
  rw [openRepair_iff, compareFacts_status h]
  cases hfound : findingOf expected actual key with
  | some finding =>
    have hkey : key ∈ keysOf expected ∨ key ∈ keysOf actual := mem_of_finding (by rw [hfound]; rfl)
    have hnot : key ∉ consistentKeys expected actual := by
      rw [mem_consistentKeys, hfound]
      rintro ⟨-, ⟨⟩⟩
    cases repairStatus v r key with
    | none => simp [hnot]
    | some status => cases status <;> simp [hnot, hkey]
  | none =>
    by_cases hexpected : key ∈ keysOf expected
    · have hmem : key ∈ consistentKeys expected actual := mem_consistentKeys.mpr ⟨hexpected, hfound⟩
      simp [hmem, hexpected]
    · have hactual := notMem_of_notFinding hfound hexpected
      have hnot : key ∉ consistentKeys expected actual := fun hmem =>
        hexpected (mem_consistentKeys.mp hmem).1
      simp [hnot, hexpected, hactual]

end RagQs.Backup
