import RagQs.Backup.SetProof

/-!
# Runs of operations on backup sets

In a run whose operations are made on sets that are still creating, with manifests whose keys no set
has recorded, and in which no two open transactions have pending writes of one set, a set is
complete if and only if its components have succeeded, a set that is not creating any more stays as
it is, and a manifest is always recorded.

The key of an object is unique over all sets, so the second manifest with a key is refused.

## Main definitions

* `Careful` — the condition on the moves of a run.
* `Stored` — the objects of a set are those of a manifest.

## Main results

* `commit_leaves` — what a commit leaves of every set.
* `backupSets_complete` — runs of careful moves.
* `sharedKey_refused` — a run in which a manifest is refused.
-/

namespace RagQs.Backup

open Txn Option Store

variable {x : Session Row SetOp Err Unit} {facts : List ObjectFact}

/-- The system of the operations on backup sets. -/
abbrev SetSys := Sys Row SetOp Err Unit

/-- One move of the operations on backup sets. -/
abbrev setStep : SetSys → Move SetOp → Option SetSys := Txn.step SetOp.body

/-- **The condition on a run**: every move of a transaction is made on a state that is calm for its
operation, and no statement writes a set while another open transaction has pending writes of it. -/
def Careful (ms : List (Move SetOp)) : Prop :=
  Machine.Moves setStep (setRegions.Apart Calm) (Sys.init ∅) ms

/-- The objects of the set are those of the facts. -/
def Stored (c : Db) (backupId : String) (facts : List ObjectFact) : Prop :=
  ∀ key row, (c.get (Key.object key) = some row ∧ row.backupId = backupId) ↔
    ∃ fact ∈ facts, fact.objectKey = key ∧
      row = ⟨backupId, fact.sizeBytes, fact.sha256, fact.metadata⟩

variable {ms ms₁ ms₂ : List (Move SetOp)} {s t : SetSys} {B : String} {c c' c'' d : Db}

/-! ### What a commit leaves -/

theorem Kept.of_same (h : setRegions.Same B c c') : Kept c c' B := by
  refine fun r hr _ => ⟨⟨r, (h _ rfl).trans hr, rfl⟩, fun kind => ?_⟩
  unfold referenceOf
  rw [h _ rfl]

theorem Kept.trans (h : Kept c c' B) (h' : Kept c' c'' B) : Kept c c'' B := by
  intro r hr hne
  obtain ⟨⟨r', hr', hstatus⟩, href⟩ := h r hr hne
  obtain ⟨⟨r'', hr'', hstatus'⟩, href'⟩ := h' r' hr' (hstatus ▸ hne)
  exact ⟨⟨r'', hr'', hstatus'.trans hstatus⟩, fun kind => (href' kind).trans (href kind)⟩

/-- All sets are as they should be. -/
abbrev AllOk (c : Db) : Prop := ∀ B, SetOk c B

/-- **What a commit leaves of every set.** -/
theorem commit_leaves {i : ℕ} {u : Unit}
    (hs : setRegions.Solo (fun op d c => Calm op d c ∧ AllOk c) SetOp.body (Sys.init ∅) ms s)
    (hok : AllOk s.db) (hcalm : Calm x.op x.patch s.db) (hx : s.sessions i = some x)
    (hdone : x.prog = .done u) (B : String) :
    SetOk (x.patch ∪ s.db) B ∧ Kept s.db (x.patch ∪ s.db) B := by
  by_cases hB : setRegions.Pends B x.patch
  swap
  · exact ⟨(hok B).same (.union hB), .of_same (.union hB)⟩
  obtain rfl : B = x.op.backupId := Regions.of_eq_of_pends (hs.own i x hx) hB
  have hidle : Idle x.op.backupId (∅ : Db) := fun ⟨k, hk, _⟩ => AList.notMem_empty k hk
  have hcreating : Creating s.db x.op.backupId → Kept s.db (x.patch ∪ s.db) x.op.backupId :=
    fun h r hr hne => absurd (h r hr) hne
  obtain ⟨op, prog, d, n⟩ := x
  cases op with
  | create B now =>
    have hleft := hs.left hx (φ := (· = ∅)) rfl (leaves_create.pre (by rintro _ rfl; exact hidle))
    exact ⟨(hleft.1 u hdone).1, fun r hr => by cases (hleft.1 u hdone).2.symm.trans hr⟩
  | record B facts now =>
    have hleft := hs.left hx (φ := (· = ∅)) rfl (leaves_record (Q := fun _ => True)
      (fun d c h => ⟨h.1.1, h.1.2 B, trivial⟩) (hok B))
    exact ⟨(hleft.1 u hdone).1, hcreating hcalm.1⟩
  | complete B kind reference now =>
    have hleft := hs.left hx (φ := (· = ∅)) rfl ((leaves_complete
      (fun d c h => ⟨h.1.1, h.1.2 B⟩) (hok B)).pre (by rintro _ rfl; exact hidle))
    exact ⟨hleft.1 u hdone, hcreating hcalm⟩
  | fail B kind reason now =>
    have hleft := hs.left hx (φ := (· = ∅)) rfl ((leaves_fail (hok B) hcalm).pre
      (by rintro _ rfl; exact hidle))
    exact hleft.1 u hdone

/-- **The committed sets and the open transactions of a careful run.** -/
theorem careful_run (hms : Careful ms) (h : run SetOp.body (Sys.init ∅) ms = some s) :
    AllOk s.db ∧
      setRegions.Solo (fun op d c => Calm op d c ∧ AllOk c) SetOp.body (Sys.init ∅) ms s := by
  refine Regions.invariant_of_run SetOp.writes (fun _ => rfl) (fun B => ?_) ?_ hms h
  · exact fun _ => rfl
  · intro ms s i x u hs hok hcalm hx hdone B
    exact (commit_leaves hs hok hcalm hx hdone B).1

theorem Careful.of_append (hms : Careful (ms₁ ++ ms₂)) (h : run SetOp.body (Sys.init ∅) ms₁ = some s) :
    Careful ms₁ ∧ Machine.Moves setStep (setRegions.Apart Calm) s ms₂ :=
  Machine.moves_append hms ((machine_run ..).trans h)

theorem kept_of_run (hms : Careful (ms₁ ++ ms₂)) (h : run SetOp.body (Sys.init ∅) ms₁ = some s)
    (h' : run SetOp.body s ms₂ = some t) (B : String) : Kept s.db t.db B := by
  induction ms₂ using List.reverseRecOn generalizing t with
  | nil =>
    cases h'
    exact .of_same .refl
  | append_singleton ms₂ m ih =>
    rw [run_append, bind_eq_some_iff] at h'
    obtain ⟨u, hu, hm⟩ := h'
    rw [run, bind_eq_some_iff] at hm
    obtain ⟨t, hm, ht⟩ := hm
    cases ht
    have hrun : run SetOp.body (Sys.init ∅) (ms₁ ++ ms₂) = some u := by
      rw [run_append, h]
      exact hu
    rw [← List.append_assoc] at hms
    obtain ⟨hbefore, hlast⟩ := hms.of_append hrun
    refine (ih hbefore hu).trans ?_
    rcases step_ends hm with hdb | ⟨i, op, a, d, n, rfl, hx, hdb⟩
    · rw [hdb]
      exact .of_same .refl
    · obtain ⟨hok, hsolo⟩ := careful_run hbefore hrun
      rw [hdb]
      exact (commit_leaves hsolo hok (hlast.1.holds i _ rfl hx) hx rfl B).2

/-! ### Manifests -/

theorem objectRow_ok {fact : ObjectFact} {row : ObjectRow} (h : objectRow B fact = .ok row) :
    row = ⟨B, fact.sizeBytes, fact.sha256, fact.metadata⟩ := by
  unfold objectRow at h
  cases hkey : columnText 512 fact.objectKey with
  | error e => simp [hkey, bind, Except.bind] at h
  | ok key =>
    cases hsha256 : columnText 64 fact.sha256 with
    | error e => simp [hkey, hsha256, bind, Except.bind] at h
    | ok sha256 =>
      simp only [hkey, hsha256, bind, Except.bind] at h
      obtain rfl := columnText_ok hsha256
      split at h
      · cases h
      · split at h <;> cases h
        rfl

theorem Stored.of_objectsIn (h : ObjectsIn B facts d)
    (hfree : ∀ key row, c.get (Key.object key) = some row → row.backupId ≠ B) :
    Stored (d ∪ c) B facts := by
  intro key row
  constructor
  · rintro ⟨hget, hB⟩
    by_cases hmem : Key.object key ∈ d
    · rw [get_union_of_mem hmem] at hget
      obtain ⟨fact, hfact, rfl⟩ := h.only key hmem
      obtain ⟨row', hrow', -, hget'⟩ := h.stored fact hfact
      cases hget'.symm.trans hget
      exact ⟨fact, hfact, rfl, objectRow_ok hrow'⟩
    · rw [get_union_of_notMem hmem] at hget
      exact absurd hB (hfree key row hget)
  · rintro ⟨fact, hfact, rfl, rfl⟩
    obtain ⟨row', hrow', hmem, hget⟩ := h.stored fact hfact
    rw [get_union_of_mem hmem, hget, objectRow_ok hrow']
    exact ⟨rfl, rfl⟩

theorem record_ends (hms : Careful ms) (h : run SetOp.body (Sys.init ∅) ms = some s) {i : ℕ}
    {now : Time} (hx : s.sessions i = some x) (hop : x.op = .record B facts now) :
    (∀ u, x.prog = .done u → ObjectsIn B facts x.patch) ∧
      ∀ e, x.prog = .fail e → e = componentNotFound ∧
        ∃ c, During SetOp.body (Sys.init ∅) ms i c ∧ c.get (Key.set B) = none := by
  obtain ⟨hok, hsolo⟩ := careful_run hms h
  obtain ⟨op, prog, d, n⟩ := x
  obtain rfl : op = .record B facts now := hop
  have hleft := hsolo.left hx (φ := (· = ∅)) rfl
    (leaves_record (Q := fun c => During SetOp.body (Sys.init ∅) ms i c ∧ SetOk c B)
      (fun d c h => ⟨h.1.1, h.1.2 B, h.2, h.1.2 B⟩) (hok B))
  refine ⟨fun u hu => (hleft.1 u hu).2, fun e he => ?_⟩
  obtain ⟨rfl, c, ⟨hduring, hc⟩, hnone⟩ := hleft.2 e he
  refine ⟨rfl, c, hduring, ?_⟩
  cases hset : c.get (Key.set B) with
  | none => rfl
  | some r =>
    have hsome : (c.get (Key.component B .objectManifest)).isSome = true :=
      (setOk_of_row hset hc).1 .objectManifest
    rw [show c.get (Key.component B .objectManifest) = none from hnone] at hsome
    cases hsome

/-- **Backup sets complete exactly when they should**, in runs whose moves are careful: a set is
complete if and only if its components have succeeded; a set that is not creating any more keeps its
status and its references; and a manifest of a set that is there is recorded, with the objects it
has. -/
theorem backupSets_complete (hms : Careful ms) :
    (∀ s, Machine.Reaches setStep (Sys.init ∅) ms s → ∀ B r, s.db.get (Key.set B) = some r →
      (r.status = .complete ↔ AllSucceeded s.db B)) ∧
    (∀ ms₁ ms₂ s t, ms₁ ++ ms₂ <+: ms → run SetOp.body (Sys.init ∅) ms₁ = some s →
      run SetOp.body s ms₂ = some t → ∀ B, Kept s.db t.db B) ∧
    ∀ i s t, Machine.At setStep (Sys.init ∅) ms (.advance i) s t →
      ∀ x B facts now, s.sessions i = some x → x.op = .record B facts now →
        (∀ u, x.prog = .done u → Stored t.db B facts) ∧
        ∀ e, x.prog = .fail e → e = componentNotFound ∧ ∃ ms₁ c, ms₁ <+: ms ∧
          During SetOp.body (Sys.init ∅) ms₁ i c ∧ c.get (Key.set B) = none := by
  refine ⟨fun s hs B r hr => ?_, fun ms₁ ms₂ s t hprefix hs ht B => ?_,
    fun i s t hat x B facts now hx hop => ?_⟩
  · obtain ⟨ms₁, ⟨ms₂, rfl⟩, hrun⟩ := hs
    rw [machine_run] at hrun
    exact (setOk_of_row hr ((careful_run (hms.of_append hrun).1 hrun).1 B)).2
  · obtain ⟨ms₃, rfl⟩ := hprefix
    refine kept_of_run (Careful.of_append hms (s := t) ?_).1 hs ht B
    rw [run_append, hs]
    exact ht
  · obtain ⟨ms₁, ⟨ms₂, rfl⟩, hrun, hstep⟩ := hat
    rw [machine_run] at hrun
    rw [List.append_assoc] at hms
    obtain ⟨hbefore, hlast⟩ := hms.of_append hrun
    obtain ⟨hdone, hfail⟩ := record_ends hbefore hrun hx hop
    refine ⟨fun u hu => ?_, fun e he => ?_⟩
    · have hcalm := hlast.1.holds i x rfl hx
      obtain ⟨op, prog, d, n⟩ := x
      obtain rfl : op = .record B facts now := hop
      obtain rfl : prog = .done u := hu
      have hdb : t.db = d ∪ s.db := by
        simp only [setStep, Txn.step, hx] at hstep
        cases hstep
        rfl
      rw [hdb]
      exact .of_objectsIn (hdone u rfl) hcalm.2.1
    · obtain ⟨rfl, c, hduring, hnone⟩ := hfail e he
      exact ⟨rfl, ms₁, c, ⟨[.advance i] ++ ms₂, (List.append_assoc ..).symm⟩, hduring, hnone⟩

/-! ### Runs -/

/-- A test of what an operation is made on. -/
def calmTest (op : SetOp) (c : Db) : Bool :=
  match op with
  | .create _ _ => true
  | .record B facts _ =>
    (c.get (Key.set B)).all (·.status = .creating) &&
    c.rows.all (fun
      | ⟨.object _, row⟩ => row.backupId ≠ B
      | _ => true) &&
    facts.all (fun fact => (c.get (Key.object fact.objectKey)).isNone && (objectRow B fact).isOk) &&
    decide (facts.map ObjectFact.objectKey).Nodup &&
    (columnText 512 ("manifest:" ++ toString facts.length)).isOk
  | .complete B _ _ _ => (c.get (Key.set B)).all (·.status = .creating)
  | .fail B _ _ _ => (c.get (Key.set B)).all (·.status ≠ .complete)

theorem calm_of_calmTest {op : SetOp} (h : calmTest op c = true) : Calm op d c := by
  cases op with
  | create B now => trivial
  | record B facts now =>
    simp only [calmTest, Bool.and_eq_true, List.all_eq_true, decide_eq_true_eq,
      isNone_iff_eq_none, all_eq_true] at h
    obtain ⟨⟨⟨⟨hcreating, hfree⟩, hfacts⟩, hnodup⟩, href⟩ := h
    refine ⟨fun r hr => hcreating r hr, fun key row hget => ?_,
      fun fact hfact => (hfacts fact hfact).1, hnodup, fun fact hfact => (hfacts fact hfact).2,
      href⟩
    simpa using hfree ⟨Key.object key, row⟩ (mem_rows.mpr hget)
  | complete B kind reference now =>
    simp only [calmTest, all_eq_true, decide_eq_true_eq] at h
    exact h
  | fail B kind reason now =>
    simp only [calmTest, all_eq_true, decide_eq_true_eq] at h
    exact h

/-- A test of a move of the only transaction there is. -/
def aloneTest (s : SetSys) (m : Move SetOp) : Bool :=
  m.number = 0 && (s.sessions 0).all fun x => calmTest x.op s.db

theorem apart_of_aloneTest (hs : ∀ j, j ≠ 0 → s.sessions j = none) {m : Move SetOp}
    (h : aloneTest s m = true) : setRegions.Apart Calm s m := by
  simp only [aloneTest, Bool.and_eq_true, decide_eq_true_eq, all_eq_true] at h
  obtain ⟨hnumber, hcalm⟩ := h
  refine ⟨fun i x hm hx => ?_, fun i x hm _ _ j y hj hy => ?_⟩
  · subst hm
    obtain rfl : i = 0 := hnumber
    exact calm_of_calmTest (hcalm x hx)
  · subst hm
    obtain rfl : i = 0 := hnumber
    rw [hs j hj] at hy
    cases hy

theorem careful_of_aloneTest (h : Machine.checks setStep aloneTest (Sys.init ∅) ms = true) :
    Careful ms := by
  have hkeep : ∀ (s : SetSys) m t, (∀ j, j ≠ 0 → s.sessions j = none) → aloneTest s m = true →
      setStep s m = some t → ∀ j, j ≠ 0 → t.sessions j = none := by
    intro s m t hs hm hstep j hj
    simp only [aloneTest, Bool.and_eq_true, decide_eq_true_eq] at hm
    rw [step_sessions hstep (hm.1 ▸ hj.symm)]
    exact hs j hj
  exact Machine.moves_of_checks_inv (fun s m hs hm => apart_of_aloneTest hs hm) hkeep
    (fun _ _ => rfl) h

/-- A set whose manifest has one object, and whose snapshots are taken. -/
def oneSet : List (Move SetOp) :=
  alone 0 (.create "b1" 0) 5 ++ alone 0 (.record "b1" [⟨"o", 1, "h", []⟩] 1) 5 ++
    alone 0 (.complete "b1" "postgres_snapshot" "p" 2) 4 ++
    alone 0 (.complete "b1" "object_store_snapshot" "s" 3) 5

/-- **The set of a careful run is complete**, with the object of its manifest. -/
theorem backupSets_complete_oneSet :
    Careful oneSet ∧ ∃ s, run SetOp.body (Sys.init ∅) oneSet = some s ∧
      AllSucceeded s.db "b1" := by
  have hcareful : Careful oneSet := careful_of_aloneTest (by decide +kernel)
  have hend : (run SetOp.body (Sys.init ∅) oneSet).any (fun s =>
      (s.db.get (Key.set "b1")).any (·.status = .complete)) = true := by decide +kernel
  obtain ⟨s, hs, hcomplete⟩ := (Option.any_eq_true _ _).mp hend
  obtain ⟨r, hr, hstatus⟩ := (Option.any_eq_true _ _).mp hcomplete
  refine ⟨hcareful, s, hs, ?_⟩
  exact ((backupSets_complete hcareful).1 s ⟨oneSet, List.prefix_refl _, (machine_run ..).trans hs⟩
    "b1" r hr).mp (of_decide_eq_true hstatus)

/-- Two sets with an object in common. -/
def sharedKey : List (Move SetOp) :=
  alone 0 (.create "b1" 0) 5 ++ alone 0 (.record "b1" [⟨"o", 1, "h", []⟩] 1) 5 ++
    alone 0 (.create "b2" 2) 5 ++ alone 0 (.record "b2" [⟨"o", 1, "h", []⟩] 3) 3

/-- The manifest was of the set, and was refused. -/
def manifestRefused (backupId : String) (e : Ended SetOp Err Unit) : Bool :=
  match e.op, e.result with
  | .record B facts _, .error _ =>
    B = backupId && decide (facts.map ObjectFact.objectKey).Nodup
  | _, _ => false

/-- **The manifest of a set that is creating is refused**, because another set has recorded the
same object. -/
theorem sharedKey_refused :
    ∃ s, run SetOp.body (Sys.init ∅) sharedKey = some s ∧
      (∃ r, s.db.get (Key.set "b2") = some r ∧ r.status = .creating) ∧
      ∃ e ∈ s.hist, manifestRefused "b2" e = true := by
  have hend : (run SetOp.body (Sys.init ∅) sharedKey).any (fun s =>
      (s.db.get (Key.set "b2")).any (·.status = .creating) &&
        s.hist.any (manifestRefused "b2")) = true := by decide +kernel
  obtain ⟨s, hs, hend⟩ := (Option.any_eq_true _ _).mp hend
  rw [Bool.and_eq_true, Option.any_eq_true, List.any_eq_true] at hend
  obtain ⟨⟨r, hr, hstatus⟩, e, he, hrefused⟩ := hend
  exact ⟨s, hs, ⟨r, hr, of_decide_eq_true hstatus⟩, e, he, hrefused⟩

end RagQs.Backup
