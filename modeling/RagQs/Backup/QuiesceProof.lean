import RagQs.Backup.Quiesce
import RagQs.Backup.SetProof
import RagQs.Txn.Yields

/-!
# What executions preserve

While a set is creating and a snapshot of it is recorded, the gate is closed for it and has not
changed since; an executor that works on a set that no other works on finds it so.

## Main definitions

* `Tidy` — what is recorded of a set was taken between two changes of the gate.
* `ExecutorOk`, `RecoveryOk` — what an executor, and a recovery, knows.
* `QuiesceInv` — what holds in every state.

## Main results

* `recorded_of_exec`, `failed_of_exec`, `created_of_exec` — the operations on sets.
* `QuiesceInv.work` — what has to be shown of a step of an executor.
-/

namespace RagQs.Backup

open Txn List Option Function Store

variable {v v' u : Db} {s t : Backups} {B B' : String} {kind : ComponentKind} {now : Time}
variable {status : SetStatus}
variable {row : BackupSetRow} {a : Unit} {shot : Shot} {todo : List ComponentKind}

/-! ### Operations on sets that run alone -/

/-- The set is creating. -/
def IsCreating (v : Db) (B : String) : Prop := statusOf v B = some .creating

/-- The set is complete or failed. -/
def Final (v : Db) (B : String) : Prop :=
  ∃ status, statusOf v B = some status ∧ status ≠ .creating

theorem statusOf_some (h : v.get (Key.set B) = some row) : statusOf v B = some row.status := by
  rw [statusOf, h, map_some]

theorem statusOf_same (h : setRegions.Same B v v') : statusOf v' B = statusOf v B := by
  unfold statusOf
  rw [h _ rfl]

theorem referenceOf_same (h : setRegions.Same B v v') :
    referenceOf v' B kind = referenceOf v B kind := by
  unfold referenceOf
  rw [h _ rfl]

theorem IsCreating.not_final (h : IsCreating v B) : ¬ Final v B := by
  rintro ⟨status, hstatus, hne⟩
  exact hne (some.inj (hstatus.symm.trans h))

theorem component_of_status (h : statusOf v B = some status) (hv : SetOk v B) (kind : ComponentKind) :
    ∃ c, v.get (Key.component B kind) = some c := by
  obtain ⟨row, hrow, -⟩ := map_eq_some_iff.mp h
  exact isSome_iff_exists.mp ((setOk_of_row hrow hv).1 kind)

theorem complete_iff (h : statusOf v B = some status) (hv : SetOk v B) :
    status = .complete ↔ AllSucceeded v B := by
  obtain ⟨row, hrow, rfl⟩ := map_eq_some_iff.mp h
  exact (setOk_of_row hrow hv).2

theorem setOk_set (hall : ∀ kind, (v.get (Key.component B kind)).isSome = true)
    (hiff : row.status = .complete ↔ AllSucceeded v B) :
    SetOk (v.set (Key.set B) (some row)) B := by
  have hcomponent : ∀ kind, (v.set (Key.set B) (some row)).get (Key.component B kind)
      = v.get (Key.component B kind) := fun kind => get_set_of_ne (by simp)
  unfold SetOk AllSucceeded
  simp only [hcomponent, get_set_self]
  exact ⟨hall, hiff⟩

/-- What the transaction that records a result leaves. -/
structure ShotRecorded (v v' : Db) (B : String) (kind : ComponentKind) : Prop where
  set : SetOk v' B
  status : statusOf v' B = some .creating ∨ statusOf v' B = some .complete
  others : ∀ kind', kind' ≠ kind →
    v'.get (Key.component B kind') = v.get (Key.component B kind')
  component : ∃ c, v'.get (Key.component B kind) = some c ∧ c.status = .succeeded

theorem exec_succeed (hv : SetOk v B) (hstatus : IsCreating v B) {reference : String}
    (h : (succeed B kind reference now).exec v = .ok (a, v')) : ShotRecorded v v' B kind := by
  obtain ⟨row, hrow, hcreating⟩ := map_eq_some_iff.mp hstatus
  obtain ⟨hall, -⟩ := setOk_of_row hrow hv
  obtain ⟨c, hc⟩ := isSome_iff_exists.mp (hall kind)
  obtain ⟨reference', -, hcheck⟩ := exec_check_bind h
  obtain ⟨x, u, hupdate, hmaybe⟩ := Prog.exec_bind_ok hcheck
  have hu := exec_updateWhere_bind hc rfl hupdate
  generalize huv : v.set (Key.component B kind) (some { c with
    status := .succeeded, reference := some reference', completedAt := some now }) = w at hu
  cases hu
  rename' huv => hu
  have hset : u.get (Key.set B) = some row := by
    rw [← hu, get_set_of_ne (by simp)]
    exact hrow
  have hothers : ∀ kind', kind' ≠ kind →
      u.get (Key.component B kind') = v.get (Key.component B kind') := by
    intro kind' hne
    rw [← hu, get_set_of_ne (by simpa using hne)]
  have hcomponent : u.get (Key.component B kind) = some { c with
      status := .succeeded, reference := some reference', completedAt := some now } := by
    rw [← hu, get_set_self]
  have hallu : ∀ kind', (u.get (Key.component B kind')).isSome = true := by
    intro kind'
    by_cases hkind : kind' = kind
    · rw [hkind, hcomponent, isSome_some]
    · rw [hothers kind' hkind]
      exact hall kind'
  have hrest := exec_select_bind hmaybe
  split at hrest
  · next hwait =>
    cases hrest
    refine ⟨?_, .inl ((statusOf_some hset).trans (congrArg some hcreating)), hothers, _, hcomponent,
      rfl⟩
    unfold SetOk
    rw [hset]
    refine ⟨hallu, iff_of_false ?_ fun hsucceeded => (allSucceeded_iff hallu).mp hsucceeded hwait⟩
    rw [hcreating]
    nofun
  · next hdone =>
    cases exec_updateWhere_bind hset rfl hrest
    have hother : ∀ kind', (u.set (Key.set B) (some { row with
        status := .complete, completedAt := some now })).get (Key.component B kind')
          = u.get (Key.component B kind') := fun kind' => get_set_of_ne (by simp)
    refine ⟨setOk_set hallu (iff_of_true rfl ((allSucceeded_iff hallu).mpr hdone)), .inr ?_,
      fun kind' hne => (hother kind').trans (hothers kind' hne), _, (hother kind).trans hcomponent,
      rfl⟩
    exact statusOf_some (get_set_self ..)

theorem exec_requireComponent {α : Type} {f : ComponentKind → Tx α} {a : α} (kind : ComponentKind)
    (h : (requireComponent B kind.text >>= f).exec v = .ok (a, v')) :
    (f kind).exec v = .ok (a, v') := by
  obtain ⟨kind', u, hrequire, hrest⟩ := Prog.exec_bind_ok h
  have hfound := exec_select_bind hrequire
  rw [ComponentKind.ofText_text, filter_some] at hfound
  split at hfound
  · cases hfound
    exact hrest
  · cases hfound

/-- **A result is recorded**, of a set that is creating. -/
theorem recorded_of_exec (hv : SetOk v B) (hstatus : IsCreating v B)
    (h : (shot.op B now).body.exec v = .ok (a, v')) : ShotRecorded v v' B shot.kind := by
  cases shot with
  | postgres reference =>
    obtain ⟨x, -, hrequire⟩ := exec_check_bind h
    exact exec_succeed hv hstatus (exec_requireComponent .postgresSnapshot hrequire)
  | objects reference =>
    obtain ⟨x, -, hrequire⟩ := exec_check_bind h
    exact exec_succeed hv hstatus (exec_requireComponent .objectStoreSnapshot hrequire)
  | manifest facts =>
    have hinsert := exec_requireComponent .objectManifest h
    obtain ⟨x, u, hobjects, hsucceed⟩ := Prog.exec_bind_ok hinsert
    have hother : setRegions.Same B v u := fun k hk => by
      refine Prog.get_of_exec (writes_insertObjects (W := fun k => ∃ key, k = Key.object key)
        fun key => ⟨key, rfl⟩) hobjects ?_
      rintro ⟨key, rfl⟩
      cases hk
    obtain ⟨hset, hstatus', hothers, hcomponent⟩ := exec_succeed (hv.same hother)
      ((statusOf_same hother).trans hstatus) hsucceed
    exact ⟨hset, hstatus', fun kind' hne => (hothers kind' hne).trans (hother _ rfl), hcomponent⟩

/-- What the transaction that fails a component leaves. -/
structure ShotFailed (v v' : Db) (B : String) : Prop where
  set : SetOk v' B
  final : Final v' B
  references : ∀ kind, referenceOf v' B kind = referenceOf v B kind

/-- **A component fails, and so does its set.** -/
theorem failed_of_exec (kind : ComponentKind) (now : Time) (hv : SetOk v B)
    (hstatus : statusOf v B = some status) {reason : String} (hreason : reason.length ≤ 512) :
    ShotFailed v (execOne SetOp.body v (.fail B kind.text reason now)) B := by
  obtain ⟨row, hrow, -⟩ := map_eq_some_iff.mp hstatus
  obtain ⟨hall, -⟩ := setOk_of_row hrow hv
  obtain ⟨c, hc⟩ := isSome_iff_exists.mp (hall kind)
  have hyields : (SetOp.body (.fail B kind.text reason now)).Yields v fun _ v' =>
      v' = (v.set (Key.component B kind) (some { c with
        status := .failed, failureReason := some reason, completedAt := some now })).set
          (Key.set B) (some { row with status := .failed, completedAt := some now }) := by
    refine .bind (Q := fun kind' u => kind = kind' ∧ v = u) ?_ ?_
    · refine .bind (Q := fun found u => some kind = found ∧ v = u) (.select ⟨?_, rfl⟩) ?_
      · rw [ComponentKind.ofText_text, filter_some, hc, isSome_some, if_pos rfl]
      · rintro _ _ ⟨rfl, rfl⟩
        exact .orRaise rfl ⟨rfl, rfl⟩
    rintro _ _ ⟨rfl, rfl⟩
    refine .bind (Q := fun reason' u => reason = reason' ∧ v = u)
      (.check (columnText_fits hreason) ⟨rfl, rfl⟩) ?_
    rintro _ _ ⟨rfl, rfl⟩
    refine .bind (Q := fun _ u => u = v.set (Key.component B kind) (some { c with
      status := .failed, failureReason := some reason, completedAt := some now })) ?_ ?_
    · refine .bind (Q := fun _ u => u = v.set (Key.component B kind) (some { c with
        status := .failed, failureReason := some reason, completedAt := some now }))
        (.updateWhere (fun hmiss => ?_) fun c' hc' _ => ?_) fun _ _ h => .done h
      · cases hmiss c hc
      · rw [some.inj (hc.symm.trans hc')]
    · rintro _ u rfl
      refine .bind (.updateWhere (fun hmiss => ?_) fun row' hrow' _ => ?_) fun _ _ h => .done h
      · cases hmiss row ((get_set_of_ne (by simp)).trans hrow)
      · rw [get_set_of_ne (by simp), hrow] at hrow'
        cases hrow'
        rfl
  obtain ⟨-, heq⟩ := hyields.execOne
  rw [heq]
  have hcomponent : ∀ kind', (v.set (Key.component B kind) (some { c with
      status := .failed, failureReason := some reason, completedAt := some now })).get
        (Key.component B kind') = if kind' = kind then some { c with
          status := .failed, failureReason := some reason, completedAt := some now }
            else v.get (Key.component B kind') := by
    intro kind'
    by_cases hkind : kind' = kind
    · subst hkind
      rw [if_pos rfl, get_set_self]
    · rw [if_neg hkind, get_set_of_ne (by simpa using hkind)]
  refine ⟨setOk_set (fun kind' => ?_) (iff_of_false nofun fun hsucceeded => ?_), ⟨.failed,
    statusOf_some (get_set_self ..), nofun⟩, fun kind' => ?_⟩
  · rw [hcomponent]
    split
    · rfl
    · exact hall kind'
  · obtain ⟨c', hc', hstatus'⟩ := hsucceeded kind
    rw [hcomponent, if_pos rfl] at hc'
    cases hc'
    cases hstatus'
  · unfold referenceOf
    rw [get_set_of_ne (by simp), hcomponent]
    split
    · next hkind =>
      rw [hkind, hc]
      rfl
    · rfl

/-- What the transaction that creates a set leaves. -/
structure SetCreated (v v' : Db) (B : String) : Prop where
  before : v.get (Key.set B) = none
  set : SetOk v' B
  references : ∀ kind, referenceOf v' B kind = none

theorem exec_insertComponents {kinds : List ComponentKind}
    (h : (insertComponents B now kinds).exec v = .ok (a, v')) :
    (∀ kind ∈ kinds, v'.get (Key.component B kind) = some ⟨.pending, now, none, none, none⟩) ∧
      ∀ k, (∀ kind ∈ kinds, k ≠ Key.component B kind) → v'.get k = v.get k := by
  induction kinds generalizing v with
  | nil =>
    cases h
    exact ⟨nofun, fun _ _ => rfl⟩
  | cons kind kinds ih =>
    obtain ⟨-, hrest⟩ := exec_insert_bind h
    rw [applyAll_cons, applyAll_nil] at hrest
    obtain ⟨hin, hout⟩ := ih hrest
    refine ⟨fun kind' hkind' => ?_, fun k hk => ?_⟩
    · by_cases hlater : kind' ∈ kinds
      · exact hin kind' hlater
      · obtain rfl := (mem_cons.mp hkind').resolve_right hlater
        rw [hout (Key.component B kind') fun kind'' hmem heq =>
          hlater ((Key.component.inj heq).2 ▸ hmem), get_set_self]
    · rw [hout k fun kind' hmem => hk kind' (mem_cons_of_mem _ hmem),
        get_set_of_ne (hk kind mem_cons_self)]

/-- **A set is created.** -/
theorem created_of_exec (h : (SetOp.body (.create B now)).exec v = .ok (a, v')) :
    SetCreated v v' B := by
  obtain ⟨hfree, hinsert⟩ := exec_insert_bind h
  rw [applyAll_cons, applyAll_nil] at hinsert
  obtain ⟨hin, hout⟩ := exec_insertComponents hinsert
  have hset : v'.get (Key.set B) = some ⟨.creating, now, none, none⟩ := by
    rw [hout _ (by simp), get_set_self]
  refine ⟨by simpa [taken] using hfree, ?_, fun kind => ?_⟩
  · unfold SetOk
    rw [hset]
    refine ⟨fun kind => ?_, iff_of_false (by simp) fun hsucceeded => ?_⟩
    · rw [hin kind kind.mem_all]
      rfl
    · obtain ⟨c, hc, hstatus⟩ := hsucceeded .postgresSnapshot
      rw [hin _ (ComponentKind.mem_all _)] at hc
      cases hc
      cases hstatus
  · unfold referenceOf
    rw [hin kind kind.mem_all]
    rfl

/-! ### What holds in every state -/

/-- The gate is closing or closed for the set. -/
def Holds (s : Backups) (B : String) : Prop :=
  ∃ row, s.gate = some row ∧ row.heldFor (some B) = true

/-- The gate is closed for the set. -/
def ClosedFor (s : Backups) (B : String) : Prop := s.gate = some ⟨.closed, some B⟩

/-- The gate, closed for the set, after so many changes. -/
def closedAt (B : String) (n : ℕ) : Stamp := ⟨some ⟨.closed, some B⟩, n⟩

/-- What is recorded of a set was taken between two changes of the gate, while it was closed for the
set; as long as the set is creating, that is still so. -/
structure Tidy (s : Backups) (B : String) : Prop where
  one : ∃ n, ∀ kind r, referenceOf s.db B kind = some r →
    s.taken B kind = some (closedAt B n, closedAt B n)
  held : IsCreating s.db B → ∀ kind r, referenceOf s.db B kind = some r →
    ClosedFor s B ∧ s.taken B kind = some (s.stamp, s.stamp)
  missing : IsCreating s.db B → ∀ kind c, s.db.get (Key.component B kind) = some c →
    c.status ≠ .succeeded → c.reference = none

/-- The components that have not succeeded. -/
def Todo (v : Db) (B : String) (todo : List ComponentKind) : Prop :=
  todo.Nodup ∧ ∀ kind, kind ∈ todo ↔
    ∃ c, v.get (Key.component B kind) = some c ∧ c.status ≠ .succeeded

/-- What an executor of a set knows. -/
def ExecutorOk (s : Backups) (B : String) : ExecutorPhase → Prop
  | .status => True
  | .ensure | .acquire => IsCreating s.db B
  | .drain | .close => IsCreating s.db B ∧ Holds s B
  | .kinds => IsCreating s.db B ∧ ClosedFor s B
  | .snapshot todo => Todo s.db B todo ∧
    (statusOf s.db B = some .complete ∨ (IsCreating s.db B ∧ ClosedFor s B))
  | .record shot since todo => IsCreating s.db B ∧ ClosedFor s B ∧
    Todo s.db B (shot.kind :: todo) ∧ since = s.stamp
  | .lookup reason => IsCreating s.db B ∧ (unsucceededKinds s.db B).length ≤ 1 ∧
    reason.length ≤ 512
  | .fail _ reason => (statusOf s.db B).isSome = true ∧ reason.length ≤ 512
  | .release => Final s.db B

/-- What a recovery knows: the gate it has read is that of a set that is there, and of one that is
complete or failed when it is to be opened. -/
def RecoveryOk (v : Db) : Recovery → Prop
  | .status B => ∃ B', B = some B' ∧ (statusOf v B').isSome = true
  | .update B => ∃ B', B = some B' ∧ Final v B'

/-- A gate that is not open is that of a set that is there. -/
def GateOk (s : Backups) : Prop :=
  ∀ row, s.gate = some row → row.state ≠ .open →
    ∃ B, row.backupId = some B ∧ (statusOf s.db B).isSome = true

/-- What holds in every state. -/
structure QuiesceInv (s : Backups) : Prop where
  sets : ∀ B, SetOk s.db B
  tidy : ∀ B, Tidy s B
  alone : ∀ i j e e', s.executors i = some e → s.executors j = some e' →
    e.backupId = e'.backupId → i = j
  executors : ∀ i e, s.executors i = some e → ExecutorOk s e.backupId e.phase
  gate : GateOk s
  recoveries : ∀ i r, s.recoveries i = some r → RecoveryOk s.db r

theorem ClosedFor.holds (h : ClosedFor s B) : Holds s B :=
  ⟨_, h, by simp [GateRow.heldFor]⟩

theorem Holds.inj (h : Holds s B) (h' : Holds s B') : B = B' := by
  obtain ⟨row, hrow, hheld⟩ := h
  obtain ⟨row', hrow', hheld'⟩ := h'
  cases hrow.symm.trans hrow'
  simp only [GateRow.heldFor, Bool.and_eq_true, decide_eq_true_eq] at hheld hheld'
  exact some.inj (hheld.2.symm.trans hheld'.2)

theorem ClosedFor.stamp (h : ClosedFor s B) : s.stamp = closedAt B s.changes := by
  rw [Backups.stamp, h]
  rfl

theorem Final.isSome (h : Final v B) : (statusOf v B).isSome = true := by
  obtain ⟨status, hstatus, -⟩ := h
  rw [hstatus, isSome_some]

theorem IsCreating.isSome (h : IsCreating v B) : (statusOf v B).isSome = true := by
  rw [h, isSome_some]

/-! ### Sets that a step is not about -/

theorem todo_same (h : setRegions.Same B v v') (ht : Todo v B todo) : Todo v' B todo := by
  refine ⟨ht.1, fun kind => ?_⟩
  rw [h _ rfl]
  exact ht.2 kind

theorem unsucceededKinds_same (h : setRegions.Same B v v') :
    unsucceededKinds v' B = unsucceededKinds v B := by
  unfold unsucceededKinds
  exact filter_congr fun kind _ => by rw [h _ rfl]

theorem ExecutorOk.frame {phase : ExecutorPhase} (h : ExecutorOk s B phase)
    (hrows : setRegions.Same B s.db t.db)
    (hgate : IsCreating s.db B → Holds s B → t.gate = s.gate ∧ t.changes = s.changes) :
    ExecutorOk t B phase := by
  have hstatus := statusOf_same hrows
  have hcreating : IsCreating s.db B → IsCreating t.db B := fun h => hstatus.trans h
  have hclosed : IsCreating s.db B → ClosedFor s B → ClosedFor t B := fun hB hclosed =>
    (hgate hB hclosed.holds).1.trans hclosed
  have hholds : IsCreating s.db B → Holds s B → Holds t B := by
    intro hB hheld
    obtain ⟨row, hrow, hrow'⟩ := hheld
    exact ⟨row, (hgate hB ⟨row, hrow, hrow'⟩).1.trans hrow, hrow'⟩
  cases phase with
  | status => trivial
  | ensure => exact hcreating h
  | acquire => exact hcreating h
  | drain => exact ⟨hcreating h.1, hholds h.1 h.2⟩
  | close => exact ⟨hcreating h.1, hholds h.1 h.2⟩
  | kinds => exact ⟨hcreating h.1, hclosed h.1 h.2⟩
  | snapshot todo =>
    refine ⟨todo_same hrows h.1, ?_⟩
    rcases h.2 with hcomplete | ⟨hB, hgate⟩
    · exact .inl (hstatus.trans hcomplete)
    · exact .inr ⟨hcreating hB, hclosed hB hgate⟩
  | record shot since todo =>
    obtain ⟨hB, hgate', htodo, hsince⟩ := h
    refine ⟨hcreating hB, hclosed hB hgate', todo_same hrows htodo, ?_⟩
    obtain ⟨hsame, hchanges⟩ := hgate hB hgate'.holds
    rw [Backups.stamp, hsame, hchanges]
    exact hsince
  | lookup reason =>
    refine ⟨hcreating h.1, ?_, h.2.2⟩
    rw [unsucceededKinds_same hrows]
    exact h.2.1
  | fail kind reason =>
    refine ⟨?_, h.2⟩
    rw [hstatus]
    exact h.1
  | release =>
    obtain ⟨status, hs, hne⟩ := h
    exact ⟨status, hstatus.trans hs, hne⟩

theorem Tidy.frame (h : Tidy s B) (hrows : setRegions.Same B s.db t.db)
    (hgate : IsCreating s.db B → Holds s B → t.gate = s.gate ∧ t.changes = s.changes)
    (htaken : t.taken B = s.taken B) : Tidy t B := by
  refine ⟨?_, fun hB kind r hr => ?_, fun hB kind c hc hstatus => ?_⟩
  · obtain ⟨n, hn⟩ := h.one
    refine ⟨n, fun kind r hr => ?_⟩
    rw [referenceOf_same hrows] at hr
    rw [htaken]
    exact hn kind r hr
  · rw [referenceOf_same hrows] at hr
    have hB' : IsCreating s.db B := (statusOf_same hrows).symm.trans hB
    obtain ⟨hclosed, htaken'⟩ := h.held hB' kind r hr
    obtain ⟨hsame, hchanges⟩ := hgate hB' hclosed.holds
    refine ⟨hsame.trans hclosed, ?_⟩
    rw [htaken, Backups.stamp, hsame, hchanges]
    exact htaken'
  · rw [hrows _ rfl] at hc
    exact h.missing ((statusOf_same hrows).symm.trans hB) kind c hc hstatus

/-! ### Steps about one set -/

/-- A step about one set: other sets are left as they are, and so is the gate while it is held for
one of them that is creating; of the set itself no reference is lost. -/
structure Work (s t : Backups) (B : String) : Prop where
  rows : ∀ B', B' ≠ B → setRegions.Same B' s.db t.db
  gate : ∀ B', B' ≠ B → IsCreating s.db B' → Holds s B' →
    t.gate = s.gate ∧ t.changes = s.changes
  taken : ∀ B', B' ≠ B → t.taken B' = s.taken B'
  set : SetOk t.db B
  tidy : Tidy t B
  present : (statusOf s.db B).isSome = true → (statusOf t.db B).isSome = true
  final : Final s.db B → Final t.db B
  gateOk : GateOk t
  kept : ∀ kind r, referenceOf s.db B kind = some r →
    referenceOf t.db B kind = some r ∧ t.taken B kind = s.taken B kind
  recoveries : t.recoveries = s.recoveries

namespace Work

theorem isSome (h : Work s t B) (B' : String) (hB' : (statusOf s.db B').isSome = true) :
    (statusOf t.db B').isSome = true := by
  by_cases heq : B' = B
  · subst heq
    exact h.present hB'
  · rw [statusOf_same (h.rows B' heq)]
    exact hB'

theorem recoveryOk (h : Work s t B) {r : Recovery} (hr : RecoveryOk s.db r) : RecoveryOk t.db r := by
  cases r with
  | status B' =>
    obtain ⟨B', rfl, hpresent⟩ := hr
    exact ⟨B', rfl, h.isSome B' hpresent⟩
  | update B' =>
    obtain ⟨B', rfl, hfinal⟩ := hr
    refine ⟨B', rfl, ?_⟩
    by_cases heq : B' = B
    · subst heq
      exact h.final hfinal
    · obtain ⟨status, hstatus, hne⟩ := hfinal
      exact ⟨status, (statusOf_same (h.rows B' heq)).trans hstatus, hne⟩

theorem kept_all (h : Work s t B) (B' : String) (kind : ComponentKind) (r : String)
    (hr : referenceOf s.db B' kind = some r) :
    referenceOf t.db B' kind = some r ∧ t.taken B' kind = s.taken B' kind := by
  by_cases heq : B' = B
  · subst heq
    exact h.kept kind r hr
  · rw [referenceOf_same (h.rows B' heq), h.taken B' heq]
    exact ⟨hr, rfl⟩

end Work

/-- **What has to be shown of a step about one set.** -/
theorem QuiesceInv.work (h : QuiesceInv s) (hw : Work s t B) {executors : ℕ → Option Executor}
    {recoveries : ℕ → Option Recovery}
    (halone : ∀ i j e e', executors i = some e → executors j = some e' →
      e.backupId = e'.backupId → i = j)
    (hexecutors : ∀ i e, executors i = some e → (e.backupId ≠ B ∧ s.executors i = some e) ∨
      ExecutorOk t e.backupId e.phase)
    (hrecoveries : ∀ i r, recoveries i = some r → s.recoveries i = some r ∨ RecoveryOk t.db r) :
    QuiesceInv { t with executors := executors, recoveries := recoveries } := by
  have hsets : ∀ B', SetOk t.db B' := by
    intro B'
    by_cases heq : B' = B
    · subst heq
      exact hw.set
    · exact (h.sets B').same (hw.rows B' heq)
  have htidy : ∀ B', Tidy t B' := by
    intro B'
    by_cases heq : B' = B
    · subst heq
      exact hw.tidy
    · exact (h.tidy B').frame (hw.rows B' heq) (hw.gate B' heq) (hw.taken B' heq)
  have hframe : ∀ {B phase}, ExecutorOk t B phase →
      ExecutorOk { t with executors := executors, recoveries := recoveries } B phase :=
    fun h => h.frame (fun _ _ => rfl) fun _ _ => ⟨rfl, rfl⟩
  refine ⟨hsets, fun B' => (htidy B').frame (fun _ _ => rfl) (fun _ _ => ⟨rfl, rfl⟩) rfl, halone,
    fun i e he => hframe ?_, hw.gateOk, fun i r hr => ?_⟩
  · rcases hexecutors i e he with ⟨hne, hold⟩ | hnew
    · exact (h.executors i e hold).frame (hw.rows _ hne) (hw.gate _ hne)
    · exact hnew
  · rcases hrecoveries i r hr with hold | hnew
    · exact hw.recoveryOk (h.recoveries i r hold)
    · exact hnew

namespace Work

theorem refl (h : QuiesceInv s) : Work s s B where
  rows _ _ _ _ := rfl
  gate _ _ _ _ := ⟨rfl, rfl⟩
  taken _ _ := rfl
  set := h.sets B
  tidy := h.tidy B
  present h := h
  final h := h
  gateOk := h.gate
  kept _ _ hr := ⟨hr, rfl⟩
  recoveries := rfl

theorem setGate (h : QuiesceInv s) {row : GateRow}
    (hothers : ∀ B', B' ≠ B → IsCreating s.db B' → ¬ Holds s B')
    (hself : IsCreating s.db B → ¬ ClosedFor s B)
    (hrow : row.state ≠ .open → row.backupId = some B ∧ (statusOf s.db B).isSome = true) :
    Work s (s.setGate row) B where
  rows _ _ _ _ := rfl
  gate B' hne hB' hheld := absurd hheld (hothers B' hne hB')
  taken _ _ := rfl
  set := h.sets B
  tidy := by
    refine ⟨(h.tidy B).one, fun hB kind r hr => ?_, (h.tidy B).missing⟩
    exact absurd ((h.tidy B).held hB kind r hr).1 (hself hB)
  present h := h
  final h := h
  gateOk row' hrow' hopen := by
    cases hrow'
    exact ⟨B, hrow hopen⟩
  kept _ _ hr := ⟨hr, rfl⟩
  recoveries := rfl

end Work

theorem SetOp.same_of_ne (op : SetOp) (hB : B ≠ op.backupId) :
    setRegions.Same B v (execOne SetOp.body v op) := by
  intro k hk
  refine Prog.get_execOne op.writes_setRow ?_
  rintro (hk' | ⟨key, rfl⟩)
  · exact hB (some.inj (hk.symm.trans hk'))
  · cases hk

theorem Shot.op_backupId (shot : Shot) : (shot.op B now).backupId = B := by
  cases shot <;> rfl

theorem recordShot_some {since : Stamp} (h : recordShot s B shot since now = some t) :
    (∃ a, (shot.op B now).body.exec s.db = .ok (a, t.db)) ∧ t.gate = s.gate ∧
      t.changes = s.changes ∧ t.recoveries = s.recoveries ∧
      t.taken = update s.taken B
        (update (s.taken B) shot.kind (some (since, s.stamp))) := by
  unfold recordShot at h
  split at h
  · cases h
  · next x hexec =>
    cases h
    exact ⟨⟨x.1, hexec⟩, rfl, rfl, rfl, rfl⟩

/-- **A result is recorded** while the gate is closed for the set, by the executor that has taken the
snapshot since. -/
theorem work_recordShot (h : QuiesceInv s) (hB : IsCreating s.db B) (hclosed : ClosedFor s B)
    (htodo : Todo s.db B (shot.kind :: todo)) (hrecord : recordShot s B shot s.stamp now = some t) :
    Work s t B ∧ ExecutorOk t B (.snapshot todo) := by
  obtain ⟨hnodup, hmem⟩ := htodo
  obtain ⟨⟨a, hexec⟩, hgate, hchanges, hrecoveries, htaken⟩ := recordShot_some hrecord
  obtain ⟨hset, hstatus, hothers, c, hc, hsucceeded⟩ := recorded_of_exec (h.sets B) hB hexec
  have hrows : ∀ B', B' ≠ B → setRegions.Same B' s.db t.db := by
    intro B' hne
    have hsame : setRegions.Same B' s.db (execOne SetOp.body s.db (shot.op B now)) :=
      (shot.op B now).same_of_ne fun heq => hne (heq.trans shot.op_backupId)
    rw [execOne, hexec] at hsame
    exact hsame
  have hnotin : shot.kind ∉ todo := (nodup_cons.mp hnodup).1
  have hclosed' : ClosedFor t B := hgate.trans hclosed
  have hstamp : t.stamp = s.stamp := by rw [Backups.stamp, hgate, hchanges, Backups.stamp]
  have hpresent : (statusOf t.db B).isSome = true := by
    rcases hstatus with hstatus | hstatus
    · rw [hstatus, isSome_some]
    · rw [hstatus, isSome_some]
  have htakenB : t.taken B = update (s.taken B) shot.kind (some (s.stamp, s.stamp)) := by
    rw [htaken, update_self]
  have hreference : ∀ kind', kind' ≠ shot.kind →
      referenceOf t.db B kind' = referenceOf s.db B kind' := by
    intro kind' hne
    unfold referenceOf
    rw [hothers kind' hne]
  -- every snapshot of the set that is recorded was taken at this time of the gate
  have hall : ∀ kind' r, referenceOf t.db B kind' = some r →
      t.taken B kind' = some (s.stamp, s.stamp) := by
    intro kind' r hr
    rw [htakenB]
    by_cases hkind : kind' = shot.kind
    · rw [hkind, update_self]
    · rw [update_of_ne hkind]
      exact ((h.tidy B).held hB kind' r (hreference kind' hkind ▸ hr)).2
  constructor
  · constructor
    case rows => exact hrows
    case gate => exact fun _ _ _ _ => ⟨hgate, hchanges⟩
    case taken =>
      intro B' hne
      rw [htaken, update_of_ne hne]
    case set => exact hset
    case tidy =>
      refine ⟨⟨s.changes, fun kind' r hr => ?_⟩, fun _ kind' r hr => ⟨hclosed', ?_⟩,
        fun _ kind' c' hc' hne => ?_⟩
      · rw [← hclosed.stamp]
        exact hall kind' r hr
      · rw [hstamp]
        exact hall kind' r hr
      · by_cases hkind : kind' = shot.kind
        · subst hkind
          cases hc.symm.trans hc'
          exact absurd hsucceeded hne
        · rw [hothers kind' hkind] at hc'
          exact (h.tidy B).missing hB kind' c' hc' hne
    case present => exact fun _ => hpresent
    case final => exact fun hfinal => absurd hfinal hB.not_final
    case gateOk =>
      intro row hrow _
      cases hclosed'.symm.trans hrow
      exact ⟨B, rfl, hpresent⟩
    case kept =>
      intro kind' r hr
      by_cases hkind : kind' = shot.kind
      · -- what is recorded had not succeeded, and had no reference
        subst hkind
        obtain ⟨c', hc', hne⟩ := (hmem _).mp mem_cons_self
        rw [referenceOf, hc', bind_some, (h.tidy B).missing hB _ c' hc' hne] at hr
        cases hr
      · rw [hreference kind' hkind, htakenB, update_of_ne hkind]
        exact ⟨hr, rfl⟩
    case recoveries => exact hrecoveries
  · refine ⟨⟨(nodup_cons.mp hnodup).2, fun kind' => ?_⟩, ?_⟩
    · by_cases hkind : kind' = shot.kind
      · subst hkind
        refine iff_of_false hnotin ?_
        rintro ⟨c', hc', hne⟩
        cases hc.symm.trans hc'
        exact hne hsucceeded
      · rw [hothers kind' hkind, ← hmem kind', mem_cons]
        exact ⟨.inr, fun hmem => hmem.resolve_left hkind⟩
    · rcases hstatus with hstatus | hstatus
      · exact .inr ⟨hstatus, hclosed'⟩
      · exact .inl hstatus

/-- **A component fails**, whatever the set has become. -/
theorem work_markFailed (kind : ComponentKind) (now : Time) (h : QuiesceInv s) {reason : String}
    (hB : (statusOf s.db B).isSome = true) (hreason : reason.length ≤ 512) :
    Work s (markFailed s B kind reason now) B ∧ Final (markFailed s B kind reason now).db B := by
  obtain ⟨status, hstatus⟩ := isSome_iff_exists.mp hB
  obtain ⟨hset, hfinal, hreferences⟩ := failed_of_exec kind now (h.sets B) hstatus hreason
  refine ⟨⟨fun B' hne => SetOp.same_of_ne _ hne, fun _ _ _ _ => ⟨rfl, rfl⟩, fun _ _ => rfl, hset,
    ⟨?_, fun hcreating => absurd hfinal hcreating.not_final,
      fun hcreating => absurd hfinal hcreating.not_final⟩, fun _ => hfinal.isSome,
    fun _ => hfinal, fun row hrow hopen => ?_, fun kind' r hr => ⟨?_, rfl⟩, rfl⟩, hfinal⟩
  · obtain ⟨n, hn⟩ := (h.tidy B).one
    exact ⟨n, fun kind' r hr => hn kind' r ((hreferences kind').symm.trans hr)⟩
  · obtain ⟨B', hB', hpresent⟩ := h.gate row hrow hopen
    refine ⟨B', hB', ?_⟩
    by_cases heq : B' = B
    · subst heq
      exact hfinal.isSome
    · have hsame : setRegions.Same B' s.db (markFailed s B kind reason now).db :=
        SetOp.same_of_ne (.fail B kind.text reason now) heq
      rw [statusOf_same hsame]
      exact hpresent
  · exact (hreferences kind').trans hr

end RagQs.Backup
