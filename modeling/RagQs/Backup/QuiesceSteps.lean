import RagQs.Backup.QuiesceProof

/-!
# What an executor does

A step of an executor that no other executor of its set interferes with leaves what is recorded tidy,
and it ends with its set complete or failed, and the gate not held for it, where none of the
exceptions is raised that its handlers do not survive.

## Main definitions

* `ExecutorPhase.gated` — the executor has got the gate.
* `Survives` — the condition on what a step raises.
* `Stepped` — what a step does.

## Main results

* `stepped_executorStep` — **a step of an executor.**
-/

namespace RagQs.Backup

open Txn Option

variable {s t : Backups} {B : String} {phase : ExecutorPhase} {a : Answer}
variable {kind : ComponentKind}
variable {todo : List ComponentKind} {next : ExecutorPhase}

/-- The executor has acquired the gate, or has found it held for its set. -/
def ExecutorPhase.gated : ExecutorPhase → Bool
  | .status | .ensure | .acquire => false
  | _ => true

/-- The executor is on its way to a snapshot. -/
def ExecutorPhase.quiesces : ExecutorPhase → Bool
  | .drain | .close | .kinds | .record _ _ _ => true
  | .snapshot todo => todo ≠ []
  | _ => false

/-- **The condition on what a step raises**: the gate is not acquired by a statement that raises
nevertheless; what is raised outside the snapshots is raised when one component at most has not
succeeded; the query for that component does not raise, the component is failed, and the gate is
released. -/
def Survives (s : Backups) (B : String) (a : Answer) : ExecutorPhase → Prop
  | .acquire => a.outcome ≠ .raisedAfter
  | .drain | .close | .kinds => a.outcome ≠ .ok → (unsucceededKinds s.db B).length ≤ 1
  | .lookup _ => a.outcome = .ok
  | .fail _ _ | .release => a.outcome ≠ .raised
  | _ => True

/-- What a step does, and where it leaves the executor. -/
structure Stepped (s : Backups) (B : String) (phase : ExecutorPhase)
    (x : Backups × Option ExecutorPhase) : Prop where
  work : Work s x.1 B
  next : ∀ phase', x.2 = some phase' → ExecutorOk x.1 B phase'
  ended : x.2 = none → if phase.gated then Final x.1.db B ∧ ¬ Holds x.1 B
    else Holds x.1 B → Holds s B

theorem clip_length (text : String) : (clip text).length ≤ 512 := by
  unfold clip
  rw [String.length_ofList]
  exact (List.length_take_le 500 _).trans (by omega)

theorem mem_missingKinds {v : Db} (hall : ∀ kind, ∃ c, v.get (Key.component B kind) = some c) :
    kind ∈ missingKinds v B ↔ ∃ c, v.get (Key.component B kind) = some c ∧ c.status ≠ .succeeded := by
  obtain ⟨c, hc⟩ := hall kind
  unfold missingKinds
  rw [List.mem_filter, hc, all_some, decide_eq_true_eq]
  constructor
  · exact fun h => ⟨c, rfl, h.2⟩
  · rintro ⟨c', hc', hne⟩
    cases hc'
    exact ⟨kind.mem_all, hne⟩

theorem nodup_all : ComponentKind.all.Nodup := by decide

theorem complete_of_todo_nil (h : QuiesceInv s) (htodo : Todo s.db B [])
    (hstatus : statusOf s.db B = some .complete ∨ IsCreating s.db B) : Final s.db B := by
  refine ⟨.complete, ?_, nofun⟩
  rcases hstatus with hcomplete | hcreating
  · exact hcomplete
  · have hall := component_of_status hcreating (h.sets B)
    refine hcreating.trans (congrArg some ((complete_iff hcreating (h.sets B)).mpr fun kind => ?_))
    obtain ⟨c, hc⟩ := hall kind
    refine ⟨c, hc, ?_⟩
    by_contra hne
    cases (htodo.2 kind).mpr ⟨c, hc, hne⟩

theorem creating_of_todo_cons (h : QuiesceInv s) (htodo : Todo s.db B (kind :: todo))
    (hstatus : statusOf s.db B = some .complete ∨ (IsCreating s.db B ∧ ClosedFor s B)) :
    IsCreating s.db B ∧ ClosedFor s B := by
  refine hstatus.resolve_left fun hcomplete => ?_
  obtain ⟨c, hc, hne⟩ := (htodo.2 kind).mp List.mem_cons_self
  obtain ⟨c', hc', hsucceeded⟩ := (complete_iff hcomplete (h.sets B)).mp rfl kind
  cases hc.symm.trans hc'
  exact hne hsucceeded

theorem Stepped.idle (h : QuiesceInv s) (hnext : ExecutorOk s B next) :
    Stepped s B phase (s, some next) where
  work := .refl h
  next phase' hphase' := by
    cases hphase'
    exact hnext
  ended := nofun

theorem executorOk_afterStatement (hB : IsCreating t.db B)
    (hcount : a.outcome ≠ .ok → (unsucceededKinds t.db B).length ≤ 1)
    (hnext : a.outcome = .ok → ExecutorOk t B next) : ExecutorOk t B (afterStatement a next) := by
  unfold afterStatement
  split
  · next hok => exact hnext hok
  · next hraised => exact ⟨hB, hcount hraised, clip_length _⟩

theorem stepFailed_ok (hB : (statusOf t.db B).isSome = true) :
    ExecutorOk t B (stepFailed kind a) := ⟨hB, clip_length _⟩

/-! ### The phases -/

theorem not_holds_of_open {row : GateRow} (hrow : s.gate = some row) (hopen : row.state = .open) :
    ¬ Holds s B := by
  rintro ⟨row', hrow', hheld⟩
  cases hrow.symm.trans hrow'
  simp [GateRow.heldFor, hopen] at hheld

theorem stepped_ensure (h : QuiesceInv s) (hB : IsCreating s.db B) :
    Stepped s B .ensure (executorStep s B a .ensure) := by
  have hnone : s.gate = none → ∀ B', ¬ Holds s B' := by
    rintro hnone B' ⟨row, hrow, -⟩
    rw [hnone] at hrow
    cases hrow
  have hwork : Work s (ensureGateRow s) B := by
    unfold ensureGateRow
    split
    · next hgate =>
      exact .setGate h (fun B' _ _ => hnone hgate B') (fun _ hclosed => hnone hgate B hclosed.holds)
        fun hne => absurd rfl hne
    · exact .refl h
  have hdb : (ensureGateRow s).db = s.db := by
    unfold ensureGateRow
    split
    · rfl
    · rfl
  have hholds : Holds (ensureGateRow s) B → Holds s B := by
    unfold ensureGateRow
    split
    · exact fun hheld => absurd hheld (not_holds_of_open rfl rfl)
    · exact id
  by_cases hraised : a.outcome = .raised
  · rw [executorStep, if_pos hraised]
    exact ⟨.refl h, (by simp), fun _ => id⟩
  · rw [executorStep, if_neg hraised]
    refine ⟨hwork, fun phase hphase => ?_, fun _ => hholds⟩
    dsimp only at hphase ⊢
    split at hphase
    · obtain ⟨row, hrow, hphase⟩ := bind_eq_some_iff.mp hphase
      unfold gatePhase at hphase
      split at hphase
      · cases hphase
        change IsCreating (ensureGateRow s).db B
        rw [hdb]
        exact hB
      · next hopen =>
        split at hphase
        · next hown =>
          cases hphase
          refine ⟨hdb ▸ hB, row, hrow, ?_⟩
          simp [GateRow.heldFor, hopen, hown]
        · cases hphase
    · cases hphase

theorem stepped_acquire (h : QuiesceInv s) (hB : IsCreating s.db B)
    (hsurvives : a.outcome ≠ .raisedAfter) : Stepped s B .acquire (executorStep s B a .acquire) := by
  by_cases hraised : a.outcome = .raised
  · rw [executorStep, if_pos hraised]
    exact ⟨.refl h, (by simp), fun _ => id⟩
  · have hok : a.outcome = .ok := by
      cases hout : a.outcome with
      | ok => rfl
      | raised => exact absurd hout hraised
      | raisedAfter => exact absurd hout hsurvives
    rw [executorStep, if_neg hraised]
    unfold tryAcquireGate
    by_cases hopen : s.gate.any (·.state = .open) = true
    · obtain ⟨row, hrow, hstate⟩ := (any_eq_true _ _).mp hopen
      rw [decide_eq_true_eq] at hstate
      rw [if_pos hopen]
      have hnot : ∀ B', ¬ Holds s B' := fun B' => not_holds_of_open hrow hstate
      refine ⟨.setGate h (fun B' _ _ => hnot B') (fun _ hclosed => hnot B hclosed.holds)
        fun _ => ⟨rfl, hB.isSome⟩, fun phase hphase => ?_, fun hnone => ?_⟩
      · dsimp only at hphase
        rw [if_pos ⟨rfl, hok⟩] at hphase
        cases hphase
        exact ⟨hB, _, rfl, by simp [GateRow.heldFor]⟩
      · dsimp only at hnone
        rw [if_pos ⟨rfl, hok⟩] at hnone
        cases hnone
    · rw [if_neg hopen]
      refine ⟨.refl h, fun phase hphase => ?_, fun _ => id⟩
      simp at hphase

theorem stepped_close (h : QuiesceInv s) (hB : IsCreating s.db B) (hheld : Holds s B)
    (hsurvives : a.outcome ≠ .ok → (unsucceededKinds s.db B).length ≤ 1) :
    Stepped s B .close (executorStep s B a .close) := by
  have hclose : Work s (closeGate s B) B ∧ ClosedFor (closeGate s B) B ∧
      (closeGate s B).db = s.db := by
    unfold closeGate
    split
    · next hgate =>
      refine ⟨.setGate h (fun B' hne _ hheld' => hne (hheld'.inj hheld)) (fun _ hclosed => ?_)
        fun _ => ⟨rfl, hB.isSome⟩, rfl, rfl⟩
      cases hgate.symm.trans hclosed
    · next hgate =>
      refine ⟨.refl h, ?_, rfl⟩
      obtain ⟨⟨state, owner⟩, hrow, hheld⟩ := hheld
      simp only [GateRow.heldFor, Bool.and_eq_true, decide_eq_true_eq] at hheld
      obtain ⟨hstate, rfl⟩ := hheld
      cases state with
      | «open» => exact absurd rfl hstate
      | closing => exact absurd hrow hgate
      | closed => exact hrow
  obtain ⟨hwork, hclosed, hdb⟩ := hclose
  rw [executorStep]
  by_cases hraised : a.outcome = .raised
  · rw [if_pos hraised]
    refine .idle h (executorOk_afterStatement hB hsurvives fun hok => ?_)
    rw [hraised] at hok
    cases hok
  · rw [if_neg hraised]
    refine ⟨hwork, fun phase hphase => ?_, (by simp)⟩
    cases hphase
    refine executorOk_afterStatement ?_ ?_ fun _ => ⟨?_, hclosed⟩
    · exact hdb ▸ hB
    · exact hdb ▸ hsurvives
    · exact hdb ▸ hB

theorem stepped_record (h : QuiesceInv s) {shot : Shot} {since : Stamp}
    (hphase : ExecutorOk s B (.record shot since todo)) :
    Stepped s B (.record shot since todo) (executorStep s B a (.record shot since todo)) := by
  obtain ⟨hB, hclosed, htodo, rfl⟩ := hphase
  rw [executorStep, recordStep]
  split
  · exact .idle h (stepFailed_ok hB.isSome)
  · split
    · exact .idle h (stepFailed_ok hB.isSome)
    · next t hrecord =>
      obtain ⟨hwork, hok⟩ := work_recordShot h hB hclosed htodo hrecord
      refine ⟨hwork, fun phase hphase => ?_, nofun⟩
      cases hphase
      dsimp only
      split
      · exact hok
      · exact stepFailed_ok (hwork.present hB.isSome)

theorem stepped_release (h : QuiesceInv s) (hfinal : Final s.db B) (hsurvives : a.outcome ≠ .raised) :
    Stepped s B .release (executorStep s B a .release) := by
  rw [executorStep, if_neg hsurvives]
  unfold releaseGate
  split
  · next hheld =>
    have hheld : Holds s B := (any_eq_true _ _).mp hheld
    refine ⟨.setGate h (fun B' hne _ hheld' => hne (hheld'.inj hheld))
      (fun hcreating => absurd hfinal hcreating.not_final) fun hne => absurd rfl hne, (by simp),
      fun _ => ⟨hfinal, not_holds_of_open rfl rfl⟩⟩
  · next hnot =>
    refine ⟨.refl h, (by simp), fun _ => ⟨hfinal, fun hheld => hnot ?_⟩⟩
    exact (any_eq_true _ _).mpr hheld

/-- **A step of an executor.** -/
theorem stepped_executorStep (h : QuiesceInv s) (hphase : ExecutorOk s B phase)
    (hsurvives : Survives s B a phase) : Stepped s B phase (executorStep s B a phase) := by
  cases phase with
  | status =>
    refine ⟨.refl h, fun phase' hnext => ?_, fun _ => id⟩
    change (if a.outcome = .ok ∧ statusOf s.db B = some .creating then some ExecutorPhase.ensure
      else none) = some phase' at hnext
    split at hnext
    · next hB =>
      cases hnext
      exact hB.2
    · cases hnext
  | ensure => exact stepped_ensure h hphase
  | acquire => exact stepped_acquire h hphase hsurvives
  | drain =>
    rw [executorStep]
    split
    · exact .idle h ⟨hphase.1.isSome, clip_length _⟩
    · exact .idle h (executorOk_afterStatement hphase.1 hsurvives fun _ => hphase)
  | close => exact stepped_close h hphase.1 hphase.2 hsurvives
  | kinds =>
    rw [executorStep]
    refine .idle h (executorOk_afterStatement hphase.1 hsurvives fun _ => ?_)
    have hall := component_of_status hphase.1 (h.sets B)
    exact ⟨⟨nodup_all.filter _, fun kind => mem_missingKinds hall⟩, .inr hphase⟩
  | snapshot todo =>
    cases todo with
    | nil => exact .idle h (complete_of_todo_nil h hphase.1 (hphase.2.imp_right And.left))
    | cons kind todo =>
      rw [executorStep]
      obtain ⟨hB, hclosed⟩ := creating_of_todo_cons h hphase.1 hphase.2
      split
      · refine .idle h ⟨hB, hclosed, ?_, rfl⟩
        cases kind with
        | postgresSnapshot => exact hphase.1
        | objectStoreSnapshot => exact hphase.1
        | objectManifest => exact hphase.1
      · exact .idle h (stepFailed_ok hB.isSome)
  | record shot since todo => exact stepped_record h hphase
  | lookup reason =>
    obtain ⟨hB, hcount, hreason⟩ := hphase
    have hok : a.outcome = .ok := hsurvives
    rw [executorStep, if_pos hok]
    refine .idle h ?_
    unfold lookupPhase
    split
    · exact ⟨hB.isSome, hreason⟩
    · exact ⟨hB.isSome, hreason⟩
    · next hmany hone =>
      exfalso
      cases hkinds : unsucceededKinds s.db B with
      | nil => exact hmany hkinds
      | cons kind kinds =>
        rw [hkinds, List.length_cons, Nat.succ_le_succ_iff, Nat.le_zero,
          List.length_eq_zero_iff] at hcount
        subst hcount
        exact hone kind hkinds
  | fail kind reason =>
    obtain ⟨hwork, hfinal⟩ := work_markFailed kind a.now h hphase.1 hphase.2
    have hcommits : a.outcome ≠ .raised := hsurvives
    rw [executorStep, if_neg hcommits]
    refine ⟨hwork, fun phase' hnext => ?_, nofun⟩
    cases hnext
    exact hfinal
  | release => exact stepped_release h hphase hsurvives

end RagQs.Backup
