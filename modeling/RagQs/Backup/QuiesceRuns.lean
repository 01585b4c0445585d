import RagQs.Backup.QuiesceSteps
import RagQs.Machine.Run

/-!
# Backup snapshots are quiesced

Where no executor begins on a set that another still works on, and none of the exceptions is raised
that the handlers do not survive, every snapshot that is recorded of a set was taken while the gate
was closed for it, all between two changes of the gate; none is recorded twice; and an execution that
has got the gate and ends by itself leaves its set complete or failed.

The code does not keep other executors away itself: the gate is taken over by comparing the set only,
and the lease says nothing to an executor that goes on after it has expired.

## Main definitions

* `Backups.init` — before the first move.
* `Quiet` — the condition on the moves of a run.

## Main results

* `quiesceInv_step` — what every allowed move preserves.
* `snapshots_quiesced` — **runs in which every move meets the condition.**
* `overwritten_after_takeover` — a run in which a recorded reference is overwritten.
-/

namespace RagQs.Backup

open Txn List Option Function

variable {s t : Backups} {B : String} {m : QuiesceMove} {ms : List QuiesceMove}

/-- Before the first move. -/
def Backups.init : Backups where
  db := ∅
  gate := none
  changes := 0
  taken _ _ := none
  executors _ := none
  recoveries _ := none

/-- **The condition on a move**: an executor begins on a set that no other works on, and a step raises
nothing that its handlers do not survive. -/
def Quiet (s : Backups) : QuiesceMove → Prop
  | .begin _ backupId => ∀ j e, s.executors j = some e → e.backupId ≠ backupId
  | .step i a => ∀ e, s.executors i = some e → Survives s e.backupId a e.phase
  | _ => True

theorem quiesceInv_init : QuiesceInv Backups.init where
  sets _ _ := rfl
  tidy _ := ⟨⟨0, fun _ _ hr => (by cases hr)⟩, fun hB => (by cases hB), fun hB => (by cases hB)⟩
  alone _ _ _ _ h := by cases h
  executors _ _ h := by cases h
  gate _ h := by cases h
  recoveries _ _ h := by cases h

/-! ### Moves -/

theorem QuiesceInv.others (h : QuiesceInv s) {executors : ℕ → Option Executor}
    {recoveries : ℕ → Option Recovery}
    (halone : ∀ i j e e', executors i = some e → executors j = some e' →
      e.backupId = e'.backupId → i = j)
    (hexecutors : ∀ i e, executors i = some e → ExecutorOk s e.backupId e.phase)
    (hrecoveries : ∀ i r, recoveries i = some r → s.recoveries i = some r ∨ RecoveryOk s.db r) :
    QuiesceInv { s with executors := executors, recoveries := recoveries } :=
  h.work (.refl h : Work s s "") halone (fun i e he => .inr (hexecutors i e he)) hrecoveries

theorem alone_update (h : QuiesceInv s) {i : ℕ} {o : Option Executor}
    (ho : ∀ e, o = some e → ∀ j e', j ≠ i → s.executors j = some e' → e'.backupId ≠ e.backupId) :
    ∀ j k e e', update s.executors i o j = some e →
      update s.executors i o k = some e' → e.backupId = e'.backupId → j = k := by
  intro j k e e' he he' heq
  rcases Machine.of_update he with ⟨rfl, hnew⟩ | ⟨hj, hold⟩
  · rcases Machine.of_update he' with ⟨rfl, -⟩ | ⟨hk, hold'⟩
    · rfl
    · exact absurd heq.symm (ho e hnew k e' hk hold')
  · rcases Machine.of_update he' with ⟨rfl, hnew'⟩ | ⟨hk, hold'⟩
    · exact absurd heq (ho e' hnew' j e hj hold)
    · exact h.alone j k e e' hold hold' heq

theorem ExecutorOk.isSome {phase : ExecutorPhase} (h : ExecutorOk s B phase) :
    phase = .status ∨ (statusOf s.db B).isSome = true := by
  cases phase with
  | status => exact .inl rfl
  | ensure => exact .inr (IsCreating.isSome h)
  | acquire => exact .inr (IsCreating.isSome h)
  | drain => exact .inr h.1.isSome
  | close => exact .inr h.1.isSome
  | kinds => exact .inr h.1.isSome
  | snapshot todo =>
    right
    rcases h.2 with hcomplete | ⟨hB, -⟩
    · rw [hcomplete, isSome_some]
    · exact hB.isSome
  | record shot since todo => exact .inr h.1.isSome
  | lookup reason => exact .inr h.1.isSome
  | fail kind reason => exact .inr h.1
  | release => exact .inr (Final.isSome h)

theorem work_create (h : QuiesceInv s) (B : String) (now : Time) :
    Work s { s with db := execOne SetOp.body s.db (.create B now) } B ∧
      ∀ phase, ExecutorOk s B phase →
        ExecutorOk { s with db := execOne SetOp.body s.db (.create B now) } B phase := by
  cases hexec : (SetOp.body (.create B now)).exec s.db with
  | error e =>
    have hdb : execOne SetOp.body s.db (.create B now) = s.db := by rw [execOne, hexec]
    rw [hdb]
    exact ⟨.refl h, fun phase hphase => hphase⟩
  | ok x =>
    have hdb : execOne SetOp.body s.db (.create B now) = x.2 := by rw [execOne, hexec]
    obtain ⟨hnone, hset, hreferences⟩ := created_of_exec hexec
    have hrows : ∀ B', B' ≠ B → setRegions.Same B' s.db x.2 := fun B' hne =>
      hdb ▸ SetOp.same_of_ne (.create B now) hne
    have hstatus : statusOf s.db B = none := by rw [statusOf, hnone, map_none]
    have habsent : ¬ (statusOf s.db B).isSome = true := by
      rw [hstatus]
      simp
    rw [hdb]
    refine ⟨⟨hrows, fun _ _ _ _ => ⟨rfl, rfl⟩, fun _ _ => rfl, hset, ⟨⟨0, fun kind r hr => ?_⟩,
      fun _ kind r hr => ?_, fun _ kind c hc _ => ?_⟩, fun hB => absurd hB habsent,
      fun hB => absurd hB.isSome habsent, fun row hrow hopen => ?_, fun kind r hr => ?_, rfl⟩,
      fun phase hphase => ?_⟩
    · cases (hreferences kind).symm.trans hr
    · cases (hreferences kind).symm.trans hr
    · have hr := hreferences kind
      rw [referenceOf, hc, bind_some] at hr
      exact hr
    · obtain ⟨B', hB', hpresent⟩ := h.gate row hrow hopen
      refine ⟨B', hB', ?_⟩
      have hne : B' ≠ B := fun heq => habsent (heq ▸ hpresent)
      rw [statusOf_same (hrows B' hne)]
      exact hpresent
    · rw [referenceOf, setOk_of_none hnone (h.sets B) kind] at hr
      cases hr
    · obtain rfl := hphase.isSome.resolve_right habsent
      trivial

theorem work_releaseGate (h : QuiesceInv s) (hfinal : Final s.db B) :
    Work s (releaseGate s (some B)) B ∧ ∀ phase, ExecutorOk s B phase →
      ExecutorOk (releaseGate s (some B)) B phase := by
  have hnot : ¬ IsCreating s.db B := fun hB => hB.not_final hfinal
  unfold releaseGate
  split
  · next hheld =>
    have hheld : Holds s B := (Option.any_eq_true _ _).mp hheld
    exact ⟨.setGate h (fun B' hne _ hheld' => hne (hheld'.inj hheld))
      (fun hB => absurd hB hnot) fun hne => absurd rfl hne, fun phase hphase =>
        hphase.frame (fun _ _ => rfl) fun hB => absurd hB hnot⟩
  · exact ⟨.refl h, fun phase hphase => hphase⟩

theorem quiesceInv_recover (h : QuiesceInv s) (i : ℕ) :
    QuiesceInv { (recoveryStep s (s.recoveries i)).1 with
      recoveries := update s.recoveries i (recoveryStep s (s.recoveries i)).2 } := by
  have hkeep : ∀ r, (∀ r', r = some r' → RecoveryOk s.db r') →
      QuiesceInv { s with recoveries := update s.recoveries i r } := fun r hr =>
    h.others h.alone h.executors fun j r' hr' => by
      rcases Machine.of_update hr' with ⟨-, heq⟩ | ⟨-, hold⟩
      · exact .inr (hr r' heq)
      · exact .inl hold
  cases hr : s.recoveries i with
  | none =>
    rw [recoveryStep]
    refine hkeep _ fun r hr => ?_
    obtain ⟨row, hrow, rfl⟩ := map_eq_some_iff.mp hr
    rw [filter_eq_some_iff, decide_eq_true_eq] at hrow
    exact h.gate row hrow.1 hrow.2
  | some r =>
    have hok := h.recoveries i r hr
    cases r with
    | status B =>
      obtain ⟨B, rfl, hpresent⟩ := hok
      rw [recoveryStep]
      refine hkeep _ fun r hr => ?_
      split at hr
      · cases hr
      · next hne =>
        cases hr
        obtain ⟨status, hstatus⟩ := isSome_iff_exists.mp hpresent
        refine ⟨B, rfl, status, hstatus, fun heq => hne (heq ▸ hstatus)⟩
    | update B =>
      obtain ⟨B, rfl, hfinal⟩ := hok
      obtain ⟨hwork, hexecutors⟩ := work_releaseGate h hfinal
      have hsame : (releaseGate s (some B)).executors = s.executors := by
        unfold releaseGate
        split
        · rfl
        · rfl
      rw [recoveryStep]
      refine h.work hwork ?_ (fun j e he => ?_) fun j r hr => ?_
      · rw [hsame]
        exact h.alone
      · rw [hsame] at he
        by_cases heq : e.backupId = B
        · subst heq
          exact .inr (hexecutors _ (h.executors j e he))
        · exact .inl ⟨heq, he⟩
      · exact .inl ((Machine.of_update hr).resolve_left nofun).2

/-- **What every allowed move preserves.** -/
theorem quiesceInv_step (h : QuiesceInv s) (hm : Quiet s m) (hstep : quiesceStep s m = some t) :
    QuiesceInv t := by
  cases m with
  | create B now =>
    cases hstep
    obtain ⟨hwork, hexecutors⟩ := work_create h B now
    refine h.work hwork h.alone (fun i e he => ?_) fun i r hr => .inl hr
    by_cases heq : e.backupId = B
    · subst heq
      exact .inr (hexecutors _ (h.executors i e he))
    · exact .inl ⟨heq, he⟩
  | begin i B =>
    rw [quiesceStep] at hstep
    split at hstep
    · cases hstep
      refine h.others (alone_update h fun e he j e' _ he' => ?_) (fun j e he => ?_) fun j r hr => .inl hr
      · cases he
        exact hm j e' he'
      · rcases Machine.of_update he with ⟨-, heq⟩ | ⟨-, hold⟩
        · cases heq
          trivial
        · exact h.executors j e hold
    · cases hstep
  | step i a =>
    rw [quiesceStep, map_eq_some_iff] at hstep
    obtain ⟨e, he, rfl⟩ := hstep
    have hstepped := stepped_executorStep h (h.executors i e he) (hm e he)
    have hsame : ∀ j e', j ≠ i → s.executors j = some e' → e'.backupId ≠ e.backupId :=
      fun j e' hne he' heq => hne (h.alone j i e' e he' he heq)
    refine h.work hstepped.work (alone_update h fun e' he' j e'' hne he'' => ?_) (fun j e' he' => ?_)
      fun j r hr => .inl (hstepped.work.recoveries ▸ hr)
    · obtain ⟨phase, -, rfl⟩ := map_eq_some_iff.mp he'
      exact hsame j e'' hne he''
    · rcases Machine.of_update he' with ⟨-, heq⟩ | ⟨hne, hold⟩
      · obtain ⟨phase, hphase, rfl⟩ := map_eq_some_iff.mp heq
        exact .inr (hstepped.next phase hphase)
      · exact .inl ⟨hsame j e' hne hold, hold⟩
  | crash i =>
    cases hstep
    refine h.others (alone_update h (by simp)) (fun j e he => ?_) fun j r hr => .inl hr
    exact h.executors j e ((Machine.of_update he).resolve_left nofun).2
  | recover i =>
    cases hstep
    exact quiesceInv_recover h i
  | giveUp i =>
    cases hstep
    refine h.others h.alone h.executors fun j r hr => .inl ?_
    exact ((Machine.of_update hr).resolve_left nofun).2

theorem kept_of_step (h : QuiesceInv s) (hm : Quiet s m) (hstep : quiesceStep s m = some t)
    {kind : ComponentKind} {r : String} (hr : referenceOf s.db B kind = some r) :
    referenceOf t.db B kind = some r ∧ t.taken B kind = s.taken B kind := by
  cases m with
  | create B' now =>
    cases hstep
    exact (work_create h B' now).1.kept_all B kind r hr
  | begin i B' =>
    rw [quiesceStep] at hstep
    split at hstep
    · cases hstep
      exact ⟨hr, rfl⟩
    · cases hstep
  | step i a =>
    rw [quiesceStep, map_eq_some_iff] at hstep
    obtain ⟨e, he, rfl⟩ := hstep
    exact (stepped_executorStep h (h.executors i e he) (hm e he)).work.kept_all B kind r hr
  | recover i =>
    cases hstep
    cases hrecovery : s.recoveries i with
    | none => exact ⟨hr, rfl⟩
    | some r' =>
      have hok := h.recoveries i r' hrecovery
      cases r' with
      | status B' =>
        obtain ⟨B', rfl, -⟩ := hok
        exact ⟨hr, rfl⟩
      | update B' =>
        obtain ⟨B', rfl, hfinal⟩ := hok
        exact (work_releaseGate h hfinal).1.kept_all B kind r hr
  | _ =>
    cases hstep
    exact ⟨hr, rfl⟩

theorem ExecutorOk.holds {phase : ExecutorPhase} (h : QuiesceInv s) (hok : ExecutorOk s B phase)
    (hphase : phase.quiesces = true) : Holds s B := by
  cases phase with
  | drain => exact hok.2
  | close => exact hok.2
  | kinds => exact hok.2.holds
  | record shot since todo => exact hok.2.1.holds
  | snapshot todo =>
    cases todo with
    | nil => cases hphase
    | cons kind todo => exact (creating_of_todo_cons h hok.1 hok.2).2.holds
  | _ => cases hphase

/-! ### Runs -/

/-- **Backup snapshots are quiesced**, where every move meets the condition: the snapshots recorded of
a set were taken while the gate was closed for it, all between two changes of the gate; one set holds
the gate at most, and it is that of every executor on its way to a snapshot; no recorded reference is
lost or taken again; and an execution that has got the gate and ends by itself leaves its set complete
or failed and the gate to others, while one that has not does not take it. -/
theorem snapshots_quiesced (hms : Machine.Moves quiesceStep Quiet Backups.init ms) :
    (∀ s, Machine.Reaches quiesceStep Backups.init ms s →
      (∀ B, ∃ n, ∀ kind r, referenceOf s.db B kind = some r →
        s.taken B kind = some (closedAt B n, closedAt B n)) ∧
      (∀ B B', Holds s B → Holds s B' → B = B') ∧
      ∀ i e, s.executors i = some e → e.phase.quiesces = true → Holds s e.backupId) ∧
    ∀ m s t, Machine.At quiesceStep Backups.init ms m s t →
      (∀ B kind r, referenceOf s.db B kind = some r →
        referenceOf t.db B kind = some r ∧ t.taken B kind = s.taken B kind) ∧
      ∀ i a e, m = .step i a → s.executors i = some e → t.executors i = none →
        if e.phase.gated then Final t.db e.backupId ∧ ¬ Holds t e.backupId
        else Holds t e.backupId → Holds s e.backupId := by
  constructor
  · intro s hs
    have h := Machine.reaches_preserves (fun _ _ _ => quiesceInv_step) quiesceInv_init hms hs
    exact ⟨fun B => (h.tidy B).one, fun B B' => Holds.inj,
      fun i e he => (h.executors i e he).holds h⟩
  · intro m s t hat
    obtain ⟨h, hm⟩ := Machine.at_preserves (fun _ _ _ => quiesceInv_step) quiesceInv_init hms hat
    obtain ⟨ms₁, hprefix, hrun, hstep⟩ := hat
    refine ⟨fun B kind r => kept_of_step h hm hstep, ?_⟩
    rintro i a e rfl he hend
    rw [quiesceStep, Option.map_eq_some_iff] at hstep
    obtain ⟨e', he', rfl⟩ := hstep
    obtain rfl := Option.some.inj (he.symm.trans he')
    have hstepped := stepped_executorStep h (h.executors i e he) (hm e he)
    have hnone : (executorStep s e.backupId a e.phase).2 = none := by
      have hend : Function.update s.executors i _ i = none := hend
      rw [Function.update_self, Option.map_eq_none_iff] at hend
      exact hend
    exact hstepped.ended hnone

/-! ### Two runs -/

instance (s : Backups) (B : String) (a : Answer) : DecidablePred (Survives s B a)
  | .acquire => inferInstanceAs (Decidable (a.outcome ≠ .raisedAfter))
  | .drain | .close | .kinds =>
    inferInstanceAs (Decidable (a.outcome ≠ .ok → (unsucceededKinds s.db B).length ≤ 1))
  | .lookup _ => inferInstanceAs (Decidable (a.outcome = .ok))
  | .fail _ _ | .release => inferInstanceAs (Decidable (a.outcome ≠ .raised))
  | .status | .ensure | .snapshot _ | .record _ _ _ => inferInstanceAs (Decidable True)

/-- A test of the condition on a move, where there is one executor only. -/
def quietTest (s : Backups) : QuiesceMove → Bool
  | .begin i _ => i = 0 && (s.executors 0).isNone
  | .step i a => (s.executors i).all fun e => Survives s e.backupId a e.phase
  | _ => true

/-- There is one executor only. -/
def OneExecutor (s : Backups) : Prop := ∀ j, j ≠ 0 → s.executors j = none

theorem quiet_of_test (hs : OneExecutor s) (h : quietTest s m = true) : Quiet s m := by
  cases m with
  | begin i B =>
    intro j e he
    rw [quietTest, Bool.and_eq_true, isNone_iff_eq_none] at h
    by_cases hj : j = 0
    · rw [hj, h.2] at he
      cases he
    · rw [hs j hj] at he
      cases he
  | step i a =>
    intro e he
    rw [quietTest, he, all_some] at h
    exact of_decide_eq_true h
  | _ => trivial

theorem OneExecutor.update (hs : OneExecutor s) {i : ℕ} {o : Option Executor} (hi : i = 0) :
    ∀ j, j ≠ 0 → update s.executors i o j = none := by
  intro j hj
  rw [update_of_ne (hi ▸ hj)]
  exact hs j hj

theorem oneExecutor_step (hs : OneExecutor s) (htest : quietTest s m = true)
    (hstep : quiesceStep s m = some t) : OneExecutor t := by
  cases m with
  | create B now =>
    cases hstep
    exact hs
  | begin i B =>
    rw [quietTest, Bool.and_eq_true, decide_eq_true_eq] at htest
    rw [quiesceStep] at hstep
    split at hstep
    · cases hstep
      exact hs.update htest.1
    · cases hstep
  | step i a =>
    rw [quiesceStep, map_eq_some_iff] at hstep
    obtain ⟨e, he, rfl⟩ := hstep
    refine hs.update ?_
    by_contra hi
    cases (hs i hi).symm.trans he
  | crash i =>
    cases hstep
    intro j hj
    by_contra hne
    obtain ⟨e, he⟩ := ne_none_iff_exists'.mp hne
    cases (hs j hj).symm.trans ((Machine.of_update he).resolve_left nofun).2
  | recover i =>
    cases hstep
    cases hr : s.recoveries i with
    | none => exact hs
    | some r =>
      cases r with
      | status B =>
        cases B with
        | none => exact hs
        | some B => exact hs
      | update B =>
        change OneExecutor { releaseGate s B with recoveries := _ }
        unfold releaseGate
        split
        · exact hs
        · exact hs
  | giveUp i =>
    cases hstep
    exact hs

/-- A step that has its effect, with a reference for a snapshot. -/
def answered (reference : String) : Answer := ⟨.ok, "", false, reference, [], 0⟩

/-- An execution that goes through. -/
def executed : List QuiesceMove :=
  [.create "b" 0, .begin 0 "b"] ++ replicate 14 (.step 0 (answered "p"))

/-- **The set is complete**, and the gate is open. -/
theorem snapshots_quiesced_executed : ∃ s,
    Machine.run quiesceStep Backups.init executed = some s ∧
      referenceOf s.db "b" .postgresSnapshot = some "p" ∧
      (∃ n, s.taken "b" .postgresSnapshot = some (closedAt "b" n, closedAt "b" n)) ∧
      statusOf s.db "b" = some .complete := by
  have hend : (Machine.run quiesceStep Backups.init executed).any (fun s =>
      decide (referenceOf s.db "b" .postgresSnapshot = some "p") &&
        decide (statusOf s.db "b" = some .complete)) = true := by decide +kernel
  obtain ⟨s, hs, hend⟩ := (Option.any_eq_true _ _).mp hend
  rw [Bool.and_eq_true, decide_eq_true_eq, decide_eq_true_eq] at hend
  obtain ⟨n, hn⟩ := ((snapshots_quiesced (Machine.moves_of_checks_inv (fun _ _ => quiet_of_test)
    (fun _ _ _ => oneExecutor_step) (fun _ _ => rfl) (by decide +kernel))).1 s
      ⟨executed, List.prefix_refl _, hs⟩).1 "b"
  exact ⟨s, hs, hend.1, ⟨n, hn _ _ hend.1⟩, hend.2⟩

/-- An executor that stops once it has taken a snapshot, and another that takes over. -/
def takenOver : List QuiesceMove :=
  [.create "b" 0, .begin 0 "b"] ++ replicate 7 (.step 0 (answered "p0")) ++
    [.begin 1 "b"] ++ replicate 7 (.step 1 (answered "p1"))

/-- **A recorded reference is overwritten**: the first executor goes on, and records its snapshot. -/
theorem overwritten_after_takeover : ∃ s t,
    Machine.run quiesceStep Backups.init takenOver = some s ∧
      quiesceStep s (.step 0 (answered "p0")) = some t ∧
      referenceOf s.db "b" .postgresSnapshot = some "p1" ∧
      referenceOf t.db "b" .postgresSnapshot = some "p0" := by
  have hend : (Machine.run quiesceStep Backups.init takenOver).any (fun s =>
      (quiesceStep s (.step 0 (answered "p0"))).any fun t =>
        decide (referenceOf s.db "b" .postgresSnapshot = some "p1") &&
          decide (referenceOf t.db "b" .postgresSnapshot = some "p0")) = true := by decide +kernel
  obtain ⟨s, hs, hend⟩ := (Option.any_eq_true _ _).mp hend
  obtain ⟨t, ht, hend⟩ := (Option.any_eq_true _ _).mp hend
  rw [Bool.and_eq_true, decide_eq_true_eq, decide_eq_true_eq] at hend
  exact ⟨s, t, hs, ht, hend⟩

end RagQs.Backup
