import RagQs.Chat.LifecycleRuns
import RagQs.Txn.Footprint

/-!
# Execution fencing

What a worker commits once its execution is not running under its token any more: its lease is
over and a recovery has queued a successor.  The events, the checkpoints and the publication are
fenced by the token.  How an execution stops or fails is not: those transactions look at the
generation only, and end it under the successor.

## Main definitions

* `Op.worker` — the claim behind a transaction of a worker.
* `Op.spares` — the rows of a generation that a transaction leaves as they are.
* `Contained` — what a transaction has pending lies in its execution, or its execution is current,
  or the generation is none it spares.

## Main results

* `contained_worker` — every transaction of a worker is contained.
* `execution_fencing` — a superseded worker changes its own execution only.
* `superseded_failure` — a superseded worker fails the generation of its successor.
-/

namespace RagQs.Chat

open Txn Discipline Option

variable {S : Strict} {C : List (Write Row) → Db → Prop} {c d : Db} {H : Key → Prop}
  {env : Env} {w : Held} {busy : Bool}

variable {P : GenerationRow → Prop} {β : Type}
variable {W : Key → Prop} {eventType : EventType} {detail : JsonObject} {ms : List (Move Op)}

/-! ### The transactions of a worker -/

/-- The claim of the worker whose transaction this is. -/
def Op.worker : Op → Option Held
  | .stopTerminal w .. => some w
  | .fail w .. => some w
  | op => op.held

/-- The transaction of a superseded worker does nothing to a generation with this row. -/
def Op.spares (op : Op) (r : GenerationRow) : Prop :=
  match op with
  | .upgrade .. | .publish .. => r.status ≠ .stopRequested
  | .stopTerminal .. => r.status.terminal = true
  | .fail _ _ _ error =>
    if error.code = "generation_state_conflict" then r.status ≠ .stopRequested
    else r.status.terminal = true ∨
      r.status = .running ∧ error.code = "provider_result_unknown"
  | _ => True

/-- The execution of a claim. -/
abbrev Held.key (w : Held) : Key := .execution w.generationId w.executionId

/-- The row of an execution that is running under the token of the claim. -/
def Held.runs (w : Held) (x : ExecutionRow) : Prop :=
  x.fencingToken = w.fencingToken ∧ x.status = .running

/-- The execution is locked and current. -/
def Current (w : Held) : Assn Row := fun c d H =>
  ∃ x : ExecutionRow, w.runs x ∧ (Committed w.key (some x) : Assn Row) c d H

/-- The pending writes lie in the execution, or it is current, or the generation has a row
without `P`. -/
def Contained (w : Held) (P : GenerationRow → Prop) : Assn Row := fun c d H =>
  Inside (· = w.key) c d H ∨ Current w c d H ∨
    ∃ r : GenerationRow, ¬ P r ∧
      (Committed (.generation w.generationId) (some r) : Assn Row) c d H

theorem Contained.inside (h : (Inside (· = w.key) : Assn Row) c d H) : Contained w P c d H := .inl h

/-- What is contained changes nothing else when the execution is not current and the generation
has a row with `P`. -/
theorem Contained.unchanged (h : Contained w P c d H) (hcurrent : executionCurrent c w = false)
    (hP : ∀ r, c.get (.generation w.generationId) = some r → P r) {k : Key} (hk : k ≠ w.key) :
    (d ∪ c : Db).get k = c.get k := by
  rcases h with h | ⟨x, hx, hcommitted⟩ | ⟨r, hr, hcommitted⟩
  · exact h.get hk
  · unfold executionCurrent at hcurrent
    rw [hcommitted.2, any_some, decide_eq_false_iff_not] at hcurrent
    exact absurd hx hcurrent
  · exact absurd (hP r hcommitted.2) hr

/-! ### Where the claim holds -/

variable {p : Tx β}

theorem Current.triple : (chat S).Triple C (Current w) p fun _ => Current w := by
  refine ⟨fun c d H hc hφ => ?_⟩
  obtain ⟨x, hx, hcommitted⟩ := hφ.now hc
  have hkeep : (chat S).Triple C (Committed w.key (some x)) p fun _ => Committed w.key (some x) :=
    .committed
  have hstart : (chat S).Always (Committed w.key (some x)) c d H :=
    fun c' hr => ⟨hcommitted.1, (hr.rows _ hcommitted.1).trans hcommitted.2⟩
  exact wp_conseq (hkeep.wp c d H hc hstart)
    (fun b c d H _ h c' hr => ⟨x, hx, h c' hr⟩) fun _ _ _ _ _ h => h

theorem spared_triple {r : GenerationRow} (hr : ¬ P r) :
    (chat S).Triple C (Committed (.generation w.generationId) (some r)) p fun _ => Contained w P :=
  Triple.committed.post fun _ _ _ _ _ h => .inr (.inr ⟨r, hr, h⟩)

/-- A locking read of the execution, which `SKIP LOCKED` may miss. -/
theorem lockExecution_committed (hW : ¬ W w.key) :
    (chat S).Triple C (Inside W) (lockExecution busy w.generationId w.executionId)
      fun o c d H => Inside W c d H ∧
        (o.isSome = true → (Committed w.key o : Assn Row) c d H) := by
  unfold lockExecution
  split
  · exact .done fun _ _ _ _ h => ⟨h, fun ho => by cases ho⟩
  · exact .lockCommitted hW

theorem fence_current :
    (chat S).Triple C (Inside fun _ => False) (fenceCurrent w busy) fun b c d H =>
      Inside (fun _ => False) c d H ∧ (b = true → Current w c d H) := by
  unfold fenceCurrent
  refine .bind (lockExecution_committed id) fun execution => ?_
  cases execution with
  | none =>
    refine Triple.bind (((Triple.inside .lockRow).pre fun c d H _ h => h.1)) fun generation =>
      .done fun c d H _ h => ⟨h, ?_⟩
    rintro ⟨⟩
  | some x =>
    refine Triple.bind (((Triple.inside .lockRow).and Triple.committed).pre
      fun c d H _ h => ⟨h.1, h.2 rfl⟩) fun generation => Triple.done fun c d H _ h => ⟨h.1, ?_⟩
    intro hfence
    refine ⟨x, ?_, h.2⟩
    cases generation with
    | none => cases hfence
    | some r =>
      simp only [Fence, Bool.and_eq_true, decide_eq_true_eq] at hfence
      exact hfence.1.1

theorem Current.before {c' : Db} (h : Current w c' d H) (hr : (chat S).Rely H c c') :
    Current w c d H := by
  obtain ⟨x, hx, hlock, hget⟩ := h
  exact ⟨x, hx, hlock, (hr.rows _ hlock).symm.trans hget⟩

theorem contained_or {φ : Assn Row} (hp : (chat S).Triple C φ p fun _ => Contained w P) :
    (chat S).Triple C (fun c d H => φ c d H ∨ Current w c d H) p fun _ => Contained w P := by
  refine ⟨fun c d H hc h => ?_⟩
  by_cases hcurrent : Current w c d H
  · have hkeep : (chat S).Triple C (fun c' d' H' => Current w c' d' H') p fun _ => Contained w P :=
      Current.triple.post fun _ _ _ _ _ h => .inr (.inl h)
    obtain ⟨x, hx, hlock, hget⟩ := hcurrent
    exact hkeep.wp c d H hc fun c' hr => ⟨x, hx, hlock, (hr.rows _ hlock).trans hget⟩
  · exact hp.wp c d H hc fun c' hr => (h c' hr).resolve_right fun h' => hcurrent (h'.before hr)

/-! ### What the transactions of a worker leave -/

theorem writes_cancelExecutionRow : (cancelExecutionRow w).Writes (· = w.key) := by
  unfold cancelExecutionRow
  refine .bind (.updateWhere ?_) fun _ => .done
  exact rfl

theorem contained_cancelStale (hP : ∀ r : GenerationRow, r.status = .stopRequested → ¬ P r) :
    (chat S).Triple C (Inside (· = w.key)) (cancelStaleExecution w busy)
      fun _ => Contained w P := by
  unfold cancelStaleExecution
  have hcancel : (chat S).Triple C (Inside (· = w.key)) (cancelExecutionRow w)
      fun _ => Contained w P :=
    (Triple.inside writes_cancelExecutionRow).post fun _ _ _ _ _ h => .inside h
  refine .bind (.inside ?_) fun _ => .bind
    (.lockCommitted (k := Key.generation w.generationId) (by simp)) fun generation => ?_
  · unfold lockExecution
    exact .ite (fun _ => .done) fun _ => .lockRow
  · cases generation with
    | none => exact hcancel.pre fun _ _ _ _ h => h.1
    | some r =>
      dsimp only
      split
      · next hst => exact (spared_triple (hP r hst)).pre fun _ _ _ _ h => h.2 rfl
      · exact hcancel.pre fun _ _ _ _ h => h.1

/-- `_emit_fenced`: without the claim there is no event. -/
theorem contained_emitFenced {data : JsonObject} :
    (chat S).Triple C (Inside fun _ => False) (emitFenced w busy eventType data) fun b c d H =>
      (b = false ∧ Inside (fun _ => False) c d H) ∨ Current w c d H := by
  unfold emitFenced
  refine .bind fence_current fun b => ?_
  cases b with
  | true => exact (Current.triple.pre fun _ _ _ _ h => h.2 rfl).post fun _ _ _ _ _ h => .inr h
  | false => exact .done fun _ _ _ _ h => .inl ⟨rfl, h.1⟩

theorem contained_emitted {f : Bool → Tx β} {data : JsonObject}
    (hf : (chat S).Triple C (Inside fun _ => False) (f false) fun _ => Contained w P) :
    (chat S).Triple C (Inside fun _ => False) (emitFenced w busy eventType data >>= f)
      fun _ => Contained w P := by
  refine .bind contained_emitFenced fun b => contained_or ?_
  cases b with
  | true => exact ⟨fun c d H hc h => absurd (h.now hc).1 (by simp)⟩
  | false => exact hf.pre fun _ _ _ _ h => h.2

theorem contained_nothing {b : β} :
    (chat S).Triple C (Inside fun _ => False) (.done b : Tx β) fun _ => Contained w P :=
  .done fun _ _ _ _ h => .inside fun k hk => (h k hk).elim

theorem contained_emitStage {phase : String} :
    (chat S).Triple C (Inside fun _ => False) (emitStage w busy phase detail)
      fun _ => Contained w P := contained_emitted .fail

theorem contained_emitStep {index : ℕ} {label state : String} :
    (chat S).Triple C (Inside fun _ => False) (emitStep w busy index label state)
      fun _ => Contained w P := contained_emitted .fail

theorem contained_emitDelta {content : String} :
    (chat S).Triple C (Inside fun _ => False) (emitDelta w busy content)
      fun _ => Contained w P := contained_emitted contained_nothing

theorem contained_emitNotice {kind : String} :
    (chat S).Triple C (Inside fun _ => False) (emitNotice w busy kind detail)
      fun _ => Contained w P := contained_emitted contained_nothing

theorem writes_updateIf {k : Key} {cond : Db → Row k → Bool} {f : Row k → Row k} (hk : W k) :
    (updateIf k cond f).Writes W := by
  refine ⟨fun v x hx => ?_, fun _ => trivial⟩
  obtain ⟨r, -, rfl⟩ := List.mem_map.mp hx
  exact hk

theorem contained_own (hp : p.Writes (· = w.key)) (hW : ∀ k, W k → k = w.key) :
    (chat S).Triple C (Inside W) p fun _ => Contained w P :=
  ((Triple.inside hp).pre fun _ _ _ _ h k hk => hW k (h k hk)).post
    fun _ _ _ _ _ h => .inside h

theorem contained_persistCheckpoint {checkpoint : JsonObject} :
    (chat S).Triple C (Inside fun _ => False) (persistCheckpoint w checkpoint)
      fun _ => Contained w P := by
  unfold persistCheckpoint
  refine contained_own (.bind .readRow fun existing => ?_) fun k hk => hk.elim
  refine (writes_updateIf ?_).bind fun _ => .done
  exact rfl

/-- `_persist_effort_upgrade` -/
theorem contained_persistEffortUpgrade {busyAgain : Bool} {previous upgraded : String}
    (hP : ∀ r : GenerationRow, r.status = .stopRequested → ¬ P r) :
    (chat S).Triple C (Inside fun _ => False)
      (persistEffortUpgrade w busy busyAgain previous upgraded) fun _ => Contained w P := by
  unfold persistEffortUpgrade
  refine .bind fence_current fun fenced => ?_
  cases fenced with
  | true => exact (Current.triple.pre fun _ _ _ _ h => h.2 rfl).post fun _ _ _ _ _ h => .inr (.inl h)
  | false =>
    refine .bind ((contained_cancelStale hP).pre fun _ _ _ _ h k hk => (h.1 k hk).elim)
      fun _ => .done fun _ _ _ _ h => h

theorem contained_publish {p : Publication}
    (hP : ∀ r : GenerationRow, r.status = .stopRequested → ¬ P r) :
    (chat S).Triple C (Inside fun _ => False) (publish w p) fun _ => Contained w P := by
  unfold publish
  refine .bind fence_current fun fenced => ?_
  cases fenced with
  | true => exact (Current.triple.pre fun _ _ _ _ h => h.2 rfl).post fun _ _ _ _ _ h => .inr (.inl h)
  | false => exact (contained_cancelStale hP).pre fun _ _ _ _ h k hk => (h.1 k hk).elim

theorem contained_locked {f : Option GenerationRow → Tx β}
    (hnone : (chat S).Triple C (Inside fun _ => False) (f none) fun _ => Contained w P)
    (hsome : ∀ r, P r → (chat S).Triple C (Inside fun _ => False) (f (some r))
      fun _ => Contained w P) :
    (chat S).Triple C (Inside fun _ => False)
      (lockExecution busy w.generationId w.executionId >>= fun _ =>
        lockGeneration w.generationId >>= f) fun _ => Contained w P := by
  refine Triple.bind (lockExecution_committed id) fun _ => Triple.bind
    ((Triple.lockCommitted (k := Key.generation w.generationId) id).pre fun _ _ _ _ h => h.1)
      fun generation => ?_
  cases generation with
  | none => exact hnone.pre fun _ _ _ _ h => h.1
  | some r =>
    by_cases hr : P r
    · exact (hsome r hr).pre fun _ _ _ _ h => h.1
    · exact (spared_triple hr).pre fun _ _ _ _ h => h.2 rfl

/-- `_stop_terminal` -/
theorem contained_stopTerminal {reason : StopReason} :
    (chat S).Triple C (Inside fun _ => False) (stopTerminal w busy reason)
      fun _ => Contained w (Op.spares (.stopTerminal w busy reason)) := by
  unfold stopTerminal
  refine contained_locked contained_nothing fun r hr => ?_
  dsimp only
  rw [if_pos (by exact hr)]
  exact contained_nothing

/-- `_fail_execution` -/
theorem contained_failExecution {now : Time} {error : Failure} :
    (chat S).Triple C (Inside fun _ => False) (failExecution env w busy now error)
      fun _ => Contained w (Op.spares (.fail w busy now error)) := by
  unfold failExecution
  by_cases hcode : error.code = "generation_state_conflict"
  · rw [if_pos hcode]
    refine (contained_cancelStale fun r hst hr => ?_).pre fun _ _ _ _ h k hk => (h k hk).elim
    rw [Op.spares, if_pos hcode] at hr
    exact hr hst
  · rw [if_neg hcode]
    refine contained_locked (contained_own writes_cancelExecutionRow fun k hk => hk.elim)
      fun r hr => ?_
    rw [Op.spares, if_neg hcode] at hr
    dsimp only
    rcases hr with hterm | ⟨hrun, hunknown⟩
    · have hst : r.status ≠ .stopRequested := by
        intro hst
        rw [hst] at hterm
        cases hterm
      have hnot : r.status ≠ .running := by
        intro hst
        rw [hst] at hterm
        cases hterm
      rw [if_neg hst, if_pos hnot]
      exact contained_nothing
    · rw [if_neg (by rw [hrun]; decide), if_neg (by simp [hrun]), if_pos hunknown]
      refine contained_own (.bind (.updateWhere ?_) fun _ => .done) fun k hk => hk.elim
      exact rfl

/-- **Every transaction of a worker is contained.** -/
theorem contained_worker {op : Op} (hw : op.worker = some w) :
    (chat S).Triple C (Inside fun _ => False) (body env op) fun _ => Contained w op.spares := by
  have hsilent : ∀ {β : Type} {p : Tx β}, (chat S).Triple C (Inside fun _ => False) p
      (fun _ => Contained w op.spares) → (chat S).Triple C (Inside fun _ => False) (silent p)
      fun _ => Contained w op.spares :=
    fun h => .bind h fun _ => .done fun _ _ _ _ h => h
  cases op with
  | stage => obtain ⟨⟩ := hw; exact hsilent contained_emitStage
  | step => obtain ⟨⟩ := hw; exact hsilent contained_emitStep
  | delta => obtain ⟨⟩ := hw; exact hsilent contained_emitDelta
  | notice => obtain ⟨⟩ := hw; exact hsilent contained_emitNotice
  | upgrade =>
    obtain ⟨⟩ := hw
    exact hsilent (contained_persistEffortUpgrade fun r hst hr => hr hst)
  | checkpoint => obtain ⟨⟩ := hw; exact hsilent contained_persistCheckpoint
  | publish => obtain ⟨⟩ := hw; exact hsilent (contained_publish fun r hst hr => hr hst)
  | stopTerminal => obtain ⟨⟩ := hw; exact hsilent contained_stopTerminal
  | fail => obtain ⟨⟩ := hw; exact hsilent contained_failExecution
  | _ => cases hw

/-! ### Runs -/

/-- A superseded worker changes its own execution only, where the generation is one its
transaction spares. -/
def FenceSpec (op : Op) (c c' : Db) : Prop :=
  ∀ w, op.worker = some w → executionCurrent c w = false →
    (∀ r, c.get (.generation w.generationId) = some r → op.spares r) →
    ∀ k, k ≠ w.key → c'.get k = c.get k

/-- What a committed transaction has done, with what a worker has. -/
def WorkerSpec (S : Strict) (op : Op) (c₀ : Db) (a : Reply) (c c' : Db) : Prop :=
  Spec S op c₀ a c c' ∧ FenceSpec op c c'

theorem fences_verified (S : Strict) (env : Env) :
    VerifiedFrom (chat S) (fun _ => onWrites (Permits S)) (body env)
      (fun op h => S.genuine → Issued op h) (WorkerSpec S) (fun _ _ _ _ => True) (Claims S) := by
  refine ⟨fun op c h hc hP hpre => ?_⟩
  have hspec := (chat_verified S env).wp op c h hc hP hpre
  cases hworker : op.worker with
  | none =>
    refine wp_conseq hspec (fun a c d H _ h => ?_) fun _ _ _ _ _ h => h
    refine ⟨h.1, h.2.1, h.2.2, fun w hw => ?_⟩
    rw [hworker] at hw
    cases hw
  | some w =>
    have hcontained : (chat S).Triple (Permits S) (Inside fun _ => False) (body env op)
        fun _ => Contained w op.spares := contained_worker hworker
    have hcontained := hcontained.wp c ∅ (fun _ => False) hc fun _ _ k hk => (AList.notMem_empty k hk).elim
    refine wp_conseq (wp_and hspec hcontained) (fun a c d H hc h => ?_) fun _ _ _ _ _ _ => trivial
    refine ⟨h.1.1, h.1.2.1, h.1.2.2, fun w' hw' hcurrent hspares k hk => ?_⟩
    cases hworker.symm.trans hw'
    exact (h.2.now hc).unchanged hcurrent hspares hk

theorem fences_preserved :
    Preserved (chat S) (WorkerSpec S) (fun _ _ _ _ => True) (Claims S) where
  commit c₀ c c' h op n a hs hc hc' hg hR hP :=
    claims_preserved.commit c₀ c c' h op n a hs hc hc' hg hR.1 hP
  error := claims_preserved.error

/-- Every move of a run is as `P` says, between the state before it and the one after it. -/
def Throughout (P : System → Move Op → System → Prop) (env : Env) :
    System → List (Move Op) → Prop
  | _, [] => True
  | s, m :: ms => ∀ t, step (body env) s m = some t → P s m t ∧ Throughout P env t ms

/-- The move goes on with the transaction of a worker whose execution is not running under its
token. -/
structure Superseded (s : System) (m : Move Op) (op : Op) (w : Held) : Prop where
  session : ∃ i x, m = .advance i ∧ s.sessions i = some x ∧ x.op = op
  worker : op.worker = some w
  lost : executionCurrent s.db w = false

/-- The generation of a superseded worker is one its transaction spares. -/
def Spares (s : System) (m : Move Op) (_ : System) : Prop :=
  ∀ op w, Superseded s m op w →
    ∀ r, s.db.get (.generation w.generationId) = some r → op.spares r

/-- A superseded worker changes nothing but its own execution. -/
def Fences (s : System) (m : Move Op) (t : System) : Prop :=
  ∀ op w, Superseded s m op w → ∀ k, k ≠ w.key → t.db.get k = s.db.get k

/-- What holds of every state that is reached. -/
abbrev FencesSys (S : Strict) : System → Prop :=
  SysOk (chat S) (fun _ => onWrites (Permits S)) (WorkerSpec S) (fun _ _ _ _ => True) (Claims S)

theorem fences_step {s t : System} {m : Move Op} (hs : FencesSys S s)
    (hstep : step (body env) s m = some t) (h : Spares s m t) : Fences s m t := by
  rintro op w hsuper k hk
  obtain ⟨i, ⟨op', prog, d, n⟩, rfl, hx, rfl⟩ := hsuper.session
  rcases step_advance_db hx hstep with hdb | ⟨a, hprog, hdb⟩
  · rw [hdb]
  · obtain rfl : prog = .done a := hprog
    obtain ⟨c₀, -, -, hfence⟩ := hs.committed hx
    rw [hdb]
    exact hfence w hsuper.worker hsuper.lost (h _ w hsuper) k hk

/-- **Execution fencing**: in every run in which the generations of superseded workers are ones
their transactions spare, a superseded worker changes its own execution only. -/
theorem execution_fencing {ms : List (Move Op)}
    (h : Throughout Spares env (Sys.init ∅) ms) : Throughout Fences env (Sys.init ∅) ms := by
  have hstart : FencesSys Strict.none (Sys.init ∅) :=
    SysOk.init (inv_empty _) fun _ he => by cases he
  revert h hstart
  generalize Sys.init ∅ = s
  induction ms generalizing s with
  | nil => exact fun _ _ => trivial
  | cons m ms ih =>
    intro h hs t ht
    have hpermitted : Permitted Strict.none env s [m] := permitted_of_not id id id s [m]
    have hallow : Allows (fun _ => onWrites (Permits Strict.none)) s m := hpermitted.1
    obtain ⟨hok, -⟩ := (fences_verified _ env).step fences_preserved hs hallow
      (fun _ _ _ h => h.elim) ht
    exact ⟨fences_step hs ht (h t ht).1, ih t (h t ht).2 hok⟩

instance (op : Op) (r : GenerationRow) : Decidable (op.spares r) := by
  unfold Op.spares
  split <;> infer_instance

/-- The generations of the superseded workers of a run are spared. -/
def sparingRun (env : Env) : System → List (Move Op) → Bool
  | _, [] => true
  | s, m :: ms =>
    (match m with
      | .advance i => (s.sessions i).all fun x => x.op.worker.all fun w =>
        executionCurrent s.db w ||
          (s.db.get (.generation w.generationId) : Option GenerationRow).all fun r =>
            decide (x.op.spares r)
      | _ => true) &&
    (step (body env) s m).all fun t => sparingRun env t ms

theorem throughout_of_sparingRun :
    ∀ {s : System}, sparingRun env s ms = true → Throughout Spares env s ms := by
  induction ms with
  | nil => exact fun _ => trivial
  | cons m ms ih =>
    intro s h t ht
    unfold sparingRun at h
    rw [Bool.and_eq_true, ht, all_some] at h
    refine ⟨?_, ih h.2⟩
    rintro op w hsuper r hr
    obtain ⟨i, x, rfl, hx, rfl⟩ := hsuper.session
    have h := h.1
    simp only [hx, all_some, hsuper.worker, hsuper.lost, Bool.false_or] at h
    rw [hr, all_some, decide_eq_true_eq] at h
    exact h

/-- The lease of a worker is over and its execution has a successor; the worker goes on. -/
def sampleSuperseded : List (Move Op) := sampleStart ++ alone 3 (sampleMaintenance 100) 9

/-- What it would publish. -/
def sampleAnswer : Publication where
  candidates := [⟨0, "a", [], "direct"⟩]
  effortLevel := "quick"
  upgradedFrom := none
  scopeCurrent := true
  nearDuplicate := false
  now := 5
  busy := false
  busyAgain := false

theorem execution_fencing_sample :
    (run (body sampleEnv) (Sys.init ∅) (sampleSuperseded ++
      alone 4 (.delta sampleHeld false "a") 3 ++ alone 5 (.publish sampleHeld sampleAnswer) 6 ++
        alone 6 (.fail sampleHeld false 5 ⟨"provider_result_unknown", "", []⟩) 4)).isSome = true ∧
    Throughout Fences sampleEnv (Sys.init ∅) (sampleSuperseded ++
      alone 4 (.delta sampleHeld false "a") 3 ++ alone 5 (.publish sampleHeld sampleAnswer) 6 ++
        alone 6 (.fail sampleHeld false 5 ⟨"provider_result_unknown", "", []⟩) 4) :=
  ⟨by decide +kernel, execution_fencing (throughout_of_sparingRun (by decide +kernel))⟩

theorem Throughout.last {P : System → Move Op → System → Prop} {m : Move Op} :
    ∀ {s t u : System}, Throughout P env s (ms ++ [m]) → run (body env) s ms = some t →
      step (body env) t m = some u → P t m u := by
  induction ms with
  | nil =>
    intro s t u h hrun hstep
    cases hrun
    exact (h u hstep).1
  | cons m' ms ih =>
    intro s t u h hrun hstep
    rw [run, bind_eq_some_iff] at hrun
    obtain ⟨v, hv, hrun⟩ := hrun
    exact ih (h v hv).2 hrun hstep

/-- **A superseded worker fails the generation of its successor**: its provider is not
available, and the successor is queued. -/
theorem superseded_failure :
    ¬ ∀ (env : Env) (ms : List (Move Op)), Throughout Fences env (Sys.init ∅) ms := by
  intro h
  have hrun : ((run (body sampleEnv) (Sys.init ∅) (sampleSuperseded ++
      .start 4 (.fail sampleHeld false 5 ⟨"provider_unavailable", "", []⟩) ::
        List.replicate 9 (.advance 4))).bind fun s => (s.sessions 4).bind fun x =>
          (step (body sampleEnv) s (.advance 4)).bind fun t =>
            (s.db.get (.generation "g")).bind fun r : GenerationRow =>
              (t.db.get (.generation "g")).map fun r' : GenerationRow =>
                (x.op.worker, executionCurrent s.db sampleHeld, r.status, r'.status))
      = some (some sampleHeld, false, .running, .failed) := by
    decide +kernel
  obtain ⟨s, hs, hrest⟩ := Option.bind_eq_some_iff.mp hrun
  obtain ⟨x, hx, hrest⟩ := Option.bind_eq_some_iff.mp hrest
  obtain ⟨t, ht, hrest⟩ := Option.bind_eq_some_iff.mp hrest
  obtain ⟨r, hr, hrest⟩ := Option.bind_eq_some_iff.mp hrest
  obtain ⟨r', hr', hrest⟩ := Option.map_eq_some_iff.mp hrest
  simp only [Prod.mk.injEq] at hrest
  obtain ⟨hworker, hlost, hrun, hfailed⟩ := hrest
  have hsame := (h sampleEnv _).last hs ht x.op sampleHeld
    ⟨⟨4, x, rfl, hx, rfl⟩, hworker, hlost⟩ (.generation "g") (by simp)
  rw [hr, hr'] at hsame
  obtain rfl := Option.some.inj hsame
  rw [hfailed] at hrun
  cases hrun

end RagQs.Chat
