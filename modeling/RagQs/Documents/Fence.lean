import RagQs.Documents.System

/-!
# The fence of an attempt

What a worker changes by handing in a receipt or reporting a failure: nothing, unless its attempt
is the one the job runs and the fence it carries is that of the attempt.

## Main definitions

* `CurrentAttempt` — the job runs the attempt, which has the fence.
* `Fenced` — nothing is pending, or the attempt is current and locked.

## Main results

* `fenced_failJob`, `fenced_acceptReceipt` — the transactions of a worker are fenced.
* `fenced_run` — a worker whose attempt was superseded changes no row, in any run.
-/

namespace RagQs.Documents

open Txn Discipline

variable {D : Discipline Row} {C : List (Write Row) → Db → Prop} {env : Env}
  {d j a : String} {fence : ℕ}

/-- The job runs the attempt, which has the fence. -/
structure CurrentAttempt (c : Db) (documentId jobId attemptId : String) (fence : ℕ) : Prop where
  job : ∃ r, c.get (.job documentId jobId) = some r ∧ r.state = .running ∧
    r.activeAttemptId = some attemptId
  attempt : ∃ r, c.get (.attempt documentId jobId attemptId) = some r ∧ r.state = .running ∧
    r.fencingToken = fence

/-- The attempt is current, and locked with its job. -/
def Locked (documentId jobId attemptId : String) (fence : ℕ) : Assn Row := fun c d H =>
  (∃ r : JobRow, (r.state = .running ∧ r.activeAttemptId = some attemptId) ∧
    (Committed (.job documentId jobId) (some r) : Assn Row) c d H) ∧
  ∃ r : AttemptRow, (r.state = .running ∧ r.fencingToken = fence) ∧
    (Committed (.attempt documentId jobId attemptId) (some r) : Assn Row) c d H

/-- Nothing is pending, or the attempt is current and locked. -/
def Fenced (documentId jobId attemptId : String) (fence : ℕ) : Assn Row := fun c d H =>
  Inside (fun _ => False) c d H ∨ Locked documentId jobId attemptId fence c d H

theorem Fenced.current {c p : Db} {H : Key → Prop} (h : Fenced d j a fence c p H) {k : Key}
    (hchanged : (p ∪ c : Db).get k ≠ c.get k) : CurrentAttempt c d j a fence := by
  rcases h with hnothing | ⟨⟨job, hjob, hj⟩, attempt, hattempt, ha⟩
  · exact absurd (hnothing.get id) hchanged
  · exact ⟨⟨job, hj.2, hjob⟩, attempt, ha.2, hattempt⟩

/-! ### What stays locked -/

section Locked

variable {β : Type} {p : Tx β}

theorem locked_triple : D.Triple C (Locked d j a fence) p fun _ => Locked d j a fence := by
  have hjob := Triple.locked (D := D) (C := C) (p := p) (k := Key.job d j)
    (P := fun r : JobRow => r.state = .running ∧ r.activeAttemptId = some a)
  have hattempt := Triple.locked (D := D) (C := C) (p := p) (k := Key.attempt d j a)
    (P := fun r : AttemptRow => r.state = .running ∧ r.fencingToken = fence)
  exact hjob.and hattempt

/-- What nothing is written by before the job is locked. -/
def Prefix (documentId jobId : String) (job : JobRow) : Assn Row := fun c d H =>
  Inside (fun _ => False) c d H ∧ (Committed (.job documentId jobId) (some job) : Assn Row) c d H

theorem prefix_triple {job : JobRow} (hp : p.Writes fun _ => False) :
    D.Triple C (Prefix d j job) p fun _ => Prefix d j job :=
  (Triple.inside hp).and Triple.committed

theorem prefix_lockedAttempt {job : JobRow} : D.Triple C (Prefix d j job) (lockedAttempt d j a)
    fun o c p H => Prefix d j job c p H ∧ ∀ x, o = some x →
      (Committed (.attempt d j a) (some x.1) : Assn Row) c p H := by
  refine .selectForUpdate fun c p H hc hφ c' hr => ?_
  have hlater := hφ c' (hr.mono fun _ hk => .inl hk)
  refine ⟨⟨hlater.1, .inl hlater.2.1, hlater.2.2⟩, fun x hx => ?_⟩
  have hget := (hφ.now hc).1.get (k := .attempt d j a) id
  obtain ⟨r, hr', rfl⟩ := Option.map_eq_some_iff.mp hx
  have hlock : H (.attempt d j a) ∨ Key.attempt d j a ∈
      ((p ∪ c : Db).get (.attempt d j a)).toList.flatMap fun _ =>
        [Key.attempt d j a, Key.attemptLease d j a] := by
    simp [hr']
  exact ⟨hlock, (hr.rows _ hlock).trans (hget.symm.trans hr')⟩

theorem prefix_opening {e e' e'' : Err} {f : DocumentRow → JobRow → Tx β} {ψ : β → Assn Row}
    (h : ∀ document job, D.Triple C (Prefix d j job) (f document job) ψ) :
    D.Triple C (Inside fun _ => False) (do
      let found ← readRow (Key.job d j)
      let _ ← orRaise found e
      let document ← lockedDocument d
      let document ← orRaise document e'
      let job ← lockedJob d j
      let job ← orRaise job e''
      f document job) ψ := by
  refine .bind (.inside .readRow) fun found => ?_
  refine .bind (.inside .orRaise) fun _ => ?_
  refine .bind (.inside .lockRow) fun document => ?_
  refine .bind (.inside .orRaise) fun document => ?_
  refine .bind (.lockCommitted id) fun job => ?_
  cases job with
  | none => exact .fail
  | some job => exact (h document job).pre fun c p H _ h => ⟨h.1, h.2 rfl⟩

end Locked

/-! ### The transactions of a worker -/

/-- `fail_job` -/
theorem fenced_failJob {x : FailCall} : D.Triple C (Inside fun _ => False) (failJob env x)
    fun _ c p H => Inside (fun _ => False) c p H ∨ ∃ a fence, x.attemptId = some a ∧
      x.fencingToken = some fence ∧ Fenced x.documentId x.jobId a fence c p H := by
  unfold failJob
  refine prefix_opening fun document job => ?_
  refine .bind (prefix_triple .raiseIf) fun _ => ?_
  refine .bind (.raiseIf (ψ := fun _ c p H => job.state = .running ∧
    Prefix x.documentId x.jobId job c p H) fun hrun c p H _ h => ⟨not_not.mp hrun, h⟩) fun _ => ?_
  refine .bind (.orRaise (ψ := fun a c p H => (job.state = .running ∧
    job.activeAttemptId = some a) ∧ Prefix x.documentId x.jobId job c p H)
    fun a ha c p H _ h => ⟨⟨h.1, ha⟩, h.2⟩) fun a => ?_
  refine .of_fact (fun _ _ _ _ h => h.1) fun hjob => ?_
  refine .bind (prefix_lockedAttempt.pre fun c p H _ h => h.2) fun attempt => ?_
  cases attempt with
  | none => exact .fail
  | some attempt =>
    refine .bind (.orRaise (ψ := fun b c p H => b = attempt ∧
      Prefix x.documentId x.jobId job c p H ∧
        (Committed (.attempt x.documentId x.jobId a) (some attempt.1) : Assn Row) c p H)
      fun b hb c p H _ h => ⟨(Option.some.inj hb).symm, h.1, h.2 _ rfl⟩) fun b => ?_
    refine .of_fact (fun _ _ _ _ h => h.1) ?_
    rintro rfl
    refine .bind (.raiseIf (ψ := fun _ c p H => (b.1.state = .running ∧
      x.attemptId = some a ∧ x.fencingToken = some b.1.fencingToken) ∧
        Locked x.documentId x.jobId a b.1.fencingToken c p H) fun hfence c p H _ h => ?_)
      fun _ => ?_
    · have hfence := not_not.mp hfence
      exact ⟨hfence, ⟨job, hjob, h.2.1.2⟩, b.1, ⟨hfence.1, rfl⟩, h.2.2⟩
    · refine .of_fact (fun _ _ _ _ h => h.1) fun hfence => ?_
      refine locked_triple.conseq (fun c p H _ h => h.2) fun _ c p H _ h => ?_
      exact .inr ⟨a, _, hfence.2.1, hfence.2.2, .inr h⟩

theorem fenced_checkReceipt {x : ReceiptCall} {document : DocumentRow} {job : JobRow}
    (hjob : job.state = .running ∧ job.activeAttemptId = some a) :
    D.Triple C (Prefix x.documentId x.jobId job) (checkReceipt x.documentId x document job a)
      fun _ => Locked x.documentId x.jobId a x.receipt.fencingToken := by
  unfold checkReceipt
  refine .bind prefix_lockedAttempt fun attempt => ?_
  cases hattempt : attempt.filter fun x => x.1.state = .running with
  | none => exact .fail
  | some b =>
    obtain ⟨hb, hrun⟩ := Option.filter_eq_some_iff.mp hattempt
    have hlocked : ∀ c p H, (Prefix x.documentId x.jobId job c p H ∧ ∀ y, attempt = some y →
        (Committed (.attempt x.documentId x.jobId a) (some y.1) : Assn Row) c p H) →
        Locked x.documentId x.jobId a b.1.fencingToken c p H := fun c p H h =>
      ⟨⟨job, hjob, h.1.2⟩, b.1, ⟨by simpa using hrun, rfl⟩, h.2 b hb⟩
    refine .bind (locked_triple.pre fun c p H _ h => hlocked c p H h) fun _ => ?_
    refine .bind locked_triple fun _ => ?_
    refine .bind (.raiseIf
      (ψ := fun _ => Locked x.documentId x.jobId a x.receipt.fencingToken)
      fun hfence c q H _ h => by rw [not_not.mp hfence]; exact h) fun _ => ?_
    exact locked_triple

/-- `_accept_processing_receipt_transaction` -/
theorem fenced_acceptReceipt {x : ReceiptCall} :
    D.Triple C (Inside fun _ => False) (acceptReceipt env x)
      fun _ => Fenced x.documentId x.jobId x.receipt.attemptId x.receipt.fencingToken := by
  unfold acceptReceipt
  refine prefix_opening fun document job => ?_
  split
  · exact .done fun c p H _ h => .inl h.1
  · refine .bind (.raiseIf (ψ := fun _ c p H => job.state = .running ∧
      Prefix x.documentId x.jobId job c p H) fun hrun c p H _ h => ⟨not_not.mp hrun, h⟩) fun _ => ?_
    refine .bind (.orRaise (ψ := fun a c p H => (job.state = .running ∧
      job.activeAttemptId = some a) ∧ Prefix x.documentId x.jobId job c p H)
      fun a ha c p H _ h => ⟨⟨h.1, ha⟩, h.2⟩) fun a => ?_
    refine .of_fact (fun _ _ _ _ h => h.1) fun hjob => ?_
    refine .bind (.raiseIf (ψ := fun _ c p H => x.receipt.attemptId = a ∧
      Prefix x.documentId x.jobId job c p H) fun ha c p H _ h => ⟨not_not.mp ha, h.2⟩) fun _ => ?_
    refine .of_fact (fun _ _ _ _ h => h.1) fun ha => ?_
    subst ha
    refine .bind (((fenced_checkReceipt hjob).pre fun c p H _ h => h.2)) fun _ =>
      locked_triple.post fun _ _ _ _ _ h => .inr h

/-! ### Runs -/

/-- What the worker hands in is for the attempt that is current. -/
def Op.Current (c : Db) : Op env → Prop
  | .accept x => CurrentAttempt c x.documentId x.jobId x.receipt.attemptId x.receipt.fencingToken
  | .fail x => ∃ a fence, x.attemptId = some a ∧ x.fencingToken = some fence ∧
      CurrentAttempt c x.documentId x.jobId a fence
  | _ => True

/-- Nothing but the locks is relied on. -/
def locksOnly : Discipline Row where
  Inv _ := True
  guar _ _ _ := True
  refl _ _ := trivial
  trans _ _ := trivial
  mono _ _ := trivial

theorem verified_fence : Verified locksOnly (fun _ => onWrites fun _ _ => True) (body env)
    (fun op _ _ c c' => ∀ k, c'.get k ≠ c.get k → op.Current c) fun _ _ _ _ => True := by
  refine ⟨fun op c hc => ?_⟩
  have hstart : locksOnly.Always (Inside fun _ => False) c ∅ fun _ => False :=
    fun _ _ k hk => absurd hk (AList.notMem_empty k)
  cases op with
  | accept x =>
    have hbody : locksOnly.Triple (fun _ _ => True) (Inside fun _ => False) (body env (.accept x))
        fun _ => Fenced x.documentId x.jobId x.receipt.attemptId x.receipt.fencingToken :=
      .bind fenced_acceptReceipt fun _ => .done fun _ _ _ _ h => h
    exact hbody.commit hc hstart fun r c p H _ h => ⟨trivial, trivial, fun k hk => h.current hk⟩
  | fail x =>
    have hbody : locksOnly.Triple (fun _ _ => True) (Inside fun _ => False) (body env (.fail x))
        fun _ c p H => Inside (fun _ => False) c p H ∨ ∃ a fence, x.attemptId = some a ∧
          x.fencingToken = some fence ∧ Fenced x.documentId x.jobId a fence c p H :=
      .bind fenced_failJob fun _ => .done fun _ _ _ _ h => h
    refine hbody.commit hc hstart fun r c p H _ h => ⟨trivial, trivial, fun k hk => ?_⟩
    rcases h with hnothing | ⟨a, fence, ha, hfence, h⟩
    · exact absurd (hnothing.get id) hk
    · exact ⟨a, fence, ha, hfence, h.current hk⟩
  | _ =>
    exact Triple.commit (Triple.trivial_post (φ := Inside fun _ => False)) hc hstart
      fun _ _ _ _ _ _ => ⟨trivial, trivial, fun _ _ => trivial⟩

/-- **A worker changes a row only while its attempt is current**, in every run. -/
theorem fenced_run {db : Db} {ms : List (Move (Op env))} {s t : System env} {i : ℕ}
    {x : Session Row (Op env) Err Reply} (h : run (body env) (Sys.init db) ms = some s)
    (hx : s.sessions i = some x) (ht : step (body env) s (.advance i) = some t) {k : Key}
    (hk : t.db.get k ≠ s.db.get k) : x.op.Current s.db := by
  have hok := (verified_fence.run .true ms (allowsRun_free ms _)
    (.init trivial trivial) h).1
  rcases step_advance_db hx ht with hdb | ⟨a, hdone, hdb⟩
  · exact absurd (by rw [hdb]) hk
  · obtain ⟨op, prog, p, n⟩ := x
    obtain rfl : prog = .done a := hdone
    obtain ⟨c₀, -, hmade⟩ := hok.committed hx
    rw [hdb] at hk
    exact hmade k hk

end RagQs.Documents
