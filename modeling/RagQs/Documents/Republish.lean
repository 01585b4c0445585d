import RagQs.Documents.WorkRuns
import RagQs.Txn.Yields

/-!
# A version that is published again

A reindex stages a new publication of the active version, workers attempt its job, and the receipt
of the current attempt activates the publication before the one that was active is superseded.  A
version has one publication of each status in a generation of the index, so the activation is
refused wherever the active publication belongs to the generation already.

## Main definitions

* `slots`, `settled` — the publications of a document, as the unique index sees them, and those
  that are no longer staged.
* `Keeps` — a program keeps what is said of the slots.
* `validateReceipt`, `finishReceipt` — what `acceptReceipt` does before and after it changes the
  status of the publications.
* `Cycle`, `Presented` — reindexes with the attempts and receipts that follow them.
* `Republished`, `Vacant` — every receipt is accepted, and when it is.

## Main results

* `calm_reindex`, `calm_attempts` — a reindex and the attempts of its job change no publication
  that is no longer staged.
* `Cycle.Valid.accept` — a valid receipt is accepted if and only if the index lets it be.
* `republished_iff` — **only a first reindex within a generation is accepted**.
-/

namespace RagQs.Documents

open Txn List Option Function

variable {env : Env} {d v g p j : String} {s s' : Db} {α β γ : Type}

/-- What the unique index of publications is over, and the status. -/
structure Slot where
  documentVersionId : String
  generationId : String
  status : PublicationState
  deriving DecidableEq

def PublicationRow.slot (r : PublicationRow) : Slot :=
  ⟨r.documentVersionId, r.generationId, r.status⟩

/-- Publications with their slots. -/
abbrev Slots := String → Option Slot

variable {σ τ : Slots} {x : Slot}

/-- The publications of a document, as the unique index sees them. -/
def slots (d : String) (s : Db) : Slots := fun p =>
  (s.get (.publication d p)).map PublicationRow.slot

/-- The publications that are no longer staged. -/
def settled (σ : Slots) : Slots := fun p => (σ p).filter (·.status ≠ .staged)

theorem settled_eq_some (hx : x.status ≠ .staged) : settled σ p = some x ↔ σ p = some x := by
  simp [settled, hx]

theorem settled_update (hx : x.status = .staged) (hp : settled σ p = none) :
    settled (update σ p (some x)) = settled σ := by
  funext q
  by_cases hq : q = p
  · subst hq
    rw [hp]
    simp [settled, hx]
  · simp [settled, update_of_ne hq]

/-! ### What the index refuses -/

theorem publicationClash_iff {r : PublicationRow} :
    publicationClash s d p r = true ↔ ∃ q, q ≠ p ∧ slots d s q = some r.slot := by
  unfold publicationClash slots PublicationRow.slot
  rw [Bool.not_eq_true', isEmpty_eq_false_iff_exists_mem]
  simp only [mem_table, Option.map_eq_some_iff]
  constructor
  · rintro ⟨⟨⟩, k, x, hx, hpick⟩
    cases k <;> simp only [reduceCtorEq, ite_none_right_eq_some] at hpick
    next d' q =>
      obtain ⟨⟨rfl, hq, hv, hg, hs⟩, -⟩ := hpick
      exact ⟨q, hq, x, hx, by rw [hv, hg, hs]⟩
  · rintro ⟨q, hq, x, hx, heq⟩
    obtain ⟨hv, hg, hs⟩ := Slot.mk.inj heq
    exact ⟨(), .publication d q, x, hx, by simp [hq, hv, hg, hs]⟩

theorem slots_set {r : PublicationRow} :
    slots d (s.set (.publication d p) (some r)) = update (slots d s) p (some r.slot) := by
  funext q
  unfold slots
  by_cases hq : q = p
  · subst hq
    rw [Store.get_set_self, update_self]
    rfl
  · have hkey : Key.publication d q ≠ .publication d p := by simpa using hq
    rw [Store.get_set_of_ne hkey, update_of_ne hq]

/-! ### What a program keeps -/

/-- The program keeps it that `π` says `τ` of the slots of the document. -/
def Keeps (d : String) (π : Slots → γ) (τ : γ) (x : Tx α) : Prop :=
  x.Preserves fun s => π (slots d s) = τ

namespace Keeps

variable {π : Slots → γ} {τ : γ} {x : Tx β} {f : β → Tx α}

theorem bind (hx : Keeps d π τ x) (hf : ∀ b, Keeps d π τ (f b)) : Keeps d π τ (x >>= f) :=
  Prog.Preserves.bind hx hf

theorem off (hx : x.Writes fun k => ∀ q, k ≠ .publication d q) : Keeps d π τ x := by
  refine .of_writes hx fun s ws hws hs => ?_
  rw [← hs]
  refine congrArg π (funext fun q => ?_)
  unfold slots
  rw [Store.get_applyAll_of_notMem fun hmem => ?_]
  obtain ⟨w, hw, heq⟩ := List.mem_map.mp hmem
  exact hws w hw q heq

theorem update {k : Key} {cond : Row k → Bool} {up : Row k → Row k}
    (hk : ∀ q, k ≠ .publication d q) : Keeps d π τ (updateWhere k cond up) :=
  off (.updateWhere hk)

theorem updateWhere {k : Key} {cond : Row k → Bool} {up : Row k → Row k}
    (h : ∀ s r, π (slots d s) = τ → s.get k = some r →
      π (slots d (s.set k (some (up r)))) = τ) : Keeps d π τ (Txn.updateWhere k cond up) :=
  Prog.Preserves.updateWhere h

theorem insert {k : Key} {r : Row k} {unique : List Key} (hk : ∀ q, k ≠ .publication d q) :
    Keeps d π τ (Txn.insert .integrity unique [⟨k, some r⟩]) :=
  off (.insert fun w hw => by
    obtain rfl := mem_singleton.mp hw
    exact hk)

theorem free (hx : x.Writes guards.Free) : Keeps d π τ x :=
  off (hx.mono fun k hk q heq => by
    subst heq
    have hnone := hk (stagedPublication "" "" "")
    cases hnone)

theorem bindFree (hx : x.Writes guards.Free) (hf : ∀ b, Keeps d π τ (f b)) : Keeps d π τ (x >>= f) :=
  (free hx).bind hf

theorem readRow {k : Key} {f : Option (Row k) → Tx α} (hf : ∀ o, Keeps d π τ (f o)) :
    Keeps d π τ (Txn.readRow k >>= f) := bindFree .readRow hf

theorem lockRow {k : Key} {f : Option (Row k) → Tx α} (hf : ∀ o, Keeps d π τ (f o)) :
    Keeps d π τ (Txn.lockRow k >>= f) := bindFree .lockRow hf

theorem orRaise {o : Option β} {e : Err} (hf : ∀ b, Keeps d π τ (f b)) :
    Keeps d π τ (Txn.orRaise o e >>= f) := bindFree .orRaise hf

theorem raiseIf {bad : Prop} [Decidable bad] {e : Err} {f : Unit → Tx α}
    (hf : ∀ b, Keeps d π τ (f b)) : Keeps d π τ (Txn.raiseIf bad e >>= f) :=
  bindFree .raiseIf hf

theorem check {z : Except Err β} (hf : ∀ b, Keeps d π τ (f b)) : Keeps d π τ (Txn.check z >>= f) :=
  bindFree .check hf

theorem done {b : β} : Keeps d π τ (.done b) := trivial

theorem fail {e : Err} : Keeps d π τ (.fail e : Tx α) := trivial

theorem ite {cond : Prop} [Decidable cond] {y : Tx β} (hx : Keeps d π τ x) (hy : Keeps d π τ y) :
    Keeps d π τ (if cond then x else y) := by
  split
  · exact hx
  · exact hy

theorem insertPublication {r : PublicationRow}
    (h : ∀ σ, σ p = none → π (Function.update σ p (some r.slot)) = π σ) :
    Keeps d π τ (Documents.insertPublication d p r) := by
  refine fun s hs => ⟨?_, ?_⟩
  · dsimp only
    split
    · exact hs
    · next hbad =>
      rw [Bool.or_eq_true, not_or] at hbad
      change π (slots d (s.set _ _)) = τ
      rw [slots_set, h _ ?_, hs]
      unfold slots
      rw [show s.get (.publication d p) = none by simpa using hbad.1]
      rfl
  · dsimp only
    split <;> exact trivial

theorem updatePublication {up : PublicationRow → PublicationRow}
    (h : ∀ σ r, π σ = τ → σ p = some r.slot → π (Function.update σ p (some (up r).slot)) = τ) :
    Keeps d π τ (Documents.updatePublication d p up) := by
  refine fun s hs => ⟨?_, ?_⟩
  · dsimp only
    split
    · exact hs
    · cases hr : s.get (.publication d p) with
      | none => exact hs
      | some r =>
        change π (slots d (s.set (.publication d p) (some (up r)))) = _
        rw [slots_set]
        exact h _ r hs (by unfold slots; rw [hr]; rfl)
  · dsimp only
    split <;> exact trivial

theorem recordItemState {batchId : Option String} {state : ItemState} :
    Keeps d π τ (Documents.recordItemState p j batchId state) :=
  ite (.bind (.update nofun) fun _ => free free_refreshUploadBatch) done

theorem withIdempotency {q : Request} {x : Tx JsonObject} (hx : Keeps d π τ x) :
    Keeps d π τ (Documents.withIdempotency q x) := by
  refine bindFree free_idempotencyReplay fun earlier => ?_
  cases earlier with
  | some response => exact done
  | none => exact hx.bind fun _ => bindFree free_completeIdempotency fun _ => done

theorem exec (hx : Keeps d π (π (slots d s)) x) {b : β} (h : x.exec s = .ok (b, s')) :
    π (slots d s') = π (slots d s) :=
  Prog.Preserves.exec hx rfl h

end Keeps

/-! ### A reindex and the attempts of its job -/

theorem calm_stage {r : PublicationRow} (hr : r.status = .staged) :
    Keeps d settled τ (insertPublication d p r) :=
  .insertPublication fun σ hσ => settled_update hr (by simp [settled, hσ])

theorem calm_deleteStaged {d' : String} {jobId : Option String} :
    Keeps d settled τ (deleteStaged d' jobId) := by
  refine .bind (fun s hs => ⟨?_, trivial⟩) fun _ => .done
  rw [← hs]
  funext q
  unfold settled slots
  rw [get_applyAll_updateAll]
  cases s.get (.publication d q) with
  | none => rfl
  | some r =>
    simp only [Option.bind_some, unstaging]
    split
    · next h => simp [PublicationRow.slot, h.2.1, filter_some]
    · rfl

attribute [irreducible] Keeps

theorem calm_reindex {a : OperationCall} (ha : a.documentId = d) :
    Keeps d settled τ (reindex a) := by
  subst ha
  refine .lockRow fun _ => .orRaise fun document => .check fun _ => .withIdempotency ?_
  refine .check fun _ => .check fun _ => .orRaise fun versionId => .bind (.insert nofun) fun _ =>
    .bind ?_ fun _ => .done
  exact .bindFree free_currentIndexGeneration fun _ => (calm_stage rfl).bind fun _ =>
    .bind (.update nofun) fun _ => .done

theorem calm_closeJob {document : DocumentRow} {job : JobRow} {status : VersionState}
    {guardedBy : Option String} {now : Time} :
    Keeps d settled τ (closeJob env p document job status guardedBy now) := by
  have hrelease : ∀ versioned, Keeps d settled τ (releaseDocument p document versioned guardedBy) :=
    fun _ => .bind (.update nofun) fun _ => .done
  exact .ite (.bind (.bind (.update nofun) fun _ => .done) fun _ => hrelease _) (hrelease _)

theorem calm_renewLease {a : RenewCall} : Keeps d settled τ (renewLease a) := by
  refine .bindFree .selectForUpdate fun held => .ite (.off ?_) .done
  refine .statement fun v w hw => ?_
  split at hw
  · obtain ⟨r, -, rfl⟩ := mem_map.mp hw
    simp
  · cases hw

theorem claimPublication_ok {job : JobRow} {new : String} {x : String × String}
    (h : (claimPublication d j job new).exec s = .ok (x, s')) :
    settled (slots d s') = settled (slots d s) ∧ settled (slots d s') x.1 = none := by
  have h := exec_readRow_bind h
  split at h
  · next r hr =>
    cases h
    obtain ⟨hr, hs⟩ := Option.filter_eq_some_iff.mp hr
    refine ⟨rfl, ?_⟩
    unfold settled slots
    rw [hr]
    simpa [PublicationRow.slot] using of_decide_eq_true hs
  · obtain ⟨generationId, _, hgeneration, h⟩ := Prog.exec_bind_ok h
    cases hgeneration
    obtain ⟨⟨⟩, t, hinsert, h⟩ := Prog.exec_bind_ok h
    obtain ⟨n, u, hjob, h⟩ := Prog.exec_bind_ok h
    cases h
    have hslots : slots d s' = slots d t :=
      Keeps.exec (π := id) (.update (k := .job d j) nofun) hjob
    rw [hslots]
    refine ⟨(calm_stage rfl).exec hinsert, ?_⟩
    unfold insertPublication at hinsert
    dsimp only [Prog.exec] at hinsert
    split at hinsert
    · cases hinsert
    · cases hinsert
      change settled (slots d (s.set _ _)) new = none
      rw [slots_set, settled, update_self]
      rfl

theorem calm_startAttempt {a : ClaimCall} {document : DocumentRow} {job : JobRow} {n m : ℕ}
    (hp : τ p = none) : Keeps d settled τ (startAttempt env a d j document job n m p g) := by
  have hup : ∀ up : PublicationRow → PublicationRow, (∀ r, (up r).status = r.status) →
      Keeps d settled τ (updatePublication d p up) := by
    refine fun up hup => .updatePublication fun σ r hσ hr => ?_
    refine (settled_update ((hup r).trans ?_) (hσ ▸ hp)).trans hσ
    rw [← hσ, settled, hr] at hp
    simpa [PublicationRow.slot, Option.filter_some] using hp
  refine .bindFree .select fun _ => .bind (.ite (hup _ fun _ => rfl) .done) fun _ => ?_
  refine .readRow fun _ => .bindFree .select fun _ =>
    .bindFree free_workerAuthorizationFence fun _ => .bindFree .select fun _ =>
    .bind (.insert nofun) fun _ => .bind (.insert nofun) fun _ => .bind (.update nofun) fun _ =>
    .bind (hup _ fun _ => rfl) fun _ => .bind .recordItemState fun _ => .readRow fun _ => .done

theorem claimJob_ok {a : ClaimCall} {lease : JobLease} (hpicked : a.picked = some (d, j))
    (h : (claimJob env a).exec s = .ok (lease, s')) :
    settled (slots d s') = settled (slots d s) := by
  unfold claimJob at h
  have h := exec_select_bind h
  rw [hpicked] at h
  obtain ⟨x, hx, h⟩ := exec_orRaise_bind h
  obtain rfl := Option.some.inj (Option.filter_eq_some_iff.mp hx).1
  obtain ⟨document, -, h⟩ := exec_orRaise_bind (exec_lockRow_bind h)
  obtain ⟨_, _, hread, h⟩ := Prog.exec_bind_ok h
  cases hread
  obtain ⟨job, -, h⟩ := exec_orRaise_bind h
  have h := exec_select_bind (q := fun v : Db => maxOf (attemptColumn v d j (·.attemptNumber))) h
  have h := exec_select_bind (q := fun v : Db => maxOf (attemptColumn v d j (·.fencingToken))) h
  obtain ⟨publication, t, hpublication, h⟩ := Prog.exec_bind_ok h
  obtain ⟨hcalm, hstaged⟩ := claimPublication_ok hpublication
  exact ((calm_startAttempt hstaged).exec h).trans hcalm

theorem free_retryIn {willRetry : Bool} {n m : ℕ} :
    (retryIn willRetry n m).Writes guards.Free :=
  .ite (fun _ => .bind .check fun _ => trivial) fun _ => trivial

theorem calm_expireAttempt {now : Time} {jitter : ℕ} {z : Except Err Unit} {a : String}
    {document : DocumentRow} {job : JobRow} {attempt : AttemptRow} :
    Keeps d settled τ (expireAttempt env now jitter z p j a document job attempt) := by
  refine .bindFree .select fun count => .bindFree free_retryIn fun delay => ?_
  exact .bindFree free_discardIndexingAttempt fun _ => .bind (.update nofun) fun _ =>
    .bindFree free_endLease fun _ => calm_deleteStaged.bind fun _ => .bind (.update nofun) fun _ =>
    .bind (.ite .done calm_closeJob) fun _ => .recordItemState

theorem calm_reclaimJob {now : Time} {jitter : ℕ} {z : Except Err Unit} :
    Keeps d settled τ (reclaimJob env now jitter z p j) := by
  refine .lockRow fun document => ?_
  cases document with
  | none => exact .done
  | some document =>
    refine .lockRow fun _ => .orRaise fun job => ?_
    split
    · exact .done
    · refine .ite (.bindFree .selectForUpdate fun attempt => ?_) .done
      split
      · exact .done
      · exact .ite calm_expireAttempt .done

theorem calm_reclaimExpired {now : Time} {jitter : String → ℕ} {z : String → Except Err Unit} :
    Keeps d settled τ (reclaimExpired env now jitter z) := by
  refine .bindFree .select fun jobs => ?_
  induction jobs with
  | nil => exact .done
  | cons x jobs ih => exact calm_reclaimJob.bind fun _ => ih

theorem calm_disclaimJob {job : JobRow} : Keeps d settled τ (disclaimJob p job) := by
  refine .ite (.bind (.off (.statement fun v w hw => ?_)) fun _ => .done) .done
  obtain ⟨k, r, -, hpick⟩ := mem_table.mp hw
  obtain ⟨o, ho, rfl⟩ := Option.map_eq_some_iff.mp hpick
  rintro q rfl
  cases ho

theorem calm_failJob {a : FailCall} : Keeps d settled τ (failJob env a) := by
  refine .readRow fun _ => .orRaise fun _ => .lockRow fun _ => .orRaise fun document =>
    .lockRow fun _ => .orRaise fun job => .raiseIf fun _ => .raiseIf fun _ => .orRaise fun _ =>
    .bindFree .selectForUpdate fun _ => .orRaise fun attempt => .raiseIf fun _ =>
    .bindFree .select fun count => .bindFree free_retryIn fun delay => ?_
  refine .bind (.ite .done (.free .check)) fun _ =>
    .bindFree free_discardIndexingAttempt fun _ => .bind (.update nofun) fun _ =>
    .bindFree free_endLease fun _ => .bind (.update nofun) fun _ => .bind calm_deleteStaged fun _ =>
    .bind (.ite .done (.bind calm_closeJob fun _ => calm_disclaimJob)) fun _ =>
    .bind .recordItemState fun _ => .done

theorem calm_replayJob {a : ReplayCall} (ha : a.documentId = d) :
    Keeps d settled τ (replayJob a) := by
  subst ha
  refine .raiseIf fun _ => .readRow fun _ => .orRaise fun _ => .lockRow fun _ =>
    .orRaise fun document => .lockRow fun _ => .orRaise fun job => .withIdempotency ?_
  refine .raiseIf fun _ => .bind ?_ fun _ => .bind ?_ fun _ => .done
  · refine .check fun _ => ?_
    split
    · exact .fail
    · exact .fail
    · exact .raiseIf fun _ => .raiseIf fun _ => .bindFree free_workerAuthorizationFence fun _ =>
        .readRow fun _ => .orRaise fun _ => .raiseIf fun _ => .raiseIf fun _ =>
        .free .raiseIf
  · exact .bind (.ite (.bind (.update nofun) fun _ => .done) .done) fun _ =>
      .bindFree free_currentIndexGeneration fun _ => .bind (calm_stage rfl) fun _ =>
      .bind (.update nofun) fun _ => .bind (.update nofun) fun _ => .recordItemState

/-- The operation is an attempt at the job of the reindex, or lets it be attempted again. -/
def Op.Attempts (d : String) : Op env → Prop
  | .claim a => ∃ j, a.picked = some (d, j)
  | .renew _ | .reclaim _ _ _ | .fail _ => True
  | .replay a => a.documentId = d
  | _ => False

theorem calm_attempts {works : List (Op env)} (hworks : ∀ w ∈ works, w.Attempts d) :
    settled (slots d (execAll (body env) s works)) = settled (slots d s) := by
  induction works generalizing s with
  | nil => rfl
  | cons w works ih =>
    rw [execAll_cons, ih fun w' hw' => hworks w' (mem_cons_of_mem _ hw')]
    refine execOne_induction (P := fun s' => settled (slots d s') = settled (slots d s))
      (fun reply s' h => ?_) rfl
    have hw := hworks w mem_cons_self
    cases w with
    | claim a =>
      obtain ⟨j, hpicked⟩ := hw
      obtain ⟨lease, t, hclaim, h⟩ := Prog.exec_bind_ok h
      cases h
      exact claimJob_ok hpicked hclaim
    | renew a => exact (Keeps.bind calm_renewLease fun _ => .done).exec h
    | reclaim now jitter discarded => exact (Keeps.bind calm_reclaimExpired fun _ => .done).exec h
    | fail a => exact (Keeps.bind calm_failJob fun _ => .done).exec h
    | replay a => exact (Keeps.bind (calm_replayJob hw) fun _ => .done).exec h
    | _ => cases hw

/-! ### The receipt -/

/-- `_accept_processing_receipt_transaction`, up to what it writes: nothing is left to do for a job
that has succeeded. -/
def validateReceipt (a : ReceiptCall) : Tx (Option (DocumentRow × JobRow × String)) := do
  let d := a.documentId
  let found ← readRow (Key.job d a.jobId)
  let _ ← orRaise found (refused "job_not_found" "Ingestion job was not found" 404)
  let document ← lockedDocument d
  let document ← orRaise document documentNotFound
  let job ← lockedJob d a.jobId
  let job ← orRaise job (refused "job_not_found" "Ingestion job was not found" 404)
  if job.state = .succeeded then pure none
  else do
    raiseIf (job.state ≠ .running) (refused "fence_conflict"
      "The processing job does not have a current running attempt" 409)
    let attemptId ← orRaise job.activeAttemptId (refused "fence_conflict"
      "The processing job does not have a current running attempt" 409)
    raiseIf (a.receipt.attemptId ≠ attemptId) fenceConflict
    checkReceipt d a document job attemptId
    let final ← lockedDocument d
    let final ← orRaise final documentNotFound
    let finalJob ← lockedJob d a.jobId
    let finalJob ← orRaise finalJob fenceConflict
    raiseIf (¬ (finalJob.state = .running ∧ finalJob.activeAttemptId = some attemptId))
      fenceConflict
    check (final.assertOperation a.jobId finalJob)
    raiseIf (final.activeVersionId ≠ finalJob.baseActiveVersionId) versionChanged
    let _ ← workerAuthorizationFence d a.jobId finalJob final
    check a.authorizedAgain
    pure (some (final, finalJob, attemptId))

/-- What the acceptance of a receipt writes after the statuses of the publications. -/
def finishReceipt (env : Env) (a : ReceiptCall) (document : DocumentRow) (job : JobRow)
    (attemptId : String) : Tx Unit := do
  let d := a.documentId
  (if job.operation.versioned then activateVersion env d a document job
  else do
    let _ ← updateWhere (Key.document d) (fun _ => true) fun r =>
      { r with activeOperationJobId := none, version := document.version + 1 })
  let charge ← recordPublicationQuota env d a job
  let _ ← updateWhere (Key.publication d a.receipt.publicationId) (fun _ => true)
    fun r => { r with quotaChargeStatus := charge.1, quotaChargeReason := charge.2 }
  check a.notified
  let _ ← updateWhere (Key.job d a.jobId) (fun _ => true) fun r =>
    { r with state := .succeeded, activeAttemptId := some attemptId,
             quotaChargeStatus := charge.1, quotaChargeReason := charge.2 }
  recordItemState d a.jobId job.uploadBatchId .succeeded
  appendIndexChange env a.receipt.generationId a.sourceManifestId
    ⟨d, some job.documentVersionId, some a.receipt.publicationId, job.operation.changeType,
      document.spaceId⟩ a.sourcePublished

/-- The publication of a receipt as an active one. -/
def ReceiptCall.activated (a : ReceiptCall) (attemptId : String) (r : PublicationRow) :
    PublicationRow :=
  { r with status := .active, attemptId := some attemptId,
           generationId := a.receipt.generationId, resourceManifest := some a.receipt,
           activatedAt := some a.now }

theorem acceptReceipt_eq (a : ReceiptCall) : acceptReceipt env a = (do
    let valid ← validateReceipt a
    match valid with
    | none => pure .succeeded
    | some (document, job, attemptId) => do
      succeedAttempt a.documentId a job attemptId
      updatePublication a.documentId a.receipt.publicationId (a.activated attemptId)
      supersedePublications a.documentId (some a.receipt.publicationId) a.now
      finishReceipt env a document job attemptId
      pure .succeeded) := by
  unfold acceptReceipt validateReceipt publishReceipt finishReceipt
  simp only [Prog.bind_assoc]
  refine bind_congr fun _ => bind_congr fun _ => bind_congr fun _ => bind_congr fun document =>
    bind_congr fun _ => bind_congr fun job => ?_
  split
  · rfl
  · simp only [Prog.bind_assoc]
    rfl

theorem keeps_checkReceipt {a : ReceiptCall} {document : DocumentRow} {job : JobRow}
    {attemptId : String} : Keeps d id τ (checkReceipt p a document job attemptId) := by
  refine .bindFree .selectForUpdate fun attempt => ?_
  split
  · exact .fail
  · exact .raiseIf fun _ => .check fun _ => .raiseIf fun _ =>
      .bindFree free_workerAuthorizationFence fun _ => .orRaise fun _ => .raiseIf fun _ =>
      .check fun _ => .raiseIf fun _ => .raiseIf fun _ => .lockRow fun _ => .check fun _ =>
      .lockRow fun _ => .orRaise fun _ => .raiseIf fun _ => .raiseIf fun _ => .check fun _ =>
      .check fun _ => .free .raiseIf

theorem keeps_validateReceipt {a : ReceiptCall} : Keeps d id τ (validateReceipt a) := by
  refine .readRow fun _ => .orRaise fun _ => .lockRow fun _ => .orRaise fun document =>
    .lockRow fun _ => .orRaise fun job => .ite .done (.raiseIf fun _ => .orRaise fun attemptId => ?_)
  exact .raiseIf fun _ => .bind keeps_checkReceipt fun _ => .lockRow fun _ => .orRaise fun _ =>
    .lockRow fun _ => .orRaise fun _ => .raiseIf fun _ => .check fun _ => .raiseIf fun _ =>
    .bindFree free_workerAuthorizationFence fun _ => .check fun _ => .done

theorem keeps_succeedAttempt {a : ReceiptCall} {job : JobRow} {attemptId : String} :
    Keeps d id τ (succeedAttempt d a job attemptId) :=
  .readRow fun _ => .ite (.bind (.update nofun) fun _ => .free free_endLease) (.insert nofun)

theorem keeps_appendDebit {a : ReceiptCall} {job : JobRow} :
    Keeps d id τ (appendDebit d a job) := by
  refine .check fun _ => .ite .done (.readRow fun debit => ?_)
  cases debit with
  | some r => exact .ite .done .fail
  | none => exact .bind (.insert nofun) fun _ => .done

theorem keeps_recordPublicationQuota {a : ReceiptCall} {job : JobRow} :
    Keeps d id τ (recordPublicationQuota env d a job) :=
  .ite .done (.raiseIf fun _ => .bind keeps_appendDebit fun _ =>
    .ite .done (.ite .done (.ite .done (.ite .done .done))))

theorem keeps_finishReceipt {a : ReceiptCall} {document : DocumentRow} {job : JobRow}
    {attemptId : String} (ha : a.documentId = d) (hjob : job.operation = .reindex) :
    Keeps d id τ (finishReceipt env a document job attemptId) := by
  subst ha
  refine .bind ?_ fun _ => .bind keeps_recordPublicationQuota fun charge => ?_
  · rw [hjob, if_neg (by decide)]
    exact .bind (.update nofun) fun _ => .done
  refine .bind (.updateWhere fun s r hs hr => ?_) fun _ => .check fun _ =>
    .bind (.update nofun) fun _ => .bind .recordItemState fun _ => .free free_appendIndexChange
  rw [slots_set, ← hs]
  refine update_eq_self_iff.mpr ?_
  unfold slots
  rw [hr]
  rfl

/-! ### The activation and the supersession -/

/-- The store once the publication of a receipt is active. -/
def ReceiptCall.activate (a : ReceiptCall) (attemptId : String) (s : Db) : Db :=
  s.applyAll ((s.get (.publication a.documentId a.receipt.publicationId)).toList.map fun r =>
    ⟨.publication a.documentId a.receipt.publicationId, some (a.activated attemptId r)⟩)

/-- The store once the others that were active are superseded. -/
def ReceiptCall.supersede (a : ReceiptCall) (s : Db) : Db :=
  s.applyAll (table s fun k r =>
    (superseding a.documentId (some a.receipt.publicationId) a.now k r).map (Sigma.mk k))

/-- The slots once a publication is active and the others are superseded. -/
def published (σ : Slots) (p v g : String) : Slots := fun q =>
  if q = p then some ⟨v, g, .active⟩
  else (σ q).map fun x => if x.status = .active then { x with status := .superseded } else x

/-- Nothing in the index is in the way of a new publication of the version in the generation: no
active one there, and no superseded one where an active one would have to go. -/
def Vacant (σ : Slots) (v g : String) : Prop :=
  (∀ q, σ q ≠ some ⟨v, g, .active⟩) ∧
    ∀ q q' v' g', σ q = some ⟨v', g', .active⟩ → σ q' ≠ some ⟨v', g', .superseded⟩

variable {a : ReceiptCall} {i : String}

theorem slots_activate (ha : a.documentId = d) (hp : a.receipt.publicationId = p)
    (hslot : slots d s p = some x) : slots d (a.activate i s) =
      update (slots d s) p (some ⟨x.documentVersionId, a.receipt.generationId, .active⟩) := by
  subst ha hp
  obtain ⟨r, hr, rfl⟩ := Option.map_eq_some_iff.mp hslot
  unfold ReceiptCall.activate
  rw [hr]
  exact slots_set

theorem slots_supersede (ha : a.documentId = d) (hp : a.receipt.publicationId = p) (q : String) :
    slots d (a.supersede s) q = (slots d s q).map fun x =>
      if x.status = .active ∧ q ≠ p then { x with status := .superseded } else x := by
  subst ha hp
  unfold slots ReceiptCall.supersede
  rw [get_applyAll_updateAll]
  cases hr : s.get (.publication a.documentId q) with
  | none => rfl
  | some r =>
    simp only [Option.bind_some, superseding, true_and, ne_eq, Option.some.injEq]
    split
    · next h => simp [PublicationRow.slot, h]
    · next h => simp only [Option.getD_none, Option.map_some, PublicationRow.slot, if_neg h]

theorem exec_activate (ha : a.documentId = d) (hp : a.receipt.publicationId = p)
    (hslot : slots d s p = some x) (hx : x.status = .staged) :
    let y : Slot := ⟨x.documentVersionId, a.receipt.generationId, .active⟩
    (∃ q, slots d s q = some y) ∧
        (updatePublication a.documentId a.receipt.publicationId (a.activated i)).exec s =
          .error .integrity ∨
      (∀ q, slots d s q ≠ some y) ∧
        (updatePublication a.documentId a.receipt.publicationId (a.activated i)).exec s =
          .ok ((), a.activate i s) := by
  subst ha hp
  intro y
  obtain ⟨r, hr, rfl⟩ := Option.map_eq_some_iff.mp hslot
  unfold updatePublication ReceiptCall.activate
  dsimp only [Prog.exec]
  split
  · next hbad =>
    rw [hr] at hbad
    obtain ⟨q, -, hq⟩ := publicationClash_iff.mp hbad
    exact .inl ⟨⟨q, hq⟩, rfl⟩
  · next hgood =>
    rw [hr] at hgood
    refine .inr ⟨fun q hq => hgood (publicationClash_iff.mpr ⟨q, ?_, hq⟩), rfl⟩
    rintro rfl
    cases (congrArg Slot.status (Option.some.inj (hslot.symm.trans hq))).symm.trans hx

theorem exec_supersede (ha : a.documentId = d) (hp : a.receipt.publicationId = p) :
    (∃ q q' v' g', q ≠ p ∧ slots d s q = some ⟨v', g', .active⟩ ∧
        slots d s q' = some ⟨v', g', .superseded⟩) ∧
        (supersedePublications a.documentId (some a.receipt.publicationId) a.now).exec s =
          .error .integrity ∨
      (∀ q q' v' g', q ≠ p → slots d s q = some ⟨v', g', .active⟩ →
        slots d s q' ≠ some ⟨v', g', .superseded⟩) ∧
        (supersedePublications a.documentId (some a.receipt.publicationId) a.now).exec s =
          .ok ((), a.supersede s) := by
  subst ha hp
  unfold supersedePublications ReceiptCall.supersede
  rw [Prog.exec_stmt]
  dsimp only
  split
  · next hbad =>
    refine .inl ⟨?_, rfl⟩
    obtain ⟨⟨⟩, hmem⟩ := isEmpty_eq_false_iff_exists_mem.mp hbad
    obtain ⟨k, r, hr, hpick⟩ := mem_table.mp hmem
    cases k <;> simp only [reduceCtorEq] at hpick
    next d' q =>
      simp only [superseding] at hpick
      split at hpick
      · next heq =>
        simp only [ite_none_right_eq_some, Option.some.injEq] at heq hpick
        obtain ⟨⟨rfl, hactive, hq⟩, rfl⟩ := heq
        obtain ⟨q', hq', hslot⟩ := publicationClash_iff.mp hpick.1
        refine ⟨q, q', r.documentVersionId, r.generationId, by simpa using hq, ?_, hslot⟩
        unfold slots PublicationRow.slot
        rw [hr, ← hactive]
        rfl
      · cases hpick
  · next hgood =>
    refine .inr ⟨fun q q' v' g' hq hqa hqs => hgood ?_, rfl⟩
    obtain ⟨r, hr, heq⟩ := Option.map_eq_some_iff.mp hqa
    obtain ⟨hv, hg, hactive⟩ := Slot.mk.inj heq
    refine isEmpty_eq_false_iff_exists_mem.mpr
      ⟨(), mem_table.mpr ⟨.publication a.documentId q, r, hr, ?_⟩⟩
    simp only [superseding, hactive, true_and, ne_eq, Option.some.injEq, hq, not_false_eq_true,
      if_true]
    rw [if_pos (publicationClash_iff.mpr ⟨q', ?_, ?_⟩)]
    · rintro rfl
      cases hqa.symm.trans hqs
    · rw [hqs, PublicationRow.slot, hv, hg]

/-! ### The acceptance -/

/-- The checks let the receipt of a reindex pass, and all that is written beside the statuses of the
publications can be written. -/
def ReceiptCall.passes (env : Env) (a : ReceiptCall) (s : Db) : Bool :=
  match (validateReceipt a).exec s with
  | .ok (some (document, job, attemptId), s₁) =>
    job.operation = .reindex &&
      match (succeedAttempt a.documentId a job attemptId).exec s₁ with
      | .ok (_, s₂) => ((finishReceipt env a document job attemptId).exec
          (a.supersede (a.activate attemptId s₂))).toBool
      | .error _ => false
  | _ => false

theorem ReceiptCall.passes_eq (h : a.passes env s = true) :
    ∃ document job attemptId s₁ s₂ s₃, (validateReceipt a).exec s =
        .ok (some (document, job, attemptId), s₁) ∧ job.operation = .reindex ∧
      (succeedAttempt a.documentId a job attemptId).exec s₁ = .ok ((), s₂) ∧
      (finishReceipt env a document job attemptId).exec (a.supersede (a.activate attemptId s₂)) =
        .ok ((), s₃) := by
  unfold ReceiptCall.passes at h
  split at h
  · next document job attemptId s₁ hvalid =>
    obtain ⟨hjob, h⟩ := Bool.and_eq_true_iff.mp h
    split at h
    · next s₂ hsucceed =>
      cases hfinish : (finishReceipt env a document job attemptId).exec
          (a.supersede (a.activate attemptId s₂)) with
      | ok x => exact ⟨document, job, attemptId, s₁, s₂, x.2, hvalid, of_decide_eq_true hjob,
          hsucceed, hfinish⟩
      | error e =>
        rw [hfinish] at h
        cases h
    · cases h
  · cases h

/-- A reindex, the attempts of its job and the receipt of the last one. -/
structure Cycle (env : Env) where
  reindexed : OperationCall
  works : List (Op env)
  accepted : ReceiptCall

/-- The newest publication. -/
def Cycle.publicationId (c : Cycle env) : String := c.accepted.receipt.publicationId

/-- What a reindex and the attempts of its job leave. -/
def Cycle.received (c : Cycle env) (s : Db) : Option Db :=
  match (reindex c.reindexed).exec s with
  | .ok (_, s₁) => some (execAll (body env) s₁ c.works)
  | .error _ => none

/-- The reindex is one of the version in the generation, and its job is attempted. -/
structure Cycle.Reindexes (c : Cycle env) (d v g : String) (s s' : Db) : Prop where
  document : c.reindexed.documentId = d
  active : (s.get (.document d)).bind (·.activeVersionId) = some v
  generation : (s.get .generationHead).getD "generation_initial" = g
  works : ∀ w ∈ c.works, w.Attempts d
  received : c.received s = some s'

/-- The receipt is a valid one of the current attempt, for a staged publication of the version. -/
structure Cycle.Valid (c : Cycle env) (d v g : String) (s : Db) : Prop where
  document : c.accepted.documentId = d
  publication : ∃ g', slots d s c.publicationId = some ⟨v, g', .staged⟩
  generation : c.accepted.receipt.generationId = g
  passes : c.accepted.passes env s = true

theorem Cycle.Reindexes.settled_eq {c : Cycle env} (h : c.Reindexes d v g s s') :
    settled (slots d s') = settled (slots d s) := by
  have hreceived := h.received
  unfold Cycle.received at hreceived
  split at hreceived
  · next response s₁ hreindex =>
    cases hreceived
    exact (calm_attempts h.works).trans ((calm_reindex h.document).exec hreindex)
  · cases hreceived

theorem vacant_settled : Vacant (settled σ) v g ↔ Vacant σ v g := by
  unfold Vacant
  simp [settled_eq_some]

theorem vacant_of_settled {σ' : Slots} (h : settled σ' = settled σ) :
    Vacant σ' v g ↔ Vacant σ v g := by
  rw [← vacant_settled, h, vacant_settled]

theorem vacant_iff (hp : σ p = some x) (hx : x.status = .staged) :
    Vacant σ v g ↔ (∀ q, σ q ≠ some ⟨v, g, .active⟩) ∧ ∀ q q' v' g', q ≠ p →
      update σ p (some ⟨v, g, .active⟩) q = some ⟨v', g', .active⟩ →
      update σ p (some ⟨v, g, .active⟩) q' ≠ some ⟨v', g', .superseded⟩ := by
  refine and_congr_right fun _ => ⟨fun h q q' v' g' hq hqa hqs => ?_, fun h q q' v' g' hqa hqs => ?_⟩
  · rw [update_of_ne hq] at hqa
    by_cases hq' : q' = p
    · rw [hq', update_self] at hqs
      cases hqs
    · rw [update_of_ne hq'] at hqs
      exact h q q' v' g' hqa hqs
  · have hne : ∀ {q y}, σ q = some y → y.status ≠ .staged → q ≠ p := by
      rintro q y hy hs rfl
      cases hp.symm.trans hy
      exact hs hx
    have hq := hne hqa nofun
    have hq' := hne hqs nofun
    rw [← update_of_ne hq (some ⟨v, g, .active⟩) σ] at hqa
    rw [← update_of_ne hq' (some ⟨v, g, .active⟩) σ] at hqs
    exact h q q' v' g' hq hqa hqs

/-- **A valid receipt is accepted if and only if the index lets it be.** -/
theorem Cycle.Valid.accept {c : Cycle env} (h : c.Valid d v g s) :
    Vacant (slots d s) v g ∧ (∃ s', (acceptReceipt env c.accepted).exec s = .ok (.succeeded, s') ∧
        slots d s' = published (slots d s) c.publicationId v g) ∨
      ¬ Vacant (slots d s) v g ∧ (acceptReceipt env c.accepted).exec s = .error .integrity := by
  obtain ⟨document, job, attemptId, s₀, s₁, s₂, hvalid, hjob, hsucceed, hfinish⟩ :=
    ReceiptCall.passes_eq h.passes
  obtain ⟨g', hslot⟩ := h.publication
  obtain rfl := h.document
  obtain rfl := h.generation
  have hs₁ : slots _ s₁ = slots _ s := (keeps_succeedAttempt.exec hsucceed).trans
    (keeps_validateReceipt.exec hvalid)
  rw [vacant_iff hslot rfl, acceptReceipt_eq, Prog.exec_bind, hvalid]
  rw [← hs₁] at hslot ⊢
  change _ ∧ (∃ s', (succeedAttempt _ _ _ _ >>= _).exec s₀ = _ ∧ _) ∨
    _ ∧ (succeedAttempt _ _ _ _ >>= _).exec s₀ = _
  rw [Prog.exec_bind, hsucceed]
  change _ ∧ (∃ s', (updatePublication _ _ _ >>= _).exec s₁ = _ ∧ _) ∨
    _ ∧ (updatePublication _ _ _ >>= _).exec s₁ = _
  rw [Prog.exec_bind]
  rcases exec_activate (i := attemptId) rfl rfl hslot rfl with
    ⟨⟨q, hq⟩, hexec⟩ | ⟨hfree, hexec⟩
  · rw [hexec]
    exact .inr ⟨fun hvacant => hvacant.1 q hq, rfl⟩
  · rw [hexec]
    have hactivate : slots _ (c.accepted.activate attemptId s₁) =
        update (slots _ s₁) c.publicationId
          (some ⟨v, c.accepted.receipt.generationId, .active⟩) := slots_activate rfl rfl hslot
    change _ ∧ (∃ s', (supersedePublications _ _ _ >>= _).exec _ = _ ∧ _) ∨
      _ ∧ (supersedePublications _ _ _ >>= _).exec _ = _
    rw [Prog.exec_bind, ← hactivate]
    rcases exec_supersede (s := c.accepted.activate attemptId s₁) rfl rfl with
      ⟨⟨q, q', v', g', hq, hqa, hqs⟩, hexec⟩ | ⟨hclear, hexec⟩
    · rw [hexec]
      exact .inr ⟨fun hvacant => hvacant.2 q q' v' g' hq hqa hqs, rfl⟩
    · rw [hexec]
      refine .inl ⟨⟨hfree, hclear⟩, s₂, ?_, ?_⟩
      · change (finishReceipt _ _ _ _ _ >>= _).exec _ = _
        rw [Prog.exec_bind, hfinish]
        rfl
      · refine ((keeps_finishReceipt rfl hjob).exec hfinish).trans (funext fun q => ?_)
        rw [id, slots_supersede (p := c.publicationId) rfl rfl, hactivate, published]
        split
        · next hq => simp [hq]
        · next hq => simp [hq]

/-! ### Publications that follow each other -/

/-- The reindexes are of the version in the generation, and each is followed by a valid receipt. -/
def Presented (env : Env) (d v g : String) : Db → List (Cycle env) → Prop
  | _, [] => True
  | s, c :: cs => ∃ s₁, c.Reindexes d v g s s₁ ∧ c.Valid d v g s₁ ∧
    ∀ s', (acceptReceipt env c.accepted).exec s₁ = .ok (.succeeded, s') → Presented env d v g s' cs

/-- Every receipt is accepted, and afterwards the newest publication is the one active one. -/
def Republished (env : Env) (d v g : String) : Db → List (Cycle env) → Prop
  | _, [] => True
  | s, c :: cs => ∃ s₁ s', c.Reindexes d v g s s₁ ∧
    (acceptReceipt env c.accepted).exec s₁ = .ok (.succeeded, s') ∧
    (∀ q, (∃ x, slots d s' q = some x ∧ x.status = .active) ↔ q = c.publicationId) ∧
    Republished env d v g s' cs

theorem published_active (q : String) :
    (∃ x, published σ p v g q = some x ∧ x.status = .active) ↔ q = p := by
  unfold published
  split
  · next hq => exact ⟨fun _ => hq, fun _ => ⟨_, rfl, rfl⟩⟩
  · next hq =>
    refine ⟨?_, fun h => absurd h hq⟩
    rintro ⟨x, hx, hactive⟩
    obtain ⟨y, -, rfl⟩ := Option.map_eq_some_iff.mp hx
    split at hactive <;> simp_all

/-- **Only a first reindex within a generation is accepted**, and that where the index has no
publication in the way. -/
theorem republished_iff {cs : List (Cycle env)} (h : Presented env d v g s cs) :
    Republished env d v g s cs ↔ cs = [] ∨ (∃ c, cs = [c]) ∧ Vacant (slots d s) v g := by
  cases cs with
  | nil => exact iff_of_true trivial (.inl rfl)
  | cons c cs =>
    obtain ⟨s₁, hreindexes, hvalid, hrest⟩ := h
    have haccept := hvalid.accept
    rw [vacant_of_settled hreindexes.settled_eq] at haccept
    constructor
    · rintro ⟨s₂, s', hreindexes', hok, -, hmore⟩
      obtain rfl := Option.some.inj (hreindexes.received.symm.trans hreindexes'.received)
      rcases haccept with ⟨hfree, s'', hok', hpublished⟩ | ⟨-, herror⟩
      · cases hok.symm.trans hok'
        refine .inr ⟨?_, hfree⟩
        cases cs with
        | nil => exact ⟨c, rfl⟩
        | cons c' cs =>
          -- the version is active in the generation now
          exfalso
          obtain ⟨s₂, hreindexes₂, hvalid₂, -⟩ := hrest s' hok
          obtain ⟨s₃, s₄, hreindexes₃, hok₃, -⟩ := hmore
          obtain rfl := Option.some.inj (hreindexes₂.received.symm.trans hreindexes₃.received)
          rcases hvalid₂.accept with ⟨hfree₂, -⟩ | ⟨-, herror⟩
          · refine ((vacant_of_settled hreindexes₂.settled_eq).mp hfree₂).1 c.publicationId ?_
            rw [hpublished, published, if_pos rfl]
          · cases herror.symm.trans hok₃
      · cases herror.symm.trans hok
    · rintro (hnil | ⟨⟨c', hc⟩, hfree⟩)
      · cases hnil
      · cases hc
        rcases haccept with ⟨-, s', hok, hpublished⟩ | ⟨hbusy, -⟩
        · refine ⟨s₁, s', hreindexes, hok, fun q => ?_, trivial⟩
          rw [hpublished]
          exact published_active q
        · exact absurd hfree hbusy

/-! ### A document that is reindexed once -/

/-- A document that is uploaded and published in the first generation. -/
def publishedStore : Db :=
  execAll (body sampleEnv) ∅ [.upload (sampleUpload "d"), .claim (sampleClaim "d" "a" 9),
    .accept sampleReceipt]

/-- A reindex of it, with one attempt and its receipt. -/
def republication (g : String) : Cycle sampleEnv where
  reindexed :=
    { principal := ⟨"user", "member"⟩, documentId := "d", expectedVersion := 2, key := "r",
      fingerprint := "f", new := ⟨"", "r", "rp"⟩, authorized := .ok (), quota := .ok () }
  works := [.claim { sampleClaim "d" "b" 20 with picked := some ("d", "r") }]
  accepted :=
    { sampleReceipt with
      jobId := "r"
      checkedAt := 21
      now := 21
      debitId := "y"
      receipt :=
        { sampleReceipt.receipt with
          jobId := "r", attemptId := "b", publicationId := "rp", generationId := g } }

/-- Whether the receipt is accepted, where it is a valid one. -/
def republicationOutcome (g : String) (s : Db) : Option Bool :=
  ((republication g).received s).bind fun s₁ =>
    if (s.get (.document "d")).bind (·.activeVersionId) = some "dv" ∧
        (s.get .generationHead).getD "generation_initial" = g ∧
        slots "d" s₁ "rp" = some ⟨"dv", g, .staged⟩ ∧
        (republication g).accepted.passes sampleEnv s₁ = true then
      some ((acceptReceipt sampleEnv (republication g).accepted).exec s₁).toBool
    else none

theorem republication_valid {b : Bool} (h : republicationOutcome g s = some b) :
    ∃ s₁, (republication g).Reindexes "d" "dv" g s s₁ ∧ (republication g).Valid "d" "dv" g s₁ ∧
      ((acceptReceipt sampleEnv (republication g).accepted).exec s₁).toBool = b := by
  obtain ⟨s₁, hreceived, h⟩ := Option.bind_eq_some_iff.mp h
  obtain ⟨⟨hactive, hgeneration, hslot, hpasses⟩, hb⟩ := Option.ite_none_right_eq_some.mp h
  refine ⟨s₁, ⟨rfl, hactive, hgeneration, fun w hw => ?_, hreceived⟩,
    ⟨rfl, ⟨g, hslot⟩, rfl, hpasses⟩, Option.some.inj hb⟩
  obtain rfl := mem_singleton.mp hw
  exact ⟨"r", rfl⟩

theorem not_republished_again :
    Presented sampleEnv "d" "dv" "generation_initial" publishedStore
        [republication "generation_initial"] ∧
      ¬ Republished sampleEnv "d" "dv" "generation_initial" publishedStore
        [republication "generation_initial"] := by
  have houtcome : republicationOutcome "generation_initial" publishedStore = some false := by
    decide +kernel
  obtain ⟨s₁, hreindexes, hvalid, hrefused⟩ := republication_valid houtcome
  refine ⟨⟨s₁, hreindexes, hvalid, fun _ _ => trivial⟩, ?_⟩
  rintro ⟨s₂, s', hreindexes', hok, -⟩
  obtain rfl := Option.some.inj (hreindexes.received.symm.trans hreindexes'.received)
  rw [hok] at hrefused
  cases hrefused

theorem republished_once :
    Republished sampleEnv "d" "dv" "generation_1"
      (publishedStore.set .generationHead (some "generation_1"))
      [republication "generation_1"] := by
  have houtcome : republicationOutcome "generation_1"
      (publishedStore.set .generationHead (some "generation_1")) = some true := by
    decide +kernel
  obtain ⟨s₁, hreindexes, hvalid, haccepted⟩ := republication_valid houtcome
  have hpresented : Presented sampleEnv "d" "dv" "generation_1"
      (publishedStore.set .generationHead (some "generation_1"))
      [republication "generation_1"] := ⟨s₁, hreindexes, hvalid, fun _ _ => trivial⟩
  refine (republished_iff hpresented).mpr (.inr ⟨⟨_, rfl⟩, ?_⟩)
  rcases hvalid.accept with ⟨hfree, -⟩ | ⟨-, herror⟩
  · exact (vacant_of_settled hreindexes.settled_eq).mp hfree
  · rw [herror] at haccepted
    cases haccepted

end RagQs.Documents
