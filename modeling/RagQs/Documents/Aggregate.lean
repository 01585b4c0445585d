import RagQs.Documents.Deletion

/-!
# The document as a state machine

Whoever changes what belongs to a document holds its row locked, so between two commits the
document goes through the steps of a state machine of its own.  The steps are those of the
transactions with everything left out that belongs to no document: leases, batches, recorded
requests and the revisions of the index.

## Main definitions

* `Aggregate` — what belongs to one document.
* `Aggregate.of` — its rows in the database.
* `StepKind`, `Aggregate.Step` — what the transactions do to a document.
-/

namespace RagQs.Documents

open Txn Option Function

variable {a reason : String} {ended : AttemptState} {next : JobState} {nextAt : Option Time}

/-- The name and content a dedup claim is for. -/
structure ClaimKey where
  spaceId : String
  normalizedFilename : String
  contentHash : String
  deriving DecidableEq

/-- What belongs to one document, apart from its grants, holds and deletion. -/
@[ext] structure Aggregate where
  document : Option DocumentRow
  version : String → Option VersionRow
  job : String → Option JobRow
  attempt : String → String → Option AttemptRow
  publication : String → Option PublicationRow
  /-- The version the document claims a name and content for. -/
  claim : ClaimKey → Option String
  debit : String → Option DebitRow
  item : String → Option ItemRow

/-! ### Tables -/

section Tables

variable {κ ρ : Type} [DecidableEq κ]

/-- The table with one row changed, where there is one. -/
def mapAt (t : κ → Option ρ) (k : κ) (f : ρ → ρ) : κ → Option ρ :=
  update t k ((t k).map f)

/-- The table with the rows changed that are hit. -/
def mapWhere (t : κ → Option ρ) (hit : κ → ρ → Bool) (f : ρ → ρ) : κ → Option ρ :=
  fun k => (t k).map fun r => if hit k r then f r else r

/-- The table without the rows that are hit. -/
def dropWhere (t : κ → Option ρ) (hit : κ → ρ → Bool) : κ → Option ρ :=
  fun k => (t k).filter fun r => !hit k r

variable {t : κ → Option ρ} {k k' : κ} {f : ρ → ρ} {r r' : ρ} {hit : κ → ρ → Bool}

theorem mapAt_self (h : t k = some r) : mapAt t k f k = some (f r) := by
  unfold mapAt
  rw [update_self, h]
  rfl

theorem mapAt_eq_update (h : t k = some r) : mapAt t k f = update t k (some (f r)) := by
  unfold mapAt
  rw [h, map_some]

theorem mapAt_update : mapAt (update t k (some r)) k f
    = update t k (some (f r)) := by
  rw [mapAt_eq_update (update_self k (some r) t), update_idem]

theorem mapAt_of_ne (h : k' ≠ k) : mapAt t k f k' = t k' := update_of_ne h _ _

theorem mapAt_eq_some : mapAt t k f k' = some r' ↔
    ∃ r, t k' = some r ∧ r' = if k' = k then f r else r := by
  by_cases h : k' = k
  · subst h
    unfold mapAt
    rw [update_self, map_eq_some_iff]
    simp [eq_comm]
  · rw [mapAt_of_ne h]
    simp [h]

omit [DecidableEq κ] in
theorem mapWhere_eq_some : mapWhere t hit f k' = some r' ↔
    ∃ r, t k' = some r ∧ r' = if hit k' r then f r else r := by
  unfold mapWhere
  rw [map_eq_some_iff]
  exact exists_congr fun r => and_congr_right fun _ => eq_comm

omit [DecidableEq κ] in
theorem dropWhere_eq_some : dropWhere t hit k' = some r' ↔ t k' = some r' ∧ hit k' r' = false := by
  unfold dropWhere
  rw [filter_eq_some_iff]
  simp

theorem update_eq_some : update t k (some r) k' = some r' ↔
    k' = k ∧ r' = r ∨ k' ≠ k ∧ t k' = some r' := by
  by_cases h : k' = k
  · subst h
    simp [eq_comm]
  · rw [update_of_ne h]
    simp [h]

end Tables

namespace Aggregate

/-! ### What the steps have in common -/

/-- The number of attempts of a job in a replay generation. -/
def Cycle (s : Aggregate) (jobId : String) (replayGeneration n : ℕ) : Prop :=
  @Tally String (fun _ => AttemptRow) (s.attempt jobId)
    (fun _ r => r.replayGeneration = replayGeneration) n

/-- The largest value of a column of the attempts of a job, zero where there is none. -/
structure Largest (s : Aggregate) (jobId : String) (column : AttemptRow → ℕ) (m : ℕ) : Prop where
  le : ∀ a r, s.attempt jobId a = some r → column r ≤ m
  attained : m = 0 ∨ ∃ a r, s.attempt jobId a = some r ∧ column r = m

/-- The item of a job follows the job. -/
def recordItem (s : Aggregate) (jobId : String) (job : JobRow) (state : ItemState) : Aggregate :=
  if job.uploadBatchId.isSome then
    { s with item := mapAt s.item jobId fun r => { r with resultState := state } }
  else s

/-- The staged publications of a job are deleted, or those of all jobs. -/
def unstage (s : Aggregate) (jobId : Option String) : Aggregate :=
  { s with publication := dropWhere s.publication fun _ r =>
      r.status = .staged ∧ (jobId = none ∨ jobId = some r.jobId) }

/-- The active publications are superseded, apart from the one to keep. -/
def supersede (s : Aggregate) (keep : Option String) (now : Time) : Aggregate :=
  { s with
    publication := mapWhere s.publication (fun p r => r.status = .active ∧ some p ≠ keep)
      fun r => { r with status := .superseded, supersededAt := some now } }

/-- The claims for a version are given up, or all of them. -/
def dropClaims (s : Aggregate) (versionId : Option String) : Aggregate :=
  { s with claim := dropWhere s.claim fun _ v => versionId.all fun x => v = x }

/-- The version of a job that did not succeed. -/
def retireVersion (s : Aggregate) (env : Env) (versionId : String) (status : VersionState)
    (now : Time) : Aggregate :=
  { s with version := mapAt s.version versionId fun r =>
      { r with status, terminalAt := some now, purgeAfterAt := some (now + env.versionRetention) } }

/-- The document has no operation any more. -/
def release (s : Aggregate) (document : DocumentRow) (versioned : Bool)
    (guardedBy : Option String) : Aggregate :=
  { s with document := s.document.map fun d =>
      if guardedBy.all fun j => d.activeOperationJobId = some j then
        { d with
          pendingVersionId := if versioned then none else d.pendingVersionId
          activeOperationJobId := none
          version := document.version + 1 }
      else d }

theorem release_of_miss {s : Aggregate} {document : DocumentRow} {versioned : Bool}
    {g : Option String} (h : ∀ r, s.document = some r →
    (g.all fun j => r.activeOperationJobId = some j) = false) :
    s.release document versioned g = s := by
  obtain ⟨o, _, _, _, _, _, _, _⟩ := s
  cases o with
  | none => rfl
  | some r => simp [release, h r rfl]

theorem release_of_hit {s : Aggregate} {document r : DocumentRow} {versioned : Bool}
    {g : Option String} (hr : s.document = some r)
    (h : (g.all fun j => r.activeOperationJobId = some j) = true) :
    s.release document versioned g = { s with
      document := some
        { r with
          pendingVersionId := if versioned then none else r.pendingVersionId
          activeOperationJobId := none
          version := document.version + 1 } } := by
  unfold release
  simp [hr, h]

/-- A running attempt of a job ends without a receipt, and the job goes on to `next`. -/
def stop (s : Aggregate) (jobId attemptId : String) (state : AttemptState) (next : JobState)
    (reason : String) (nextAttemptAt : Option Time) : Aggregate :=
  unstage
    { s with
      attempt := update s.attempt jobId (mapAt (s.attempt jobId) attemptId fun r =>
        { r with state, publicationId := none, failureReason := some reason })
      job := mapAt s.job jobId fun r =>
        { r with state := next, activeAttemptId := none, failureReason := some reason,
                 nextAttemptAt } } (some jobId)

/-- A job is over without having succeeded. -/
def close (s : Aggregate) (env : Env) (document : DocumentRow) (job : JobRow)
    (status : VersionState) (guardedBy : Option String) (now : Time) : Aggregate :=
  if job.operation.versioned then
    (s.retireVersion env job.documentVersionId status now).release document true guardedBy
  else s.release document false guardedBy

/-- The claims for the version of a job that is over. -/
def disclaim (s : Aggregate) (job : JobRow) : Aggregate :=
  if job.operation.versioned then s.dropClaims (some job.documentVersionId) else s

/-! ### What stays the same -/

section Frame

variable {s : Aggregate} {env : Env} {document : DocumentRow} {job : JobRow} {j : String}
  {state : ItemState} {status : VersionState} {versioned : Bool} {g : Option String} {now : Time}

@[simp] theorem recordItem_document : (s.recordItem j job state).document = s.document := by
  unfold recordItem
  split <;> rfl

@[simp] theorem recordItem_version : (s.recordItem j job state).version = s.version := by
  unfold recordItem
  split <;> rfl

@[simp] theorem recordItem_job : (s.recordItem j job state).job = s.job := by
  unfold recordItem
  split <;> rfl

@[simp] theorem recordItem_attempt : (s.recordItem j job state).attempt = s.attempt := by
  unfold recordItem
  split <;> rfl

@[simp] theorem recordItem_publication : (s.recordItem j job state).publication = s.publication := by
  unfold recordItem
  split <;> rfl

@[simp] theorem recordItem_claim : (s.recordItem j job state).claim = s.claim := by
  unfold recordItem
  split <;> rfl

@[simp] theorem recordItem_debit : (s.recordItem j job state).debit = s.debit := by
  unfold recordItem
  split <;> rfl

@[simp] theorem unstage_document : (s.unstage g).document = s.document := rfl

@[simp] theorem unstage_version : (s.unstage g).version = s.version := rfl

@[simp] theorem unstage_job : (s.unstage g).job = s.job := rfl

@[simp] theorem unstage_attempt : (s.unstage g).attempt = s.attempt := rfl

@[simp] theorem unstage_claim : (s.unstage g).claim = s.claim := rfl

@[simp] theorem unstage_debit : (s.unstage g).debit = s.debit := rfl

@[simp] theorem unstage_item : (s.unstage g).item = s.item := rfl

theorem unstage_publication {p : String} {r : PublicationRow} :
    (s.unstage g).publication p = some r ↔
      s.publication p = some r ∧ ¬ (r.status = .staged ∧ (g = none ∨ g = some r.jobId)) := by
  unfold unstage
  rw [dropWhere_eq_some, decide_eq_false_iff_not]

@[simp] theorem stop_document : (s.stop j a ended next reason nextAt).document = s.document := rfl

@[simp] theorem stop_version : (s.stop j a ended next reason nextAt).version = s.version := rfl

@[simp] theorem stop_claim : (s.stop j a ended next reason nextAt).claim = s.claim := rfl

@[simp] theorem stop_debit : (s.stop j a ended next reason nextAt).debit = s.debit := rfl

@[simp] theorem stop_item : (s.stop j a ended next reason nextAt).item = s.item := rfl

@[simp] theorem release_version : (s.release document versioned g).version = s.version := rfl

@[simp] theorem release_job : (s.release document versioned g).job = s.job := rfl

@[simp] theorem release_attempt : (s.release document versioned g).attempt = s.attempt := rfl

@[simp] theorem release_publication : (s.release document versioned g).publication = s.publication := rfl

@[simp] theorem release_claim : (s.release document versioned g).claim = s.claim := rfl

@[simp] theorem release_debit : (s.release document versioned g).debit = s.debit := rfl

@[simp] theorem release_item : (s.release document versioned g).item = s.item := rfl

@[simp] theorem close_job : (s.close env document job status g now).job = s.job := by
  unfold close
  split <;> rfl

@[simp] theorem close_attempt : (s.close env document job status g now).attempt = s.attempt := by
  unfold close
  split <;> rfl

@[simp] theorem close_publication : (s.close env document job status g now).publication = s.publication := by
  unfold close
  split <;> rfl

@[simp] theorem close_claim : (s.close env document job status g now).claim = s.claim := by
  unfold close
  split <;> rfl

@[simp] theorem close_debit : (s.close env document job status g now).debit = s.debit := by
  unfold close
  split <;> rfl

@[simp] theorem close_item : (s.close env document job status g now).item = s.item := by
  unfold close
  split <;> rfl

@[simp] theorem disclaim_document : (s.disclaim job).document = s.document := by
  unfold disclaim
  split <;> rfl

@[simp] theorem disclaim_version : (s.disclaim job).version = s.version := by
  unfold disclaim
  split <;> rfl

@[simp] theorem disclaim_job : (s.disclaim job).job = s.job := by
  unfold disclaim
  split <;> rfl

@[simp] theorem disclaim_attempt : (s.disclaim job).attempt = s.attempt := by
  unfold disclaim
  split <;> rfl

@[simp] theorem disclaim_publication : (s.disclaim job).publication = s.publication := by
  unfold disclaim
  split <;> rfl

@[simp] theorem disclaim_debit : (s.disclaim job).debit = s.debit := by
  unfold disclaim
  split <;> rfl

@[simp] theorem disclaim_item : (s.disclaim job).item = s.item := by
  unfold disclaim
  split <;> rfl

end Frame

end Aggregate

/-- The job is not charged for its pages. -/
def JobRow.exempt (job : JobRow) : Bool :=
  job.quotaExemptReason.isSome || unlimitedRole job.quotaRoleSnapshot || 0 < job.replayGeneration

/-- The quota of a publication is settled: there is a debit for it, or it is exempt. -/
inductive Settled (env : Env) (job : JobRow) : ChargeStatus → Option DebitRow → Option DebitRow →
    Prop
  | notApplicable {debit} (h : env.quotaService = false) :
    Settled env job .notApplicable debit debit
  | exempt {debit} (h : env.quotaService = true) (hexempt : job.exempt = true) :
    Settled env job .exempt debit debit
  | again {debit} (h : env.quotaService = true) (hexempt : job.exempt = false) :
    Settled env job .charged (some debit) (some debit)
  | charged {debit} (h : env.quotaService = true) (hexempt : job.exempt = false) :
    Settled env job .charged none (some debit)

/-! ### The steps -/

/-- What a step does. -/
inductive StepKind
  | create
  | replace
  | reindex
  | claim
  | expire
  /-- An initial job is given up because the lease of its last attempt expired. -/
  | abandon
  | fail
  | cancel
  | replay
  | publish
  | delete

namespace Aggregate

/-- The publication an attempt is staged with: the staged one of the job, or a new one. -/
inductive Staging (s : Aggregate) (jobId attemptId : String) (job : JobRow) :
    String → PublicationRow → Prop
  | kept {p r} (generationId : String) (hp : p = job.activePublicationId)
    (hr : s.publication p = some r) (hstaged : r.status = .staged) :
    Staging s jobId attemptId job p { r with generationId, attemptId := some attemptId }
  | new {p} (generationId : String) (hp : s.publication p = none)
    (hold : ∀ r, s.publication job.activePublicationId = some r → r.status ≠ .staged) :
    Staging s jobId attemptId job p
      { stagedPublication job.documentVersionId jobId generationId with
        attemptId := some attemptId }

/-- The job runs the attempt. -/
structure Runs (s : Aggregate) (jobId attemptId : String) (job : JobRow) (attempt : AttemptRow) :
    Prop where
  running : job.state = .running
  active : job.activeAttemptId = some attemptId
  live : attempt.state = .running
  ofJob : s.job jobId = some job
  ofAttempt : s.attempt jobId attemptId = some attempt

/-- The document once a job of it has begun. -/
def begin (s : Aggregate) (a : OperationCall) (document : DocumentRow) (job : JobRow)
    (generationId : String) (pending : Option String) : Aggregate :=
  { s with
    job := update s.job a.new.jobId (some job)
    publication := update s.publication a.new.publicationId
      (some (stagedPublication job.documentVersionId a.new.jobId generationId))
    document := s.document.map fun d =>
      { d with
        pendingVersionId := pending
        activeOperationJobId := some a.new.jobId
        version := document.version + 1 } }

/-- The version of a job waits for the job again. -/
def reopen (s : Aggregate) (job : JobRow) : Aggregate :=
  if job.operation.versioned then
    { s with
      version := mapAt s.version job.documentVersionId fun r =>
        { r with status := .pending, terminalAt := none, purgeAfterAt := none } }
  else s

@[simp] theorem reopen_job {s : Aggregate} {job : JobRow} : (s.reopen job).job = s.job := by
  unfold reopen
  split <;> rfl

@[simp] theorem reopen_attempt {s : Aggregate} {job : JobRow} :
    (s.reopen job).attempt = s.attempt := by
  unfold reopen
  split <;> rfl

@[simp] theorem reopen_publication {s : Aggregate} {job : JobRow} :
    (s.reopen job).publication = s.publication := by
  unfold reopen
  split <;> rfl

@[simp] theorem reopen_claim {s : Aggregate} {job : JobRow} :
    (s.reopen job).claim = s.claim := by
  unfold reopen
  split <;> rfl

@[simp] theorem reopen_debit {s : Aggregate} {job : JobRow} :
    (s.reopen job).debit = s.debit := by
  unfold reopen
  split <;> rfl

@[simp] theorem reopen_document {s : Aggregate} {job : JobRow} :
    (s.reopen job).document = s.document := by
  unfold reopen
  split <;> rfl

/-- The version of a receipt becomes the active one. -/
def activate (s : Aggregate) (env : Env) (a : ReceiptCall) (document : DocumentRow) (job : JobRow)
    (version : VersionRow) (name : String × String) : Aggregate :=
  { s with
    claim := fun k =>
      if k = ⟨document.spaceId, name.2, version.contentHash⟩ then some job.documentVersionId
      else none
    version := mapWhere
      (mapAt s.version job.documentVersionId fun r =>
        { r with status := .active, activatedAt := some a.now })
      (fun v _ => document.activeVersionId = some v ∧ v ≠ job.documentVersionId) fun r =>
        { r with status := .superseded, supersededAt := some a.now, terminalAt := some a.now,
                 purgeAfterAt := some (a.now + env.versionRetention) }
    document := s.document.map fun r =>
      { r with
        activeVersionId := some job.documentVersionId
        pendingVersionId := none
        activeOperationJobId := none
        version := document.version + 1
        name := version.fileName
        normalizedName := name.2
        mediaKind := version.mediaKind } }

/-- The publication of a receipt becomes active. -/
def promote (s : Aggregate) (attemptId : String) (a : ReceiptCall) : Aggregate :=
  { s with
    publication := mapAt s.publication a.receipt.publicationId fun r =>
      { r with status := .active, attemptId := some attemptId,
               generationId := a.receipt.generationId, resourceManifest := some a.receipt,
               activatedAt := some a.now } }

/-- What the transactions do to a document. -/
inductive Step (env : Env) : StepKind → Aggregate → Aggregate → Prop
  | create {s : Aggregate} (a : UploadCall env) (info : FileInfo env) (new : NewDocument)
      (generationId : String) (h : s.document = none) :
    Step env .create s
      { s with
        document := some
          { spaceId := a.spaceId, lifecycleStatus := .active, activeVersionId := none,
            pendingVersionId := some new.versionId, activeOperationJobId := some new.jobId,
            deletionId := none, version := 1, name := info.filename,
            normalizedName := info.normalizedFilename, mediaKind := info.mediaKind }
        version := update s.version new.versionId
          (some (info.version new.documentId new.versionId 1))
        job := update s.job new.jobId (some (newJob new.versionId .initial none
          (some a.batchId) new.publicationId 1 a.principal))
        publication := update s.publication new.publicationId
          (some (stagedPublication new.versionId new.jobId generationId))
        claim := update s.claim ⟨a.spaceId, info.normalizedFilename, info.contentHash⟩
          (some new.versionId)
        item := update s.item new.jobId (some ⟨a.batchId, .pending⟩) }
  | replace {s : Aggregate} {document : DocumentRow} {version : VersionRow} (a : OperationCall)
      (generationId : String) (h : s.document = some document)
      (hactive : document.lifecycleStatus = .active) (hidle : document.activeOperationJobId = none)
      (hversion : s.version a.new.versionId = none) (hjob : s.job a.new.jobId = none)
      (hpublication : s.publication a.new.publicationId = none)
      (hpending : version.status = .pending) :
    Step env .replace s
      (begin { s with version := update s.version a.new.versionId (some version) } a
        document (newJob a.new.versionId .replace document.activeVersionId none
          a.new.publicationId (document.version + 1) a.principal) generationId
        (some a.new.versionId))
  | reindex {s : Aggregate} {document : DocumentRow} {versionId : String} (a : OperationCall)
      (generationId : String) (h : s.document = some document)
      (hactive : document.lifecycleStatus = .active) (hidle : document.activeOperationJobId = none)
      (hversion : document.activeVersionId = some versionId) (hjob : s.job a.new.jobId = none)
      (hpublication : s.publication a.new.publicationId = none) :
    Step env .reindex s
      (begin s a document (newJob versionId .reindex document.activeVersionId none
        a.new.publicationId (document.version + 1) a.principal) generationId
        document.pendingVersionId)
  | claim {s : Aggregate} {job : JobRow} {attempt : AttemptRow} {publication : PublicationRow}
      {j a p : String} (h : s.job j = some job)
      (hwaits : job.state = .pending ∨ job.state = .retryWait)
      (hnew : s.attempt j a = none) (hstaging : Staging s j a job p publication)
      {lastNumber lastFence cycle : ℕ} (hnumber : Largest s j (·.attemptNumber) lastNumber)
      (hfence : Largest s j (·.fencingToken) lastFence)
      (hcycle : s.Cycle j job.replayGeneration cycle)
      (hattempt : attempt.attemptNumber = lastNumber + 1 ∧ attempt.cycleAttemptNumber = cycle + 1 ∧
        attempt.fencingToken = lastFence + 1 ∧ attempt.replayGeneration = job.replayGeneration ∧
        attempt.state = .running) :
    Step env .claim s
      (recordItem
        { s with
          attempt := update s.attempt j
            (update (s.attempt j) a (some attempt))
          job := update s.job j (some
            { job with state := .running, activeAttemptId := some a, nextAttemptAt := none,
                       activePublicationId := p })
          publication := update s.publication p (some publication) } j job .running)
  | expire {s : Aggregate} {job : JobRow} {attempt : AttemptRow} {j a : String} {n : ℕ}
      (reason : String) (next : Option Time) (h : s.Runs j a job attempt)
      (hcount : s.Cycle j job.replayGeneration n) (hn : n < 4) :
    Step env .expire s ((s.stop j a .expired .retryWait reason next).recordItem j job .retryWait)
  | deadLetter {s : Aggregate} {document : DocumentRow} {job : JobRow} {attempt : AttemptRow}
      {j a : String} {n : ℕ} (reason : String) (now : Time) (h : s.document = some document)
      (hruns : s.Runs j a job attempt) (hcount : s.Cycle j job.replayGeneration n) (hn : 4 ≤ n) :
    Step env (if job.operation = .initial then .abandon else .expire) s
      (((s.stop j a .expired .deadLetter reason none).close env document job .failed (some j)
        now).recordItem j job .deadLetter)
  | retry {s : Aggregate} {job : JobRow} {attempt : AttemptRow} {j a : String} {n : ℕ}
      (reason : String) (next : Option Time) (h : s.Runs j a job attempt)
      (hcount : s.Cycle j job.replayGeneration n) (hn : n < 4) :
    Step env .fail s ((s.stop j a .failed .retryWait reason next).recordItem j job .retryWait)
  | fail {s : Aggregate} {document : DocumentRow} {job : JobRow} {attempt : AttemptRow}
      {j a : String} {next : JobState} (reason : String) (now : Time)
      (h : s.document = some document) (hruns : s.Runs j a job attempt)
      (hnext : next = .failed ∨ next = .deadLetter) :
    Step env .fail s
      ((((s.stop j a .failed next reason none).close env document job .failed none now).disclaim
        job).recordItem j job next.item)
  | cancel {s : Aggregate} {document : DocumentRow} {job : JobRow} {j : String} {lastFence : ℕ}
      (now : Time) (h : s.document = some document) (hjob : s.job j = some job)
      (hlive : job.state.live = true)
      (hfence : ∀ a, job.activeAttemptId = some a → Largest s j (·.fencingToken) lastFence) :
    Step env .cancel s
      (((((unstage
        { s with
          job := mapAt s.job j fun r => { r with state := .cancelled, activeAttemptId := none }
          attempt := update s.attempt j (mapWhere (s.attempt j)
            (fun a _ => job.activeAttemptId = some a) fun r =>
              { r with state := .cancelled, fencingToken := lastFence + 1,
                       publicationId := none }) } (some j)).close env document job .cancelled
        none now).disclaim job)).recordItem j job .cancelled)
  | replay {s : Aggregate} {document : DocumentRow} {job : JobRow} {version : VersionRow}
      (a : ReplayCall) (generationId : String) (h : s.document = some document)
      (hactive : document.lifecycleStatus = .active)
      (hidle : document.activeOperationJobId.all fun j => j = a.jobId)
      (hbase : document.activeVersionId = job.baseActiveVersionId)
      (hjob : s.job a.jobId = some job) (hover : job.state.replayable = true)
      (hversion : s.version job.documentVersionId = some version)
      (hpurged : version.status ≠ .purged)
      (hpublication : s.publication a.publicationId = none) :
    Step env .replay s
      (recordItem
        { s.reopen job with
          publication := update (s.reopen job).publication a.publicationId
            (some (stagedPublication job.documentVersionId a.jobId generationId))
          job := mapAt (s.reopen job).job a.jobId fun r =>
            { r with
              state := .pending
              activeAttemptId := none
              activePublicationId := a.publicationId
              replayGeneration := job.replayGeneration + 1
              failureReason := none
              nextAttemptAt := none
              replayedByUserId := some a.principal.userId
              quotaRoleSnapshot :=
                if job.submission then r.quotaRoleSnapshot else a.principal.role }
          document := (s.reopen job).document.map fun r =>
            { r with
              activeOperationJobId := some a.jobId
              version := document.version + 1
              pendingVersionId :=
                if job.operation.versioned then some job.documentVersionId
                else r.pendingVersionId } } a.jobId job .pending)
  | publish {s : Aggregate} {document : DocumentRow} {job : JobRow} {attempt : AttemptRow}
      {version : VersionRow} {publication : PublicationRow} {name : String × String} {a : String}
      {charge : ChargeStatus × Option String} {debit : Option DebitRow} (c : ReceiptCall)
      (h : s.document = some document) (hactive : document.lifecycleStatus = .active)
      (hruns : s.Runs c.jobId a job attempt)
      (hoperation : document.activeOperationJobId = some c.jobId)
      (hbase : document.activeVersionId = job.baseActiveVersionId)
      (hversion : s.version job.documentVersionId = some version)
      (hname : job.operation.versioned = true → normalizeFilename env version.fileName = .ok name)
      (hreceipt : c.receipt.publicationId = job.activePublicationId)
      (hpublication : s.publication c.receipt.publicationId = some publication)
      (hstaged : publication.status = .staged)
      (hsettled : Settled env job charge.1 (s.debit c.jobId) debit) :
    Step env .publish s
      (recordItem
        { (if job.operation.versioned then s.activate env c document job version name
            else { s with document := s.document.map fun r =>
              { r with activeOperationJobId := none, version := document.version + 1 } }) with
          attempt := update s.attempt c.jobId (mapAt (s.attempt c.jobId) a fun r =>
            { r with state := .succeeded, receipt := some c.receipt })
          publication :=
            mapAt (supersede (s.promote a c) (some c.receipt.publicationId) c.now).publication
              c.receipt.publicationId
              fun r => { r with quotaChargeStatus := charge.1, quotaChargeReason := charge.2 }
          debit := update s.debit c.jobId debit
          job := mapAt s.job c.jobId fun r =>
            { r with state := .succeeded, activeAttemptId := some a,
                     quotaChargeStatus := charge.1, quotaChargeReason := charge.2 } }
        c.jobId job .succeeded)
  | delete {s : Aggregate} {document : DocumentRow} (a : DeleteCall) (staged : List String)
      (h : s.document = some document) (hactive : document.lifecycleStatus = .active) :
    Step env .delete s
      (dropClaims (supersede (unstage
        { s with
          document := s.document.map fun r =>
            { r with
              lifecycleStatus := .pendingDelete
              deletionId := some a.deletionId
              activeVersionId := none
              pendingVersionId := none
              activeOperationJobId := none
              version := document.version + 1 }
          attempt := fun j => mapWhere
            (mapWhere (s.attempt j)
              (fun _ r => r.state = .running ∧ (s.job j).any fun job => job.state.live)
              fun r => { r with state := .cancelled })
            (fun _ r => r.publicationId.any (· ∈ staged)) fun r => { r with publicationId := none }
          job := mapWhere s.job (fun _ r => r.state.live) fun r => { r with state := .cancelled }
          version := mapWhere
            (mapWhere s.version (fun _ r => r.status = .active) fun r =>
              { r with status := .superseded, supersededAt := some a.now, terminalAt := some a.now,
                       purgeAfterAt := some (a.now + env.versionRetention) })
            (fun _ r => r.status = .pending) fun r =>
              { r with status := .cancelled, terminalAt := some a.now,
                       purgeAfterAt := some (a.now + env.versionRetention) } } none) none a.now)
        none)

end Aggregate

/-! ### The rows of a document -/

/-- What belongs to a document, as the rows under its lock. -/
def Aggregate.of (d : String) (x : Region Row) : Aggregate where
  document := x (.document d)
  version v := x (.version d v)
  job j := x (.job d j)
  attempt j a := x (.attempt d j a)
  publication p := x (.publication d p)
  claim k := ((x (.claim k.spaceId k.normalizedFilename k.contentHash)).filter
    fun r => r.documentId = d).map (·.documentVersionId)
  debit j := x (.debit d j)
  item j := x (.item d j)

end RagQs.Documents
