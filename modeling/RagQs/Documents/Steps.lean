import RagQs.Documents.Works
import Mathlib.Data.Finset.Preimage

/-!
# The transactions make steps

What each transaction makes of the document it holds locked: nothing, or one step of the state
machine.

## Main definitions

* `Moves` — a document stays as it is, or makes a step of one of the kinds.

## Main results

* `works_failJob`, `works_acceptReceipt` and so on — what the transactions do to a document.
-/

namespace RagQs.Documents

open Txn Txn.Guards List Option Function

variable {job : JobRow} {document : DocumentRow} {q : Request} {deletionId : String} {now : Time} {a
  : OperationCall}

variable {published discarded : Except Err Unit} {generationId : String} {column : AttemptRow → ℕ}
  {status : VersionState} {r : PublicationRow} {jitter : ℕ}

/-! ### Programs that leave the documents alone -/

section Free

variable {ε : Type}

theorem free_currentIndexGeneration : currentIndexGeneration.Writes guards.Free :=
  .select

theorem free_endLease {d j a : String} : (endLease d j a).Writes guards.Free :=
  .bind (.updateWhere fun _ => rfl) fun _ => trivial

theorem free_discardIndexingAttempt {d j : String} {a : Option String} {z : Except Err Unit} :
    (discardIndexingAttempt d j a z).Writes guards.Free := by
  unfold discardIndexingAttempt
  cases a with
  | none => exact trivial
  | some a => exact .bind .readRow fun _ =>
      Prog.Writes.ite (fun _ => Prog.Writes.check) fun _ => trivial

theorem free_refreshUploadBatch {b : Option String} :
    (refreshUploadBatch b).Writes guards.Free := by
  unfold refreshUploadBatch
  cases b with
  | none => exact trivial
  | some b => exact .bind .select fun _ =>
      (Prog.Writes.updateWhere fun _ => rfl).bind fun _ => trivial

theorem free_workerAuthorizationFence {d j : String} :
    (workerAuthorizationFence d j job document).Writes guards.Free := by
  unfold workerAuthorizationFence
  refine .ite (fun _ => trivial) fun _ => .bind .lockRow fun grant => ?_
  cases grant with
  | none => exact trivial
  | some g => exact .ite (fun _ => trivial) fun _ => trivial

theorem free_insertOrSkip {k : Key} {r : Row k} (hk : guards.Free k) :
    (insertOrSkip Err.integrity k [] [⟨k, some r⟩] : Tx Bool).Writes guards.Free :=
  .insertOrSkip fun x hx => by
    obtain rfl := mem_singleton.mp hx
    exact hk

theorem free_idempotencyReplay : (idempotencyReplay q).Writes guards.Free := by
  refine .bind .readRow fun row => ?_
  cases row with
  | some row => exact .bind .check fun _ => trivial
  | none =>
    refine (free_insertOrSkip fun _ => rfl).bind fun inserted => ?_
    exact .ite (fun _ => trivial) fun _ => .bind .readRow fun _ =>
      .bind .orRaise fun _ => .bind .check fun _ => trivial

theorem free_completeIdempotency {response : JsonObject} :
    (completeIdempotency q response).Writes guards.Free :=
  .bind (.updateWhere fun _ => rfl) fun _ => .raiseIf

theorem free_nextCounter {name : Counter} : (nextCounter name).Writes guards.Free :=
  (free_insertOrSkip fun _ => rfl).bind fun _ => .bind .lockRow fun _ =>
    .bind .orRaise fun _ => .bind (.updateWhere fun _ => rfl) fun _ =>
      .bind .raiseIf fun _ => trivial

theorem free_recordSourceChange {env : Env} {manifestId documentId : String}
    {changeType : ChangeType} :
    (recordSourceChange env manifestId documentId changeType published).Writes guards.Free := by
  refine .bind .select fun _ => (free_insertOrSkip fun _ => rfl).bind fun _ =>
    .bind .lockRow fun _ => .bind .orRaise fun _ =>
    free_nextCounter.bind fun revision => free_nextCounter.bind fun _ =>
    .bind (.insert fun x hx => ?_) fun _ =>
    .bind (.insert fun x hx => ?_) fun _ =>
    .bind (.updateWhere fun _ => rfl) fun _ => .check
  · simp only [mem_cons, not_mem_nil, or_false] at hx
    rcases hx with rfl | rfl | rfl <;> exact fun _ => rfl
  · obtain rfl := mem_singleton.mp hx
    exact fun _ => rfl

theorem free_appendIndexChange {env : Env} {sourceManifestId : String} {change : IndexChangeRow} :
    (appendIndexChange env generationId sourceManifestId change published).Writes guards.Free := by
  refine free_nextCounter.bind fun revision => .bind (.insert fun x hx => ?_) fun _ =>
    .bind (.insert fun x hx => ?_) fun _ =>
    .ite (fun _ => free_recordSourceChange) fun _ => trivial
  · obtain rfl := mem_singleton.mp hx
    exact fun _ => rfl
  · obtain rfl := mem_singleton.mp hx
    exact fun _ => rfl

theorem free_assertReplacementClaimAvailable {d s n h : String} :
    (assertReplacementClaimAvailable d s n h).Writes guards.Free := by
  refine .bind .lockRow fun claim => ?_
  cases claim with
  | none => exact trivial
  | some claim => exact .ite (fun _ => trivial) fun _ =>
      Prog.Writes.readRow.bind fun _ => Prog.Writes.raiseIf

theorem free_lockedActiveVersion {d : String} {v : Option String} :
    (lockedActiveVersion d v).Writes guards.Free := by
  cases v with
  | none => exact trivial
  | some v => exact .lockRow

theorem free_insertTargets {targets : List (String × String)} :
    (insertTargets deletionId targets).Writes guards.Free := by
  induction targets with
  | nil => exact trivial
  | cons x targets ih => exact (free_insertOrSkip fun _ => rfl).bind fun _ => ih

theorem free_stageVersions {d : String} {versions : List (String × VersionRow)} :
    (stageVersions deletionId d versions).Writes guards.Free := by
  induction versions with
  | nil => exact trivial
  | cons x versions ih =>
    exact .bind .select fun _ => free_insertTargets.bind fun _ => ih.bind fun _ => trivial

theorem free_stageDeletionTargets {d : String} :
    (stageDeletionTargets deletionId d).Writes guards.Free :=
  .bind .select fun _ => free_stageVersions.bind fun _ => .bind .select fun _ =>
    free_insertTargets.bind fun _ => .bind .select fun _ =>
      free_insertTargets.bind fun _ => trivial

theorem free_assertPublicSourceManifest {d : String} {v : Option String} :
    (assertPublicSourceManifest d v).Writes guards.Free := by
  refine .bind .select fun publications => ?_
  match publications with
  | [] => exact trivial
  | [r] => exact .raiseIf
  | _ :: _ :: _ => exact trivial

end Free

/-! ### What the transactions count -/

section Counts

variable {d j : String} {v : Db} {s : Aggregate}

theorem cycle_attemptCount (hv : Aggregate.of d (guards.region d v) = s) (generation : ℕ) :
    s.Cycle j generation (attemptCount v d j generation) := by
  subst hv
  have hkind : ∀ k r, attemptOf d j generation k r = true → guards.under k r = some d := by
    intro k r h
    cases k <;> simp only [attemptOf, Bool.false_eq_true] at h
    obtain ⟨rfl, -⟩ := of_decide_eq_true h
    rfl
  obtain ⟨keys, hkeys, hcard⟩ := tally_table (v := v) hkind
  have hmem : ∀ a, Key.attempt d j a ∈ keys ↔
      ∃ r, (Aggregate.of d (guards.region d v)).attempt j a = some r ∧
        decide (r.replayGeneration = generation) = true := by
    intro a
    rw [hkeys]
    simp [Aggregate.of, attemptOf]
  have himage : ∀ k ∈ keys, ∃ a, k = .attempt d j a := by
    intro k hk
    obtain ⟨r, -, hr⟩ := (hkeys k).mp hk
    cases k <;> simp only [attemptOf, Bool.false_eq_true] at hr
    obtain ⟨rfl, rfl, -⟩ := of_decide_eq_true hr
    exact ⟨_, rfl⟩
  have hinj : Injective fun a => Key.attempt d j a := by
    intro a b h
    cases h
    rfl
  refine ⟨keys.preimage (fun a => Key.attempt d j a) hinj.injOn, fun a => ?_, ?_⟩
  · rw [Finset.mem_preimage]
    exact hmem a
  · refine Eq.trans ?_ hcard
    refine Finset.card_bij (fun a _ => Key.attempt d j a) (fun a ha => Finset.mem_preimage.mp ha)
      (fun a _ b _ h => hinj h) fun k hk => ?_
    obtain ⟨a, rfl⟩ := himage k hk
    exact ⟨a, Finset.mem_preimage.mpr hk, rfl⟩

theorem le_maxOf {l : List ℕ} {n : ℕ} (h : n ∈ l) : n ≤ maxOf l := by
  induction l with
  | nil => cases h
  | cons m l ih =>
    show n ≤ max m (maxOf l)
    rcases mem_cons.mp h with rfl | h
    · exact le_max_left _ _
    · exact (ih h).trans (le_max_right _ _)

theorem maxOf_mem (l : List ℕ) : maxOf l = 0 ∨ maxOf l ∈ l := by
  induction l with
  | nil => exact .inl rfl
  | cons m l ih =>
    show max m (maxOf l) = 0 ∨ max m (maxOf l) ∈ m :: l
    rcases le_total (maxOf l) m with h | h
    · rw [max_eq_left h]
      exact .inr mem_cons_self
    · rw [max_eq_right h]
      exact ih.imp id fun h => mem_cons_of_mem _ h

theorem mem_attemptColumn {n : ℕ} :
    n ∈ attemptColumn v d j column ↔ ∃ a r, v.get (.attempt d j a) = some r ∧ column r = n := by
  unfold attemptColumn
  rw [mem_table]
  constructor
  · rintro ⟨k, r, hget, hpick⟩
    cases k <;> simp only [reduceCtorEq] at hpick
    split at hpick
    · next h =>
      obtain ⟨rfl, rfl⟩ := h
      exact ⟨_, r, hget, some.inj hpick⟩
    · cases hpick
  · rintro ⟨a, r, hget, rfl⟩
    exact ⟨.attempt d j a, r, hget, by simp⟩

theorem largest_maxOf (hv : Aggregate.of d (guards.region d v) = s) (column : AttemptRow → ℕ) :
    s.Largest j column (maxOf (attemptColumn v d j column)) := by
  subst hv
  have hget : ∀ a, (Aggregate.of d (guards.region d v)).attempt j a = v.get (.attempt d j a) :=
    fun a => region_of_static fun _ => rfl
  constructor
  · intro a r hr
    exact le_maxOf (mem_attemptColumn.mpr ⟨a, r, (hget a).symm.trans hr, rfl⟩)
  · rcases maxOf_mem (attemptColumn v d j column) with h | h
    · exact .inl h
    · obtain ⟨a, r, hr, hcol⟩ := mem_attemptColumn.mp h
      exact .inr ⟨a, r, (hget a).trans hr, hcol⟩

end Counts

/-! ### Shared statements -/

variable {α : Type} {Ok : String → Region Row → Prop} {C : List (Write Row) → Db → Prop}
  {d : String} {s : Aggregate} {R : α → Aggregate → Prop}

namespace Works

/-- The count of the attempts of a job in a replay generation. -/
theorem countAttempts {j : String} {generation : ℕ} {f : ℕ → Tx α}
    (h : ∀ n, s.Cycle j generation n → Works Ok C d (f n) R s) :
    Works Ok C d ((Prog.select fun v : Db => attemptCount v d j generation) >>= f) R s :=
  select fun _ hv => h _ (cycle_attemptCount hv generation)

theorem largest {j : String} {f : ℕ → Tx α} (h : ∀ m, s.Largest j column m → Works Ok C d (f m) R s) :
    Works Ok C d ((Prog.select fun v : Db => maxOf (attemptColumn v d j column)) >>= f) R s :=
  select fun _ hv => h _ (largest_maxOf hv column)

/-- An attempt with whatever lease it has. -/
theorem lockedAttempt {j a : String} {f : Option (AttemptRow × Option Time) → Tx α}
    (h : ∀ lease, Works Ok C d (f ((s.attempt j a).map fun r => (r, lease))) R s) :
    Works Ok C d (Documents.lockedAttempt d j a >>= f) R s := by
  refine ⟨fun x hx => .read fun v hv => ?_⟩
  have hget : v.get (.attempt d j a) = s.attempt j a := by
    rw [Own.get (fun _ => rfl) hv, ← hx]
    rfl
  rw [hget]
  exact (h _).under x hx

variable {f : Unit → Tx α}

theorem recordItemState {j : String} {state : ItemState}
    (h : Works Ok C d (f ()) R (s.recordItem j job state)) :
    Works Ok C d (Documents.recordItemState d j job.uploadBatchId state >>= f) R s := by
  unfold Documents.recordItemState
  unfold Aggregate.recordItem at h
  by_cases hb : job.uploadBatchId.isSome = true
  · rw [if_pos hb, Prog.bind_assoc]
    rw [if_pos hb] at h
    exact changeItem fun _ => free free_refreshUploadBatch fun _ => h
  · rw [if_neg hb]
    rw [if_neg hb] at h
    exact h

/-- A job may be replayed when its document is active and idle and its version still there. -/
theorem assertReplayEligible {a : ReplayCall} (h : document.lifecycleStatus = .active →
      (document.activeOperationJobId.all fun j => j = a.jobId) = true →
      document.activeVersionId = job.baseActiveVersionId →
      ∀ version, s.version job.documentVersionId = some version → version.status ≠ .purged →
      Works Ok C d (f ()) R s) :
    Works Ok C d (Documents.assertReplayEligible d a job document >>= f) R s := by
  unfold Documents.assertReplayEligible
  rw [Prog.bind_assoc]
  refine check fun _ _ => ?_
  cases hactive : document.lifecycleStatus with
  | pendingDelete => exact fail
  | deleted => exact fail
  | active =>
    rw [Prog.bind_assoc]
    refine raiseIf fun hidle => ?_
    rw [Prog.bind_assoc]
    refine raiseIf fun hbase => ?_
    rw [Prog.bind_assoc]
    refine free free_workerAuthorizationFence fun _ => ?_
    rw [Prog.bind_assoc]
    refine readVersion ?_
    rw [Prog.bind_assoc]
    refine orRaise fun version hversion => ?_
    rw [Prog.bind_assoc]
    refine raiseIf fun hpurged => ?_
    rw [Prog.bind_assoc]
    refine raiseIf fun _ => raiseIf fun _ => ?_
    refine h hactive ?_ (not_not.mp hbase) version hversion hpurged
    cases hop : document.activeOperationJobId with
    | none => rfl
    | some j => simpa [hop] using hidle

theorem withIdempotency {p : Tx JsonObject} {S : Aggregate → Prop} (hs : S s)
    (h : Works Ok C d p (fun _ => S) s) :
    Works Ok C d (Documents.withIdempotency q p) (fun _ => S) s := by
  refine free free_idempotencyReplay fun earlier => ?_
  cases earlier with
  | some response => exact done hs
  | none => exact bind h fun response t ht => free free_completeIdempotency fun _ => done ht

theorem bindIte {β : Type} {cond : Prop} {_ : Decidable cond} {p q : Tx β} {f : β → Tx α}
    (hp : cond → Works Ok C d (p >>= f) R s) (hq : ¬ cond → Works Ok C d (q >>= f) R s) :
    Works Ok C d ((if cond then p else q) >>= f) R s := by
  by_cases h : cond
  · rw [if_pos h]
    exact hp h
  · rw [if_neg h]
    exact hq h

theorem retireVersion {env : Env} {v : String}
    (h : Works Ok C d (f ()) R (s.retireVersion env v status now)) :
    Works Ok C d (Documents.retireVersion env d v status now >>= f) R s := by
  unfold Documents.retireVersion
  rw [Prog.bind_assoc]
  exact changeVersion (fun _ _ => rfl) fun _ => h

theorem releaseDocument {versioned : Bool} {g : Option String}
    (h : Works Ok C d (f ()) R (s.release document versioned g)) :
    Works Ok C d (Documents.releaseDocument d document versioned g >>= f) R s := by
  unfold Documents.releaseDocument
  rw [Prog.bind_assoc]
  refine ⟨fun x hx => ?_⟩
  have hdocument : s.document = x (.document d) := by rw [← hx]; rfl
  refine .updateOwn (fun _ => rfl) (fun hmiss => h.under x ?_) fun r hr hhit => h.under _ ?_
  · rw [Aggregate.release_of_miss fun r hr => hmiss r (hdocument.symm.trans hr), hx]
  · rw [Aggregate.of_document, hx, Aggregate.release_of_hit (hdocument.trans hr) hhit]

theorem closeJob {env : Env} {g : Option String}
    (h : Works Ok C d (f ()) R (s.close env document job status g now)) :
    Works Ok C d (Documents.closeJob env d document job status g now >>= f) R s := by
  unfold Documents.closeJob
  unfold Aggregate.close at h
  refine bindIte (fun hv => ?_) fun hv => ?_
  · rw [if_pos hv] at h
    rw [Prog.bind_assoc]
    exact retireVersion (releaseDocument h)
  · rw [if_neg hv] at h
    exact releaseDocument h

theorem disclaimJob (h : Works Ok C d (f ()) R (s.disclaim job)) :
    Works Ok C d (Documents.disclaimJob d job >>= f) R s := by
  unfold Documents.disclaimJob
  unfold Aggregate.disclaim at h
  refine bindIte (fun hv => ?_) fun hv => ?_
  · rw [if_pos hv] at h
    exact deleteClaims h
  · rw [if_neg hv] at h
    exact h

/-- The version of a job that is replayed. -/
theorem reopen (h : Works Ok C d (f ()) R (s.reopen job)) :
    Works Ok C d ((if job.operation.versioned then do
        let _ ← updateWhere (Key.version d job.documentVersionId) (fun _ => true) fun r =>
          { r with status := .pending, terminalAt := none, purgeAfterAt := none }
      else pure ()) >>= f) R s := by
  unfold Aggregate.reopen at h
  refine bindIte (fun hv => ?_) fun hv => ?_
  · rw [if_pos hv] at h
    rw [Prog.bind_assoc]
    exact changeVersion (fun _ _ => rfl) fun _ => free trivial fun _ => h
  · rw [if_neg hv] at h
    exact free trivial fun _ => h

theorem cancelAttempt {j : String} {a : Option String}
    (h : ∀ m, (∀ b, a = some b → s.Largest j (·.fencingToken) m) → Works Ok C d (f ()) R
      { s with
        attempt := update s.attempt j (mapWhere (s.attempt j) (fun b _ => a = some b)
          fun r => { r with state := .cancelled, fencingToken := m + 1, publicationId := none }) }) :
    Works Ok C d (Documents.cancelAttempt d j a >>= f) R s := by
  unfold Documents.cancelAttempt
  cases a with
  | none =>
    have h := h 0 nofun
    have hnone : mapWhere (s.attempt j) (fun b _ => decide ((none : Option String) = some b))
        (fun r => { r with state := .cancelled, fencingToken := 1, publicationId := none })
        = s.attempt j := by
      funext b
      simp [mapWhere]
    rw [hnone, update_eq_self] at h
    exact free trivial fun _ => h
  | some a =>
    rw [Prog.bind_assoc]
    refine largest fun m hm => ?_
    have h := h m fun b _ => hm
    have hsome : mapWhere (s.attempt j) (fun b _ => decide (some a = some b))
        (fun r => { r with state := .cancelled, fencingToken := m + 1, publicationId := none })
        = mapAt (s.attempt j) a
          fun r => { r with state := .cancelled, fencingToken := m + 1, publicationId := none } := by
      funext b
      by_cases hb : b = a
      · subst hb
        cases hr : s.attempt j b <;> simp [mapWhere, mapAt, hr]
      · cases hr : s.attempt j b <;> simp [mapWhere, mapAt, hr, hb, Ne.symm hb]
    rw [hsome] at h
    exact changeAttempt (fun _ _ => rfl) fun _ => free free_endLease fun _ => h

/-- A job that may be claimed. -/
theorem claimable {j : String} {f : Option JobRow → Tx α} (hnone : Works Ok C d (f none) R s)
    (hsome : ∀ job, s.job j = some job → job.state = .pending ∨ job.state = .retryWait →
      Works Ok C d (f (some job)) R s) :
    Works Ok C d ((Prog.selectForUpdate
      (fun v : Db => (Documents.claimable v d j now).toList.map fun _ => Key.job d j)
      fun v => Documents.claimable v d j now) >>= f) R s := by
  refine ⟨fun x hx => .read fun v hv => ?_⟩
  have hget : v.get (.job d j) = s.job j := by
    rw [Own.get (fun _ => rfl) hv, ← hx]
    rfl
  cases hclaim : Documents.claimable v d j now with
  | none => exact hnone.under x hx
  | some job =>
    obtain ⟨hjob, hcond⟩ := filter_eq_some_iff.mp hclaim
    exact (hsome job (hget.symm.trans hjob) (of_decide_eq_true hcond).1).under x hx

/-- The staged publication of a job, or a new one. -/
theorem claimPublication {j new : String} {f : String × String → Tx α}
    (hkept : ∀ r, s.publication job.activePublicationId = some r → r.status = .staged →
      Works Ok C d (f (job.activePublicationId, r.generationId)) R s)
    (hnew : (∀ r, s.publication job.activePublicationId = some r → r.status ≠ .staged) →
      s.publication new = none → ∀ generationId, Works Ok C d (f (new, generationId)) R
        { s with
          publication := update s.publication new
            (some (stagedPublication job.documentVersionId j generationId))
          job := mapAt s.job j fun r => { r with activePublicationId := new } }) :
    Works Ok C d (Documents.claimPublication d j job new >>= f) R s := by
  unfold Documents.claimPublication
  rw [Prog.bind_assoc]
  refine readPublication ?_
  cases hr : (s.publication job.activePublicationId).filter fun r => r.status = .staged with
  | some r =>
    obtain ⟨hget, hstaged⟩ := filter_eq_some_iff.mp hr
    exact hkept r hget (of_decide_eq_true hstaged)
  | none =>
    have hold : ∀ r, s.publication job.activePublicationId = some r → r.status ≠ .staged := by
      intro r hget hstaged
      rw [hget] at hr
      simp [hstaged] at hr
    dsimp only
    rw [Prog.bind_assoc]
    refine free free_currentIndexGeneration fun generationId => ?_
    rw [Prog.bind_assoc]
    refine insertPublication fun hpublication => ?_
    rw [Prog.bind_assoc]
    exact changeJob (fun _ _ => rfl) fun _ => hnew hold hpublication generationId

theorem stageGeneration {p old new : String} (hr : s.publication p = some r)
    (hold : r.generationId = old) (h : Works Ok C d (f ()) R { s with
      publication := update s.publication p (some { r with generationId := new }) }) :
    Works Ok C d ((if old ≠ new then
        Documents.updatePublication d p fun r => { r with generationId := new }
      else pure ()) >>= f) R s := by
  refine bindIte (fun _ => updatePublication ?_) fun heq => free trivial fun _ => ?_
  · rw [mapAt_eq_update hr]
    exact h
  · obtain rfl := not_not.mp heq
    subst hold
    have hsame : update s.publication p (some { r with generationId := r.generationId })
        = s.publication := by
      rw [update_eq_self_iff, hr]
    rw [hsame] at h
    exact h

theorem insertReplacement {version : VersionRow}
    (h : s.version a.new.versionId = none → s.job a.new.jobId = none → Works Ok C a.documentId (f ())
      R { s with
          version := update s.version a.new.versionId (some version)
          job := update s.job a.new.jobId (some (newJob a.new.versionId .replace
            document.activeVersionId none a.new.publicationId (document.version + 1)
            a.principal)) }) :
    Works Ok C a.documentId (Documents.insertReplacement a document version >>= f) R s := by
  unfold Documents.insertReplacement
  rw [Prog.bind_assoc]
  exact insertVersion fun hversion => insertJob fun hjob => h hversion hjob

theorem beginOperation {pending : Option String}
    (h : ∀ generationId, s.publication a.new.publicationId = none → Works Ok C a.documentId (f ()) R
      { s with
        publication := update s.publication a.new.publicationId
          (some (stagedPublication job.documentVersionId a.new.jobId generationId))
        document := s.document.map fun d =>
          { d with
            pendingVersionId := pending
            activeOperationJobId := some a.new.jobId
            version := document.version + 1 } }) :
    Works Ok C a.documentId (Documents.beginOperation a document job pending >>= f) R s := by
  unfold Documents.beginOperation
  rw [Prog.bind_assoc]
  refine free free_currentIndexGeneration fun generationId => ?_
  rw [Prog.bind_assoc]
  refine insertPublication fun hpublication => ?_
  rw [Prog.bind_assoc]
  exact changeDocument (fun _ _ => rfl) fun _ => h generationId hpublication

/-- The wait of a job that is to be retried. -/
theorem retryIn {willRetry : Bool} {count : ℕ} {f : Option Time → Tx α}
    (h : ∀ delay, (willRetry = false → delay = none) → Works Ok C d (f delay) R s) :
    Works Ok C d (Documents.retryIn willRetry count jitter >>= f) R s := by
  unfold Documents.retryIn
  refine bindIte (fun hw => ?_) fun hw => ?_
  · rw [Prog.map_eq_bind, Prog.bind_assoc]
    exact check fun _ _ => h _ fun hf => absurd (hw.symm.trans hf) Bool.noConfusion
  · exact h none fun _ => rfl

end Works

/-! ### The ends of a job -/

/-- The document stays as it is, or makes a step of one of the kinds. -/
def Moves (env : Env) (kinds : StepKind → Prop) (s t : Aggregate) : Prop :=
  t = s ∨ ∃ kind, kinds kind ∧ s.Step env kind t

theorem Moves.step {env : Env} {kinds : StepKind → Prop} {kind : StepKind} {s t : Aggregate}
    (h : s.Step env kind t) (hkind : kinds kind) : Moves env kinds s t := .inr ⟨kind, hkind, h⟩

/-- What a transaction may make of the rows under the lock of a document. -/
def moves (env : Env) (kinds : StepKind → Prop) (d : String) (x y : Region Row) : Prop :=
  Moves env kinds (.of d x) (.of d y)

/-- The transaction makes nothing of a document but steps of the kinds. -/
def Tracked (D : Discipline Row) (C : List (Write Row) → Db → Prop) (env : Env)
    (kinds : StepKind → Prop) (p : Tx α) : Prop :=
  D.Triple C (guards.Tracks (moves env kinds)) p fun _ => guards.Tracks (moves env kinds)

namespace Tracked

variable {β : Type} {D : Discipline Row} {env : Env} {kinds : StepKind → Prop} {p : Tx α}

theorem fail {e : Err} : Tracked D C env kinds (.fail e : Tx α) := Discipline.Triple.fail

theorem free (hD : guards.Guarded Ok D) (hp : p.Writes guards.Free) : Tracked D C env kinds p :=
  tracks_free hD hp

theorem bindFree (hD : guards.Guarded Ok D) {p : Tx β} {f : β → Tx α}
    (hp : p.Writes guards.Free) (h : ∀ b, Tracked D C env kinds (f b)) :
    Tracked D C env kinds (p >>= f) := .bind (tracks_free hD hp) h

theorem orRaise {o : Option β} {e : Err} {f : β → Tx α}
    (h : ∀ b, o = some b → Tracked D C env kinds (f b)) :
    Tracked D C env kinds (Txn.orRaise o e >>= f) := by
  cases o with
  | some b => exact h b rfl
  | none => exact .fail

/-- **A program that locks a document** works on it. -/
theorem lockedDocument (hD : guards.Guarded Ok D)
    (hE : ∀ d x y, Ok d x → moves env kinds d x y → Ok d y) {f : Option DocumentRow → Tx α}
    (hnone : Tracked D C env kinds (f none))
    (h : ∀ document x, Ok d x → (Aggregate.of d x).document = some document →
      Works Ok C d (f (some document)) (fun _ => Moves env kinds (.of d x)) (.of d x)) :
    Tracked D C env kinds (Documents.lockedDocument d >>= f) :=
  tracks_lock hD hE (fun _ => rfl) hnone fun r x hok hr =>
    .conseq ((h r x hok hr).under x rfl) fun _ _ hy => Relation.ReflTransGen.single hy

/-- **A program that creates a document** works on it. -/
theorem insertDocument (hD : guards.Guarded Ok D)
    (hE : ∀ d x y, Ok d x → moves env kinds d x y → Ok d y) {e : Err} {r : DocumentRow}
    {f : Unit → Tx α} (h : ∀ x, Ok d x → (Aggregate.of d x).document = none →
      Works Ok C d (f ()) (fun _ => Moves env kinds (.of d x))
        { Aggregate.of d x with document := some r }) :
    Tracked D C env kinds (Txn.insert e [.document d] [⟨.document d, some r⟩] >>= f) :=
  tracks_create hD hE (fun _ => rfl) fun x hok hx =>
    Under.conseq ((h x hok hx).under _ Aggregate.of_document) fun _ _ hy =>
      Relation.ReflTransGen.single hy

end Tracked

/-- No initial job is taken from its last attempt: where a reclaim ends an attempt of an initial
job, the job has made fewer than four in its cycle. -/
def Patient (ws : List (Write Row)) (v : Db) : Prop :=
  ∀ d j a r, (⟨.attempt d j a, some r⟩ : Write Row) ∈ ws → r.state = .expired →
    ∀ job, v.get (.job d j) = some job → job.operation = .initial →
      attemptCount v d j job.replayGeneration < 4

/-- A document that may get a further job is active and does nothing. -/
theorem DocumentRow.writable_of_assertWritable {expectedVersion : ℕ} {u : Unit}
    (h : document.assertWritable expectedVersion = .ok u) :
    document.lifecycleStatus = .active ∧ document.activeOperationJobId = none := by
  unfold assertWritable at h
  cases hactive : document.lifecycleStatus with
  | pendingDelete => rw [hactive] at h; cases h
  | deleted => rw [hactive] at h; cases h
  | active =>
    rw [hactive] at h
    dsimp only at h
    split at h
    · cases h
    · split at h
      · cases h
      · next hop => exact ⟨rfl, by simpa using hop⟩

section Transactions

variable {D : Discipline Row} {env : Env} {kinds : StepKind → Prop}

/-- The reclaim of an expired attempt. -/
theorem works_expireAttempt {j a : String} {attempt : AttemptRow} {s : Aggregate}
    (hdocument : s.document = some document) (hruns : s.Runs j a job attempt)
    (hkind : kinds .expire) (habandon : kinds .abandon ∨ ∀ ws v, C ws v → Patient ws v) :
    Works Ok C d (expireAttempt env now jitter discarded d j a document job attempt)
      (fun _ => Moves env kinds s) s := by
  refine .countAttempts fun n hn => .retryIn fun delay hdelay =>
    .free free_discardIndexingAttempt fun _ =>
    .changeAttemptAllowed hruns.ofAttempt (decide_eq_true ⟨hruns.live, rfl⟩)
      fun v _ hv hC => .free free_endLease fun _ => .deleteStaged <|
    .changeJob (fun r hr => ?_) fun _ => ?_
  · cases hruns.ofJob.symm.trans hr
    exact decide_eq_true ⟨hruns.running, hruns.active⟩
  cases hcount : decide (n < 4) with
  | true =>
    refine .bindIte (fun _ => .free trivial fun _ => ?_) fun h => absurd rfl h
    rw [← Prog.bind_done (recordItemState _ _ _ _)]
    refine .recordItemState (.done ?_)
    exact .step (.expire "lease_expired" _ hruns hn (of_decide_eq_true hcount)) hkind
  | false =>
    obtain rfl := hdelay hcount
    refine .bindIte (fun h => absurd h Bool.false_ne_true) fun _ => .closeJob ?_
    rw [← Prog.bind_done (recordItemState _ _ _ _)]
    refine .recordItemState (.done ?_)
    have hfour : 4 ≤ n := not_lt.mp (of_decide_eq_false hcount)
    refine .step (.deadLetter "lease_expired" now hdocument hruns hn hfour) ?_
    split
    · next hinitial =>
      refine habandon.resolve_right fun hpatient => ?_
      have hget : v.get (.job d j) = some job := by
        rw [← hruns.ofJob, ← hv]
        exact (region_of_static fun _ => rfl).symm
      have hfew := hpatient _ _ hC d j a _ (mem_singleton_self _) rfl job hget hinitial
      have heq : attemptCount v d j job.replayGeneration = n :=
        Tally.unique (cycle_attemptCount hv job.replayGeneration) hn
      omega
    · exact hkind

/-- The attempt of a claim on the staged publication `p`. -/
theorem works_startAttempt {a : ClaimCall} {j p : String} {job' : JobRow} {lastNumber lastFence : ℕ}
    {s : Aggregate} {R : JobLease → Aggregate → Prop} (hjob : s.job j = some job')
    (hwaits : job'.state = .pending ∨ job'.state = .retryWait) (hr : s.publication p = some r)
    (hgeneration : r.generationId = generationId)
    (h : ∀ lease attempt generationId cycle, s.attempt j a.attemptId = none →
      s.Cycle j job.replayGeneration cycle →
      (attempt.attemptNumber = lastNumber + 1 ∧ attempt.cycleAttemptNumber = cycle + 1 ∧
        attempt.fencingToken = lastFence + 1 ∧ attempt.replayGeneration = job.replayGeneration ∧
        attempt.state = .running) →
      R lease (Aggregate.recordItem
        { s with
          attempt := update s.attempt j
            (update (s.attempt j) a.attemptId (some attempt))
          job := update s.job j (some
            { job' with state := .running, activeAttemptId := some a.attemptId,
                        nextAttemptAt := none })
          publication := update s.publication p
            (some { r with generationId, attemptId := some a.attemptId }) } j job .running)) :
    Works Ok C d (startAttempt env a d j document job lastNumber lastFence p generationId) R s := by
  refine .free free_currentIndexGeneration fun active =>
    .stageGeneration hr hgeneration <| .readAny fun version =>
    .free .select fun revision =>
    .free free_workerAuthorizationFence fun fence => .countAttempts fun cycle hcycle =>
    .insertAttempt fun hnew => .free (.insert fun x hx => ?_) fun _ =>
    .changeJob (fun r hr => ?_) fun _ => .updatePublication <|
    .recordItemState <| .readAny fun hold => .done ?_
  · obtain rfl := mem_singleton.mp hx
    exact fun _ => rfl
  · cases hjob.symm.trans hr
    exact decide_eq_true hwaits
  · rw [mapAt_update, mapAt_eq_update hjob]
    exact h _ _ active cycle hnew hcycle ⟨rfl, rfl, rfl, rfl, rfl⟩

variable (hD : guards.Guarded Ok D) (hE : ∀ d x y, Ok d x → moves env kinds d x y → Ok d y)
include hD hE

theorem tracked_failJob {a : FailCall} (hkind : kinds .fail) :
    Tracked D C env kinds (failJob env a) := by
  refine .bindFree hD .readRow fun _ => .orRaise fun _ _ =>
    .lockedDocument hD hE .fail fun document x hok hdocument => ?_
  refine .orRaise fun _ hd => .lockedJob (.orRaise fun job hjob =>
    .raiseIf fun _ => .raiseIf fun hrunning => .orRaise fun attemptId hactive =>
    .lockedAttempt fun lease => .orRaise fun attempt hattempt =>
    .raiseIf fun hfence => .countAttempts fun n hn =>
    .retryIn fun delay hdelay => ?_)
  cases hd
  obtain ⟨attempt, hget, rfl⟩ := map_eq_some_iff.mp hattempt
  have hfence := not_not.mp hfence
  have hruns : (Aggregate.of a.documentId x).Runs a.jobId attemptId job attempt :=
    ⟨not_not.mp hrunning, hactive, hfence.1, hjob, hget⟩
  have hstill : ∀ r, (Aggregate.of a.documentId x).job a.jobId = some r →
      decide (r.state = .running ∧ r.activeAttemptId = some attemptId) = true := by
    intro r hr
    cases hjob.symm.trans hr
    exact decide_eq_true ⟨hruns.running, hactive⟩
  cases hretry : a.retryable && decide (n < 4) with
  | true =>
    obtain ⟨-, hcount⟩ := Bool.and_eq_true_iff.mp hretry
    refine .bindIte (fun _ => .free trivial fun _ =>
      .free free_discardIndexingAttempt fun _ =>
      .changeAttempt (fun _ _ => rfl) fun _ => .free free_endLease fun _ =>
      .changeJob hstill fun _ => .deleteStaged <|
      .bindIte (fun _ => .free trivial fun _ => ?_) fun h => absurd rfl h)
      fun h => absurd rfl h
    refine .recordItemState (.done ?_)
    exact .step (.retry a.reason _ hruns hn (of_decide_eq_true hcount)) hkind
  | false =>
    obtain rfl := hdelay hretry
    refine .bindIte (fun h => absurd h Bool.false_ne_true) fun _ => .check fun _ _ =>
      .free free_discardIndexingAttempt fun _ =>
      .changeAttempt (fun _ _ => rfl) fun _ => .free free_endLease fun _ =>
      .changeJob hstill fun _ => .deleteStaged <|
      .bindIte (fun h => absurd h Bool.false_ne_true) fun _ => ?_
    rw [Prog.bind_assoc]
    refine .closeJob (.disclaimJob (.recordItemState (.done ?_)))
    exact .step (.fail a.reason a.now hdocument hruns (by
      by_cases hr : a.retryable = true <;> simp [hr])) hkind

theorem tracked_cancelJob {a : CancelCall} (hkind : kinds .cancel) :
    Tracked D C env kinds (cancelJob env a) := by
  refine .bindFree hD .readRow fun _ => .orRaise fun _ _ =>
    .lockedDocument hD hE .fail fun document x hok hdocument => ?_
  refine .orRaise fun _ hd => .lockedJob (.orRaise fun job hjob =>
    .raiseIf fun _ => .ite (fun _ => .done (.inl rfl)) fun _ =>
    .raiseIf fun hlive => .check fun _ _ => .free free_discardIndexingAttempt fun _ =>
    .changeJob (fun r hr => ?_) fun _ => ?_)
  · cases hjob.symm.trans hr
    exact decide_eq_true rfl
  cases hd
  refine .cancelAttempt fun lastFence hlast => .deleteStaged <| .closeJob <|
    .disclaimJob <| .recordItemState <| .done ?_
  have hlast : ∀ b, job.activeAttemptId = some b →
      (Aggregate.of a.documentId x).Largest a.jobId (·.fencingToken) lastFence :=
    fun b hb => ⟨(hlast b hb).le, (hlast b hb).attained⟩
  exact .step (.cancel a.now hdocument hjob (by simpa using hlive) hlast) hkind

omit hE in
theorem tracked_renewLease {a : RenewCall} : Tracked D C env kinds (renewLease a) := by
  refine .free hD (.bind .selectForUpdate fun attempt =>
    .ite (fun _ => .statement fun v z hz => ?_) fun _ => trivial)
  split at hz
  · obtain ⟨r, -, rfl⟩ := List.mem_map.mp hz
    exact fun _ => rfl
  · cases hz

theorem tracked_reclaimJob {j : String} (hkind : kinds .expire)
    (habandon : kinds .abandon ∨ ∀ ws v, C ws v → Patient ws v) :
    Tracked D C env kinds (reclaimJob env now jitter discarded d j) := by
  refine .lockedDocument hD hE (.free hD trivial) fun document x hok hdocument => ?_
  refine .lockedJob (.orRaise fun job hjob => ?_)
  cases hactive : job.activeAttemptId with
  | none => exact .done (.inl rfl)
  | some a =>
    refine .ite (fun hrunning => .lockedAttempt fun lease => ?_) fun _ =>
      .done (.inl rfl)
    cases hattempt : (Aggregate.of d x).attempt j a with
    | none => exact .done (.inl rfl)
    | some attempt =>
      refine .ite (fun hlive => ?_) fun _ => .done (.inl rfl)
      exact works_expireAttempt hdocument ⟨hrunning, hactive, hlive.1, hjob, hattempt⟩ hkind
        habandon

theorem tracked_reclaimExpired {jitter : String → ℕ} {discarded : String → Except Err Unit}
    (hkind : kinds .expire) (habandon : kinds .abandon ∨ ∀ ws v, C ws v → Patient ws v) :
    Tracked D C env kinds (reclaimExpired env now jitter discarded) := by
  refine .bindFree hD .select fun jobs => ?_
  induction jobs with
  | nil => exact .free hD trivial
  | cons x jobs ih => exact .bind (tracked_reclaimJob hD hE hkind habandon) fun _ => ih

theorem tracked_replayJob {a : ReplayCall} (hkind : kinds .replay) :
    Tracked D C env kinds (replayJob a) := by
  refine .bindFree hD .raiseIf fun _ =>
    .bindFree hD .readRow fun _ => .orRaise fun _ _ =>
    .lockedDocument hD hE .fail fun document x hok hdocument => ?_
  refine .orRaise fun _ hd => .lockedJob (.orRaise fun job hjob =>
    .withIdempotency (.inl rfl) ?_)
  refine .raiseIf fun hover =>
    .assertReplayEligible fun hactive hidle hbase version hversion hpurged => ?_
  cases hd
  have hstill : ∀ r, ((Aggregate.of a.documentId x).reopen job).job a.jobId = some r →
      decide (r.state.replayable = true ∧ r.replayGeneration = job.replayGeneration) = true := by
    intro r hr
    rw [Aggregate.reopen_job] at hr
    cases hjob.symm.trans hr
    exact decide_eq_true ⟨by simpa using hover, rfl⟩
  unfold beginReplay
  rw [Prog.bind_assoc]
  refine .reopen ?_
  rw [Prog.bind_assoc]
  refine .free free_currentIndexGeneration fun generationId => ?_
  rw [Prog.bind_assoc]
  refine .insertPublication fun hpublication => ?_
  rw [Prog.bind_assoc]
  refine .changeJob hstill fun _ => ?_
  rw [Prog.bind_assoc]
  refine .changeDocument (fun _ _ => rfl) fun _ => .recordItemState <| .done ?_
  rw [Aggregate.reopen_publication] at hpublication
  exact .step (.replay a generationId hdocument hactive hidle hbase hjob (by simpa using hover)
    hversion hpurged hpublication) hkind

theorem tracked_claimJob {a : ClaimCall} (hkind : kinds .claim) :
    Tracked D C env kinds (claimJob env a) := by
  refine .bindFree hD .select fun _ => .orRaise fun ⟨d, j⟩ _ =>
    .lockedDocument hD hE .fail fun document x hok hdocument => ?_
  refine .orRaise fun _ hd => .claimable .fail fun job hjob hwaits =>
    .orRaise fun _ heq => ?_
  cases heq
  refine .largest fun lastNumber hnumber => .largest fun lastFence hfence =>
    .claimPublication (fun r hr hstaged => ?_) fun hold hp generationId => ?_
  · refine works_startAttempt hjob hwaits hr rfl
      fun lease attempt generationId cycle hnew hcycle hattempt => ?_
    exact .step (.claim hjob hwaits hnew (.kept generationId rfl hr hstaged) hnumber hfence
      hcycle hattempt) hkind
  · refine works_startAttempt (mapAt_self hjob) hwaits (update_self _ _ _) rfl
      fun lease attempt generationId cycle hnew hcycle hattempt => ?_
    have hstep : Aggregate.Step env .claim _ _ := .claim hjob hwaits hnew
      (.new generationId hp hold) hnumber hfence hcycle hattempt
    rw [mapAt_eq_update hjob, update_idem, update_idem]
    exact .step hstep hkind

variable {info : FileInfo env}

theorem tracked_replaceVersion (hkind : kinds .replace) :
    Tracked D C env kinds (replaceVersion a info) := by
  refine .lockedDocument hD hE .fail fun document x hok hdocument => ?_
  refine .orRaise fun _ hd => .check fun _ _ => .withIdempotency (.inl rfl) ?_
  cases hd
  refine .check fun _ hwritable => .free free_assertReplacementClaimAvailable fun _ =>
    .free free_lockedActiveVersion fun active => .ite (fun _ => .done (.inl rfl))
    fun _ => .check fun _ _ => .free .select fun number => ?_
  obtain ⟨hactive, hidle⟩ := DocumentRow.writable_of_assertWritable hwritable
  refine .insertReplacement fun hversion hjob => .beginOperation
    fun generationId hpublication => .done ?_
  exact .step (.replace a generationId hdocument hactive hidle hversion hjob hpublication rfl)
    hkind

theorem tracked_restoreVersion {documentVersionId : String} (hkind : kinds .replace) :
    Tracked D C env kinds (restoreVersion env a documentVersionId now) := by
  refine .lockedDocument hD hE .fail fun document x hok hdocument => ?_
  refine .orRaise fun _ hd => .check fun _ _ => .withIdempotency (.inl rfl) ?_
  cases hd
  refine .check fun _ hwritable => .check fun _ _ => .readAny fun _ =>
    .orRaise fun source _ => .raiseIf fun _ => .check fun name _ =>
    .free free_assertReplacementClaimAvailable fun _ => .raiseIf fun _ =>
    .free .select fun number => ?_
  obtain ⟨hactive, hidle⟩ := DocumentRow.writable_of_assertWritable hwritable
  refine .insertReplacement fun hversion hjob =>
    Works.insertOther (fun _ => rfl) (fun _ => Aggregate.of_hold) <| Works.beginOperation
    fun generationId hpublication => .done ?_
  exact .step (.replace a generationId hdocument hactive hidle hversion hjob hpublication rfl)
    hkind

theorem tracked_reindex (hkind : kinds .reindex) : Tracked D C env kinds (reindex a) := by
  refine .lockedDocument hD hE .fail fun document x hok hdocument => ?_
  refine .orRaise fun _ hd => .check fun _ _ => .withIdempotency (.inl rfl) ?_
  cases hd
  refine .check fun _ hwritable => .check fun _ _ => .orRaise fun v hversion => ?_
  obtain ⟨hactive, hidle⟩ := DocumentRow.writable_of_assertWritable hwritable
  refine .insertJob fun hjob => .beginOperation fun generationId hpublication =>
    .done ?_
  exact .step (.reindex a generationId hdocument hactive hidle hversion hjob hpublication)
    hkind

theorem tracked_createDocument {a : UploadCall env} {new : NewDocument} (hkind : kinds .create) :
    Tracked D C env kinds (createDocument a info new) := by
  refine .insertDocument hD hE fun x hok hdocument => .insertVersion fun hversion =>
    .insertJob fun hjob => .free free_currentIndexGeneration fun generationId =>
    .insertPublication fun hpublication => .insertClaim ?_ fun hclaim => ?_
  · refine .deletePublication <| .deleteJob <| .deleteVersion <|
      .deleteDocumentRow <| .done (.inl ?_)
    have hversion : (Aggregate.of new.documentId x).version new.versionId = none := hversion
    have hjob : (Aggregate.of new.documentId x).job new.jobId = none := hjob
    have hpublication : (Aggregate.of new.documentId x).publication new.publicationId = none :=
      hpublication
    simp only [update_idem]
    rw [update_eq_self_iff.mpr hversion.symm, update_eq_self_iff.mpr hjob.symm,
      update_eq_self_iff.mpr hpublication.symm, ← hdocument]
  · refine .insertItem fun _ => .done ?_
    exact .step (.create a info new generationId hdocument) hkind

omit hD hE in
theorem free_deduplicatedUploadItem {a : UploadCall env} {itemId : String} {claim : ClaimRow} :
    (deduplicatedUploadItem a info itemId claim).Writes guards.Free := by
  refine .bind .readRow fun _ => .bind (.insert fun x hx => ?_) fun _ => trivial
  obtain rfl := mem_singleton.mp hx
  exact fun _ => rfl

theorem tracked_uploadFile {a : UploadCall env} {file : UploadState env} (hkind : kinds .create) :
    Tracked D C env kinds (uploadFile a file) := by
  cases file with
  | rejected itemId filename code =>
    refine .free hD (.bind (.insert fun x hx => ?_) fun _ => trivial)
    obtain rfl := mem_singleton.mp hx
    exact fun _ => rfl
  | file info new =>
    refine .bindFree hD .readRow fun claim => ?_
    cases claim with
    | some claim => exact .free hD free_deduplicatedUploadItem
    | none =>
      refine .bind (tracked_createDocument hD hE hkind) fun created =>
        Tracked.free hD (Prog.Writes.ite (fun _ => trivial) fun _ => ?_)
      exact Prog.Writes.readRow.bind fun _ => Prog.Writes.orRaise.bind fun _ =>
        free_deduplicatedUploadItem

theorem tracked_uploadFiles {a : UploadCall env} (hkind : kinds .create)
    (files : List (UploadState env)) : Tracked D C env kinds (uploadFiles a files) := by
  induction files with
  | nil => exact .free hD trivial
  | cons file files ih =>
    exact .bind (tracked_uploadFile hD hE hkind) fun _ =>
      Discipline.Triple.bind ih fun _ => Tracked.free hD trivial

omit hE in
theorem tracked_withIdempotency {p : Tx JsonObject} (hp : Tracked D C env kinds p) :
    Tracked D C env kinds (withIdempotency q p) := by
  refine .bindFree hD free_idempotencyReplay fun earlier => ?_
  cases earlier with
  | some response => exact .free hD trivial
  | none =>
    exact Discipline.Triple.bind hp fun _ => Tracked.bindFree hD free_completeIdempotency fun _ =>
      .free hD trivial

theorem tracked_createInitialUpload {a : UploadCall env} (hkind : kinds .create) :
    Tracked D C env kinds (createInitialUpload a) := by
  refine .bindFree hD .raiseIf fun _ =>
    .bindFree hD .check fun _ => tracked_withIdempotency hD ?_
  refine .bindFree hD .check fun _ =>
    .bindFree hD (.insert fun x hx => ?_) fun _ =>
    .bind (tracked_uploadFiles hD hE hkind a.files) fun _ =>
    Tracked.bindFree hD free_refreshUploadBatch fun _ => Tracked.free hD trivial
  obtain rfl := mem_singleton.mp hx
  exact fun _ => rfl

end Transactions

end RagQs.Documents
