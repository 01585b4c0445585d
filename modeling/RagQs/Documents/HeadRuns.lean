import RagQs.Documents.System

/-!
# What a document is doing, in every run

The columns of a document that say what it is doing agree with its versions, jobs and publications
in every state that is reached, and a document whose deletion was accepted stays closed.

## Main definitions

* `Rooted`, `Sound` — what is known of every document.
* `HeadRows` — the columns of a document agree with its rows.

## Main results

* `sound_preserved` — the steps keep a document sound.
* `document_head_consistent` — the head of every document, in every run.
-/

namespace RagQs.Documents

open Txn Txn.Guards Option

variable {env : Env}
variable {kind : StepKind}
variable {k : ClaimKey} {v : String} {document : DocumentRow} {t : Aggregate}

namespace Aggregate

variable {s : Aggregate}

theorem claim_of_dropClaims {versionId : Option String}
    (h : (s.dropClaims versionId).claim k = some v) :
    s.claim k = some v ∧ ¬ versionId.all (fun x => v = x) := by
  have h : dropWhere s.claim (fun _ v => versionId.all fun x => v = x) k = some v := h
  obtain ⟨hv, hkept⟩ := dropWhere_eq_some.mp h
  exact ⟨hv, by simpa using hkept⟩

theorem claim_of_disclaim {job : JobRow} (h : (s.disclaim job).claim k = some v) :
    s.claim k = some v := by
  unfold disclaim at h
  split at h
  · exact (claim_of_dropClaims h).1
  · exact h

/-- The lifecycle of the document. -/
def lifecycle (s : Aggregate) : Option Lifecycle := s.document.map (·.lifecycleStatus)

theorem lifecycle_map {f : DocumentRow → DocumentRow}
    (hf : ∀ r, (f r).lifecycleStatus = r.lifecycleStatus) :
    (s.document.map f).map (·.lifecycleStatus) = s.lifecycle := by
  rw [map_map]
  exact congrArg (fun g => s.document.map g) (funext hf)

theorem lifecycle_close {job : JobRow} {status : VersionState} {g : Option String} {now : Time} :
    (s.close env document job status g now).lifecycle = s.lifecycle := by
  unfold close
  split <;> exact lifecycle_map fun r => by split <;> rfl

theorem Step.lifecycle (h : s.Step env kind t) :
    t.lifecycle = s.lifecycle ∨ s.document = none ∧ t.lifecycle = some .active ∨
      s.lifecycle = some .active ∧ t.lifecycle = some .pendingDelete ∧ ∀ k, t.claim k = none := by
  have hrecord : ∀ (u : Aggregate) j job state,
      (u.recordItem j job state).lifecycle = u.lifecycle := by
    intro u j job state
    unfold Aggregate.lifecycle
    rw [recordItem_document]
  have hdisclaim : ∀ (u : Aggregate) job, (u.disclaim job).lifecycle = u.lifecycle := by
    intro u job
    unfold Aggregate.lifecycle
    rw [disclaim_document]
  cases h with
  | create a info new generationId h => exact .inr (.inl ⟨h, rfl⟩)
  | replace => exact .inl (lifecycle_map fun _ => rfl)
  | reindex => exact .inl (lifecycle_map fun _ => rfl)
  | claim => exact .inl (hrecord _ _ _ _)
  | expire => exact .inl (hrecord _ _ _ _)
  | deadLetter => exact .inl ((hrecord _ _ _ _).trans lifecycle_close)
  | retry => exact .inl (hrecord _ _ _ _)
  | fail =>
    exact .inl (((hrecord _ _ _ _).trans (hdisclaim _ _)).trans lifecycle_close)
  | cancel =>
    exact .inl (((hrecord _ _ _ _).trans (hdisclaim _ _)).trans lifecycle_close)
  | replay =>
    refine .inl ((hrecord _ _ _ _).trans ?_)
    simp only [Aggregate.lifecycle, reopen_document]
    exact lifecycle_map fun _ => rfl
  | publish =>
    refine .inl ((hrecord _ _ _ _).trans ?_)
    simp only [Aggregate.lifecycle]
    split <;> exact lifecycle_map fun _ => rfl
  | delete a staged h hactive =>
    refine .inr (.inr ⟨by simp [Aggregate.lifecycle, h, hactive], ?_, fun k => ?_⟩)
    · simp [Aggregate.lifecycle, dropClaims, supersede, unstage, h]
    · by_contra hk
      obtain ⟨v, hv⟩ := ne_none_iff_exists'.mp hk
      exact (claim_of_dropClaims hv).2 rfl

/-- A claim is for a document that is active. -/
def Rooted (s : Aggregate) : Prop := ∀ k v, s.claim k = some v → s.lifecycle = some .active

theorem Step.claims (h : s.Step env kind t) (hv : t.claim k = some v) :
    t.lifecycle = some .active ∨ s.claim k = some v ∧ t.lifecycle = s.lifecycle := by
  rcases h.lifecycle with hsame | ⟨-, hactive⟩ | ⟨-, -, hnone⟩
  · rw [hsame]
    cases h with
    | create a info new generationId h => exact .inl (hsame.symm.trans rfl)
    | replace => exact .inr ⟨hv, rfl⟩
    | reindex => exact .inr ⟨hv, rfl⟩
    | claim => exact .inr ⟨by simpa using hv, rfl⟩
    | expire => exact .inr ⟨by simpa using hv, rfl⟩
    | deadLetter => exact .inr ⟨by simpa using hv, rfl⟩
    | retry => exact .inr ⟨by simpa using hv, rfl⟩
    | fail =>
      rw [recordItem_claim] at hv
      exact .inr ⟨by simpa using claim_of_disclaim hv, rfl⟩
    | cancel =>
      rw [recordItem_claim] at hv
      exact .inr ⟨by simpa using claim_of_disclaim hv, rfl⟩
    | replay a generationId h hactive => exact .inl (by simp [Aggregate.lifecycle, h, hactive])
    | publish c h hactive => exact .inl (by simp [Aggregate.lifecycle, h, hactive])
    | delete a staged h hactive => exact .inl (by simp [Aggregate.lifecycle, h, hactive])
  · exact .inl hactive
  · rw [hnone] at hv
    cases hv

theorem Step.rooted (hs : s.Rooted) (h : s.Step env kind t) : t.Rooted := by
  intro k v hv
  rcases h.claims hv with hactive | ⟨hclaim, hsame⟩
  · exact hactive
  · rw [hsame]
    exact hs k v hclaim

/-- What is known of every document. -/
structure Sound (s : Aggregate) : Prop where
  head : s.head.Consistent
  rooted : s.Rooted

theorem sound_empty : Sound .empty where
  head := by
    constructor <;> simp [Aggregate.head, Aggregate.empty]
  rooted := nofun

theorem sound_preserved {kinds : StepKind → Prop} : Preserves env kinds Sound where
  step _ _ _ _ hs h := ⟨h.consistent hs.head, h.rooted hs.rooted⟩
  claiming s hs k v hv := by
    obtain ⟨r, hr, hactive⟩ := map_eq_some_iff.mp (hs.rooted k v hv)
    exact ⟨r, hr, hactive⟩

end Aggregate

/-! ### The rows of a document -/

/-- The columns of a document agree with its versions, jobs and publications. -/
structure HeadRows (c : Db) (d : String) (document : DocumentRow) : Prop where
  /-- An active publication is that of the active version. -/
  published : ∀ p r, c.get (.publication d p) = some r → r.status = .active →
    document.activeVersionId = some r.documentVersionId
  /-- There is one active publication at most. -/
  single : ∀ p q r r', c.get (.publication d p) = some r → r.status = .active →
    c.get (.publication d q) = some r' → r'.status = .active → p = q
  /-- The active version is the one with the status. -/
  active : ∀ v, document.activeVersionId = some v ↔
    ∃ r, c.get (.version d v) = some r ∧ r.status = .active
  /-- The operation is the one job that is not over. -/
  operation : ∀ j, document.activeOperationJobId = some j ↔
    ∃ r, c.get (.job d j) = some r ∧ (r.state = .pending ∨ r.state = .running ∨ r.state = .retryWait)
  /-- The pending version is that of the operation, where it brings one. -/
  pending : ∀ v, document.pendingVersionId = some v ↔
    ∃ j r, document.activeOperationJobId = some j ∧ c.get (.job d j) = some r ∧
      (r.operation = .initial ∨ r.operation = .replace) ∧ r.documentVersionId = v
  /-- Nothing goes on in a document that is deleted, or is to be. -/
  closed : document.lifecycleStatus ≠ .active →
    document.activeVersionId = none ∧ document.activeOperationJobId = none ∧
      ∀ p r, c.get (.publication d p) = some r → r.status ≠ .active ∧ r.status ≠ .staged

theorem headRows_of_sound {c : Db} {d : String} (hs : (Aggregate.of d (guards.region d c)).Sound)
    (hdocument : c.get (.document d) = some document) : HeadRows c d document := by
  have hhead := hs.head
  have hpublication : ∀ p, (Aggregate.of d (guards.region d c)).publication p
      = c.get (.publication d p) := fun _ => region_of_static fun _ => rfl
  have hversion : ∀ v, (Aggregate.of d (guards.region d c)).version v = c.get (.version d v) :=
    fun _ => region_of_static fun _ => rfl
  have hjob : ∀ j, (Aggregate.of d (guards.region d c)).job j = c.get (.job d j) :=
    fun _ => region_of_static fun _ => rfl
  have hdocument' : (Aggregate.of d (guards.region d c)).document = some document :=
    (region_of_static fun _ => rfl).trans hdocument
  generalize Aggregate.of d (guards.region d c) = s at *
  obtain ⟨hlifecycle, hactiveVersion, hpendingVersion, hoperation⟩ :=
    Aggregate.head_document hdocument'
  have hactive : ∀ p r, c.get (.publication d p) = some r → r.status = .active →
      s.head.active p = some r.documentVersionId := by
    intro p r hr hstatus
    simp [Aggregate.head, hpublication, hr, hstatus]
  constructor
  case published =>
    intro p r hr hstatus
    rw [← hactiveVersion]
    exact hhead.published p _ (hactive p r hr hstatus)
  case single =>
    intro p q r r' hr hstatus hr' hstatus'
    exact hhead.single p q _ _ (hactive p r hr hstatus) (hactive q r' hr' hstatus')
  case active =>
    intro v
    rw [← hactiveVersion, hhead.active]
    simp [Aggregate.head, hversion]
  case operation =>
    intro j
    rw [← hoperation, hhead.live]
    simp only [Aggregate.head, hjob, map_eq_some_iff]
    constructor
    · rintro ⟨_, ⟨r, hr, rfl⟩, hlive⟩
      refine ⟨r, hr, ?_⟩
      cases hstate : r.state <;> simp [JobRow.head, hstate, JobState.live] at hlive ⊢
    · rintro ⟨r, hr, hstate⟩
      refine ⟨_, ⟨r, hr, rfl⟩, ?_⟩
      rcases hstate with h | h | h <;> simp [JobRow.head, h, JobState.live]
  case pending =>
    intro v
    rw [← hpendingVersion, ← hoperation, hhead.pending]
    refine exists_congr fun j => ?_
    simp only [Aggregate.head, hjob, map_eq_some_iff]
    constructor
    · rintro ⟨_, hop, ⟨r, hr, rfl⟩, hversioned, hv⟩
      refine ⟨r, hop, hr, ?_, hv⟩
      cases hop : r.operation <;> simp [JobRow.head, hop, Operation.versioned] at hversioned ⊢
    · rintro ⟨r, hop, hr, hoperation, hv⟩
      refine ⟨_, hop, ⟨r, hr, rfl⟩, ?_, hv⟩
      rcases hoperation with h | h <;> simp [JobRow.head, h, Operation.versioned]
  case closed =>
    intro hclosed
    obtain ⟨hnone, hidle⟩ := hhead.closed (by rw [hlifecycle]; exact fun h => hclosed (by simpa using h))
    refine ⟨hactiveVersion.symm.trans hnone, hoperation.symm.trans hidle, fun p r hr => ⟨fun hstatus => ?_, fun hstatus => ?_⟩⟩
    · have h := hhead.published p _ (hactive p r hr hstatus)
      rw [hnone] at h
      cases h
    · have hp : s.head.staged p = some (r.jobId, r.documentVersionId) := by
        simp [Aggregate.head, hpublication, hr, hstatus]
      obtain ⟨job, hj, hlive, -⟩ := hhead.staged p _ _ hp
      have h := (hhead.live r.jobId).mpr ⟨job, hj, hlive⟩
      rw [hidle] at h
      cases h

/-! ### Runs -/

/-- **The head of every document is consistent in every state that is reached**, and a document
whose deletion was accepted stays closed: no receipt or replay brings anything back. -/
theorem document_head_consistent {db : Db} (hdb : Fresh db) {ms : List (Move (Op env))}
    {s : System env} (h : run (body env) (Sys.init db) ms = some s) (d : String)
    (document : DocumentRow) (hdocument : s.db.get (.document d) = some document) :
    HeadRows s.db d document ∧ (document.lifecycleStatus ≠ .active →
      ∀ (ms' : List (Move (Op env))) (t : System env), run (body env) s ms' = some t →
        ∃ later, t.db.get (.document d) = some later ∧ later.lifecycleStatus ≠ .active ∧
          HeadRows t.db d later) := by
  have hpreserved : Preserves env (fun _ => True) Aggregate.Sound := Aggregate.sound_preserved
  have hok := hpreserved.run covers_all Aggregate.sound_empty hdb (allowsRun_free ms _) h
  refine ⟨headRows_of_sound (hok.inv d) hdocument, fun hclosed ms' t ht => ?_⟩
  have hrun : run (body env) (Sys.init db) (ms ++ ms') = some t := by
    rw [run_append, h]
    exact ht
  have hok' := hpreserved.run covers_all Aggregate.sound_empty hdb (allowsRun_free _ _) hrun
  have hstays : ∀ kind (u v : Aggregate), (∃ l, u.lifecycle = some l ∧ l ≠ .active) →
      u.Step env kind v → ∃ l, v.lifecycle = some l ∧ l ≠ .active := by
    rintro kind u v ⟨l, hl, hne⟩ hstep
    rcases hstep.lifecycle with hsame | ⟨hnone, -⟩ | ⟨-, hpending, -⟩
    · exact ⟨l, hsame.trans hl, hne⟩
    · simp [Aggregate.lifecycle, hnone] at hl
    · exact ⟨_, hpending, nofun⟩
  have hmade := hpreserved.made covers_all hok (allowsRun_free ms' s) ht d
  have hget : ∀ c : Db, (Aggregate.of d (guards.region d c)).document = c.get (.document d) :=
    fun _ => region_of_static fun _ => rfl
  obtain ⟨l, hl, hne⟩ := stays hstays hmade ⟨document.lifecycleStatus, by
    simp [Aggregate.lifecycle, hget, hdocument], hclosed⟩
  obtain ⟨later, hlater, rfl⟩ := Option.map_eq_some_iff.mp hl
  rw [hget] at hlater
  exact ⟨later, hlater, hne, headRows_of_sound (hok'.inv d) hlater⟩

/-! ### A few transactions -/

/-- A configuration. -/
def sampleEnv : Env where
  casefold := id
  sourceHash revision manifestId _ := manifestId ++ toString revision
  leaseTtl := 60
  versionRetention := 1000
  quotaService := true

/-- A file. -/
def sampleFile : FileInfo sampleEnv := ⟨"a.pdf", "a.pdf", "pdf", 10, "hash", by rfl⟩

/-- The upload of a file as the document `d`. -/
def sampleUpload (d : String) : UploadCall sampleEnv where
  principal := ⟨"user", "member"⟩
  spaceId := "space"
  files := [.file sampleFile ⟨d, d ++ "v", d ++ "j", d ++ "p", d ++ "i"⟩]
  key := d
  fingerprint := "f"
  batchId := "batch"
  authorized := .ok ()
  quota := .ok ()

/-- The claim of the job of that document. -/
def sampleClaim (d attemptId : String) (now : Time) : ClaimCall where
  workerId := "worker"
  picked := some (d, d ++ "j")
  newPublicationId := d ++ attemptId ++ "p"
  attemptId := attemptId
  now := now

/-- The deletion of that document. -/
def sampleDelete (d : String) : DeleteCall where
  principal := ⟨"user", "member"⟩
  systemActor := some "account"
  documentId := d
  expectedVersion := 1
  key := "k"
  fingerprint := "f"
  deletionId := d ++ "x"
  now := 5
  authorized := .ok ()
  redacted := .ok ()
  discarded _ := .ok ()
  sourceManifestId := "m"
  sourcePublished := .ok ()

theorem document_head_consistent_deleted : ∃ s document t,
    run (body sampleEnv) (Sys.init ∅) (alone 0 (.upload (sampleUpload "d")) 15 ++
      alone 0 (.delete (sampleDelete "d")) 23) = some s ∧
    run (body sampleEnv) s (alone 0 (.claim (sampleClaim "d" "a" 9)) 2) = some t ∧
    s.db.get (.document "d") = some document ∧ HeadRows s.db "d" document ∧
    ∃ later, t.db.get (.document "d") = some later ∧ later.lifecycleStatus ≠ .active ∧
      HeadRows t.db "d" later := by
  have hrun : ((run (body sampleEnv) (Sys.init ∅) (alone 0 (.upload (sampleUpload "d")) 15 ++
      alone 0 (.delete (sampleDelete "d")) 23)).bind fun s =>
        (run (body sampleEnv) s (alone 0 (.claim (sampleClaim "d" "a" 9)) 2)).bind fun _ =>
          (s.db.get (.document "d")).map fun r : DocumentRow => r.lifecycleStatus)
      = some .pendingDelete := by
    decide +kernel
  obtain ⟨s, hs, hrest⟩ := Option.bind_eq_some_iff.mp hrun
  obtain ⟨t, ht, hrest⟩ := Option.bind_eq_some_iff.mp hrest
  obtain ⟨document, hdocument, hclosed⟩ := Option.map_eq_some_iff.mp hrest
  obtain ⟨hrows, hstays⟩ := document_head_consistent fresh_empty hs "d" document hdocument
  exact ⟨s, document, t, hs, ht, hdocument, hrows, hstays (by rw [hclosed]; nofun) _ t ht⟩

end RagQs.Documents
