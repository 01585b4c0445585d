import RagQs.Documents.Charge
import RagQs.Documents.Fence
import RagQs.Documents.HeadRuns
import RagQs.Documents.WorkProof

/-!
# The attempts of a job, in every run

However workers, clocks, cancellations and replays interleave, the attempts of every job stay in
order, a job succeeds with its publication and the outcome of its quota, and a worker whose attempt
was superseded changes nothing.

## Main definitions

* `Aggregate.InOrder` — what is known of every document and its jobs.
* `JobRows` — what holds of a job, its attempts, its publication and its debit.

## Main results

* `job_attempts_in_order` — the attempts of every job, in every run.
-/

namespace RagQs.Documents

open Txn Txn.Guards

variable {env : Env}

namespace Aggregate

/-- What is known of every document and its jobs. -/
structure InOrder (env : Env) (s : Aggregate) : Prop where
  sound : s.Sound
  orderly : ∀ j, (s.work j).Orderly
  charged : s.Charged env

theorem inOrder_empty : InOrder env .empty where
  sound := sound_empty
  orderly j := by
    have hzero : ∀ g n, (Aggregate.empty.work j).Cycle g n → n = 0 := fun g n h =>
      Tally.unique h (Tally.zero nofun)
    constructor
    case cycles => exact fun g n h => by rw [hzero g n h]; exact Nat.zero_le _
    case numbered => exact ⟨0, fun m => ⟨fun h => absurd h.1 (by omega), nofun⟩⟩
    all_goals simp [work, Aggregate.empty]
  charged := by constructor <;> simp [Aggregate.empty]

theorem inOrder_preserved {kinds : StepKind → Prop} : Preserves env kinds (InOrder env) where
  step kind s t hkind hs h :=
    ⟨(@sound_preserved env kinds).step kind s t hkind hs.sound h,
      h.orderly hs.sound.head hs.orderly, h.charged hs.sound.head hs.charged⟩
  claiming s hs := (@sound_preserved env kinds).claiming s hs.sound

end Aggregate

/-! ### The rows of a job -/

/-- What holds of a job, its attempts, its publication and its debit. -/
structure JobRows (env : Env) (c : Db) (d j : String) : Prop where
  /-- One attempt runs at most. -/
  running : ∀ a b r r', c.get (.attempt d j a) = some r → r.state = .running →
    c.get (.attempt d j b) = some r' → r'.state = .running → a = b
  /-- The attempts are numbered from one on, without gaps. -/
  numbered : ∃ n, ∀ m, (0 < m ∧ m ≤ n) ↔
    ∃ a r, c.get (.attempt d j a) = some r ∧ r.attemptNumber = m
  distinct : ∀ a b r r', c.get (.attempt d j a) = some r → c.get (.attempt d j b) = some r' →
    r.attemptNumber = r'.attemptNumber → a = b
  /-- The fences of successive attempts increase. -/
  fences : ∀ a b r r', c.get (.attempt d j a) = some r → c.get (.attempt d j b) = some r' →
    r.attemptNumber < r'.attemptNumber → r.fencingToken < r'.fencingToken
  /-- A replay cycle has four attempts at most. -/
  cycles : ∀ generation, attemptCount c d j generation ≤ 4
  /-- The delay of a retry can be looked up, and not at the index -1. -/
  delay : ∀ job, c.get (.job d j) = some job → job.state = .running →
    0 < attemptCount c d j job.replayGeneration ∧ ∀ retryable jitter, ∃ o,
      retryIn (retryable && attemptCount c d j job.replayGeneration < 4)
        (attemptCount c d j job.replayGeneration) jitter = pure o
  /-- A job succeeds with its publication and the outcome of its quota: a debit or an exemption, or
  neither where there is no quota service. -/
  succeeded : ∀ job, c.get (.job d j) = some job → (job.state = .succeeded ↔
    (∃ r, c.get (.publication d job.activePublicationId) = some r ∧ r.jobId = j ∧
      r.activatedAt.isSome = true) ∧
    if env.quotaService then
      Xor (∃ r, c.get (.debit d j) = some r) (job.quotaChargeStatus = .exempt)
    else c.get (.debit d j) = none ∧ job.quotaChargeStatus = .notApplicable)

theorem retryIn_total (retryable : Bool) (count jitter : ℕ) :
    ∃ o, retryIn (retryable && count < 4) count jitter = pure o := by
  unfold retryIn
  split
  · next hretry =>
    have hcount : count < 4 := of_decide_eq_true (Bool.and_eq_true_iff.mp hretry).2
    obtain ⟨minutes, hminutes⟩ : ∃ minutes, retryMinutes count = .ok minutes := by
      match count, hcount with
      | 0, _ => exact ⟨_, rfl⟩
      | 1, _ => exact ⟨_, rfl⟩
      | 2, _ => exact ⟨_, rfl⟩
      | 3, _ => exact ⟨_, rfl⟩
    refine ⟨some (minutes * 60 * (80 + jitter) * 10000), ?_⟩
    have hdelay : retryDelay count jitter = .ok (minutes * 60 * (80 + jitter) * 10000) := by
      unfold retryDelay
      rw [hminutes]
      rfl
    rw [hdelay]
    unfold check
    rfl
  · exact ⟨none, rfl⟩

theorem jobRows_of_inOrder {c : Db} {d : String}
    (hs : (Aggregate.of d (guards.region d c)).InOrder env) (j : String) : JobRows env c d j := by
  have hpublication : ∀ p, (Aggregate.of d (guards.region d c)).publication p
      = c.get (.publication d p) := fun _ => region_of_static fun _ => rfl
  have hjob : (Aggregate.of d (guards.region d c)).job j = c.get (.job d j) :=
    region_of_static fun _ => rfl
  have hattempt : ∀ a, (Aggregate.of d (guards.region d c)).attempt j a = c.get (.attempt d j a) :=
    fun _ => region_of_static fun _ => rfl
  have hdebit : (Aggregate.of d (guards.region d c)).debit j = c.get (.debit d j) :=
    region_of_static fun _ => rfl
  have hcount : ∀ generation, ((Aggregate.of d (guards.region d c)).work j).Cycle generation
      (attemptCount c d j generation) :=
    fun generation => Aggregate.cycle_work (cycle_attemptCount rfl generation)
  obtain ⟨-, horderly, hcharged⟩ := hs
  replace horderly := horderly j
  generalize Aggregate.of d (guards.region d c) = s at *
  have hturn : ∀ a r, c.get (.attempt d j a) = some r → (s.work j).attempt a = some r.turn := by
    intro a r hr
    simp [Aggregate.work, hattempt, hr]
  have hback : ∀ a t, (s.work j).attempt a = some t →
      ∃ r, c.get (.attempt d j a) = some r ∧ r.turn = t := by
    intro a t ht
    rw [← hattempt]
    exact Option.map_eq_some_iff.mp ht
  constructor
  case running =>
    intro a b r r' hr hrun hr' hrun'
    obtain ⟨x, hx, -, ha⟩ := horderly.running a _ (hturn a r hr) (decide_eq_true hrun)
    obtain ⟨y, hy, -, hb⟩ := horderly.running b _ (hturn b r' hr') (decide_eq_true hrun')
    cases hx.symm.trans hy
    exact Option.some.inj (ha.symm.trans hb)
  case numbered =>
    obtain ⟨n, hn⟩ := horderly.numbered
    refine ⟨n, fun m => (hn m).trans ⟨?_, ?_⟩⟩
    · rintro ⟨a, t, ht, hm⟩
      obtain ⟨r, hr, rfl⟩ := hback a t ht
      exact ⟨a, r, hr, hm⟩
    · rintro ⟨a, r, hr, hm⟩
      exact ⟨a, r.turn, hturn a r hr, hm⟩
  case distinct =>
    intro a b r r' hr hr' h
    exact horderly.distinct a b _ _ (hturn a r hr) (hturn b r' hr') h
  case fences =>
    intro a b r r' hr hr' h
    exact horderly.fences a b _ _ (hturn a r hr) (hturn b r' hr') h
  case cycles => exact fun generation => horderly.cycles _ _ (hcount generation)
  case delay =>
    intro job hj hrun
    refine ⟨?_, fun retryable jitter => retryIn_total retryable _ jitter⟩
    have hwork : (s.work j).job = some job.work := by simp [Aggregate.work, hjob, hj]
    obtain ⟨-, a, t, -, ht, hgeneration, -⟩ := horderly.latest _ hwork (decide_eq_true hrun)
    exact Tally.pos (hcount job.replayGeneration) ht (decide_eq_true hgeneration)
  case succeeded =>
    intro job hj
    rw [← hpublication, ← hdebit]
    rw [← hjob] at hj
    constructor
    · intro hstate
      obtain ⟨houtcome, hactivated⟩ := hcharged.succeeded j job hj hstate
      refine ⟨hactivated, ?_⟩
      generalize job.quotaChargeStatus = status at houtcome
      generalize s.debit j = debit at houtcome
      cases houtcome with
      | charged row h => simp [h, Xor]
      | exempt h => simp [h, Xor]
      | notApplicable h => simp [h]
    · rintro ⟨⟨r, hr, hjobId, hat⟩, -⟩
      obtain ⟨owner, howner, hstate, -⟩ := hcharged.activated _ r hr hat
      rw [hjobId] at howner
      rw [Option.some.inj (hj.symm.trans howner)]
      exact hstate

/-! ### Runs -/

/-- **The attempts of every job are in order in every state that is reached**, and what a worker
commits changes a row only where its attempt is current. -/
theorem job_attempts_in_order {db : Db} (hdb : Fresh db) {ms : List (Move (Op env))}
    {s : System env} (h : run (body env) (Sys.init db) ms = some s) :
    (∀ d j, JobRows env s.db d j) ∧
      ∀ i x t, s.sessions i = some x → step (body env) s (.advance i) = some t →
        (∃ k, t.db.get k ≠ s.db.get k) → x.op.Current s.db := by
  have hpreserved : Preserves env (fun _ => True) (Aggregate.InOrder env) :=
    Aggregate.inOrder_preserved
  have hok := hpreserved.run covers_all Aggregate.inOrder_empty hdb (allowsRun_free ms _) h
  refine ⟨fun d j => jobRows_of_inOrder (hok.inv d) j, fun i x t hx ht hchanged => ?_⟩
  obtain ⟨k, hk⟩ := hchanged
  exact fenced_run h hx ht hk

/-! ### A job that runs -/

/-- Without a quota service. -/
def unmeteredEnv : Env := { sampleEnv with quotaService := false }

/-- The upload of a file without a quota service. -/
def unmeteredUpload : UploadCall unmeteredEnv where
  principal := ⟨"user", "member"⟩
  spaceId := "space"
  files := [.file ⟨"a.pdf", "a.pdf", "pdf", 10, "hash", by rfl⟩ ⟨"d", "v", "j", "p", "i"⟩]
  key := "k"
  fingerprint := "f"
  batchId := "batch"
  authorized := .ok ()
  quota := .ok ()

/-- The claim of its job. -/
def unmeteredClaim : ClaimCall where
  workerId := "worker"
  picked := some ("d", "j")
  newPublicationId := "q"
  attemptId := "a"
  now := 1

/-- The receipt of its attempt. -/
def unmeteredReceipt : ReceiptCall where
  documentId := "d"
  jobId := "j"
  receipt :=
    { jobId := "j", attemptId := "a", fencingToken := 1, documentId := "d",
      documentVersionId := "v", publicationId := "p", generationId := "generation_initial",
      inputContentHash := none, contentManifestId := "m", contentManifestHash := "h",
      processingListId := none, pages := 3, chunkCount := none, stageResources := [] }
  checkedAt := 2
  now := 2
  wellFormed := .ok ()
  fits := .ok ()
  authorized := .ok ()
  authorizedAgain := .ok ()
  published := .ok true
  quotaInput := .ok ()
  debitId := "x"
  notified := .ok ()
  sourceManifestId := "s"
  sourcePublished := .ok ()

theorem job_without_quota_outcome : ∃ s job,
    run (body unmeteredEnv) (Sys.init ∅) (alone 0 (.upload unmeteredUpload) 15 ++
      alone 0 (.claim unmeteredClaim) 19 ++ alone 0 (.accept unmeteredReceipt) 30) = some s ∧
    s.db.get (.job "d" "j") = some job ∧ job.state = .succeeded ∧
    s.db.get (.debit "d" "j") = none ∧ job.quotaChargeStatus ≠ .exempt := by
  have hrun : ((run (body unmeteredEnv) (Sys.init ∅) (alone 0 (.upload unmeteredUpload) 15 ++
      alone 0 (.claim unmeteredClaim) 19 ++ alone 0 (.accept unmeteredReceipt) 30)).bind fun s =>
        (s.db.get (.job "d" "j")).map fun r : JobRow =>
          (r.state, r.quotaChargeStatus, (s.db.get (.debit "d" "j")).isNone))
      = some (.succeeded, .notApplicable, true) := by
    decide +kernel
  obtain ⟨s, hs, hrest⟩ := Option.bind_eq_some_iff.mp hrun
  obtain ⟨job, hjob, hfacts⟩ := Option.map_eq_some_iff.mp hrest
  obtain ⟨hstate, hcharge, hdebit⟩ : job.state = .succeeded ∧
      job.quotaChargeStatus = .notApplicable ∧ (s.db.get (.debit "d" "j")).isNone = true := by
    simpa using hfacts
  exact ⟨s, job, hs, hjob, hstate, Option.isNone_iff_eq_none.mp hdebit, by rw [hcharge]; simp⟩

/-- The receipt of the first attempt of a sample document. -/
def sampleReceipt : ReceiptCall :=
  { unmeteredReceipt with
    jobId := "dj"
    checkedAt := 10
    now := 10
    receipt :=
      { unmeteredReceipt.receipt with
        jobId := "dj", documentVersionId := "dv", publicationId := "dp"
        processingListId := some "l" } }

theorem job_attempts_in_order_published : ∃ s : System sampleEnv,
    run (body sampleEnv) (Sys.init ∅) (alone 0 (.upload (sampleUpload "d")) 15 ++
      alone 0 (.claim (sampleClaim "d" "a" 9)) 19 ++ alone 0 (.accept sampleReceipt) 32) = some s ∧
    (∀ d j, JobRows sampleEnv s.db d j) ∧
    ∃ job, s.db.get (.job "d" "dj") = some job ∧ job.state = .succeeded := by
  have hrun : ((run (body sampleEnv) (Sys.init ∅) (alone 0 (.upload (sampleUpload "d")) 15 ++
      alone 0 (.claim (sampleClaim "d" "a" 9)) 19 ++ alone 0 (.accept sampleReceipt) 32)).bind
        fun s => (s.db.get (.job "d" "dj")).map fun r : JobRow => r.state) = some .succeeded := by
    decide +kernel
  obtain ⟨s, hs, hrest⟩ := Option.bind_eq_some_iff.mp hrun
  obtain ⟨job, hjob, hstate⟩ := Option.map_eq_some_iff.mp hrest
  exact ⟨s, hs, (job_attempts_in_order fresh_empty hs).1, job, hjob, hstate⟩

end RagQs.Documents
