import RagQs.Documents.Claims
import RagQs.Documents.WorkRuns

/-!
# Dedup claims, in every run

Every dedup claim belongs to a document that is published or still being ingested, in every run
that abandons no initial job: where the lease of an initial job's last attempt expires, the reclaim
gives the job up and forgets its claim.

## Main definitions

* `ClaimRows` — what the claims say of the documents.

## Main results

* `claims_live` — the claims, in every run without an abandoned initial job.
* `claim_of_abandoned` — a claim that stays behind.
-/

namespace RagQs.Documents

open Txn Txn.Guards Option

variable {env : Env}

namespace Aggregate

/-- What is known of every document whose initial job is never abandoned. -/
structure Kept (env : Env) (s : Aggregate) : Prop where
  sound : s.Sound
  claimed : s.Claimed env

theorem kept_preserved : Preserves env (· ≠ .abandon) (Kept env) where
  step kind s t hkind hs h :=
    ⟨(@sound_preserved env (· ≠ .abandon)).step kind s t hkind hs.sound h,
      h.claimed hs.sound.head hs.sound.rooted hs.claimed hkind⟩
  claiming s hs := (@sound_preserved env (· ≠ .abandon)).claiming s hs.sound

end Aggregate

/-! ### The rows of the claims -/

/-- The name and content the version is claimed for. -/
structure ClaimedAs (env : Env) (document : DocumentRow) (version : VersionRow)
    (spaceId normalizedFilename contentHash : String) : Prop where
  space : document.spaceId = spaceId
  name : ∃ name, normalizeFilename env version.fileName = .ok name ∧ name.2 = normalizedFilename
  hash : version.contentHash = contentHash

/-- What the claims say of the documents. -/
structure ClaimRows (env : Env) (c : Db) : Prop where
  /-- A claim, and so the document an upload is told it duplicates, is that of an active document
  which is published with the claimed version or still ingests it. -/
  live : ∀ space name hash claim, c.get (.claim space name hash) = some claim →
    ∃ document version, c.get (.document claim.documentId) = some document ∧
      document.lifecycleStatus = .active ∧
      c.get (.version claim.documentId claim.documentVersionId) = some version ∧
      ClaimedAs env document version space name hash ∧
      (document.activeVersionId = some claim.documentVersionId ∨
        ∃ j job, c.get (.job claim.documentId j) = some job ∧ job.operation = .initial ∧
          job.documentVersionId = claim.documentVersionId ∧
          (job.state = .pending ∨ job.state = .running ∨ job.state = .retryWait))
  /-- A document with an active version has one claim, for that version. -/
  published : ∀ d document v, c.get (.document d) = some document →
    document.activeVersionId = some v →
    ∃ space name hash version, c.get (.version d v) = some version ∧
      ClaimedAs env document version space name hash ∧
      ∀ space' name' hash' claim, (c.get (.claim space' name' hash') = some claim ∧
        claim.documentId = d) ↔ space' = space ∧ name' = name ∧ hash' = hash ∧ claim = ⟨d, v⟩
  /-- No two documents of a space with active versions share name and content. -/
  distinct : ∀ d d' document document' v v' version version' space name hash,
    c.get (.document d) = some document → document.activeVersionId = some v →
    c.get (.version d v) = some version → ClaimedAs env document version space name hash →
    c.get (.document d') = some document' → document'.activeVersionId = some v' →
    c.get (.version d' v') = some version' → ClaimedAs env document' version' space name hash →
    d = d'

theorem claimedAs_of_matches {document : DocumentRow} {version : VersionRow} {k : ClaimKey}
    (h : Matches env document version k) :
    ClaimedAs env document version k.spaceId k.normalizedFilename k.contentHash := by
  obtain ⟨name, hname, rfl⟩ := h
  exact ⟨rfl, ⟨name, hname, rfl⟩, rfl⟩

theorem claimRows_of_kept {c : Db} (hs : ∀ d, (Aggregate.of d (guards.region d c)).Kept env) :
    ClaimRows env c := by
  have hdocument : ∀ d, (Aggregate.of d (guards.region d c)).document = c.get (.document d) :=
    fun _ => region_of_static fun _ => rfl
  have hversion : ∀ d v, (Aggregate.of d (guards.region d c)).version v = c.get (.version d v) :=
    fun _ _ => region_of_static fun _ => rfl
  have hjob : ∀ d j, (Aggregate.of d (guards.region d c)).job j = c.get (.job d j) :=
    fun _ _ => region_of_static fun _ => rfl
  have hclaim : ∀ d k v, (Aggregate.of d (guards.region d c)).claim k = some v ↔
      c.get (.claim k.spaceId k.normalizedFilename k.contentHash) = some ⟨d, v⟩ := by
    intro d k v
    simp only [Aggregate.of, map_eq_some_iff, filter_eq_some_iff, region_eq_some,
      decide_eq_true_iff]
    constructor
    · rintro ⟨claim, ⟨⟨hget, -⟩, rfl⟩, rfl⟩
      exact hget
    · intro hget
      exact ⟨⟨d, v⟩, ⟨⟨hget, rfl⟩, rfl⟩, rfl⟩
  -- The claims of a document with an active version are all for that version.
  have hactive : ∀ d document v k w, c.get (.document d) = some document →
      document.activeVersionId = some v →
      (Aggregate.of d (guards.region d c)).claim k = some w → w = v ∧
        ∃ version, c.get (.version d v) = some version ∧ Matches env document version k := by
    intro d document v k w hd hv hk
    obtain ⟨d', version, hd', hversion', hmatches, hcase⟩ := (hs d).claimed.owned k w hk
    rw [hdocument, hd] at hd'
    cases hd'
    rw [hversion] at hversion'
    rcases hcase with hw | ⟨j, job, hj, hlive, hinitial, -⟩
    · cases hw.symm.trans hv
      exact ⟨rfl, version, hversion', hmatches⟩
    · have hnone := ((hs d).claimed.first j job hj hinitial).2 hlive document
        ((hdocument d).trans hd)
      rw [hnone] at hv
      cases hv
  have hpublished : ∀ d document v, c.get (.document d) = some document →
      document.activeVersionId = some v → ∃ k version, c.get (.version d v) = some version ∧
        Matches env document version k ∧
        c.get (.claim k.spaceId k.normalizedFilename k.contentHash) = some ⟨d, v⟩ := by
    intro d document v hd hv
    obtain ⟨k, hk⟩ := (hs d).claimed.held document v ((hdocument d).trans hd) hv
    obtain ⟨-, version, hget, hmatches⟩ := hactive d document v k v hd hv hk
    exact ⟨k, version, hget, hmatches, (hclaim d k v).mp hk⟩
  constructor
  case live =>
    rintro space name hash ⟨d, v⟩ hget
    have hk := (hclaim d ⟨space, name, hash⟩ v).mpr hget
    obtain ⟨document, version, hd, hv, hmatches, hcase⟩ := (hs d).claimed.owned _ v hk
    have hlifecycle := (hs d).sound.rooted _ v hk
    rw [Aggregate.lifecycle, hd, map_some] at hlifecycle
    rw [hdocument] at hd
    rw [hversion] at hv
    refine ⟨document, version, hd, some.inj hlifecycle, hv, claimedAs_of_matches hmatches,
      hcase.imp id ?_⟩
    rintro ⟨j, job, hj, hlive, hinitial, hjv⟩
    rw [hjob] at hj
    refine ⟨j, job, hj, hinitial, hjv, ?_⟩
    cases hstate : job.state <;> simp [hstate, JobState.live] at hlive ⊢
  case published =>
    intro d document v hd hv
    obtain ⟨k, version, hget, hmatches, hk⟩ := hpublished d document v hd hv
    refine ⟨k.spaceId, k.normalizedFilename, k.contentHash, version, hget,
      claimedAs_of_matches hmatches, fun space name hash claim => ⟨?_, ?_⟩⟩
    · rintro ⟨hclaim', rfl⟩
      obtain ⟨d, w⟩ := claim
      obtain ⟨rfl, version', hget', hmatches'⟩ := hactive d document v ⟨space, name, hash⟩ w hd hv
        ((hclaim d ⟨space, name, hash⟩ w).mpr hclaim')
      cases hget.symm.trans hget'
      obtain rfl := hmatches'.unique hmatches
      exact ⟨rfl, rfl, rfl, rfl⟩
    · rintro ⟨rfl, rfl, rfl, rfl⟩
      exact ⟨hk, rfl⟩
  case distinct =>
    intro d d' document document' v v' version version' space name hash hd hv hversion₁ has hd' hv'
      hversion₂ has'
    have hkey : ∀ {e : String} {row : DocumentRow} {w : String} {r : VersionRow},
        c.get (.document e) = some row → row.activeVersionId = some w →
        c.get (.version e w) = some r → ClaimedAs env row r space name hash →
        c.get (.claim space name hash) = some ⟨e, w⟩ := by
      intro e row w r hrow hw hr has
      obtain ⟨k, r', hr', hmatches, hk⟩ := hpublished e row w hrow hw
      cases hr.symm.trans hr'
      obtain ⟨name', hname', rfl⟩ := has.name
      have hsame : k = ⟨space, name'.2, hash⟩ :=
        hmatches.unique ⟨name', hname', by rw [has.space, has.hash]⟩
      rw [hsame] at hk
      exact hk
    have h := (hkey hd hv hversion₁ has).symm.trans (hkey hd' hv' hversion₂ has')
    exact congrArg ClaimRow.documentId (some.inj h)

/-! ### Runs -/

/-- **Every claim is that of a document which is published or still being ingested**, in every state
of a run in which no reclaim takes an initial job from its last attempt. -/
theorem claims_live {db : Db} (hdb : Fresh db) {ms : List (Move (Op env))} {s : System env}
    (hA : AllowsRun (fun _ => onWrites Patient) (body env) (Sys.init db) ms)
    (h : run (body env) (Sys.init db) ms = some s) : ClaimRows env s.db := by
  have hempty : Aggregate.empty.Kept env := ⟨Aggregate.sound_empty, Aggregate.claimed_empty⟩
  have hok := Aggregate.kept_preserved.run covers_patient hempty hdb hA h
  exact claimRows_of_kept hok.inv

/-! ### A job that is given up -/

/-- No attempt of an initial job is taken from it that was its last one. -/
def patient (ws : List (Write Row)) (v : Db) : Bool :=
  ws.all fun
    | ⟨.attempt d j _, some r⟩ => AttemptRow.state r ≠ .expired ||
        (v.get (.job d j) : Option JobRow).all fun job =>
          job.operation ≠ .initial || attemptCount v d j job.replayGeneration < 4
    | _ => true

theorem patient_sound (ws : List (Write Row)) (v : Db) (h : patient ws v = true) :
    Patient ws v := by
  intro d j a r hmem hstate job hjob hinitial
  have hpass := List.all_eq_true.mp h _ hmem
  simp only [hstate, hjob, hinitial, all_some] at hpass
  simpa using hpass

theorem claims_live_published : ∃ s : System sampleEnv,
    run (body sampleEnv) (Sys.init ∅) (alone 0 (.upload (sampleUpload "d")) 15 ++
      alone 0 (.claim (sampleClaim "d" "a" 9)) 19 ++ alone 0 (.accept sampleReceipt) 32) = some s ∧
    ClaimRows sampleEnv s.db ∧
    s.db.get (.claim "space" "a.pdf" "hash") = some ⟨"d", "dv"⟩ := by
  have hrun : ((run (body sampleEnv) (Sys.init ∅) (alone 0 (.upload (sampleUpload "d")) 15 ++
      alone 0 (.claim (sampleClaim "d" "a" 9)) 19 ++ alone 0 (.accept sampleReceipt) 32)).map
        fun s => s.db.get (.claim "space" "a.pdf" "hash")) = some (some ⟨"d", "dv"⟩) := by
    decide +kernel
  have hpatient : passesRun patient (body sampleEnv) (Sys.init ∅)
      (alone 0 (.upload (sampleUpload "d")) 15 ++
        alone 0 (.claim (sampleClaim "d" "a" 9)) 19 ++ alone 0 (.accept sampleReceipt) 32)
      = true := by
    decide +kernel
  obtain ⟨s, hs, hclaim⟩ := Option.map_eq_some_iff.mp hrun
  exact ⟨s, hs, claims_live fresh_empty (allowsRun_of_passesRun patient_sound _ _ hpatient) hs,
    hclaim⟩

/-- The reclaim of what has expired by then. -/
def sampleReclaim (now : Time) : Op sampleEnv :=
  .reclaim now (fun _ => 0) fun _ => .ok ()

/-- An upload whose four attempts all lose their lease. -/
def abandonedRun : List (Move (Op sampleEnv)) :=
  alone 0 (.upload (sampleUpload "d")) 15 ++
    alone 0 (.claim (sampleClaim "d" "a" 9)) 19 ++ alone 0 (sampleReclaim 100) 14 ++
    alone 0 (.claim (sampleClaim "d" "b" 1000000000000)) 22 ++
    alone 0 (sampleReclaim 2000000000000) 14 ++
    alone 0 (.claim (sampleClaim "d" "c" 3000000000000)) 22 ++
    alone 0 (sampleReclaim 4000000000000) 14 ++
    alone 0 (.claim (sampleClaim "d" "e" 5000000000000)) 22 ++
    alone 0 (sampleReclaim 6000000000000) 16

theorem claim_of_abandoned : ∃ s : System sampleEnv,
    run (body sampleEnv) (Sys.init ∅) abandonedRun = some s ∧
    s.db.get (.claim "space" "a.pdf" "hash") = some ⟨"d", "dv"⟩ ∧ ¬ ClaimRows sampleEnv s.db := by
  have hrun : ((run (body sampleEnv) (Sys.init ∅) abandonedRun).bind fun s =>
      (s.db.get (.document "d")).map fun r : DocumentRow =>
        (r.activeVersionId, r.activeOperationJobId,
          (s.db.get (.claim "space" "a.pdf" "hash") : Option ClaimRow)))
      = some (none, none, some ⟨"d", "dv"⟩) := by
    decide +kernel
  obtain ⟨s, hs, hrest⟩ := Option.bind_eq_some_iff.mp hrun
  obtain ⟨document, hdocument, hfacts⟩ := Option.map_eq_some_iff.mp hrest
  obtain ⟨hactive, hoperation, hclaim⟩ : document.activeVersionId = none ∧
      document.activeOperationJobId = none ∧
      (s.db.get (.claim "space" "a.pdf" "hash") : Option ClaimRow) = some ⟨"d", "dv"⟩ := by
    simpa using hfacts
  refine ⟨s, hs, hclaim, fun hrows => ?_⟩
  obtain ⟨document', -, hdocument', -, -, -, hcase⟩ := hrows.live _ _ _ _ hclaim
  obtain rfl := Option.some.inj (hdocument.symm.trans hdocument')
  rcases hcase with hv | ⟨j, job, hj, -, -, hlive⟩
  · rw [hactive] at hv
    cases hv
  · have hhead := (document_head_consistent fresh_empty hs "d" document hdocument).1
    have hop := (hhead.operation j).mpr ⟨job, hj, hlive⟩
    rw [hoperation] at hop
    cases hop

end RagQs.Documents
