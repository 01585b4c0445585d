import RagQs.Documents.HeadRuns

/-!
# The dedup claims of a document

A claim keeps a name and content in a space from being uploaded twice.  It is taken by an upload,
moved by a publication and given up where the job ends otherwise; only the reclaim of an expired
lease forgets it.

## Main definitions

* `Aggregate.Matches` — the claim for a version.
* `Aggregate.Claimed` — every claim is for the active version, or for one that is being ingested.

## Main results

* `Aggregate.Step.claimed` — every step keeps the claims, unless an initial job is abandoned.
-/

namespace RagQs.Documents

open Txn Option Function

variable {env : Env}
variable {document : DocumentRow} {x : JobRow}
variable {version : VersionRow} {k : ClaimKey} {status : VersionState} {v : String}

/-- The key is the one a version of the document is claimed under. -/
def Matches (env : Env) (document : DocumentRow) (version : VersionRow) (k : ClaimKey) : Prop :=
  ∃ name, normalizeFilename env version.fileName = .ok name ∧
    k = ⟨document.spaceId, name.2, version.contentHash⟩

theorem Matches.unique {k' : ClaimKey} (h : Matches env document version k)
    (h' : Matches env document version k') : k = k' := by
  obtain ⟨name, hname, rfl⟩ := h
  obtain ⟨name', hname', rfl⟩ := h'
  rw [hname] at hname'
  cases hname'
  rfl

namespace Aggregate

variable {s t : Aggregate} {j : String} {job : JobRow}

/-- An initial job for the version is not over. -/
def Ingesting (s : Aggregate) (v : String) : Prop :=
  ∃ j job, s.job j = some job ∧ job.state.live = true ∧ job.operation = .initial ∧
    job.documentVersionId = v

/-- The claims of the document agree with its versions and jobs. -/
structure Claimed (env : Env) (s : Aggregate) : Prop where
  /-- A claim is for the active version, or for one that is being ingested. -/
  owned : ∀ k v, s.claim k = some v → ∃ document version, s.document = some document ∧
    s.version v = some version ∧ Matches env document version k ∧
    (document.activeVersionId = some v ∨ s.Ingesting v)
  held : ∀ document v, s.document = some document → document.activeVersionId = some v →
    ∃ k, s.claim k = some v
  /-- A document with an active version has no initial job that is not over. -/
  first : ∀ j job, s.job j = some job → job.operation = .initial →
    job.baseActiveVersionId = none ∧
    (job.state.live = true → ∀ document, s.document = some document →
      document.activeVersionId = none)

theorem claimed_empty : Claimed env .empty := by
  constructor <;> simp [Aggregate.empty]

theorem claimed_of_job (hs : s.Claimed env)
    (hdocument : t.document.map (fun d => (d.spaceId, d.activeVersionId))
      = s.document.map fun d => (d.spaceId, d.activeVersionId))
    (hversion : ∀ v r, s.version v = some r →
      ∃ r', t.version v = some r' ∧ r'.fileName = r.fileName ∧ r'.contentHash = r.contentHash)
    (hjob : t.job = update s.job j (some x))
    (hfirst : x.operation = .initial → x.baseActiveVersionId = none ∧
      (x.state.live = true → ∀ d, s.document = some d → d.activeVersionId = none))
    (hclaim : ∀ k v, t.claim k = some v → s.claim k = some v)
    (hkept : ∀ k d v, s.claim k = some v → s.document = some d → d.activeVersionId = some v →
      t.claim k = some v)
    (hlive : ∀ old, s.job j = some old → old.state.live = true → old.operation = .initial →
      (x.state.live = true ∧ x.operation = .initial ∧
        x.documentVersionId = old.documentVersionId) ∨
      ∀ k, t.claim k ≠ some old.documentVersionId) : t.Claimed env := by
  have hback : ∀ d', t.document = some d' → ∃ d, s.document = some d ∧ d'.spaceId = d.spaceId ∧
      d'.activeVersionId = d.activeVersionId := by
    intro d' hd'
    rw [hd', map_some] at hdocument
    obtain ⟨d, hd, heq⟩ := map_eq_some_iff.mp hdocument.symm
    exact ⟨d, hd, (congrArg Prod.fst heq).symm, (congrArg Prod.snd heq).symm⟩
  constructor
  case owned =>
    intro k v hk
    obtain ⟨d, r, hd, hr, ⟨name, hname, hkey⟩, hcase⟩ := hs.owned k v (hclaim k v hk)
    obtain ⟨r', hr', hfile, hhash⟩ := hversion v r hr
    rw [hd, map_some] at hdocument
    obtain ⟨d', hd', heq⟩ := map_eq_some_iff.mp hdocument
    obtain ⟨hspace, hactive⟩ := Prod.mk.injEq _ _ _ _ ▸ heq
    refine ⟨d', r', hd', hr', ⟨name, by rw [hfile]; exact hname, ?_⟩, ?_⟩
    · rw [hkey, hspace, hhash]
    · rw [hactive]
      refine hcase.imp id ?_
      rintro ⟨i, old, hi, holdlive, hinitial, hv⟩
      by_cases heq : i = j
      · subst heq
        rcases hlive old hi holdlive hinitial with ⟨hxlive, hxinitial, hxversion⟩ | hnone
        · exact ⟨i, x, by rw [hjob, update_self], hxlive, hxinitial, hxversion.trans hv⟩
        · exact absurd (by rw [hv]; exact hk) (hnone k)
      · exact ⟨i, old, by rw [hjob, update_of_ne heq, hi], holdlive, hinitial, hv⟩
  case held =>
    intro d' v hd' hv
    obtain ⟨d, hd, -, hactive⟩ := hback d' hd'
    rw [hactive] at hv
    obtain ⟨k, hk⟩ := hs.held d v hd hv
    exact ⟨k, hkept k d v hk hd hv⟩
  case first =>
    intro i r hr hinitial
    rw [hjob] at hr
    rcases update_eq_some.mp hr with ⟨-, rfl⟩ | ⟨-, hr⟩
    · refine ⟨(hfirst hinitial).1, fun hxlive d' hd' => ?_⟩
      obtain ⟨d, hd, -, hactive⟩ := hback d' hd'
      rw [hactive]
      exact (hfirst hinitial).2 hxlive d hd
    · refine ⟨(hs.first i r hr hinitial).1, fun hrlive d' hd' => ?_⟩
      obtain ⟨d, hd, -, hactive⟩ := hback d' hd'
      rw [hactive]
      exact (hs.first i r hr hinitial).2 hrlive d hd

theorem version_close {g : Option String} {now : Time} {r : VersionRow} (h : s.version v = some r) :
    ∃ r', (s.close env document job status g now).version v = some r' ∧
      r'.fileName = r.fileName ∧ r'.contentHash = r.contentHash := by
  unfold close
  split
  · refine ⟨_, mapAt_eq_some.mpr ⟨r, h, rfl⟩, ?_, ?_⟩ <;> split <;> rfl
  · exact ⟨r, h, rfl, rfl⟩

theorem version_reopen {r : VersionRow} (h : s.version v = some r) :
    ∃ r', (s.reopen job).version v = some r' ∧ r'.fileName = r.fileName ∧
      r'.contentHash = r.contentHash := by
  unfold reopen
  split
  · refine ⟨_, mapAt_eq_some.mpr ⟨r, h, rfl⟩, ?_, ?_⟩ <;> split <;> rfl
  · exact ⟨r, h, rfl, rfl⟩

theorem document_close {g : Option String} {now : Time} :
    (s.close env document job status g now).document.map
      (fun d => (d.spaceId, d.activeVersionId))
      = s.document.map fun d => (d.spaceId, d.activeVersionId) := by
  unfold close
  split <;> simp only [release, retireVersion, map_map] <;>
    refine congrArg (fun f => s.document.map f) (funext fun d => ?_) <;>
    simp only [comp_apply] <;> split <;> rfl

theorem not_active_of_live (hc : s.head.Consistent) (hjob : s.job j = some job)
    (hlive : job.state.live = true) (hversioned : job.operation.versioned = true) {d : DocumentRow}
    (hd : s.document = some d) : d.activeVersionId ≠ some job.documentVersionId := by
  intro hv
  refine hc.inactive j _ (head_job hjob) hversioned ?_
    ((hc.active _).mp ((head_document hd).2.1.trans hv))
  cases hstate : job.state <;> simp [JobRow.head, hstate, JobState.live] at hlive ⊢

theorem claim_disclaim_active (hc : s.head.Consistent) (hjob : s.job j = some job)
    (hlive : job.state.live = true) {d : DocumentRow} (hd : s.document = some d)
    (hv : d.activeVersionId = some v) (hk : t.claim k = some v) :
    (t.disclaim job).claim k = some v := by
  unfold disclaim
  split
  · next hversioned =>
    have hne : v ≠ job.documentVersionId := fun heq =>
      not_active_of_live hc hjob hlive hversioned hd (by rw [← heq]; exact hv)
    show dropWhere t.claim (fun _ w => (some job.documentVersionId).all fun x => w = x) k = some v
    rw [dropWhere_eq_some]
    exact ⟨hk, by simpa using hne⟩
  · exact hk

theorem claim_disclaim_ne (hversioned : job.operation.versioned = true) :
    (t.disclaim job).claim k ≠ some job.documentVersionId := by
  unfold disclaim
  rw [if_pos hversioned]
  intro hk
  exact (claim_of_dropClaims hk).2 (decide_eq_true rfl)

theorem claimed_of_wait (hs : s.Claimed env) (hj : s.job j = some job)
    (hjob : t.job = update s.job j (some x)) (hlive : job.state.live = true)
    (hx : x.state.live = true)
    (hsame : x.operation = job.operation ∧ x.documentVersionId = job.documentVersionId ∧
      x.baseActiveVersionId = job.baseActiveVersionId) (hdocument : t.document = s.document)
    (hversion : t.version = s.version) (hclaim : t.claim = s.claim) : t.Claimed env := by
  refine claimed_of_job hs (by rw [hdocument]) (fun v r hr => ⟨r, by rw [hversion, hr], rfl, rfl⟩)
    hjob (fun hinitial => ?_) (fun k v hk => by rw [← hclaim]; exact hk)
    (fun k d v hk _ _ => by rw [hclaim]; exact hk) fun old hold _ hinitial => .inl ?_
  · rw [hsame.1] at hinitial
    obtain ⟨hbase, hnone⟩ := hs.first j job hj hinitial
    exact ⟨hsame.2.2.trans hbase, fun _ => hnone hlive⟩
  · cases hold.symm.trans hj
    exact ⟨hx, hsame.1.trans hinitial, hsame.2.1⟩

theorem claimed_of_over (hs : s.Claimed env) (hj : s.job j = some job)
    (hjob : t.job = update s.job j (some x)) (hx : x.state.live = false)
    (hsame : x.operation = job.operation ∧ x.baseActiveVersionId = job.baseActiveVersionId)
    (hdocument : t.document.map (fun d => (d.spaceId, d.activeVersionId))
      = s.document.map fun d => (d.spaceId, d.activeVersionId))
    (hversion : ∀ v r, s.version v = some r →
      ∃ r', t.version v = some r' ∧ r'.fileName = r.fileName ∧ r'.contentHash = r.contentHash)
    (hclaim : ∀ k v, t.claim k = some v → s.claim k = some v)
    (hkept : ∀ k d v, s.claim k = some v → s.document = some d → d.activeVersionId = some v →
      t.claim k = some v)
    (hgone : job.operation = .initial → ∀ k, t.claim k ≠ some job.documentVersionId) :
    t.Claimed env := by
  refine claimed_of_job hs hdocument hversion hjob (fun hinitial => ?_) hclaim hkept
    fun old hold _ hinitial => .inr ?_
  · rw [hsame.1] at hinitial
    refine ⟨hsame.2.trans (hs.first j job hj hinitial).1, fun hlive => ?_⟩
    rw [hx] at hlive
    cases hlive
  · cases hold.symm.trans hj
    exact hgone hinitial

theorem claimed_of_publish {name : String × String} {c : ReceiptCall} (hc : s.head.Consistent)
    (hs : s.Claimed env) (hd : s.document = some document) (hj : s.job j = some job)
    (hv : s.version job.documentVersionId = some version) (hjob : t.job = update s.job j (some x))
    (hx : x.state.live = false)
    (hsame : x.operation = job.operation ∧ x.baseActiveVersionId = job.baseActiveVersionId)
    (hlive : job.state.live = true) (hname : normalizeFilename env version.fileName = .ok name)
    (hdocument : t.document = (s.activate env c document job version name).document)
    (hversion : t.version = (s.activate env c document job version name).version)
    (hclaim : t.claim = (s.activate env c document job version name).claim) : t.Claimed env := by
  have hactivated : ∀ d, t.document = some d →
      d.spaceId = document.spaceId ∧ d.activeVersionId = some job.documentVersionId := by
    intro d h
    rw [hdocument] at h
    obtain ⟨old, hold, rfl⟩ := map_eq_some_iff.mp h
    cases hd.symm.trans hold
    exact ⟨rfl, rfl⟩
  constructor
  case owned =>
    intro k v hk
    rw [hclaim] at hk
    obtain ⟨rfl, rfl⟩ : k = ⟨document.spaceId, name.2, version.contentHash⟩ ∧
        job.documentVersionId = v := by
      simpa [activate] using hk
    obtain ⟨d, h⟩ : ∃ d, t.document = some d := by
      rw [hdocument]
      simp [activate, hd]
    obtain ⟨hspace, hactive⟩ := hactivated d h
    refine ⟨d, { version with status := .active, activatedAt := some c.now }, h, ?_,
      ⟨name, hname, by rw [hspace]⟩, .inl hactive⟩
    rw [hversion]
    simp only [activate, mapWhere_eq_some]
    exact ⟨_, mapAt_self hv, by simp⟩
  case held =>
    intro d v h hactive
    refine ⟨⟨document.spaceId, name.2, version.contentHash⟩, ?_⟩
    rw [hclaim, ← hactive, (hactivated d h).2]
    simp [activate]
  case first =>
    intro i r hr hinitial
    rw [hjob] at hr
    rcases update_eq_some.mp hr with ⟨-, rfl⟩ | ⟨hne, hr⟩
    · rw [hsame.1] at hinitial
      refine ⟨hsame.2.trans (hs.first j job hj hinitial).1, fun h => ?_⟩
      rw [hx] at h
      cases h
    · -- The operation of a document is one job, which is over now.
      exact ⟨(hs.first i r hr hinitial).1, fun h =>
        absurd (hc.live_unique (head_job hj) hlive (head_job hr) h) hne⟩

/-- **A step keeps the claims**, unless it abandons an initial job. -/
theorem Step.claimed {kind : StepKind} (hc : s.head.Consistent) (hroot : s.Rooted)
    (hs : s.Claimed env) (h : s.Step env kind t) (hkind : kind ≠ .abandon) : t.Claimed env := by
  have hsame : ∀ v r, s.version v = some r →
      ∃ r', s.version v = some r' ∧ r'.fileName = r.fileName ∧ r'.contentHash = r.contentHash :=
    fun _ r hr => ⟨r, hr, rfl, rfl⟩
  have hdocuments : ∀ f : DocumentRow → DocumentRow,
      (∀ d, (f d).spaceId = d.spaceId ∧ (f d).activeVersionId = d.activeVersionId) →
      (s.document.map f).map (fun d => (d.spaceId, d.activeVersionId))
        = s.document.map fun d => (d.spaceId, d.activeVersionId) := by
    intro f hf
    rw [map_map]
    refine congrArg (fun g => s.document.map g) (funext fun d => ?_)
    rw [comp_apply, (hf d).1, (hf d).2]
  have hfirst : ∀ {i r}, s.job i = some r → r.operation = .initial →
      r.baseActiveVersionId = none := fun hr hinitial => (hs.first _ _ hr hinitial).1
  cases h with
  | create a info new generationId h =>
    have habsent := (hc.absent (by simp [head, h])).1
    have hnone : ∀ i, s.job i = none := fun i => by simpa [head] using habsent i
    have hunclaimed : ∀ k v, s.claim k ≠ some v := by
      intro k v hk
      have hactive := hroot k v hk
      simp [Aggregate.lifecycle, h] at hactive
    constructor
    case owned =>
      intro k v hk
      rcases update_eq_some.mp hk with ⟨rfl, rfl⟩ | ⟨-, hk⟩
      · refine ⟨_, _, rfl, update_self _ _ _, ⟨_, info.named, rfl⟩, .inr ?_⟩
        exact ⟨new.jobId, _, update_self _ _ _, rfl, rfl, rfl⟩
      · exact absurd hk (hunclaimed k v)
    case held =>
      intro d v hd hv
      rw [← some.inj hd] at hv
      cases hv
    case first =>
      intro i r hr hinitial
      rcases update_eq_some.mp hr with ⟨-, rfl⟩ | ⟨-, hr⟩
      · refine ⟨rfl, fun _ d hd => ?_⟩
        rw [← some.inj hd]
      · rw [hnone] at hr
        cases hr
  | replace a generationId h hactive hidle hversion hjob hpublication hpending =>
    refine claimed_of_job (j := a.new.jobId) hs (hdocuments _ fun _ => ⟨rfl, rfl⟩)
      (fun v r hr => ⟨r, ?_, rfl, rfl⟩) rfl (by intro h; cases h) (fun _ _ hk => hk) (fun _ _ _ hk _ _ => hk)
      fun old hold => ?_
    · refine (update_of_ne ?_ _ _).trans hr
      rintro rfl
      rw [hversion] at hr
      cases hr
    · rw [hjob] at hold
      cases hold
  | reindex a generationId h hactive hidle hversion hjob hpublication =>
    refine claimed_of_job (j := a.new.jobId) hs (hdocuments _ fun _ => ⟨rfl, rfl⟩) hsame rfl (by intro h; cases h)
      (fun _ _ hk => hk) (fun _ _ _ hk _ _ => hk) fun old hold => ?_
    rw [hjob] at hold
    cases hold
  | claim h hwaits hnew hstaging hnumber hfence hcycle hattempt =>
    refine claimed_of_wait hs h recordItem_job ?_ ?_ ⟨rfl, rfl, rfl⟩ recordItem_document
      recordItem_version recordItem_claim
    · rcases hwaits with hstate | hstate <;> rw [hstate] <;> rfl
    · rfl
  | expire reason next h hcount hn =>
    refine claimed_of_wait hs h.ofJob (recordItem_job.trans (mapAt_eq_update h.ofJob))
      (by rw [h.running]; rfl) ?_ ⟨rfl, rfl, rfl⟩ recordItem_document recordItem_version
      recordItem_claim
    rfl
  | deadLetter reason now h hruns hcount hn =>
    rename_i document job attempt j a n
    refine claimed_of_over hs hruns.ofJob
      ((recordItem_job.trans close_job).trans (mapAt_eq_update hruns.ofJob)) ?_ ⟨rfl, rfl⟩ ?_
      (fun v r hr => ?_) (fun k v hk => ?_)
      (fun k d v hk _ _ => ?_) fun hinitial => absurd (if_pos hinitial) hkind
    · rfl
    · rw [recordItem_document, document_close]
      rfl
    · rw [recordItem_version]
      exact version_close hr
    · simpa using hk
    · simpa using hk
  | retry reason next h hcount hn =>
    refine claimed_of_wait hs h.ofJob (recordItem_job.trans (mapAt_eq_update h.ofJob))
      (by rw [h.running]; rfl) ?_ ⟨rfl, rfl, rfl⟩ recordItem_document recordItem_version
      recordItem_claim
    rfl
  | fail reason now h hruns hnext =>
    rename_i document job attempt j a next
    have hlive : job.state.live = true := by
      rw [hruns.running]
      rfl
    refine claimed_of_over hs hruns.ofJob
      (((recordItem_job.trans disclaim_job).trans close_job).trans (mapAt_eq_update hruns.ofJob))
      ?_ ⟨rfl, rfl⟩ ?_ (fun v r hr => ?_)
      (fun k v hk => ?_) (fun k d v hk hd hv => ?_) fun hinitial k => ?_
    · rcases hnext with rfl | rfl <;> rfl
    · rw [recordItem_document, disclaim_document, document_close]
      rfl
    · rw [recordItem_version, disclaim_version]
      exact version_close hr
    · rw [recordItem_claim] at hk
      simpa using claim_of_disclaim hk
    · rw [recordItem_claim]
      exact claim_disclaim_active hc hruns.ofJob hlive hd hv (by simpa using hk)
    · rw [recordItem_claim]
      exact claim_disclaim_ne (by rw [hinitial]; rfl)
  | cancel now h hjob hlive hfence =>
    rename_i document job j lastFence
    refine claimed_of_over hs hjob
      (((recordItem_job.trans disclaim_job).trans close_job).trans (mapAt_eq_update hjob))
      ?_ ⟨rfl, rfl⟩ ?_ (fun v r hr => ?_)
      (fun k v hk => ?_) (fun k d v hk hd hv => ?_) fun hinitial k => ?_
    · rfl
    · rw [recordItem_document, disclaim_document, document_close]
      rfl
    · rw [recordItem_version, disclaim_version]
      exact version_close hr
    · rw [recordItem_claim] at hk
      simpa using claim_of_disclaim hk
    · rw [recordItem_claim]
      exact claim_disclaim_active hc hjob hlive hd hv (by simpa using hk)
    · rw [recordItem_claim]
      exact claim_disclaim_ne (by rw [hinitial]; rfl)
  | replay a generationId h hactive hidle hbase hjob hover hversion hpurged hpublication =>
    rename_i document job version
    have hdead : job.state.live = false := by
      cases hs : job.state <;> simp [hs, JobState.replayable, JobState.live] at hover ⊢
    refine claimed_of_job (j := a.jobId) hs ?_ (fun v r hr => ?_)
      ((recordItem_job.trans (congrArg (mapAt · _ _) reopen_job)).trans (mapAt_eq_update hjob))
      (fun hinitial => ?_) (fun k v hk => ?_) (fun k d v hk _ _ => ?_) fun old hold hlive => ?_
    · rw [recordItem_document, reopen_document]
      exact hdocuments _ fun _ => ⟨rfl, rfl⟩
    · rw [recordItem_version]
      exact version_reopen hr
    · have hnone := hfirst hjob hinitial
      refine ⟨hnone, fun _ d hd => ?_⟩
      rw [some.inj (hd.symm.trans h), hbase, hnone]
    · rw [recordItem_claim] at hk
      exact hk.symm ▸ congrFun reopen_claim k ▸ rfl
    · rw [recordItem_claim]
      exact (congrFun reopen_claim k).trans hk
    · rw [some.inj (hold.symm.trans hjob), hdead] at hlive
      cases hlive
  | publish c h hactive hruns hoperation hbase hversion hname hreceipt hpublication hstaged
      hsettled =>
    rename_i document job attempt version publication name a charge debit
    have hlive : job.state.live = true := by
      rw [hruns.running]
      rfl
    cases hversioned : job.operation.versioned with
    | false =>
      refine claimed_of_over hs hruns.ofJob (recordItem_job.trans (mapAt_eq_update hruns.ofJob)) ?_
        ⟨rfl, rfl⟩ ?_ (fun v r hr => ?_) (fun k v hk => ?_) (fun k d v hk _ _ => ?_)
        fun hinitial => ?_
      · rfl
      · rw [recordItem_document]
        exact hdocuments _ fun _ => ⟨rfl, rfl⟩
      · rw [recordItem_version]
        exact hsame v r hr
      · rw [recordItem_claim] at hk
        exact hk
      · rw [recordItem_claim]
        exact hk
      · rw [hinitial] at hversioned
        cases hversioned
    | true =>
      refine claimed_of_publish hc hs h hruns.ofJob hversion
        (recordItem_job.trans (mapAt_eq_update hruns.ofJob)) ?_ ⟨rfl, rfl⟩ hlive (hname hversioned)
        recordItem_document
        recordItem_version
        recordItem_claim
      rfl
  | delete a staged h hactive =>
    constructor
    case owned =>
      intro k v hk
      exact absurd rfl (claim_of_dropClaims hk).2
    case held =>
      intro d v hd hv
      obtain ⟨old, -, rfl⟩ := map_eq_some_iff.mp hd
      cases hv
    case first =>
      intro i r hr hinitial
      have hr : mapWhere s.job (fun _ r => r.state.live) (fun r => { r with state := .cancelled }) i
          = some r := hr
      obtain ⟨old, hold, rfl⟩ := mapWhere_eq_some.mp hr
      have hfalse : (if old.state.live then { old with state := .cancelled } else old : JobRow).state.live
          = false := by
        split
        · rfl
        · exact Bool.eq_false_iff.mpr ‹_›
      refine ⟨?_, fun hlive => absurd (hfalse.symm.trans hlive) (by simp)⟩
      have hbase := hfirst hold
      split at hinitial
      · next hlive =>
        rw [if_pos hlive]
        exact hbase hinitial
      · next hlive =>
        rw [if_neg hlive]
        exact hbase hinitial

end Aggregate
end RagQs.Documents
