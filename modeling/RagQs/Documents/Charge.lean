import RagQs.Documents.HeadProof

/-!
# What a job that succeeded leaves

A job succeeds with its publication: they are activated together, and the quota of the publication
is settled with them, by a debit or an exemption.

## Main definitions

* `Outcome` — how the quota of a job that succeeded was settled.
* `Aggregate.Charged` — the jobs that succeeded, their publications and their debits agree.

## Main results

* `Aggregate.Step.charged` — a step keeps them in agreement.
-/

namespace RagQs.Documents

open Txn Option Function

variable {now : Time}
variable {keep : Option String} {job' : JobRow} {r : PublicationRow}

/-- How the quota of a job that succeeded was settled: there is a debit, or the job is exempt;
where there is no quota service, neither is recorded. -/
inductive Outcome (env : Env) : ChargeStatus → Option DebitRow → Prop
  | charged (debit : DebitRow) (h : env.quotaService = true) : Outcome env .charged (some debit)
  | exempt (h : env.quotaService = true) : Outcome env .exempt none
  | notApplicable (h : env.quotaService = false) : Outcome env .notApplicable none

namespace Aggregate

/-- The jobs that succeeded, the publications that were activated, and the debits agree. -/
structure Charged (env : Env) (s : Aggregate) : Prop where
  activated : ∀ p r, s.publication p = some r → r.activatedAt.isSome = true →
    ∃ job, s.job r.jobId = some job ∧ job.state = .succeeded ∧ job.activePublicationId = p
  staged : ∀ p r, s.publication p = some r → r.status = .staged → r.activatedAt = none
  succeeded : ∀ j job, s.job j = some job → job.state = .succeeded →
    Outcome env job.quotaChargeStatus (s.debit j) ∧
    ∃ r, s.publication job.activePublicationId = some r ∧ r.jobId = j ∧ r.activatedAt.isSome = true
  debited : ∀ j debit, s.debit j = some debit → ∃ job, s.job j = some job ∧ job.state = .succeeded

/-- A step that lets no job succeed: it touches no job that succeeded, no publication that was
activated and no debit. -/
structure Spares (s t : Aggregate) : Prop where
  job : ∀ j job, s.job j = some job → job.state = .succeeded → t.job j = some job
  /-- No job succeeds. -/
  fresh : ∀ j job, t.job j = some job → job.state = .succeeded → s.job j = some job
  publication : ∀ p r, s.publication p = some r → r.activatedAt.isSome = true →
    ∃ r', t.publication p = some r' ∧ r'.jobId = r.jobId ∧ r'.activatedAt = r.activatedAt ∧
      (r'.status = .staged → r.status = .staged)
  /-- A publication that is changed or new is not activated. -/
  plain : ∀ p r', t.publication p = some r' → r'.activatedAt = none ∨
    ∃ r, s.publication p = some r ∧ r.jobId = r'.jobId ∧ r.activatedAt = r'.activatedAt ∧
      (r'.status = .staged → r.status = .staged)
  debit : t.debit = s.debit

variable {env : Env} {s t : Aggregate} {j a p : String} {job : JobRow}

theorem Spares.charged (h : Spares s t) (hs : s.Charged env) : t.Charged env := by
  constructor
  case activated =>
    intro p r' hr' hactivated
    rcases h.plain p r' hr' with hnone | ⟨r, hr, hjobId, hat, -⟩
    · rw [hnone] at hactivated
      cases hactivated
    · obtain ⟨job, hjob, hstate, hp⟩ := hs.activated p r hr (by rw [hat]; exact hactivated)
      rw [hjobId] at hjob
      exact ⟨job, h.job _ _ hjob hstate, hstate, hp⟩
  case staged =>
    intro p r' hr' hstaged
    rcases h.plain p r' hr' with hnone | ⟨r, hr, -, hat, hstatus⟩
    · exact hnone
    · rw [← hat]
      exact hs.staged p r hr (hstatus hstaged)
  case succeeded =>
    intro j job hjob hstate
    obtain ⟨houtcome, r, hr, hjobId, hat⟩ := hs.succeeded j job (h.fresh j job hjob hstate) hstate
    obtain ⟨r', hr', hjobId', hat', -⟩ := h.publication _ r hr hat
    rw [h.debit]
    exact ⟨houtcome, r', hr', hjobId'.trans hjobId, by rw [hat']; exact hat⟩
  case debited =>
    intro j debit hdebit
    rw [h.debit] at hdebit
    obtain ⟨job, hjob, hstate⟩ := hs.debited j debit hdebit
    exact ⟨job, h.job j job hjob hstate, hstate⟩

/-! ### The steps -/

theorem Spares.refl (s : Aggregate) : Spares s s :=
  ⟨fun _ _ h _ => h, fun _ _ h _ => h, fun _ r h _ => ⟨r, h, rfl, rfl, id⟩,
    fun _ r h => .inr ⟨r, h, rfl, rfl, id⟩, rfl⟩

theorem Spares.recordItem {state : ItemState} (h : Spares s t) :
    Spares s (t.recordItem j job state) := by
  obtain ⟨h₁, h₂, h₃, h₄, h₅⟩ := h
  constructor <;> simpa

theorem Spares.close {document : DocumentRow} {status : VersionState} {g : Option String}
    (h : Spares s t) : Spares s (t.close env document job status g now) := by
  obtain ⟨h₁, h₂, h₃, h₄, h₅⟩ := h
  constructor <;> simpa

theorem Spares.dropClaims {versionId : Option String} (h : Spares s t) :
    Spares s (t.dropClaims versionId) := ⟨h.job, h.fresh, h.publication, h.plain, h.debit⟩

theorem Spares.disclaim (h : Spares s t) : Spares s (t.disclaim job) := by
  unfold Aggregate.disclaim
  split
  · exact h.dropClaims
  · exact h

theorem Spares.unstage {g : Option String} (hs : s.Charged env) (h : Spares s t)
    (hp : t.publication = s.publication) : Spares s (t.unstage g) := by
  refine ⟨h.job, h.fresh, fun p r hr hat => ?_, fun p r hr => ?_, h.debit⟩
  · refine ⟨r, unstage_publication.mpr ⟨by rw [hp]; exact hr, ?_⟩, rfl, rfl, id⟩
    rintro ⟨hstaged, -⟩
    rw [hs.staged p r hr hstaged] at hat
    cases hat
  · have hr := (unstage_publication.mp hr).1
    rw [hp] at hr
    exact .inr ⟨r, hr, rfl, rfl, id⟩

theorem supersede_publication {r' : PublicationRow} :
    (s.supersede keep now).publication p = some r' ↔
      ∃ r, s.publication p = some r ∧ r' = if r.status = .active ∧ some p ≠ keep then
        { r with status := .superseded, supersededAt := some now } else r := by
  unfold supersede
  rw [mapWhere_eq_some]
  simp

theorem Spares.supersede (h : Spares s t) : Spares s (t.supersede keep now) := by
  refine ⟨h.job, h.fresh, fun p r hr hat => ?_, fun p r' hr' => ?_, h.debit⟩
  · obtain ⟨r', hr', hjobId, hat', hstatus⟩ := h.publication p r hr hat
    refine ⟨_, supersede_publication.mpr ⟨r', hr', rfl⟩, ?_, ?_, ?_⟩
    · split <;> exact hjobId
    · split <;> exact hat'
    · split
      · nofun
      · exact hstatus
  · obtain ⟨r, hr, rfl⟩ := supersede_publication.mp hr'
    rcases h.plain p r hr with hnone | ⟨old, hold, hjobId, hat, hstatus⟩
    · left
      split <;> exact hnone
    · refine .inr ⟨old, hold, ?_, ?_, ?_⟩
      · split <;> exact hjobId
      · split <;> exact hat
      · split
        · nofun
        · exact hstatus

theorem spares_job (hjob : ∀ r, s.job j = some r → r.state ≠ .succeeded)
    (hjob' : job'.state ≠ .succeeded) (htj : t.job = update s.job j (some job'))
    (htp : t.publication = s.publication) (htd : t.debit = s.debit) : Spares s t := by
  refine ⟨fun i r hr hstate => ?_, fun i r hr hstate => ?_,
    fun p r hr _ => ⟨r, by rw [htp]; exact hr, rfl, rfl, id⟩,
    fun p r hr => .inr ⟨r, by rw [← htp]; exact hr, rfl, rfl, id⟩, htd⟩
  · have hi : i ≠ j := fun hi => hjob r (by rw [← hi]; exact hr) hstate
    rw [htj, update_of_ne hi]
    exact hr
  · rw [htj] at hr
    rcases update_eq_some.mp hr with ⟨-, rfl⟩ | ⟨-, hr⟩
    · exact absurd hstate hjob'
    · exact hr

theorem spares_stage (hjob : ∀ r, s.job j = some r → r.state ≠ .succeeded)
    (hjob' : job'.state ≠ .succeeded) (hold : ∀ r, s.publication p = some r → r.activatedAt = none)
    (hr : r.activatedAt = none) (htj : t.job = update s.job j (some job'))
    (htp : t.publication = update s.publication p (some r)) (htd : t.debit = s.debit) :
    Spares s t := by
  have h := spares_job (t := { s with job := t.job }) hjob hjob' htj rfl rfl
  refine ⟨h.job, h.fresh, fun q x hx hat => ?_, fun q x hx => ?_, htd⟩
  · have hq : q ≠ p := by
      rintro rfl
      rw [hold x hx] at hat
      cases hat
    exact ⟨x, by rw [htp, update_of_ne hq, hx], rfl, rfl, id⟩
  · rw [htp] at hx
    rcases update_eq_some.mp hx with ⟨-, rfl⟩ | ⟨-, hx⟩
    · exact .inl hr
    · exact .inr ⟨x, hx, rfl, rfl, id⟩

theorem spares_cancelled
    (htj : t.job = mapWhere s.job (fun _ r => r.state.live) fun r => { r with state := .cancelled })
    (htp : t.publication = s.publication) (htd : t.debit = s.debit) : Spares s t := by
  refine ⟨fun i r hr hstate => ?_, fun i r hr hstate => ?_,
    fun p r hr _ => ⟨r, by rw [htp]; exact hr, rfl, rfl, id⟩,
    fun p r hr => .inr ⟨r, by rw [← htp]; exact hr, rfl, rfl, id⟩, htd⟩
  · rw [htj, mapWhere_eq_some]
    exact ⟨r, hr, by simp [hstate, JobState.live]⟩
  · rw [htj, mapWhere_eq_some] at hr
    obtain ⟨old, hold, rfl⟩ := hr
    split at hstate
    · cases hstate
    · next hlive =>
      rw [if_neg hlive]
      exact hold

theorem spares_stop {attempt : AttemptRow} {state : AttemptState} {next : JobState}
    {reason : String} {nextAt : Option Time} (hs : s.Charged env) (h : s.Runs j a job attempt)
    (hnext : next ≠ .succeeded) : Spares s (s.stop j a state next reason nextAt) := by
  have hjob : ∀ r, s.job j = some r → r.state ≠ .succeeded := by
    intro r hr
    rw [some.inj (hr.symm.trans h.ofJob), h.running]
    nofun
  have hjob' : { job with
      state := next, activeAttemptId := none, failureReason := some reason
      nextAttemptAt := nextAt : JobRow }.state ≠ .succeeded := hnext
  exact .unstage hs (spares_job hjob hjob' (mapAt_eq_update h.ofJob) rfl rfl) rfl

theorem charged_succeed {old : PublicationRow} {debit : Option DebitRow} (hs : s.Charged env)
    (hjob : ∀ r, s.job j = some r → r.state ≠ .succeeded) (hold : s.publication p = some old)
    (hstaged : old.status = .staged) (hstate : job'.state = .succeeded)
    (hjp : job'.activePublicationId = p) (houtcome : Outcome env job'.quotaChargeStatus debit)
    (hr : r.jobId = j ∧ r.activatedAt.isSome = true ∧ r.status ≠ .staged)
    (htj : t.job = update s.job j (some job'))
    (htp : t.publication = update s.publication p (some r)) (htd : t.debit = update s.debit j debit) :
    t.Charged env := by
  have hother : ∀ i job, s.job i = some job → job.state = .succeeded → t.job i = some job := by
    intro i job hi hsucceeded
    have hne : i ≠ j := fun h => hjob job (by rw [← h]; exact hi) hsucceeded
    rw [htj, update_of_ne hne, hi]
  constructor
  case activated =>
    intro q x hx hat
    rw [htp] at hx
    rcases update_eq_some.mp hx with ⟨rfl, rfl⟩ | ⟨-, hx⟩
    · exact ⟨job', by rw [htj, hr.1, update_self], hstate, hjp⟩
    · obtain ⟨job, hi, hsucceeded, hq⟩ := hs.activated q x hx hat
      exact ⟨job, hother _ _ hi hsucceeded, hsucceeded, hq⟩
  case staged =>
    intro q x hx hstatus
    rw [htp] at hx
    rcases update_eq_some.mp hx with ⟨-, rfl⟩ | ⟨-, hx⟩
    · exact absurd hstatus hr.2.2
    · exact hs.staged q x hx hstatus
  case succeeded =>
    intro i job hi hsucceeded
    rw [htj] at hi
    rcases update_eq_some.mp hi with ⟨rfl, rfl⟩ | ⟨hne, hi⟩
    · rw [htd, update_self]
      exact ⟨houtcome, r, by rw [htp, hjp, update_self], hr.1, hr.2.1⟩
    · obtain ⟨hsettled, x, hx, hjobId, hat⟩ := hs.succeeded i job hi hsucceeded
      have hq : job.activePublicationId ≠ p := by
        intro hq
        rw [hq, hold] at hx
        rw [← some.inj hx, hs.staged p old hold hstaged] at hat
        cases hat
      rw [htd, update_of_ne hne]
      exact ⟨hsettled, x, by rw [htp, update_of_ne hq, hx], hjobId, hat⟩
  case debited =>
    intro i row hrow
    by_cases hi : i = j
    · subst hi
      exact ⟨job', by rw [htj, update_self], hstate⟩
    · rw [htd, update_of_ne hi] at hrow
      obtain ⟨job, hjob, hsucceeded⟩ := hs.debited i row hrow
      exact ⟨job, hother i job hjob hsucceeded, hsucceeded⟩

theorem promote_publication {c : ReceiptCall} {publication : PublicationRow}
    {f : PublicationRow → PublicationRow}
    (h : s.publication c.receipt.publicationId = some publication) :
    mapAt ((s.promote a c).supersede (some c.receipt.publicationId) now).publication
        c.receipt.publicationId f
      = update (s.supersede (some c.receipt.publicationId) now).publication
        c.receipt.publicationId
        (some (f { publication with
          status := .active, attemptId := some a, generationId := c.receipt.generationId
          resourceManifest := some c.receipt, activatedAt := some c.now })) := by
  funext q
  by_cases hq : q = c.receipt.publicationId
  · subst hq
    rw [update_self, mapAt_self]
    refine supersede_publication.mpr ⟨_, mapAt_self h, ?_⟩
    simp
  · rw [update_of_ne hq, mapAt_of_ne hq]
    simp only [supersede, promote, mapWhere, mapAt_of_ne hq]

/-- **A step keeps the jobs that succeeded in agreement with what they left.** -/
theorem Step.charged {kind : StepKind} (hc : s.head.Consistent) (hs : s.Charged env)
    (h : s.Step env kind t) : t.Charged env := by
  cases h with
  | create a info new generationId h =>
    have habsent := (hc.absent (by simp [head, h])).1
    have hnone : ∀ i, s.job i = none := fun i => by simpa [head] using habsent i
    refine Spares.charged (spares_stage (j := new.jobId) (p := new.publicationId)
      (fun r hr => ?_) ?_ (fun r hr => ?_) rfl rfl rfl rfl) hs
    · simp [hnone] at hr
    · intro h; cases h
    · by_contra hat
      obtain ⟨job, hjob, -⟩ := hs.activated _ r hr (isSome_iff_ne_none.mpr hat)
      simp [hnone] at hjob
  | replace a generationId h hactive hidle hversion hjob hpublication hpending =>
    refine Spares.charged (s := s) (spares_stage (j := a.new.jobId) (p := a.new.publicationId)
      (fun r hr => ?_) ?_ (fun r hr => ?_) rfl rfl rfl rfl) hs
    · simp [hjob] at hr
    · intro h; cases h
    · simp [hpublication] at hr
  | reindex a generationId h hactive hidle hversion hjob hpublication =>
    refine Spares.charged (spares_stage (j := a.new.jobId) (p := a.new.publicationId)
      (fun r hr => ?_) ?_ (fun r hr => ?_) rfl rfl rfl rfl) hs
    · simp [hjob] at hr
    · intro h; cases h
    · simp [hpublication] at hr
  | claim h hwaits hnew hstaging hnumber hfence hcycle hattempt =>
    rename_i job attempt publication j a p lastNumber lastFence cycle
    refine Spares.charged (Spares.recordItem (spares_stage (j := j) (p := p) (r := publication)
      (fun r hr => ?_) ?_ (fun r hr => ?_) ?_ rfl rfl rfl)) hs
    · obtain rfl := some.inj (hr.symm.trans h)
      rcases hwaits with hstate | hstate <;> rw [hstate] <;> simp
    · simp
    · cases hstaging with
      | kept generationId hp hr' hstaged =>
        exact hs.staged _ r hr (by rw [some.inj (hr.symm.trans hr')]; exact hstaged)
      | new generationId hp hold => simp [hp] at hr
    · cases hstaging with
      | kept generationId hp hr hstaged =>
        rename_i old
        exact hs.staged p old hr hstaged
      | new generationId hp hold => rfl
  | expire reason next h hcount hn =>
    refine (spares_stop hs h ?_).recordItem.charged hs
    simp
  | deadLetter reason now h hruns hcount hn =>
    refine (spares_stop hs hruns ?_).close.recordItem.charged hs
    simp
  | retry reason next h hcount hn =>
    refine (spares_stop hs h ?_).recordItem.charged hs
    simp
  | fail reason now h hruns hnext =>
    refine (spares_stop hs hruns ?_).close.disclaim.recordItem.charged hs
    rcases hnext with rfl | rfl <;> simp
  | cancel now h hjob hlive hfence =>
    rename_i document job j lastFence
    refine Spares.charged (Spares.recordItem (Spares.disclaim (Spares.close (Spares.unstage hs
      (spares_job (s := s) (j := j) (fun r hr => ?_) ?_ (mapAt_eq_update hjob) rfl rfl) rfl)))) hs
    · obtain rfl := some.inj (hr.symm.trans hjob)
      intro hstate
      simp [hstate, JobState.live] at hlive
    · simp
  | replay a generationId h hactive hidle hbase hjob hover hversion hpurged hpublication =>
    refine Spares.charged (s := s) (Spares.recordItem (spares_stage (s := s) (j := a.jobId)
      (p := a.publicationId) (fun r hr => ?_) ?_ (fun r hr => ?_) ?_
      ((congrArg (mapAt · _ _) reopen_job).trans (mapAt_eq_update hjob))
      (congrArg (update · _ _) reopen_publication) reopen_debit)) hs
    · obtain rfl := some.inj (hr.symm.trans hjob)
      intro hstate
      simp [hstate, JobState.replayable] at hover
    · simp
    · simp [hpublication] at hr
    · rfl
  | publish c h hactive hruns hoperation hbase hversion hname hreceipt hpublication hstaged
      hsettled =>
    rename_i document job attempt version publication name a charge debit
    have hrunning : ∀ r, s.job c.jobId = some r → r.state ≠ .succeeded := by
      intro r hr
      rw [some.inj (hr.symm.trans hruns.ofJob), hruns.running]
      simp
    have hundebited : s.debit c.jobId = none := by
      by_contra hdebit
      obtain ⟨row, hrow⟩ := ne_none_iff_exists'.mp hdebit
      obtain ⟨r, hr, hstate⟩ := hs.debited _ _ hrow
      exact hrunning r hr hstate
    have houtcome : Outcome env charge.1 debit := by
      obtain ⟨status, reason⟩ := charge
      rw [hundebited] at hsettled
      cases hsettled with
      | notApplicable h => exact .notApplicable h
      | exempt h hexempt => exact .exempt h
      | charged h hexempt => exact .charged _ h
    -- The publication is that of the job, as the operation of a document is one job.
    have hjobId : publication.jobId = c.jobId := by
      obtain ⟨owner, howner, hlive, -⟩ := hc.staged c.receipt.publicationId publication.jobId
        publication.documentVersionId (by simp [head, hpublication, hstaged])
      exact hc.live_unique (head_job hruns.ofJob)
        (by simp [JobRow.head, hruns.running, JobState.live]) howner hlive
    have hkept : (s.supersede (some c.receipt.publicationId) c.now).publication
        c.receipt.publicationId = some publication := by
      refine supersede_publication.mpr ⟨publication, hpublication, ?_⟩
      simp [hstaged]
    refine charged_succeed (s := s.supersede (some c.receipt.publicationId) c.now)
      (j := c.jobId) (p := c.receipt.publicationId)
      (Spares.charged (Spares.supersede (Spares.refl s)) hs) hrunning hkept hstaged ?_ ?_ ?_ ?_
      (recordItem_job.trans (mapAt_eq_update hruns.ofJob))
      (recordItem_publication.trans (promote_publication hpublication)) recordItem_debit
    · rfl
    · exact hreceipt.symm
    · exact houtcome
    · exact ⟨hjobId, rfl, (by simp)⟩
  | delete a staged h hactive =>
    exact Spares.charged (s := s) (Spares.dropClaims (Spares.supersede (Spares.unstage hs
      (spares_cancelled rfl rfl rfl) rfl))) hs

end Aggregate
end RagQs.Documents
