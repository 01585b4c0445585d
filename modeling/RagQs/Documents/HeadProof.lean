import RagQs.Documents.Head

/-!
# The steps of a document keep its head consistent

Every step of the state machine acts on the head of a document as one of the operations on heads,
or leaves it as it is.

## Main definitions

* `Aggregate.head` — the head of a document.

## Main results

* `Aggregate.Step.consistent` — a step keeps the head consistent.
-/

namespace RagQs.Documents

open Option Function

variable {status : VersionState} {document : DocumentRow} {t : Aggregate} {f : JobRow → JobRow}
variable {env : Env} {now : Time} {guardedBy : Option String}

/-- What the head of its document reads of a job. -/
def JobRow.head (r : JobRow) : JobHead :=
  ⟨r.state.live, r.state = .succeeded, r.operation, r.documentVersionId, r.baseActiveVersionId,
    r.activePublicationId⟩

/-- What the head of a document is made of in its rows. -/
def Aggregate.head (s : Aggregate) : Head where
  lifecycle := s.document.map (·.lifecycleStatus)
  activeVersion := s.document.bind (·.activeVersionId)
  pendingVersion := s.document.bind (·.pendingVersionId)
  operation := s.document.bind (·.activeOperationJobId)
  job j := (s.job j).map JobRow.head
  version v := (s.version v).map fun r => r.status = .active
  staged p := (s.publication p).bind fun r =>
    if r.status = .staged then some (r.jobId, r.documentVersionId) else none
  active p := (s.publication p).bind fun r =>
    if r.status = .active then some r.documentVersionId else none

namespace Aggregate

/-! ### The head of what the steps have in common -/

variable {s : Aggregate} {j v : String} {job : JobRow}

@[simp] theorem head_recordItem {state : ItemState} : (s.recordItem j job state).head = s.head := by
  unfold recordItem
  split <;> rfl

@[simp] theorem head_disclaim : (s.disclaim job).head = s.head := by
  unfold disclaim
  split <;> rfl

theorem head_unstage : (s.unstage (some j)).head = s.head.unstage j := by
  ext p x <;> simp only [head, unstage, Head.unstage, bind_eq_some_iff, dropWhere_eq_some,
    filter_eq_some_iff]
  all_goals grind

theorem head_retireVersion (hstatus : status ≠ .active) :
    (s.retireVersion env v status now).head
      = { s.head with version := mapAt s.head.version v fun _ => false } := by
  ext p x <;> simp only [head, retireVersion, map_eq_some_iff, mapAt_eq_some]
  grind

theorem head_document (h : s.document = some document) :
    s.head.lifecycle = some document.lifecycleStatus ∧
      s.head.activeVersion = document.activeVersionId ∧
      s.head.pendingVersion = document.pendingVersionId ∧
      s.head.operation = document.activeOperationJobId := by
  simp [head, h]

theorem head_job (h : s.job j = some job) : s.head.job j = some job.head := by
  simp [head, h]

/-- A job that goes on to wait loses what it had staged. -/
theorem head_stop_waiting {a : String} {attempt : AttemptRow} {state : AttemptState}
    {reason : String} {next : Option Time} (h : s.Runs j a job attempt) :
    (s.stop j a state .retryWait reason next).head = s.head.unstage j := by
  have hjob := h.ofJob
  have hrunning := h.running
  unfold stop
  rw [head_unstage]
  congr 1
  ext i x <;> simp only [head]
  by_cases hi : i = j
  · subst hi
    simp [mapAt_self hjob, hjob, JobRow.head, hrunning, JobState.live]
  · rw [mapAt_of_ne hi]

theorem head_mapAt_job (hjob : s.job j = some job) (ht : t.job = mapAt s.job j f) :
    t.head.job = update s.head.job j (some (f job).head) := by
  funext i
  simp only [head]
  rw [ht]
  by_cases hi : i = j
  · subst hi
    rw [mapAt_self hjob, update_self, map_some]
  · rw [mapAt_of_ne hi, update_of_ne hi]

/-- A job that is over without having succeeded ends the operation of its document. -/
theorem head_close (hc : s.head.Consistent) (hdocument : s.document = some document)
    (hjob : s.job j = some job) (hlive : job.state.live = true)
    (hguard : ∀ i, guardedBy = some i → i = j) (hstatus : status ≠ .active)
    (htd : t.document = s.document) (htv : t.version = s.version) (htj : t.job = mapAt s.job j f)
    (hf : (f job).head = { job.head with live := false })
    (htp : t.publication = (s.unstage (some j)).publication) :
    (t.close env document job status guardedBy now).head = s.head.finish j job.head := by
  have hoperation := hc.operation_of_live (head_job hjob) hlive
  have hknown : (s.head.version job.documentVersionId).isSome := hc.known j _ (head_job hjob)
  have hstaged : t.head.staged = (s.head.unstage j).staged := by
    rw [← head_unstage]
    simp only [head]
    rw [htp]
  have hactive : t.head.active = s.head.active := by
    have h : (s.unstage (some j)).head.active = s.head.active := by rw [head_unstage]; rfl
    rw [← h]
    simp only [head]
    rw [htp]
  have htjob := head_mapAt_job hjob htj
  rw [hf] at htjob
  have hall : (guardedBy.all fun i => document.activeOperationJobId = some i) = true := by
    rw [(head_document hdocument).2.2.2] at hoperation
    cases guardedBy with
    | none => rfl
    | some i => simp [hguard i rfl, hoperation]
  -- the document as it is released, with the version the job leaves behind
  have hrelease : ∀ (u : Aggregate) versioned, u.document = some document →
      (u.release document versioned guardedBy).head = { u.head with
        pendingVersion := if versioned then none else u.head.pendingVersion
        operation := none } := by
    intro u versioned hu
    rw [release_of_hit hu hall]
    cases versioned <;> simp [head, hu]
  have htdocument := htd.trans hdocument
  have hhead : t.head = { s.head with
      job := update s.head.job j (some { job.head with live := false })
      staged := (s.head.unstage j).staged } := by
    ext p x
    all_goals first | rw [htjob] | rw [hstaged] | rw [hactive] | simp only [head, htd, htv]
  unfold close Head.finish
  cases hversioned : job.operation.versioned with
  | true =>
    have hversioned' : job.head.operation.versioned = true := hversioned
    rw [if_pos rfl, hrelease (t.retireVersion env _ status now) true htdocument,
      head_retireVersion hstatus, hhead]
    obtain ⟨b, hb⟩ := isSome_iff_exists.mp hknown
    rw [hversioned', if_pos rfl, if_pos rfl]
    simp only [mapAt_eq_update hb]
    rfl
  | false =>
    have hversioned' : job.head.operation.versioned = false := hversioned
    rw [if_neg Bool.false_ne_true, hrelease t false htdocument, hhead]
    simp only [hversioned', if_false, Bool.false_eq_true]
    rfl

theorem consistent_close (hc : s.head.Consistent) (hdocument : s.document = some document)
    (hjob : s.job j = some job) (hlive : job.state.live = true)
    (hguard : ∀ i, guardedBy = some i → i = j) (hstatus : status ≠ .active)
    (htd : t.document = s.document) (htv : t.version = s.version) (htj : t.job = mapAt s.job j f)
    (hf : (f job).head = { job.head with live := false })
    (htp : t.publication = (s.unstage (some j)).publication) :
    (t.close env document job status guardedBy now).head.Consistent := by
  rw [head_close hc hdocument hjob hlive hguard hstatus htd htv htj hf htp]
  exact hc.finish (head_job hjob) hlive

/-- What is staged is the publication that the job which is not over works on. -/
theorem staged_of_live (hc : s.head.Consistent) (hjob : s.job j = some job)
    (hlive : job.state.live = true) {p : String} {r : PublicationRow}
    (hr : s.publication p = some r) (hstaged : r.status = .staged) :
    p = job.activePublicationId ∧ r.jobId = j ∧ r.documentVersionId = job.documentVersionId := by
  have hp : s.head.staged p = some (r.jobId, r.documentVersionId) := by simp [head, hr, hstaged]
  obtain ⟨other, hother, hlive', hversion, hpublication⟩ := hc.staged p _ _ hp
  obtain rfl : r.jobId = j := hc.live_unique (head_job hjob) hlive hother hlive'
  cases (head_job hjob).symm.trans hother
  exact ⟨hpublication.symm, rfl, hversion.symm⟩

/-- **A step keeps the head consistent.** -/
theorem Step.consistent {kind : StepKind} (hc : s.head.Consistent) (h : s.Step env kind t) :
    t.head.Consistent := by
  cases h with
  | create a info new generationId h =>
    have habsent : s.head.lifecycle = none := by simp [head, h]
    obtain ⟨-, -, hactive⟩ := hc.absent habsent
    have hcreate : (s.head.create new.jobId new.publicationId (newJob new.versionId .initial none
        (some a.batchId) new.publicationId 1 a.principal).head).Consistent :=
      hc.create habsent rfl rfl rfl rfl
    refine cast (congrArg Head.Consistent ?_) hcreate
    have hactive := fun p => hactive p
    ext p x <;> simp only [head, Head.create, update_eq_some, map_eq_some_iff,
      bind_eq_some_iff] at hactive ⊢
    all_goals grind [newJob, JobRow.head, FileInfo.version, stagedPublication, JobState.live]
  | replace a generationId h hactive hidle hversion hjob hpublication hpending =>
    rename_i document version
    obtain ⟨hlifecycle, -, -, hoperation⟩ := head_document h
    have hjob' : s.head.job a.new.jobId = none := by simp [head, hjob]
    have hversion' : s.head.version a.new.versionId = none := by simp [head, hversion]
    have hbegin : (s.head.begin a.new.jobId a.new.publicationId (newJob a.new.versionId .replace
        document.activeVersionId none a.new.publicationId (document.version + 1)
        a.principal).head).Consistent :=
      hc.begin (by rw [hlifecycle, hactive]) (hoperation.trans hidle) rfl rfl rfl (by simp [hjob'])
        (show s.head.version a.new.versionId ≠ some true by simp [hversion'])
        (fun _ _ => hversion') (by intro h; cases h)
    refine cast (congrArg Head.Consistent ?_) hbegin
    ext p x <;> simp only [head, Head.begin, Aggregate.begin, newJob, JobRow.head,
      Operation.versioned, if_true, update_eq_some,
      map_eq_some_iff, bind_eq_some_iff]
    all_goals grind [stagedPublication, JobState.live]
  | reindex a generationId h hactive hidle hversion hjob hpublication =>
    rename_i document versionId
    obtain ⟨hlifecycle, hversions, -, hoperation⟩ := head_document h
    have hjob' : s.head.job a.new.jobId = none := by simp [head, hjob]
    have hknown := (hc.active _).mp (hversions.trans hversion)
    have hbegin : (s.head.begin a.new.jobId a.new.publicationId (newJob versionId .reindex
        document.activeVersionId none a.new.publicationId (document.version + 1)
        a.principal).head).Consistent :=
      hc.begin (by rw [hlifecycle, hactive]) (hoperation.trans hidle) rfl rfl rfl (by simp [hjob'])
        (isSome_of_mem hknown) (by intro _ h; cases h) fun _ => hversion
    refine cast (congrArg Head.Consistent ?_) hbegin
    ext p x <;> simp only [head, Head.begin, Aggregate.begin, newJob, JobRow.head,
      Operation.versioned, Bool.false_eq_true, if_false, update_eq_some,
      map_eq_some_iff, bind_eq_some_iff]
    all_goals grind [stagedPublication, JobState.live]
  | claim h hwaits hnew hstaging hnumber hfence hcycle hattempt =>
    rename_i job attempt publication j a p _ _ _
    have hlive : job.state.live = true := by rcases hwaits with h | h <;> rw [h] <;> rfl
    have hsucceeded : job.state ≠ .succeeded := by rcases hwaits with h | h <;> simp [h]
    have hstaged := fun p r => staged_of_live hc h hlive (p := p) (r := r)
    have hp : ∀ q x, s.head.staged q = some x → q = p := by
      intro q x hq
      obtain ⟨r, hr, hx⟩ := bind_eq_some_iff.mp hq
      by_cases hstatus : r.status = .staged
      · obtain ⟨rfl, -⟩ := hstaged q r hr hstatus
        cases hstaging with
        | kept _ hp => exact hp.symm
        | new _ _ hold => exact absurd hstatus (hold r hr)
      · simp [hstatus] at hx
    rw [head_recordItem]
    refine cast (congrArg Head.Consistent ?_) (hc.stage (head_job h) hlive hp)
    cases hstaging with
    | kept generationId hp' hr hstatus =>
      obtain ⟨-, hjob, hversion⟩ := hstaged _ _ hr hstatus
      ext p' x <;> simp only [head, Head.stage, JobRow.head, update_eq_some,
        map_eq_some_iff, bind_eq_some_iff]
      all_goals grind [JobState.live]
    | new generationId hp' hold =>
      ext p' x <;> simp only [head, Head.stage, JobRow.head, update_eq_some,
        map_eq_some_iff, bind_eq_some_iff]
      all_goals grind [stagedPublication, JobState.live]
  | expire reason next h hcount hn =>
    rw [head_recordItem, head_stop_waiting h]
    exact hc.unstage
  | deadLetter reason now h hruns hcount hn =>
    have hlive : JobState.running.live = true := rfl
    rw [← hruns.running] at hlive
    rw [head_recordItem]
    refine consistent_close hc h hruns.ofJob hlive (fun i hi => ?_) (by simp) rfl rfl rfl ?_ rfl
    · exact (some.inj hi).symm
    · simp [JobRow.head, hruns.running, JobState.live]
  | retry reason next h hcount hn =>
    rw [head_recordItem, head_stop_waiting h]
    exact hc.unstage
  | fail reason now h hruns hnext =>
    have hlive : JobState.running.live = true := rfl
    rw [← hruns.running] at hlive
    rw [head_recordItem, head_disclaim]
    refine consistent_close hc h hruns.ofJob hlive (by simp) (by simp) rfl rfl rfl ?_ rfl
    rcases hnext with rfl | rfl <;> simp [JobRow.head, hruns.running, JobState.live]
  | cancel now h hjob hlive hfence =>
    rename_i document job j lastFence
    rw [head_recordItem, head_disclaim]
    refine consistent_close hc h hjob hlive (by simp) (by simp) rfl rfl rfl ?_ rfl
    have hsucceeded : job.state ≠ .succeeded := fun h => by simp [h, JobState.live] at hlive
    simp [JobRow.head, hsucceeded, JobState.live]
  | replay a generationId h hactive hidle hbase hjob hover hversion hpurged hpublication =>
    rename_i document job version
    obtain ⟨hlifecycle, -, -, hoperation⟩ := head_document h
    have hjob' := head_job hjob
    have hstate : job.state ≠ .succeeded ∧ job.state.live = false := by
      cases hs : job.state <;> simp [hs, JobState.replayable, JobState.live] at hover ⊢
    have hidle : s.head.operation = none := by
      rw [hoperation]
      cases hop : document.activeOperationJobId with
      | none => rfl
      | some i =>
        obtain rfl : i = a.jobId := by simpa [hop] using hidle
        obtain ⟨r, hr, hlive⟩ := (hc.live a.jobId).mp (hoperation.trans hop)
        cases hjob'.symm.trans hr
        exact absurd hlive (by simp [JobRow.head, hstate.2])
    have hknown := hc.known _ _ hjob'
    have hinactive := hc.inactive _ _ hjob'
    have hbase' := hc.base _ _ hjob'
    rw [head_recordItem]
    have hbegin := @Head.Consistent.begin s.head hc a.jobId a.publicationId
      { job.head with live := true, publication := a.publicationId }
    refine cast (congrArg Head.Consistent ?_) (hbegin
      (by rw [hlifecycle, hactive]) hidle rfl (by simp [JobRow.head, hstate.1]) rfl
      (fun old hold => ?_) ?_ (fun hnone => ?_) hbase')
    · have hstaged : (s.reopen job).head.version = if job.operation.versioned then
          update s.head.version job.documentVersionId (some false) else s.head.version := by
        unfold reopen
        cases hv : job.operation.versioned with
        | true =>
          funext v
          simp only [head, if_true]
          by_cases hd : v = job.documentVersionId
          · subst hd
            simp [mapAt_self hversion]
          · rw [mapAt_of_ne hd, update_of_ne hd]
        | false => rfl
      ext p x
      case lifecycle => simp [head, Head.begin, h]
      case activeVersion => simp [head, Head.begin, h]
      case pendingVersion =>
        have hop : job.head.operation = job.operation := rfl
        simp only [head, Head.begin, reopen_document, h, map_some, bind_some, hop]
        rfl
      case operation => simp [head, Head.begin, h]
      case job =>
        simp only [head, Head.begin, reopen_job]
        by_cases hp : p = a.jobId
        · subst hp
          simp [mapAt_self hjob, JobRow.head, JobState.live, hstate.1]
        · rw [mapAt_of_ne hp, update_of_ne hp]
      case version => exact (congrFun hstaged p).symm ▸ Iff.rfl
      case staged =>
        simp only [head, Head.begin, reopen_publication]
        by_cases hp : p = a.publicationId
        · subst hp
          simp [stagedPublication, JobRow.head]
        · rw [update_of_ne hp, update_of_ne hp]
      case active =>
        simp only [head, Head.begin, reopen_publication]
        by_cases hp : p = a.publicationId
        · subst hp
          simp [stagedPublication, hpublication]
        · rw [update_of_ne hp]
    · cases hjob'.symm.trans hold
      exact ⟨rfl, rfl, rfl⟩
    · split
      · next hv => exact hinactive hv (by simp [JobRow.head, hstate.1])
      · exact hknown
    · rw [hjob'] at hnone
      cases hnone
  | publish c h hactive hruns hoperation hbase hversion hname hreceipt hpublication hstaged
      hsettled =>
    rename_i document job attempt version publication name a charge debit
    obtain ⟨hlifecycle, hactiveVersion, -, -⟩ := head_document h
    have hjob := head_job hruns.ofJob
    have hlive : job.state.live = true := by rw [hruns.running]; rfl
    obtain ⟨-, -, hown⟩ := staged_of_live hc hruns.ofJob hlive hpublication hstaged
    rw [head_recordItem]
    refine cast (congrArg Head.Consistent ?_) (hc.publish (j := c.jobId)
      (p := c.receipt.publicationId) (by rw [hlifecycle, hactive]) hjob hlive
      (hactiveVersion.trans hbase) hreceipt.symm)
    have hop : job.head.operation = job.operation := rfl
    ext p x
    case lifecycle => cases hv : job.operation.versioned <;> simp [head, Head.publish, activate, h]
    case activeVersion =>
      cases hv : job.operation.versioned with
      | false => simp [head, Head.publish, h, hop, hv]
      | true =>
        simp [head, Head.publish, activate, h, hop, hv]
        rfl
    case pendingVersion =>
      cases hv : job.operation.versioned <;> simp [head, Head.publish, activate, h, hop, hv]
    case operation => cases hv : job.operation.versioned <;> simp [head, Head.publish, activate, h]
    case job =>
      simp only [head, Head.publish]
      by_cases hp : p = c.jobId
      · subst hp
        simp [mapAt_self hruns.ofJob, JobRow.head, JobState.live]
      · rw [mapAt_of_ne hp, update_of_ne hp]
    case version =>
      cases hv : job.operation.versioned with
      | false => simp [head, Head.publish, hop, hv]
      | true =>
        simp only [head, Head.publish, hop, hv, if_true, activate]
        unfold mapWhere
        by_cases hp : p = job.documentVersionId
        · subst hp
          simp [mapAt_self hversion, JobRow.head]
        · rw [mapAt_of_ne hp]
          by_cases hactive : document.activeVersionId = some p
          · have hknown := (hc.active p).mp (hactiveVersion.trans hactive)
            obtain ⟨r, hr, -⟩ := map_eq_some_iff.mp hknown
            simp [hr, h, hactive, hp, JobRow.head]
          · simp [h, hactive, hp, JobRow.head]
    case staged =>
      simp only [head, Head.publish, supersede, promote]
      by_cases hp : p = c.receipt.publicationId
      · subst hp
        simp [mapAt, mapWhere, hpublication]
      · rw [mapAt_of_ne hp, if_neg hp]
        unfold mapWhere
        rw [mapAt_of_ne hp]
        cases hr : s.publication p with
        | none => rfl
        | some r => cases hstatus : r.status <;> simp [hstatus, hp]
    case active =>
      simp only [head, Head.publish, supersede, promote]
      by_cases hp : p = c.receipt.publicationId
      · subst hp
        simp [mapAt, mapWhere, hpublication, hown, JobRow.head]
      · rw [mapAt_of_ne hp, if_neg hp]
        unfold mapWhere
        rw [mapAt_of_ne hp]
        cases hr : s.publication p with
        | none => rfl
        | some r => cases hstatus : r.status <;> simp [hstatus, hp]
  | delete a staged h hactive =>
    refine cast (congrArg Head.Consistent ?_) hc.delete
    ext p x <;> simp only [Head.delete, head, dropClaims, supersede, unstage, h]
    case lifecycle => simp
    case activeVersion => simp
    case pendingVersion => simp
    case operation => simp
    case job =>
      unfold mapWhere
      cases hr : s.job p with
      | none => simp
      | some r =>
        have hr : s.job p = some r := hr
        cases hstate : r.state <;> simp [JobRow.head, hstate, JobState.live]
    case version =>
      unfold mapWhere
      cases hr : s.version p with
      | none => simp
      | some r => cases hstatus : r.status <;> simp [hstatus]
    case staged =>
      unfold mapWhere dropWhere
      cases hr : s.publication p with
      | none => simp
      | some r => cases hstatus : r.status <;> simp [Option.filter, hstatus]
    case active =>
      unfold mapWhere dropWhere
      cases hr : s.publication p with
      | none => simp
      | some r => cases hstatus : r.status <;> simp [Option.filter, hstatus]

end Aggregate
end RagQs.Documents
