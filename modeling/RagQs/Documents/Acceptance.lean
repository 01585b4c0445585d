import RagQs.Documents.Steps

/-!
# Receipts and deletions make steps

The two transactions that end what a document was doing: the acceptance of a receipt, which makes
a publication active, and the acceptance of a deletion.  A receipt may run into the dedup claim of
another document; that it never deletes one follows from what is known of the other documents.

## Main results

* `Works.replaceDedupClaim` — the document has the claim for the name and content, and no other.
* `tracked_acceptReceipt`, `tracked_deleteDocument` — the transactions make one step each.
-/

namespace RagQs.Documents

open Txn Txn.Guards Function

variable {α : Type} {Ok : String → Region Row → Prop} {C : List (Write Row) → Db → Prop}
  {d : String} {s : Aggregate} {R : α → Aggregate → Prop}

variable {document : DocumentRow} {job : JobRow} {a : ReceiptCall} {attemptId : String}

/-! ### The dedup claim -/

/-- A document with a claim is active. -/
def Claiming (Ok : String → Region Row → Prop) : Prop :=
  ∀ d x, Ok d x → ∀ k v, (Aggregate.of d x).claim k = some v →
    ∃ r, (Aggregate.of d x).document = some r ∧ r.lifecycleStatus = .active

/-- Of the table with one row changed only that row is left. -/
theorem dropWhere_update {κ ρ : Type} [DecidableEq κ] {t : κ → Option ρ} {k : κ} {r : ρ} :
    dropWhere (update t k (some r)) (fun k' _ => k' ≠ k)
      = fun k' => if k' = k then some r else none := by
  funext k'
  by_cases hk : k' = k
  · subst hk
    simp [dropWhere, Option.filter]
  · simp [dropWhere, hk]

namespace Works

/-- The claim of another document, which is active, is refused; it is never deleted. -/
theorem keepDedupClaim (hclaiming : Claiming Ok) {spaceId name hash : String} {f : Bool → Tx α}
    (hnone : s.claim ⟨spaceId, name, hash⟩ = none → Works Ok C d (f false) R s)
    (hown : ∀ v, s.claim ⟨spaceId, name, hash⟩ = some v → Works Ok C d (f true) R s) :
    Works Ok C d (lockRow (Key.claim spaceId name hash) >>= fun target =>
      Documents.keepDedupClaim d (claimKey spaceId name hash) target >>= f) R s := by
  refine ⟨fun x hx => .lockHolding (fun hget => ?_) (fun r hr hown' => ?_) fun r hr => ?_⟩
  · refine (hnone ?_).under x hx
    rw [← hx]
    simp [Aggregate.of, hget]
  · obtain rfl : r.documentId = d := Option.some.inj hown'
    show Under _ _ _ _ ((if r.documentId = r.documentId then pure true else _) >>= f) _ _
    rw [if_pos rfl]
    refine (hown r.documentVersionId ?_).under x hx
    rw [← hx]
    simp [Aggregate.of, hr]
  · have hne : r.documentId ≠ d := fun h => hr (congrArg some h)
    show Under.Holding _ _ _ _ _ _ ((if r.documentId = d then pure true else _) >>= f) _ _
    rw [if_neg hne, Prog.bind_assoc]
    refine .select fun v hget hgood _ => ?_
    obtain ⟨document, hdocument, hactive⟩ := hclaiming r.documentId _ (hgood _ hne)
      ⟨spaceId, name, hash⟩ r.documentVersionId (by
        have hregion : guards.region r.documentId v (.claim spaceId name hash) = some r :=
          region_eq_some.mpr ⟨hget, rfl⟩
        simp [Aggregate.of, hregion])
    have hget : v.get (.document r.documentId) = some document :=
      (region_of_static fun _ => rfl).symm.trans hdocument
    rw [hget, Prog.bind_assoc]
    refine .raiseIf fun hgone => ?_
    simp [gone, hactive] at hgone

theorem changeClaim {spaceId name hash old v : String} {f : ℕ → Tx α}
    (hold : s.claim ⟨spaceId, name, hash⟩ = some old)
    (h : Works Ok C d (f 1) R
      { s with claim := update s.claim ⟨spaceId, name, hash⟩ (some v) }) :
    Works Ok C d (updateWhere (Key.claim spaceId name hash) (fun _ => true)
      (fun r => { r with documentVersionId := v }) >>= f) R s := by
  refine ⟨fun x hx => ?_⟩
  rw [← hx] at hold
  obtain ⟨r, hr, -⟩ := Option.map_eq_some_iff.mp hold
  obtain ⟨hget, hd⟩ := Option.filter_eq_some_iff.mp hr
  have hd : r.documentId = d := of_decide_eq_true hd
  refine .updateHere hget rfl (congrArg some hd) (h.under _ ?_)
  rw [hd, Aggregate.of_claim, hx]

/-- The document has the claim for the name and content of a version, and no other. -/
theorem replaceDedupClaim (hclaiming : Claiming Ok) {env : Env} {v : String} {version : VersionRow}
    {f : Unit → Tx α}
    (h : ∀ name, normalizeFilename env version.fileName = .ok name → Works Ok C d (f ()) R
      { s with
        claim := fun k =>
          if k = ⟨document.spaceId, name.2, version.contentHash⟩ then some v else none }) :
    Works Ok C d (Documents.replaceDedupClaim env d v document version >>= f) R s := by
  unfold Documents.replaceDedupClaim
  rw [Prog.bind_assoc]
  refine check fun name hname => ?_
  dsimp only
  have hothers : Works Ok C d (updateAll (otherClaims d document.spaceId name.2
      version.contentHash) >>= fun _ => f ()) R
      { s with
        claim := update s.claim ⟨document.spaceId, name.2, version.contentHash⟩
          (some v) } := by
    refine changeAll (picks_otherClaims d _ _ _) fun x hx _ => ?_
    have hclaim := Aggregate.of_otherClaims (d := d) (x := x)
      (k := ⟨document.spaceId, name.2, version.contentHash⟩)
    rw [hclaim, hx]
    have h := h name hname
    rw [← dropWhere_update (t := s.claim)] at h
    exact h
  simp only [Prog.bind_assoc]
  refine keepDedupClaim hclaiming (fun hnone => ?_) fun old hold => ?_
  · rw [if_neg Bool.false_ne_true, Prog.bind_assoc]
    refine insertClaim (raiseIf fun h => absurd rfl h) fun _ => raiseIf fun _ => ?_
    exact hothers
  · rw [if_pos rfl, Prog.bind_assoc]
    exact changeClaim hold hothers

end Works

/-! ### The checks of a receipt -/

/-- The operation of an active document is the job. -/
theorem DocumentRow.active_of_assertOperation {jobId : String} {u : Unit}
    (h : document.assertOperation jobId job = .ok u) :
    document.lifecycleStatus = .active ∧ document.activeOperationJobId = some jobId := by
  unfold assertOperation at h
  cases hactive : document.lifecycleStatus with
  | pendingDelete => rw [hactive] at h; cases h
  | deleted => rw [hactive] at h; cases h
  | active =>
    rw [hactive] at h
    dsimp only at h
    split at h
    · cases h
    · next hop => exact ⟨rfl, not_not.mp hop⟩

/-- What the checks of a receipt establish. -/
structure Checked (s : Aggregate) (a : ReceiptCall) (job : JobRow) (attemptId : String) : Prop where
  runs : ∃ attempt, s.attempt a.jobId attemptId = some attempt ∧ attempt.state = .running ∧
    a.receipt.fencingToken = attempt.fencingToken
  publication : a.receipt.publicationId = job.activePublicationId
  staged : ∃ r, s.publication a.receipt.publicationId = some r ∧ r.status = .staged
  version : ∃ r, s.version job.documentVersionId = some r

theorem works_checkReceipt :
    Works Ok C d (checkReceipt d a document job attemptId)
      (fun _ t => t = s ∧ Checked s a job attemptId) s := by
  refine .lockedAttempt fun lease => ?_
  cases hattempt : Option.filter (fun x => decide (x.1.state = .running))
      ((s.attempt a.jobId attemptId).map fun r => (r, lease)) with
  | none => exact .fail
  | some x =>
    obtain ⟨hx, hrunning⟩ := Option.filter_eq_some_iff.mp hattempt
    obtain ⟨attempt, hget, rfl⟩ := Option.map_eq_some_iff.mp hx
    refine .raiseIf fun _ => .check fun _ _ => .raiseIf fun hfence =>
      .free free_workerAuthorizationFence fun _ => .orRaise fun staging _ =>
      .raiseIf fun _ => .check fun _ _ => .raiseIf fun _ =>
      .raiseIf fun hfits => .lockPublication <| .check fun _ _ =>
      .lockVersion <| .orRaise fun version hversion => .raiseIf fun _ =>
      .raiseIf fun hstaged => .check fun _ _ => .check fun _ _ => ?_
    rw [← Prog.bind_done (raiseIf _ _)]
    refine .raiseIf fun _ => .done ⟨rfl, ⟨attempt, hget, of_decide_eq_true hrunning,
      not_not.mp hfence⟩, (not_not.mp hfits).2.2.2, ?_, version, hversion⟩
    cases hp : s.publication a.receipt.publicationId with
    | none => simp [hp] at hstaged
    | some r => exact ⟨r, rfl, by simpa [hp] using hstaged⟩

/-! ### What a receipt writes -/

theorem works_succeedAttempt {attempt : AttemptRow} (h : s.attempt a.jobId attemptId = some attempt) :
    Works Ok C d (succeedAttempt d a job attemptId)
      (fun _ t => t = { s with
        attempt := update s.attempt a.jobId (mapAt (s.attempt a.jobId) attemptId
          fun r => { r with state := .succeeded, receipt := some a.receipt }) }) s := by
  refine .readAttempt ?_
  rw [h]
  refine .ite (fun _ => .changeAttempt (fun _ _ => rfl) fun _ => ?_) fun h =>
    absurd rfl h
  rw [← Prog.bind_done (endLease _ _ _)]
  exact .free free_endLease fun _ => .done rfl

theorem JobRow.exempt_iff : job.exempt = true ↔ job.quotaExemptReason.isSome = true ∨
    unlimitedRole job.quotaRoleSnapshot = true ∨ 0 < job.replayGeneration := by
  unfold exempt
  rw [Bool.or_eq_true, Bool.or_eq_true, decide_eq_true_iff, or_assoc]

theorem works_appendDebit {env : Env} (hquota : env.quotaService = true) :
    Works Ok C d (appendDebit d a job)
      (fun debitId t => ∃ debit, t = { s with debit := update s.debit a.jobId debit } ∧
        if debitId.isSome then Settled env job .charged (s.debit a.jobId) debit
        else job.exempt = true ∧ debit = s.debit a.jobId) s := by
  refine .check fun _ _ => .ite (fun hexempt => .done ?_) fun hexempt =>
    .readDebit ?_
  · refine ⟨s.debit a.jobId, by rw [update_eq_self], ?_⟩
    rw [if_neg (by simp)]
    exact ⟨JobRow.exempt_iff.mpr hexempt, rfl⟩
  · have hcharged : job.exempt = false := by
      rw [Bool.eq_false_iff, Ne, JobRow.exempt_iff]
      exact hexempt
    cases hdebit : s.debit a.jobId with
    | some r =>
      refine .ite (fun _ => .done ⟨some r, ?_, .again hquota hcharged⟩) fun _ => .fail
      rw [← hdebit, update_eq_self]
    | none =>
      exact .insertDebit fun _ => .done ⟨_, rfl, .charged hquota hcharged⟩

theorem works_recordPublicationQuota {env : Env} :
    Works Ok C d (recordPublicationQuota env d a job)
      (fun charge t => ∃ debit, t = { s with debit := update s.debit a.jobId debit } ∧
        Settled env job charge.1 (s.debit a.jobId) debit) s := by
  refine .ite (fun hquota => .done ⟨s.debit a.jobId, ?_, .notApplicable ?_⟩)
    fun hquota => .raiseIf fun _ => ?_
  · rw [update_eq_self]
  · simpa using hquota
  have hquota : env.quotaService = true := by simpa using hquota
  refine .bind (works_appendDebit hquota) fun debitId t ⟨debit, ht, hdebit⟩ => ?_
  subst ht
  cases debitId with
  | some id =>
    simp only [Option.isSome_some, if_true] at hdebit
    exact .ite (fun _ => .done ⟨debit, rfl, hdebit⟩) fun h => absurd rfl h
  | none =>
    rw [if_neg (by simp)] at hdebit
    obtain ⟨hexempt, rfl⟩ := hdebit
    have hsettled : Settled env job .exempt (s.debit a.jobId) (s.debit a.jobId) :=
      .exempt hquota hexempt
    refine .ite (fun h => by simp at h) fun _ => .ite (fun _ => .done ⟨_, rfl, hsettled⟩)
      fun h1 => .ite (fun _ => .done ⟨_, rfl, hsettled⟩) fun h2 =>
      .ite (fun _ => .done ⟨_, rfl, hsettled⟩) fun h3 => ?_
    rcases JobRow.exempt_iff.mp hexempt with h | h | h
    · exact absurd h h1
    · exact absurd h h2
    · exact absurd h h3

theorem mapWhere_of_miss {κ ρ : Type} {t : κ → Option ρ} {hit : κ → ρ → Bool} {up : ρ → ρ}
    (h : ∀ k r, t k = some r → hit k r = false) : mapWhere t hit up = t := by
  funext k
  unfold mapWhere
  cases hr : t k with
  | none => rfl
  | some r => simp [h k r hr]

/-- An update that hits one key. -/
theorem mapWhere_eq_mapAt {κ ρ : Type} [DecidableEq κ] {t : κ → Option ρ} {hit : κ → ρ → Bool}
    {up : ρ → ρ} {k : κ} (h : ∀ k' r, hit k' r = decide (k' = k)) :
    mapWhere t hit up = mapAt t k up := by
  funext k'
  unfold mapWhere
  by_cases hk : k' = k
  · subst hk
    unfold mapAt
    simp [h]
  · rw [mapAt_of_ne hk]
    simp [h, hk]

theorem Works.supersedeVersion {env : Env} {versionId : String} {old : Option String} {now : Time}
    {f : Unit → Tx α} (h : Works Ok C d (f ()) R
      { s with
        version := mapWhere s.version (fun v _ => old = some v ∧ v ≠ versionId) fun r =>
          { r with status := .superseded, supersededAt := some now, terminalAt := some now,
                   purgeAfterAt := some (now + env.versionRetention) } }) :
    Works Ok C d (Documents.supersedeVersion env d versionId old now >>= f) R s := by
  unfold Documents.supersedeVersion
  cases old with
  | none =>
    rw [mapWhere_of_miss fun _ _ _ => by simp] at h
    exact h
  | some old =>
    refine .bindIte (fun hne => ?_) fun heq => ?_
    · rw [mapWhere_eq_mapAt (k := old) fun v r => by grind] at h
      rw [Prog.bind_assoc]
      exact .changeVersion (fun _ _ => rfl) fun _ => h
    · obtain rfl := not_not.mp heq
      rw [mapWhere_of_miss fun v _ _ => by grind] at h
      exact h

theorem works_activateVersion (hclaiming : Claiming Ok) {env : Env} :
    Works Ok C d (activateVersion env d a document job)
      (fun _ t => ∃ version name, s.version job.documentVersionId = some version ∧
        normalizeFilename env version.fileName = .ok name ∧
        t = s.activate env a document job version name) s := by
  refine .readVersion <| .orRaise fun version hversion =>
    .replaceDedupClaim hclaiming fun name hname => .changeVersion (fun _ _ => rfl)
    fun _ => .supersedeVersion <| .check fun name' hname' =>
    .changeDocument (fun _ _ => rfl) fun _ => .done ⟨version, name, hversion, hname, ?_⟩
  obtain rfl := Except.ok.inj (hname.symm.trans hname')
  rfl

/-- What the acceptance of a receipt makes of the document. -/
theorem works_publishReceipt (hclaiming : Claiming Ok) {env : Env} {kinds : StepKind → Prop}
    (hkind : kinds .publish) (hdocument : s.document = some document)
    (hactive : document.lifecycleStatus = .active)
    (hoperation : document.activeOperationJobId = some a.jobId)
    (hbase : document.activeVersionId = job.baseActiveVersionId) (hjob : s.job a.jobId = some job)
    (hrunning : job.state = .running) (hattempt : job.activeAttemptId = some attemptId)
    (hchecked : Checked s a job attemptId) :
    Works Ok C d (publishReceipt env d a document job attemptId)
      (fun _ => Moves env kinds s) s := by
  obtain ⟨attempt, hget, hlive, -⟩ := hchecked.runs
  obtain ⟨publication, hpublication, hstaged⟩ := hchecked.staged
  have hruns : s.Runs a.jobId attemptId job attempt := ⟨hrunning, hattempt, hlive, hjob, hget⟩
  refine .bind (works_succeedAttempt hget) fun _ t ht => ?_
  subst ht
  refine .updatePublication <| .supersedePublications <| .bindIte
    (fun hversioned => ?_) fun hversioned => ?_
  · refine .bind (works_activateVersion hclaiming) fun _ t ht => ?_
    obtain ⟨version, name, hversion, hname, rfl⟩ := ht
    refine .bind works_recordPublicationQuota fun charge t ht => ?_
    obtain ⟨debit, rfl, hsettled⟩ := ht
    refine .changePublication fun _ => .check fun _ _ =>
      .changeJob (fun _ _ => rfl) fun _ => .recordItemState ?_
    rw [← Prog.bind_done (appendIndexChange _ _ _ _ _)]
    refine .free free_appendIndexChange fun _ => .done ?_
    have hstep := Aggregate.Step.publish a hdocument hactive hruns hoperation hbase hversion
      (fun _ => hname) hchecked.publication hpublication hstaged hsettled
    rw [if_pos hversioned] at hstep
    exact .step hstep hkind
  · obtain ⟨version, hversion⟩ := hchecked.version
    rw [Prog.bind_assoc]
    refine .changeDocument (fun _ _ => rfl) fun _ => .free trivial fun _ =>
      .bind works_recordPublicationQuota fun charge t ht => ?_
    obtain ⟨debit, rfl, hsettled⟩ := ht
    refine .changePublication fun _ => .check fun _ _ =>
      .changeJob (fun _ _ => rfl) fun _ => .recordItemState ?_
    rw [← Prog.bind_done (appendIndexChange _ _ _ _ _)]
    refine .free free_appendIndexChange fun _ => .done ?_
    have hname : job.operation.versioned = true →
        normalizeFilename env version.fileName = .ok (version.fileName, version.fileName) :=
      fun h => absurd h hversioned
    have hstep := Aggregate.Step.publish a hdocument hactive hruns hoperation hbase hversion hname
      hchecked.publication hpublication hstaged hsettled
    rw [if_neg hversioned] at hstep
    exact .step hstep hkind

/-! ### What a deletion writes -/

theorem mem_activeAttempts {v : Db} {j a : String}
    (hv : Aggregate.of d (guards.region d v) = s) : (j, a) ∈ activeAttempts v d ↔
      ∃ r, s.attempt j a = some r ∧ r.state = .running ∧ (s.job j).any fun job => job.state.live := by
  subst hv
  have hattempt : (Aggregate.of d (guards.region d v)).attempt j a = v.get (.attempt d j a) :=
    region_of_static fun _ => rfl
  have hjob : (Aggregate.of d (guards.region d v)).job j = v.get (.job d j) :=
    region_of_static fun _ => rfl
  unfold activeAttempts
  rw [mem_table, hattempt, hjob]
  constructor
  · rintro ⟨k, r, hget, hpick⟩
    cases k <;> simp only [reduceCtorEq] at hpick
    split at hpick
    · next h =>
      obtain ⟨rfl, hrunning, hlive⟩ := h
      cases hpick
      exact ⟨r, hget, hrunning, hlive⟩
    · cases hpick
  · rintro ⟨r, hget, hrunning, hlive⟩
    exact ⟨.attempt d j a, r, hget, if_pos ⟨rfl, hrunning, hlive⟩⟩

theorem works_cancelAttempts {discarded : String → Except Err Unit}
    (attempts : List (String × String)) : ∀ s, Works Ok C d (cancelAttempts d discarded attempts)
      (fun _ t => t = { s with
        attempt := fun j => mapWhere (s.attempt j) (fun a _ => (j, a) ∈ attempts)
          fun r => { r with state := .cancelled } }) s := by
  induction attempts with
  | nil =>
    intro s
    refine .done ?_
    have hnone : ∀ j, mapWhere (s.attempt j) (fun a _ => decide ((j, a) ∈ []))
        (fun r => { r with state := .cancelled }) = s.attempt j :=
      fun j => mapWhere_of_miss fun _ _ _ => rfl
    simp only [hnone]
  | cons x attempts ih =>
    obtain ⟨j, a⟩ := x
    intro s
    refine .free free_discardIndexingAttempt fun _ => .changeAttempt (fun _ _ => rfl)
      fun _ => .free free_endLease fun _ => .conseq (ih _) fun _ t ht => ?_
    subst ht
    congr 1
    funext j' a'
    unfold mapWhere
    by_cases hj : j' = j
    · subst hj
      by_cases ha : a' = a
      · subst ha
        cases hr : s.attempt j' a' <;> simp [mapAt, hr]
      · cases hr : s.attempt j' a' <;> simp [mapAt, hr, ha]
    · cases hr : s.attempt j' a' <;> simp [hr, hj]

/-- What the acceptance of a deletion makes of the document. -/
theorem works_acceptDeletion {env : Env} {kinds : StepKind → Prop} {a : DeleteCall}
    (hd : a.documentId = d) (hkind : kinds .delete) (hdocument : s.document = some document)
    (hactive : document.lifecycleStatus = .active) :
    Works Ok C d (acceptDeletion env a document) (fun _ => Moves env kinds s) s := by
  subst hd
  refine .selectForUpdate fun v hv => .bind (works_cancelAttempts _ s) fun _ t ht => ?_
  subst ht
  refine Works.insertOther (fun _ => rfl) (fun _ => Aggregate.of_deletion) <|
    .changeDocument (fun _ _ => rfl) fun _ =>
    .changeAll (picks_cancelling _) fun x hx _ => ?_
  rw [Aggregate.of_cancelling, hx]
  refine .changeAllOf (picks_detaching _) fun v' x hx _ => ?_
  rw [Aggregate.of_detaching, hx]
  refine .deleteStaged <| .supersedePublications <|
    .changeAll (picks_supersedingVersion _ env a.now) fun x hx _ => ?_
  rw [Aggregate.of_supersedingVersion, hx]
  refine .changeAll (picks_cancellingVersion _ env a.now) fun x hx _ => ?_
  rw [Aggregate.of_cancellingVersion, hx]
  refine .deleteClaims <| .free free_stageDeletionTargets fun _ => ?_
  rw [← Prog.bind_done (appendIndexChange _ _ _ _ _)]
  refine .free free_appendIndexChange fun _ => .done ?_
  have hcancelled : ∀ j, mapWhere (s.attempt j)
      (fun b _ => (j, b) ∈ activeAttempts v a.documentId) (fun r => { r with state := .cancelled })
      = mapWhere (s.attempt j)
        (fun _ r => r.state = .running ∧ (s.job j).any fun job => job.state.live)
        (fun r => { r with state := .cancelled }) := by
    intro j
    funext b
    unfold mapWhere
    cases hr : s.attempt j b with
    | none => rfl
    | some r => simp [mem_activeAttempts hv, hr]
  simp only [hcancelled]
  exact .step (.delete a (stagedOf v' a.documentId) hdocument hactive) hkind

section Transactions

variable {D : Discipline Row} {env : Env} {kinds : StepKind → Prop}
  (hD : guards.Guarded Ok D) (hE : ∀ d x y, Ok d x → moves env kinds d x y → Ok d y)
include hD hE

theorem tracked_acceptReceipt (hclaiming : Claiming Ok) (hkind : kinds .publish) :
    Tracked D C env kinds (acceptReceipt env a) := by
  refine .bindFree hD .readRow fun _ => .orRaise fun _ _ =>
    .lockedDocument hD hE .fail fun document x hok hdocument => ?_
  refine .orRaise fun _ hd => .lockedJob <| .orRaise fun job hjob =>
    .ite (fun _ => .done (.inl rfl)) fun _ => .raiseIf fun _ =>
    .orRaise fun attemptId hactive => .raiseIf fun _ =>
    .bind works_checkReceipt fun _ t ht => ?_
  cases hd
  obtain ⟨rfl, hchecked⟩ := ht
  refine .lockedDocument <| .orRaise fun final hfinal => .lockedJob <|
    .orRaise fun finalJob hfinalJob => .raiseIf fun hruns => .check fun _ hoperation =>
    .raiseIf fun hbase => .free free_workerAuthorizationFence fun _ =>
    .check fun _ _ => ?_
  cases hdocument.symm.trans hfinal
  cases hjob.symm.trans hfinalJob
  obtain ⟨hrunning, hattempt⟩ := not_not.mp hruns
  obtain ⟨hlifecycle, hoperation⟩ := DocumentRow.active_of_assertOperation hoperation
  exact .bind (works_publishReceipt hclaiming hkind hdocument hlifecycle hoperation
    (not_not.mp hbase) hjob hrunning hattempt hchecked) fun _ _ ht => .done ht

theorem tracked_deleteDocument {a : DeleteCall} (hkind : kinds .delete) :
    Tracked D C env kinds (deleteDocument env a) := by
  refine .bindFree hD .raiseIf fun _ =>
    .lockedDocument hD hE .fail fun document x hok hdocument => ?_
  refine .orRaise fun _ hd => ?_
  cases hd
  have hbegin : Works Ok C a.documentId (beginDeletion env a document)
      (fun _ => Moves env kinds (.of a.documentId x)) (.of a.documentId x) := by
    unfold beginDeletion
    cases hlifecycle : document.lifecycleStatus with
    | pendingDelete => exact .ite (fun _ => .done (.inl rfl)) fun _ => .fail
    | deleted => exact .ite (fun _ => .done (.inl rfl)) fun _ => .fail
    | active =>
      refine .free (.ite (fun _ => .check) fun _ => trivial) fun _ =>
        .raiseIf fun _ => .free (.ite
          (fun _ => free_assertPublicSourceManifest) fun _ => trivial) fun _ =>
        .selectForUpdate fun _ _ => .check fun _ _ =>
        .bind (works_acceptDeletion rfl hkind hdocument hlifecycle) fun _ _ ht => .done ht
  exact .ite (fun _ => hbegin) fun _ => .withIdempotency (.inl rfl) hbegin

end Transactions

end RagQs.Documents
