import RagQs.Evaluation.ShadowReplay

/-!
# Shadow evaluation runs, in every run of the system

However any number of workers' calls and commands interleave, a claim that has been superseded
writes nothing, results come with success and are complete, attempts stay within the policy and
what is over stays over, and a recovery ends no attempt whose lease has not expired, as long as no
recovery reads a run that has been claimed again since it was listed.

## Main definitions

* `Claimed`, `Answered`, `RunPre` — what a worker's transaction goes on with.
* `ShadowSound` — what is asked of the runs.

## Main results

* `shadow_verified` — every transaction meets its specification.
* `shadow_runs_sound` — the runs in every run of the system.
* `claim_revoked_early` — a run of the system in which a recovery ends a new attempt.
-/

namespace RagQs.Evaluation

open Txn Discipline List Store AList

variable {M S : Type} {C : OnStatement (Row M S) Err} {R : Db M S → Db M S → Prop} {b d : Db M S}
  {G : Db M S → Prop}

variable {call : RunCall} {owner : String} {run : ShadowRun}
variable {id : String}

/-! ### New policies and new runs -/

/-- What a transaction leaves that does not touch the runs that are there. -/
def Adding (b d : Db M S) : Prop :=
  RunsOk (d ∪ b) ∧ RunChange b (d ∪ b) ∧ Quiet b (d ∪ b)

theorem Adding.nothing (hb : RunsOk b) : Adding b ∅ := by
  unfold Adding
  rw [empty_union]
  exact ⟨hb, .refl b, fun _ _ h => h, fun _ _ _ => rfl⟩

theorem free_of_taken {c : Db M S} {k : Key} (h : taken (d ∪ c : Db M S) [k] = false) (hsame : b.get k = c.get k) :
    (d ∪ b : Db M S).get k = none := by
  rw [get_union_congr hsame]
  simpa [taken] using h

theorem asOf_startPolicy {now : Time} (hb : RunsOk b) :
    AsOf C R b G (· = ∅) (startPolicy now : Tx M S Unit) fun _ => Adding b := by
  unfold startPolicy
  refine .bind (.select (ψ := fun _ d => d = ∅) fun _ _ _ h => h) fun latest => ?_
  by_cases hlatest : latest.isSome = true
  · rw [if_pos hlatest]
    exact .done fun d hd => by rw [hd]; exact .nothing hb
  rw [if_neg hlatest]
  unfold ensurePolicy
  refine .bind (.select (ψ := fun _ d => d = ∅) fun _ _ _ h => h) fun existing => ?_
  by_cases hexisting : Option.isSome existing = true
  · rw [if_pos hexisting]
    exact .done fun d hd => by rw [hd]; exact .nothing hb
  rw [if_neg hexisting]
  refine .insert fun d c _ hd htaken hsame _ => ?_
  subst hd
  have hfree := free_of_taken htaken (hsame _ mem_cons_self)
  rw [empty_union] at hfree
  have hadd := hb.addPolicy (p := defaultPolicy now) (by simp [defaultPolicy]) hfree
  unfold Adding
  rw [applyAll_union, empty_union]
  exact hadd

/-- A new run is being written. -/
structure Creating (call : RunCall) (b d : Db M S) : Prop where
  keys : ∀ k ∈ d, k.ofNewRun call.runId call.snapshotId
  new : b.get (.snapshot call.snapshotId) = none
  snapshot : ((d ∪ b : Db M S).get (.snapshot call.snapshotId)).isSome = true

theorem Creating.set {k : Key} {row : Row M S k} (h : Creating call b d)
    (hk : k.ofNewRun call.runId call.snapshotId) (hne : k ≠ .snapshot call.snapshotId) :
    Creating call b (d.set k (some row)) where
  keys k' hk' := by
    rcases (Store.mem_set ..).mp hk' with rfl | hk'
    · exact hk
    · exact h.keys k' hk'
  new := h.new
  snapshot := by
    rw [set_union, get_set_of_ne hne.symm]
    exact h.snapshot

theorem asOf_insertItems (items : List (String × SnapshotItemRow)) :
    AsOf C R b G (fun d => Creating call b d ∧ Key.run call.runId ∉ d)
      (insertItems call.snapshotId items : Tx M S Unit)
      fun _ d => Creating call b d ∧ Key.run call.runId ∉ d := by
  induction items with
  | nil => exact .done fun _ h => h
  | cons item items ih =>
    refine .bind (.insert fun d c _ hd _ _ _ => ?_) fun _ => ih
    refine ⟨hd.1.set (.inr (.inr (.inl ⟨_, rfl⟩))) (by simp), fun hk => ?_⟩
    exact hd.2 (((Store.mem_set ..).mp hk).resolve_left (by simp))

theorem asOf_insertRun {policy : PolicyRow} (hb : RunsOk b)
    (hpolicy : b.get (.policy policy.policyVersion) = some policy) :
    AsOf C R b G (· = ∅) (insertRun call policy : Tx M S Unit) fun _ => Adding b := by
  unfold insertRun
  refine .bind (ψ := fun _ d => Creating call b d ∧ Key.run call.runId ∉ d)
    (.insert fun d c _ hd htaken hsame _ => ?_) fun _ => ?_
  · subst hd
    have hfree := free_of_taken htaken (hsame _ mem_cons_self)
    rw [empty_union] at hfree
    refine ⟨⟨fun k hk => ?_, hfree, ?_⟩, fun hk => ?_⟩
    · rcases (Store.mem_set ..).mp hk with rfl | hk
      · exact .inr (.inl rfl)
      · exact absurd hk (notMem_empty k)
    · rw [applyAll_union, applyAll_cons, applyAll_nil, get_set_self]
      rfl
    · exact notMem_empty _ (((Store.mem_set ..).mp hk).resolve_left (by simp))
  refine (asOf_insertItems _).bind fun _ => ?_
  refine .bind (ψ := fun _ d => Creating call b d ∧ b.get (.run call.runId) = none ∧
    (d ∪ b : Db M S).get (.run call.runId) = some (newRun call policy))
    (.insert fun d c _ hd htaken hsame _ => ?_) fun _ => ?_
  · refine ⟨hd.1.set (.inl rfl) (by simp), ?_, ?_⟩
    · have hfree := free_of_taken htaken (hsame _ mem_cons_self)
      rwa [get_union_of_notMem hd.2] at hfree
    · rw [applyAll_union, applyAll_cons, applyAll_nil, get_set_self]
  refine .insert fun d c _ hd _ _ _ => ?_
  obtain ⟨hcreating, hnew, hget⟩ := hd
  have hset : Creating call b (d.set (.runCommand call.userId call.idempotencyKey)
      (some (⟨call.requestHash, call.runId, call.now⟩ : RunCommandRow))) :=
    hcreating.set (.inr (.inr (.inr ⟨call.userId, call.idempotencyKey, rfl⟩))) (by simp)
  refine hb.create hset.new hnew (fun k hk => ?_) hset.snapshot
    (r := newRun call policy) ?_ rfl rfl rfl ⟨policy, hpolicy, ?_⟩
  · exact get_union_of_notMem fun hmem => hk (hset.keys k hmem)
  · rw [applyAll_union, applyAll_cons, applyAll_nil,
      get_set_of_ne (by simp)]
    exact hget
  · exact (hb.policy _ _ hpolicy).2

variable {v : Db M S}

theorem latestPolicy_some {p : PolicyRow} (h : latestPolicy v = some p) :
    ∃ version, v.get (.policy version) = some p := by
  obtain ⟨k, r, hget, hpick⟩ := mem_table.mp (argmax_mem h)
  cases k with
  | policy version =>
    cases hpick
    exact ⟨version, hget⟩
  | _ => cases hpick

/-- **A new run.** -/
theorem asOf_createShadowRun (hb : RunsOk b) (hG : ∀ c, G c → RunsOk c ∧ RunChange c b) :
    AsOf C R b G (· = ∅) (createShadowRun call : Tx M S String) fun _ => Adding b := by
  unfold createShadowRun
  refine .bind (.raiseIf (ψ := fun _ d => d = ∅) fun _ _ h => h) fun _ => ?_
  refine .bind (.select (ψ := fun _ d => d = ∅) fun _ _ _ h => h) fun command => ?_
  cases command with
  | some command =>
    refine .bind (.raiseIf (ψ := fun _ d => d = ∅) fun _ _ h => h) fun _ => ?_
    exact .done fun d hd => by rw [hd]; exact .nothing hb
  | none =>
    simp only
    unfold createNewRun
    refine (AsOf.raiseIf (ψ := fun _ d => d = ∅) fun _ _ h => h).bind fun _ => ?_
    refine (AsOf.select (ψ := fun (o : Option PolicyRow) d => d = ∅ ∧ ∀ p, o = some p →
      b.get (.policy p.policyVersion) = some p) fun d c hc hd => ?_).bind fun latest => ?_
    · subst hd
      refine ⟨rfl, fun p hp => ?_⟩
      rw [empty_union] at hp
      obtain ⟨version, hget⟩ := latestPolicy_some hp
      rw [((hG c hc).1.policy version p hget).1]
      exact (hG c hc).2.policy version p hget
    refine (AsOf.orRaise (ψ := fun p d => d = ∅ ∧
      b.get (.policy (PolicyRow.policyVersion p)) = some p) fun p hp d hd =>
        ⟨hd.1, hd.2 p hp⟩).bind fun policy => ?_
    refine .of_fact (fun _ h => h.2) fun hpolicy => ?_
    refine .bind (.select (ψ := fun _ d => d = ∅) fun _ _ _ h => h.1) fun active => ?_
    refine .bind (.raiseIf (ψ := fun _ d => d = ∅) fun _ _ h => h) fun _ => ?_
    refine .bind (.raiseIf (ψ := fun _ d => d = ∅) fun _ _ h => h) fun _ => ?_
    refine .bind (.check (ψ := fun _ d => d = ∅) fun _ _ _ h => h) fun _ => ?_
    refine .bind (.raiseIf (ψ := fun _ d => d = ∅) fun _ _ h => h) fun _ => ?_
    exact (asOf_insertRun hb hpolicy).bind fun _ => .done fun _ h => h

/-! ### The transactions -/

/-- A worker has claimed the run: its pass has committed. -/
def Claimed (owner : String) (run : ShadowRun) (h : List (Ended (RunOp M) Err RunResult)) : Prop :=
  ∃ call n k, (⟨.pass call, n, .ok (.passed k (some run))⟩ : Ended (RunOp M) Err RunResult) ∈ h ∧
    call.owner = owner

/-- The worker has then read the policy of the run. -/
def Answered (owner : String) (run : ShadowRun) (policy : Option PolicyRow)
    (h : List (Ended (RunOp M) Err RunResult)) : Prop :=
  ∃ h₁ h₂ n, h = h₁ ++ ⟨.policyFor run.row.policyVersion, n, .ok (.policy policy)⟩ :: h₂ ∧
    Claimed owner run (h₂.rtake n)

/-- What a transaction goes on with: a worker's with the run it has claimed, and after a judge
failure with the policy it has read. -/
def RunPre : RunOp M → List (Ended (RunOp M) Err RunResult) → Prop
  | .process run call, h => Claimed call.owner run h
  | .judgeFailure run owner _ maxAttempts _, h => Claimed owner run h ∧ ∃ policy,
      Answered owner run policy h ∧ maxAttempts = (policy.map PolicyRow.maxAttempts).getD 3
  | _, _ => True

/-- The claims of a history are of runs that are there, and the policies that were read are those
of the runs. -/
structure ClaimsKnown (c : Db M S) (h : List (Ended (RunOp M) Err RunResult)) : Prop where
  run : ∀ owner run, Claimed owner run h →
    ∃ r, c.get (.run run.runId) = some r ∧ run.row.Later r
  policy : ∀ owner run policy, Answered owner run policy h →
    ∃ p, policy = some p ∧ c.get (.policy run.row.policyVersion) = some p

/-- What is asked of the reads of a transaction. -/
def reads (M S : Type) : RunOp M → OnStatement (Row M S) Err := fun _ => ExpiredReads M S

/-- What a transaction leaves, beside the invariant. -/
def RunPost : RunOp M → Db M S → RunResult → Db M S → Db M S → Prop
  | .startPolicy _, _, _, b, v => Quiet b v
  | .createRun _, _, _, b, v => Quiet b v
  | .policyFor version, c₀, a, b, v => v = b ∧
      ∀ p : PolicyRow, c₀.get (.policy version) = some p → a = .policy (some p)
  | .pass call, _, a, b, v => (∀ id i c, v.get (.result id i c) = b.get (.result id i c)) ∧
      (∀ id (r : RunRow), b.get (.run id) = some r → r.state = .running →
        v.get (.run id) = some r ∨ r.leaseExpiresAt.any (· ≤ (call.recoverNow id).2) = true) ∧
      ∀ k run, a = .passed k (some run) →
        ∃ r, v.get (.run run.runId) = some r ∧ run.row.Later r
  | .process run call, _, _, b, v => Worked run call.owner b v
  | .judgeFailure run owner _ _ _, _, _, b, v => Worked run owner b v

/-- The discipline of the runs. -/
abbrev runDiscipline (M S : Type) : Discipline (Row M S) :=
  .ofChange RunsOk RunChange .refl fun h h' => h.trans h'

/-- **Every transaction meets its specification.** -/
theorem shadow_verified : VerifiedFrom (runDiscipline M S) (fun op => (reads M S op).holds)
    (runBody : RunOp M → Tx M S RunResult) RunPre RunPost (fun _ _ _ _ => True) ClaimsKnown := by
  refine AsOf.verified fun op c₀ hist b hpre hknown hc₀ hb hchange => ?_
  have hG : ∀ c, RunsOk c ∧ RunChange c₀ c ∧ RunChange c b → RunsOk c ∧ RunChange c b :=
    fun c hc => ⟨hc.1, hc.2.2⟩
  -- a run that was claimed is there at the commit, with its snapshot in every store that is read
  have hclaimed : ∀ {owner run}, Claimed owner run hist → ∃ r, b.get (.run run.runId) = some r ∧
      run.row.Later r ∧ ∀ c, RunChange c₀ c →
        (c.get (.snapshot run.row.frozenSnapshot.snapshotId)).isSome = true := by
    intro owner run hclaim
    obtain ⟨r₀, hget₀, hlater₀⟩ := hknown.run owner run hclaim
    obtain ⟨r, hget, hlater⟩ := hchange.run _ r₀ hget₀
    refine ⟨r, hget, hlater₀.trans hlater, fun c hc => hc.snapshot _ ?_⟩
    rw [← hlater₀.snapshot]
    exact hc₀.frozen _ r₀ hget₀
  cases op with
  | startPolicy now => exact (asOf_startPolicy hb).bind fun _ => .done fun _ h => h
  | createRun call => exact (asOf_createShadowRun hb hG).bind fun _ => .done fun _ h => h
  | policyFor version =>
    refine (AsOf.select (ψ := fun (o : Option PolicyRow) d => d = ∅ ∧
      ∀ p : PolicyRow, c₀.get (.policy version) = some p → o = some p) fun d c hc hd => ?_).bind
      fun o => .done fun d hd => ?_
    · subst hd
      refine ⟨rfl, fun p hp => ?_⟩
      rw [empty_union]
      exact hc.2.1.policy version p hp
    · obtain ⟨rfl, hread⟩ := hd
      rw [empty_union]
      exact ⟨hb, .refl b, rfl, fun p hp => by rw [hread p hp]⟩
  | pass call =>
    refine (asOf_pass hb hG).bind fun x => .done fun d hd => ?_
    obtain ⟨hpassing, hrun⟩ := hd
    refine ⟨hpassing.ok, hpassing.change, fun id i c => ?_, hpassing.kept, fun k run ha => ?_⟩
    · refine get_union_of_notMem fun hk => ?_
      obtain ⟨id', heq⟩ := hpassing.keys _ hk
      cases heq
    · exact hrun run (RunResult.passed.inj ha).2
  | process run call =>
    obtain ⟨r, hget, hlater, hsnapshot⟩ := hclaimed hpre
    refine (asOf_process hb hget hlater fun c hc => ⟨hc.2.2, hsnapshot c hc.2.1⟩).bind
      fun _ => .done fun _ h => h
  | judgeFailure run owner code maxAttempts now =>
    obtain ⟨hclaim, policy, hanswered, rfl⟩ := hpre
    obtain ⟨r, hget, hlater, -⟩ := hclaimed hclaim
    obtain ⟨p, rfl, hp⟩ := hknown.policy owner run policy hanswered
    refine (asOf_judgeFailure hb fun r' hget' p' hp' => ?_).bind fun _ => .done fun _ h => h
    rw [hget] at hget'
    cases hget'
    rw [hlater.policy, hchange.policy _ p hp] at hp'
    cases hp'
    rfl

variable {h : List (Ended (RunOp M) Err RunResult)}

theorem ClaimsKnown.later {c c' : Db M S} (hknown : ClaimsKnown c h) (hchange : RunChange c c') :
    ClaimsKnown c' h where
  run owner run hclaim := by
    obtain ⟨r, hget, hlater⟩ := hknown.run owner run hclaim
    obtain ⟨r', hget', hlater'⟩ := hchange.run _ r hget
    exact ⟨r', hget', hlater.trans hlater'⟩
  policy owner run policy hanswered := by
    obtain ⟨p, rfl, hp⟩ := hknown.policy owner run policy hanswered
    exact ⟨p, rfl, hchange.policy _ p hp⟩

variable {e : Ended (RunOp M) Err RunResult}

theorem Claimed.cons (hclaim : Claimed owner run (e :: h)) :
    (∃ call k, e.op = .pass call ∧ e.result = .ok (.passed k (some run))) ∨
      Claimed owner run h := by
  obtain ⟨call, n, k, hmem, howner⟩ := hclaim
  rcases mem_cons.mp hmem with rfl | hmem
  · exact .inl ⟨call, k, rfl, rfl⟩
  · exact .inr ⟨call, n, k, hmem, howner⟩

theorem Answered.cons {policy : Option PolicyRow} (hanswered : Answered owner run policy (e :: h)) :
    (e.op = .policyFor run.row.policyVersion ∧ e.result = .ok (.policy policy) ∧
      Claimed owner run (h.rtake e.opened)) ∨ Answered owner run policy h := by
  obtain ⟨h₁, h₂, n, heq, hclaim⟩ := hanswered
  cases h₁ with
  | nil =>
    cases heq
    exact .inl ⟨rfl, rfl, hclaim⟩
  | cons e' h₁ =>
    cases heq
    exact .inr ⟨h₁, h₂, n, rfl, hclaim⟩

theorem claims_preserved : Preserved (runDiscipline M S) RunPost (fun _ _ _ _ => True)
    ClaimsKnown where
  commit c₀ c c' h op n a hsince hc hc' hchange hpost hknown := by
    refine ⟨fun owner run hclaim => ?_, fun owner run policy hanswered => ?_⟩
    · rcases hclaim.cons with ⟨call, k, rfl, hresult⟩ | hclaim
      · obtain rfl : a = .passed k (some run) := by simpa using hresult
        exact hpost.2.2 k run rfl
      · exact (hknown.later hchange).run owner run hclaim
    · rcases hanswered.cons with ⟨rfl, hresult, hclaim⟩ | hanswered
      · -- the run was there when the transaction was opened, and so was its policy
        obtain rfl : a = .policy policy := by simpa using hresult
        obtain ⟨r₀, hget₀, hlater₀⟩ := hsince.holds.run owner run hclaim
        obtain ⟨p, hp, -⟩ := hsince.inv.bounded _ r₀ hget₀
        rw [hlater₀.policy] at hp
        cases hpost.2 p hp
        exact ⟨p, rfl, hchange.policy _ p (hsince.guar.policy _ p hp)⟩
      · exact (hknown.later hchange).policy owner run policy hanswered
  error c₀ c h op n e hsince hc _ hknown := by
    refine ⟨fun owner run hclaim => ?_, fun owner run policy hanswered => ?_⟩
    · rcases hclaim.cons with ⟨call, k, -, hresult⟩ | hclaim
      · cases hresult
      · exact hknown.run owner run hclaim
    · rcases hanswered.cons with ⟨-, hresult, -⟩ | hanswered
      · cases hresult
      · exact hknown.policy owner run policy hanswered

/-! ### The runs of the system -/

/-- The system of the shadow runs. -/
abbrev RunSystem (M S : Type) := Sys (Row M S) (RunOp M) Err RunResult

/-- The move `m` after the moves `ms₁` of the run `ms` takes it from `s` to `t`. -/
def RunAt (db : Db M S) (ms ms₁ : List (Move (RunOp M))) (m : Move (RunOp M))
    (s t : RunSystem M S) : Prop :=
  ms₁ ++ [m] <+: ms ∧ Txn.run runBody (Sys.init db) ms₁ = some s ∧ step runBody s m = some t

/-- The claim a transaction works on, with its owner. -/
def RunOp.claim : RunOp M → Option (ShadowRun × String)
  | .process run call => some (run, call.owner)
  | .judgeFailure run owner _ _ _ => some (run, owner)
  | _ => none

/-- What is asked of the shadow evaluation runs in the run `ms` of the system. -/
structure ShadowSound (db : Db M S) (ms : List (Move (RunOp M))) : Prop where
  /-- A worker whose claim has been overtaken commits nothing. -/
  fenced : ∀ ms₁ i s t x run owner, RunAt db ms ms₁ (.advance i) s t → s.sessions i = some x →
    x.op.claim = some (run, owner) → ∀ ms₀ s₀, ms₀ <+: ms₁ →
      Txn.run runBody (Sys.init db) ms₀ = some s₀ → Overtaken run s₀.db →
        ∀ k, t.db.get k = s.db.get k
  /-- New results are committed together with the success of their run. -/
  visible : ∀ ms₁ m s t, RunAt db ms ms₁ m s t → ∀ id i c,
    t.db.get (.result id i c) ≠ s.db.get (.result id i c) →
      (∃ r : RunRow, s.db.get (.run id) = some r ∧ r.state = .running) ∧
        ∃ r : RunRow, t.db.get (.run id) = some r ∧ r.state = .succeeded
  /-- A run that has succeeded has one result for every sample item and candidate configuration
  it was frozen to, another run has none. -/
  complete : ∀ ms₁ s, ms₁ <+: ms → Txn.run runBody (Sys.init db) ms₁ = some s → ∀ id i c,
    (s.db.get (.result id i c)).isSome = true ↔ ∃ r : RunRow, s.db.get (.run id) = some r ∧
      r.state = .succeeded ∧ (s.db.get (.item r.frozenSnapshot.snapshotId i)).isSome = true ∧
        c ∈ r.candidateConfigVersions
  /-- The attempt of a run is within its policy. -/
  bounded : ∀ ms₁ s, ms₁ <+: ms → Txn.run runBody (Sys.init db) ms₁ = some s →
    ∀ id (r : RunRow), s.db.get (.run id) = some r →
      ∃ p : PolicyRow, s.db.get (.policy r.policyVersion) = some p ∧ r.attempt ≤ p.maxAttempts
  /-- A run that is over stays as it is. -/
  ended : ∀ ms₁ m s t, RunAt db ms ms₁ m s t → ∀ id (r : RunRow), s.db.get (.run id) = some r →
    r.state.terminal = true → t.db.get (.run id) = some r
  /-- A pass ends no attempt that is running under a lease that has not expired. -/
  recovery : ∀ ms₁ i s t x call, RunAt db ms ms₁ (.advance i) s t → s.sessions i = some x →
    x.op = .pass call → ∀ id (r : RunRow), s.db.get (.run id) = some r → r.state = .running →
      t.db.get (.run id) = some r ∨ r.leaseExpiresAt.any (· ≤ (call.recoverNow id).2) = true

variable {db : Db M S} {ms ms₁ ms₂ : List (Move (RunOp M))} {m : Move (RunOp M)}
  {s t : RunSystem M S}

/-- The invariant of the system. -/
abbrev RunsSound (s : RunSystem M S) : Prop :=
  SysOk (runDiscipline M S) (fun op => (reads M S op).holds) RunPost (fun _ _ _ _ => True)
    ClaimsKnown s

theorem runs_later (hdb : RunsOk db)
    (hA : AllowsRun (fun op => (reads M S op).holds) runBody (Sys.init db) ms)
    (hpre : OpensRun RunPre runBody (Sys.init db) ms) (h : ms₁ ++ ms₂ <+: ms)
    (hs : Txn.run runBody (Sys.init db) ms₁ = some s)
    (ht : Txn.run runBody (Sys.init db) (ms₁ ++ ms₂) = some t) :
    RunsSound s ∧ RunChange s.db t.db := by
  obtain ⟨ms₃, rfl⟩ := h
  have hstart : RunsSound (Sys.init db : RunSystem M S) := by
    refine .init hdb ⟨fun owner run hclaim => ?_, fun owner run policy hanswered => ?_⟩
    · obtain ⟨call, n, k, hmem, -⟩ := hclaim
      cases hmem
    · obtain ⟨h₁, h₂, n, heq, -⟩ := hanswered
      simp at heq
  rw [append_assoc] at hA hpre
  obtain ⟨hA₁, hA₂⟩ := allowsRun_append hA hs
  obtain ⟨hpre₁, hpre₂⟩ := opensRun_append hpre hs
  have hok := (shadow_verified.run claims_preserved ms₁ hA₁ hpre₁ hstart hs).1
  rw [run_append, hs] at ht
  exact ⟨hok, (shadow_verified.run claims_preserved ms₂ (allowsRun_append hA₂ ht).1
    (opensRun_append hpre₂ ht).1 hok ht).2⟩

theorem RunPost.visible {op : RunOp M} {c₀ b : Db M S} {a : RunResult} (h : RunPost op c₀ a b v)
    {i c : String} (hne : v.get (.result id i c) ≠ b.get (.result id i c)) :
    (∃ r : RunRow, b.get (.run id) = some r ∧ r.state = .running) ∧
      ∃ r : RunRow, v.get (.run id) = some r ∧ r.state = .succeeded := by
  have hworked : ∀ {run owner}, Worked run owner b v →
      (∃ r : RunRow, b.get (.run id) = some r ∧ r.state = .running) ∧
        ∃ r : RunRow, v.get (.run id) = some r ∧ r.state = .succeeded := by
    intro run owner hw
    obtain ⟨rfl, hsucceeded⟩ := hw.result id i c hne
    rcases hw.held with ⟨r, hget, hrunning, -⟩ | hsame
    · exact ⟨⟨r, hget, hrunning⟩, hsucceeded⟩
    · exact absurd (hsame _) hne
  cases op with
  | startPolicy now => exact absurd (h.result id i c) hne
  | createRun call => exact absurd (h.result id i c) hne
  | policyFor version => exact absurd (by rw [h.1]) hne
  | pass call => exact absurd (h.1 id i c) hne
  | process run call => exact hworked h
  | judgeFailure run owner code maxAttempts now => exact hworked h

theorem RunPost.fenced {op : RunOp M} {c₀ b : Db M S} {a : RunResult} (h : RunPost op c₀ a b v)
    (hclaim : op.claim = some (run, owner)) (hnot : ¬ HeldBy run owner b) (k : Key) :
    v.get k = b.get k := by
  cases op with
  | process run' call =>
    cases hclaim
    exact h.held.resolve_left hnot k
  | judgeFailure run' owner' code maxAttempts now =>
    cases hclaim
    exact h.held.resolve_left hnot k
  | _ => cases hclaim

/-- **The shadow evaluation runs, in every run of the system** whose recoveries read no run that
runs, under the attempt they are called for, with a lease that has not expired. -/
theorem shadow_runs_sound (hdb : RunsOk db)
    (hreads : AllowsRun (fun _ => (ExpiredReads M S).holds) runBody (Sys.init db) ms)
    (hclaims : OpensRun RunPre runBody (Sys.init db) ms) : ShadowSound db ms := by
  have hstate : ∀ {ms₁ s}, ms₁ <+: ms → Txn.run runBody (Sys.init db) ms₁ = some s →
      RunsSound s := fun {ms₁ s} hpre hs => by
    have hnil : ms₁ ++ [] <+: ms := by rwa [List.append_nil]
    exact (runs_later hdb hreads hclaims hnil hs (by rw [List.append_nil]; exact hs)).1
  have hmove : ∀ {ms₁ m s t}, RunAt db ms ms₁ m s t → RunsSound s ∧ RunChange s.db t.db := by
    intro ms₁ m s t ⟨hpre, hs, hm⟩
    refine runs_later hdb hreads hclaims hpre hs ?_
    rw [run_append, hs]
    simp [Txn.run, hm]
  refine ⟨fun ms₁ i s t x run owner hat hx hclaim ms₀ s₀ hpre₀ hs₀ hovertaken k => ?_,
    fun ms₁ m s t hat id i c hne => ?_, fun ms₁ s hpre hs id i c => (hstate hpre hs).inv.results ..,
    fun ms₁ s hpre hs id r hget => (hstate hpre hs).inv.bounded id r hget,
    fun ms₁ m s t hat id r hget hover => ?_, fun ms₁ i s t x call hat hx hop id r hget hrun => ?_⟩
  · obtain ⟨hsound, -⟩ := hmove hat
    obtain ⟨ms₂, rfl⟩ := hpre₀
    obtain ⟨hpre, hs, hm⟩ := hat
    have hlater := (runs_later hdb hreads hclaims ((List.prefix_append ..).trans hpre) hs₀ hs).2
    rcases hsound.step_commit hm with hsame | ⟨j, op, c₀, a, d, n, hj, hx', hdb', hpost⟩
    · rw [hsame]
    · cases hj
      rw [hx] at hx'
      cases hx'
      exact hpost.fenced hclaim (hovertaken.not_held hlater) k
  · obtain ⟨hsound, -⟩ := hmove hat
    rcases hsound.step_commit hat.2.2 with hsame | ⟨j, op, c₀, a, d, n, -, -, -, hpost⟩
    · exact absurd (by rw [hsame]) hne
    · exact hpost.visible hne
  · obtain ⟨r', hget', hlater⟩ := (hmove hat).2.run id r hget
    rw [hget', hlater.ended hover]
  · obtain ⟨hsound, -⟩ := hmove hat
    rcases hsound.step_commit hat.2.2 with hsame | ⟨j, op, c₀, a, d, n, hj, hx', hdb', hpost⟩
    · rw [hsame]
      exact .inl hget
    · cases hj
      rw [hx] at hx'
      cases hx'
      obtain rfl : op = .pass call := hop
      exact hpost.2.1 id r hget hrun

/-! ### Runs that can be checked -/

/-- No run is running. -/
def noneRunning (v : Db M S) : Bool :=
  (table v fun k r => match k, r with
    | .run _, r => if r.state = .running then some () else none
    | _, _ => none).isEmpty

theorem noneRunning_sound (h : noneRunning v = true) {r : RunRow} (hget : v.get (.run id) = some r) :
    r.state ≠ .running := by
  intro hrun
  have hmem : () ∈ table v fun k r => match k, r with
      | .run _, r => if r.state = .running then some () else none
      | _, _ => none :=
    mem_table.mpr ⟨.run id, r, hget, by simp [hrun]⟩
  rw [List.isEmpty_iff.mp h] at hmem
  cases hmem

/-- How a program goes on: by ending, by an error, by a statement that writes nothing on no rows,
or by one that writes. -/
def kind {α : Type} : Tx M S α → ℕ
  | .done _ => 0
  | .fail _ => 1
  | .stmt _ w _ => if (w ∅).isEmpty then 2 else 3

/-- The next statement writes, or goes on otherwise on no rows than on the rows of a store. -/
def tellsApart {α : Type} (probe : Db M S) (p : Tx M S α) (v : Db M S) : Bool :=
  match p with
  | .stmt _ w f => !(w v).isEmpty || kind (f ∅) ≠ kind (f probe)
  | _ => true

theorem recoverRead_idle {α : Type} {attempt maxAttempts : ℕ} {next now : Time}
    {row : Option RunRow} (h : ∀ r, row = some r → r.state ≠ .running) (rest : Bool → Tx M S α) :
    recoverRead id attempt next now maxAttempts row >>= rest = rest false := by
  cases row with
  | none => rfl
  | some r =>
    simp only [recoverRead]
    rw [if_pos (.inl (h r rfl))]
    rfl

variable {probe : Db M S}

theorem expiredReads_of_tellsApart {α : Type} (hprobe : noneRunning probe = true) {p : Tx M S α}
    (h : tellsApart probe p v = true) : (ExpiredReads M S).holds p v := by
  intro id attempt next now maxAttempts rest hp
  subst hp
  change (!([] : List (Write (Row M S))).isEmpty ||
    decide (kind (recoverRead id attempt next now maxAttempts ((∅ : Db M S).get (.run id)) >>= rest)
      ≠ kind (recoverRead id attempt next now maxAttempts (probe.get (.run id)) >>= rest)))
    = true at h
  rw [recoverRead_idle fun r hr => by simp at hr,
    recoverRead_idle fun r hr => noneRunning_sound hprobe hr] at h
  simp at h

/-- The claim a worker's transaction goes on with has been made. -/
def claimed (run : ShadowRun) (owner : String) (h : List (Ended (RunOp M) Err RunResult)) : Bool :=
  h.any fun e => match e.op, e.result with
    | .pass call, .ok (.passed _ (some run')) => call.owner = owner && run' = run
    | _, _ => false

theorem claimed_sound (hclaimed : claimed run owner h = true) : Claimed owner run h := by
  obtain ⟨⟨op, n, result⟩, hmem, htest⟩ := any_eq_true.mp hclaimed
  split at htest
  · rename_i call k run' hop hresult
    obtain ⟨howner, hrun⟩ := Bool.and_eq_true_iff.mp htest
    simp only at hop hresult
    subst hop hresult
    rw [decide_eq_true_eq.mp hrun] at hmem
    exact ⟨call, n, k, hmem, decide_eq_true_eq.mp howner⟩
  · cases htest

/-- A move under a claim that was made, or a statement that recovers no run. -/
def plainMove (probe : Db M S) (s : RunSystem M S) : Move (RunOp M) → Bool
  | .start _ (.process run call) => claimed run call.owner s.hist
  | .start _ (.judgeFailure ..) => false
  | .advance i => match s.sessions i with
    | some x => noneRunning (x.patch ∪ s.db) || tellsApart probe x.prog (x.patch ∪ s.db)
    | none => true
  | _ => true

theorem allows_of_plainMove (hprobe : noneRunning probe = true) (s : RunSystem M S)
    (m : Move (RunOp M)) (h : plainMove probe s m = true) :
    Allows (fun _ => (ExpiredReads M S).holds) s m := by
  rintro i x rfl hx
  simp only [plainMove, hx, Bool.or_eq_true] at h
  rcases h with hnone | hapart
  · intro id attempt next now maxAttempts rest hp r hget hrun
    exact absurd hrun (noneRunning_sound hnone hget)
  · exact expiredReads_of_tellsApart hprobe hapart

theorem opens_of_plainMove (s : RunSystem M S) (m : Move (RunOp M)) (h : plainMove probe s m = true) :
    Opens RunPre s m := by
  rintro i op rfl
  cases op with
  | process run call => exact claimed_sound h
  | judgeFailure run owner code maxAttempts now => cases h
  | _ => trivial

/-! ### A run of the system, and one in which an attempt is revoked too early -/

/-- A policy that one sample item is enough for. -/
def shadowPolicy : PolicyRow :=
  { defaultPolicy 0 with policyVersion := "p", minRealQueries := 1 }

/-- There is only the policy. -/
def shadowStart : Db Unit Unit := (∅ : Db Unit Unit).set (.policy "p") (some shadowPolicy)

/-- An operator creates the run `"r"` of one sample item under one configuration. -/
def shadowCall : RunCall where
  role := "ops"
  userId := "u"
  spaceId := "s"
  idempotencyKey := "k"
  requestHash := "h"
  spaceExists := true
  samples _ := [("q", ⟨0, "h"⟩)]
  preflight := .ok ()
  candidateConfigVersions := ["c"]
  goldenSetVersion := none
  comparatorKey _ := "ck"
  runId := "r"
  snapshotId := "n"
  now := 0

/-- The pass of a worker whose clock reads `now` until the runs are listed and `later` from then
on. -/
def passCall (owner fencingToken : String) (now later : Time) : PassCall where
  owner
  requeueNow := now
  listNow := now
  recoverNow _ := (later, later)
  claimNow := later
  busy _ := false
  fencingToken

/-- The worker `"a"` claims the run for a minute. -/
def shadowClaim : List (Move (RunOp Unit)) :=
  alone 0 (.createRun shadowCall) 8 ++
    alone 1 (.pass (passCall "a" "t₁" 1000000 1000000)) 7

/-- What the worker `"a"` has claimed. -/
def shadowClaimed : ShadowRun where
  runId := "r"
  row := (newRun shadowCall shadowPolicy).claim (newRun shadowCall shadowPolicy) "a" "t₁" 60 1000000

/-- The worker `"a"` replays the sample item. -/
def shadowReplay : ReplayCall Unit where
  owner := "a"
  policy := some shadowPolicy
  start := 1000000
  clock _ _ := ⟨2000000, 2000000, 2000000⟩
  outcome _ _ := .ok ((), 3000000)
  finish := 4000000

/-- The run succeeds. -/
def shadowFinished : List (Move (RunOp Unit)) :=
  shadowClaim ++ alone 2 (.process shadowClaimed shadowReplay) 4

theorem runsOk_empty : RunsOk (∅ : Db M S) where
  free _ _ h := by simp at h
  policy _ _ h := by simp at h
  bounded _ _ h := by simp at h
  frozen _ _ h := by simp at h
  results _ _ _ := by simp

theorem runsOk_shadowStart : RunsOk shadowStart :=
  (runsOk_empty.addPolicy (p := shadowPolicy) (by decide) (by simp)).1

theorem shadow_runs_sound_sample : ShadowSound shadowStart shadowFinished ∧
    ∃ s : RunSystem Unit Unit, Txn.run runBody (Sys.init shadowStart) shadowFinished = some s ∧
      (s.db.get (.result "r" "q" "c")).isSome = true := by
  have hplain : checksRun (plainMove (((∅ : Db Unit Unit).set (.item "n" "q") (some ⟨0, "h"⟩)).set
      (.run "r") (some (newRun shadowCall shadowPolicy)))) runBody (Sys.init shadowStart)
      shadowFinished = true := by
    decide +kernel
  have hrun : (Txn.run (runBody : RunOp Unit → Tx Unit Unit RunResult) (Sys.init shadowStart)
      shadowFinished).map (fun s => (s.db.get (.result "r" "q" "c")).isSome) = some true := by
    decide +kernel
  exact ⟨shadow_runs_sound runsOk_shadowStart
    (allowsRun_of_checksRun (allows_of_plainMove (by decide +kernel)) _ _ hplain)
    (opensRun_of_checksRun opens_of_plainMove _ _ hplain), Option.map_eq_some_iff.mp hrun⟩

/-- The lease of the first claim expires, and a pass lists the run.  Meanwhile another recovers
the run and a third claims it again, one second before the first reads it. -/
def shadowListed : List (Move (RunOp Unit)) :=
  shadowClaim ++ .start 2 (.pass (passCall "b" "t₂" 70000000 72000000)) ::
    replicate 2 (.advance 2) ++
    alone 3 (.pass (passCall "c" "t₃" 70000000 70000000)) 9 ++
    alone 4 (.pass (passCall "d" "t₄" 71000000 71000000)) 7

/-- The first pass goes on to its commit. -/
def shadowRevoked : List (Move (RunOp Unit)) :=
  shadowListed ++ replicate 7 (.advance 2)

/-- The run, its lease and the run after the move `m`, with the clock of the pass that `m` goes on
with. -/
def revoked (s : RunSystem Unit Unit) :
    Option (Option (RunState × Option Time) × Option RunState × Time) :=
  (s.sessions 2).bind fun x => match x.op with
    | .pass call => (step runBody s (.advance 2)).map fun t =>
      ((s.db.get (.run "r")).map fun r : RunRow => (r.state, r.leaseExpiresAt),
        (t.db.get (.run "r")).map fun r : RunRow => r.state, (call.recoverNow "r").2)
    | _ => none

theorem claim_revoked_early :
    ¬ ∀ (db : Db Unit Unit) (ms : List (Move (RunOp Unit))), RunsOk db →
      OpensRun RunPre (runBody : RunOp Unit → Tx Unit Unit RunResult) (Sys.init db) ms →
        ShadowSound db ms := by
  intro h
  have hplain : checksRun (fun s m => match m with
      | .start _ _ => plainMove (∅ : Db Unit Unit) s m
      | _ => true) runBody (Sys.init shadowStart) shadowRevoked = true := by
    decide +kernel
  have hopens : OpensRun RunPre (runBody : RunOp Unit → Tx Unit Unit RunResult)
      (Sys.init shadowStart) shadowRevoked := by
    refine opensRun_of_checksRun (fun s m hm => ?_) _ _ hplain
    cases m with
    | start i op => exact opens_of_plainMove s _ hm
    | _ => rintro i op heq; cases heq
  have hlast : (Txn.run runBody (Sys.init shadowStart)
      (shadowListed ++ List.replicate 6 (.advance 2))).bind revoked
        = some (some (.running, some 131000000), some .retryWait, 72000000) := by
    decide +kernel
  obtain ⟨s, hs, hrevoked⟩ := Option.bind_eq_some_iff.mp hlast
  obtain ⟨x, hx, hstep⟩ := Option.bind_eq_some_iff.mp hrevoked
  split at hstep
  · rename_i call hop
    obtain ⟨t, ht, hrows⟩ := Option.map_eq_some_iff.mp hstep
    simp only [Prod.mk.injEq] at hrows
    obtain ⟨hbefore, hafter, hclock⟩ := hrows
    obtain ⟨r, hget, hrow⟩ := Option.map_eq_some_iff.mp hbefore
    obtain ⟨r', hget', hstate'⟩ := Option.map_eq_some_iff.mp hafter
    obtain ⟨hstate, hlease⟩ := Prod.mk.inj hrow
    have hat : RunAt shadowStart shadowRevoked (shadowListed ++ List.replicate 6 (.advance 2))
        (.advance 2) s t :=
      ⟨by rw [List.append_assoc]; exact List.prefix_rfl, hs, ht⟩
    rcases (h _ _ runsOk_shadowStart hopens).recovery _ 2 s t x call hat hx hop "r" r hget hstate
      with hsame | hexpired
    · rw [hget'] at hsame
      cases hsame
      rw [hstate] at hstate'
      cases hstate'
    · rw [hlease, hclock] at hexpired
      exact absurd hexpired (by decide)
  · cases hstep

end RagQs.Evaluation
