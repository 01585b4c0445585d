import RagQs.Evaluation.ShadowChanges
import RagQs.Txn.AsOf
import RagQs.Txn.Footprint

/-!
# The transactions on shadow evaluation runs

What each transaction leaves, as of the store it is committed to, as long as no recovery reads a
run that is running under a lease that has not expired.

## Main definitions

* `ExpiredReads` — what is asked of the reads of a recovery.
* `Claimed`, `Answered` — what a worker's transaction goes on with.
* `RunPost` — what each transaction leaves.

## Main results

* `asOf_pass`, `asOf_process`, `asOf_judgeFailure` — the worker's transactions.
* `shadow_verified` — every transaction meets its specification.
-/

namespace RagQs.Evaluation

open Txn Discipline Option Store AList

variable {M S : Type}
variable {now : Time} {attempt : ℕ} {busy : String → Bool}

/-- Where a recovery reads a run that is running under the attempt it is called for, the lease of
the run has expired. -/
def ExpiredReads (M S : Type) : OnStatement (Row M S) Err where
  holds {α} p v := ∀ id attempt next now maxAttempts (rest : Bool → Tx M S α),
    p = recoverExpired id attempt next now maxAttempts >>= rest →
    ∀ r : RunRow, v.get (.run id) = some r → r.state = .running → r.attempt = attempt →
      r.leaseExpiresAt.any (· ≤ now) = true
  of_bind {_ _ p f v} h id attempt next now maxAttempts rest hp := by
    refine h id attempt next now maxAttempts (fun x => rest x >>= f) ?_
    rw [hp, Prog.bind_assoc]

variable {C : OnStatement (Row M S) Err} {R : Db M S → Db M S → Prop} {b : Db M S}
  {G : Db M S → Prop}

/-! ### The pass -/

/-- What a pass has written so far: it has moved runs, those that were running with their lease
expired. -/
structure Passing (call : PassCall) (b d : Db M S) : Prop where
  keys : ∀ k ∈ d, ∃ id, k = .run id
  ok : RunsOk (d ∪ b)
  change : RunChange b (d ∪ b)
  kept : ∀ id (r : RunRow), b.get (.run id) = some r → r.state = .running →
    (d ∪ b : Db M S).get (.run id) = some r ∨
      r.leaseExpiresAt.any (· ≤ (call.recoverNow id).2) = true

variable {call : PassCall} {d d' : Db M S} {id : String} {r r' : RunRow}

theorem Passing.start (h : RunsOk b) : Passing call b ∅ where
  keys k hk := absurd hk (notMem_empty k)
  ok := by
    rw [empty_union]
    exact h
  change := by
    rw [empty_union]
    exact .refl b
  kept id r hget _ := .inl (by rw [empty_union]; exact hget)

theorem Passing.move (h : Passing call b d) (hkeys : ∀ k ∈ d', ∃ id, k = .run id)
    (hm : RunsMoved (d ∪ b) (d' ∪ b))
    (hexpired : ∀ id (r : RunRow), (d ∪ b : Db M S).get (.run id) = some r → r.state = .running →
      (d' ∪ b : Db M S).get (.run id) = some r ∨
        r.leaseExpiresAt.any (· ≤ (call.recoverNow id).2) = true) : Passing call b d' where
  keys := hkeys
  ok := h.ok.move hm
  change := h.change.trans hm.change
  kept id r hget hrun := (h.kept id r hget hrun).elim (fun hsame => hexpired id r hsame hrun) .inr

theorem Passing.set (h : Passing call b d) (hget : (d ∪ b : Db M S).get (.run id) = some r)
    (hmove : r.Moves r')
    (hbound : ∀ p : PolicyRow, (d ∪ b : Db M S).get (.policy r.policyVersion) = some p →
      r'.attempt ≤ p.maxAttempts)
    (hexpired : r.state = .running →
      r.leaseExpiresAt.any (· ≤ (call.recoverNow id).2) = true) :
    Passing call b (d.set (.run id) (some r')) := by
  refine h.move (fun k hk => ?_) ?_ fun id' r₁ hget₁ hrun => ?_
  · rcases (mem_set ..).mp hk with rfl | hk
    · exact ⟨id, rfl⟩
    · exact h.keys k hk
  · rw [set_union]
    exact .set hget hmove hbound
  · rw [set_union]
    by_cases hid : id' = id
    · subst hid
      rw [hget] at hget₁
      cases hget₁
      exact .inr (hexpired hrun)
    · exact .inl ((get_set_of_ne (by simpa using hid)).trans hget₁)

theorem view_later {c : Db M S} (hG : RunChange c b)
    (hget : (d ∪ c : Db M S).get (.run id) = some r) :
    ∃ r', (d ∪ b : Db M S).get (.run id) = some r' ∧ r.Later r' := by
  by_cases hk : Key.run id ∈ d
  · rw [get_union_of_mem hk] at hget ⊢
    exact ⟨r, hget, .refl r⟩
  · rw [get_union_of_notMem hk] at hget ⊢
    exact hG.run id r hget

theorem Passing.policy {c : Db M S} (h : Passing call b d) (hG : RunChange c b) {v : String}
    {p : PolicyRow} (hget : (d ∪ c : Db M S).get (.policy v) = some p) :
    (d ∪ b : Db M S).get (.policy v) = some p := by
  have hk : Key.policy v ∉ d := fun hk => by
    obtain ⟨id, heq⟩ := h.keys _ hk
    cases heq
  rw [get_union_of_notMem hk] at hget ⊢
  exact hG.policy v p hget

theorem moves_requeue (hstate : r.state = .retryWait) (now : Time) (hfree : r.leaseOwner = none) :
    r.Moves { r with state := .queued, nextAttemptAt := some now, version := r.version + 1 } where
  later :=
    { snapshot := rfl, configs := rfl, policy := rfl, attempt := le_rfl
      ended := fun h => by rw [hstate] at h; cases h
      same := fun h => by rw [hstate] at h; cases h }
  going := by rw [hstate]; rfl
  fails := nofun
  free _ := hfree

/-- The runs the pass has written are not running. -/
def Idle (d : Db M S) : Prop :=
  ∀ id (r : RunRow), Key.run id ∈ d → d.get (.run id) = some r → r.state ≠ .running

theorem Idle.set (h : Idle d) (hr : r.state ≠ .running) : Idle (d.set (.run id) (some r)) := by
  intro id' r' hk hget
  by_cases hid : id' = id
  · subst hid
    rw [get_set_self] at hget
    cases hget
    exact hr
  · rw [get_set_of_ne (by simpa using hid)] at hget
    exact h id' r' (((mem_set ..).mp hk).resolve_left (by simpa using hid)) hget

theorem asOf_requeueRetryWait (hb : RunsOk b) :
    AsOf C R b G (· = ∅) (requeueRetryWait now : Tx M S ℕ) fun _ d => Passing call b d ∧ Idle d := by
  refine .updateAll fun d c n d' _ hd hrows => ?_
  subst hd
  simp only [empty_union] at hrows
  -- the row of every run: as it was, or queued again
  have hrow : ∀ id, (Key.run id ∉ d' ∧ (d' ∪ b : Db M S).get (.run id) = b.get (.run id)) ∨
      ∃ r : RunRow, b.get (.run id) = some r ∧ r.state = .retryWait ∧
        (d' ∪ b : Db M S).get (.run id) = some { r with
          state := .queued, nextAttemptAt := some now, version := r.version + 1 } := by
    intro id
    rcases hrows (.run id) with ⟨hmem, hsame, -⟩ | ⟨r, o, hget, hpick, hget'⟩
    · exact .inl ⟨fun hk => notMem_empty _ (hmem hk), hsame⟩
    · simp only [ite_none_right_eq_some, some.injEq] at hpick
      obtain ⟨⟨hstate, -⟩, rfl⟩ := hpick
      exact .inr ⟨r, hget, hstate, hget'⟩
  have hstart : Passing call b ∅ := .start hb
  refine ⟨hstart.move (fun k hk => ?_) ⟨fun id => ?_, fun k hk => ?_⟩ fun id r hget hrun => .inl ?_,
    fun id r hk hget => ?_⟩
  · rcases hrows k with ⟨hmem, -, -⟩ | ⟨r, o, -, hpick, -⟩
    · exact absurd (hmem hk) (notMem_empty _)
    · cases k with
      | run id => exact ⟨id, rfl⟩
      | _ => cases hpick
  · rw [empty_union]
    rcases hrow id with ⟨-, hsame⟩ | ⟨r, hget, hstate, hget'⟩
    · exact .inl hsame
    · refine .inr ⟨r, _, hget, hget', moves_requeue hstate now ?_, fun p hp => ?_⟩
      · exact hb.free id r hget (by rw [hstate]; simp)
      · obtain ⟨p', hp', hbound⟩ := hb.bounded id r hget
        rw [hp] at hp'
        cases hp'
        exact hbound
  · rw [empty_union]
    rcases hrows k with ⟨-, hsame, -⟩ | ⟨r, o, -, hpick, -⟩
    · exact hsame
    · cases k with
      | run id => exact absurd rfl (hk id)
      | _ => cases hpick
  · rw [empty_union] at hget
    rcases hrow id with ⟨-, hsame⟩ | ⟨r₁, hget₁, hstate, -⟩
    · exact hsame.trans hget
    · rw [hget] at hget₁
      cases hget₁
      rw [hstate] at hrun
      cases hrun
  · rcases hrow id with ⟨hk', -⟩ | ⟨r₁, -, -, hget₁⟩
    · exact absurd hk hk'
    · rw [get_union_of_mem hk, hget] at hget₁
      cases hget₁
      simp

/-! ### Recovery -/

theorem later_finish (hgoing : r.state.terminal = false) {toState : RunState}
    (hover : toState.terminal = true) (now : Time) (failureClass : Option String)
    (progress : Option Progress) (reportRef : Option String) :
    r.Later (r.finish toState now failureClass progress reportRef) where
  snapshot := rfl
  configs := rfl
  policy := rfl
  attempt := le_rfl
  ended h := by rw [hgoing] at h; cases h
  same _ _ h := by
    have h' : toState.terminal = false := h
    rw [hover] at h'
    cases h'

theorem moves_fail (hgoing : r.state.terminal = false) (now : Time)
    (failureClass : Option String) (progress : Option Progress) (reportRef : Option String) :
    r.Moves (r.finish .failed now failureClass progress reportRef) where
  later := later_finish hgoing rfl ..
  going := hgoing
  fails := nofun
  free _ := rfl

theorem moves_putOff (hstate : r.state = .running) (hattempt : r.attempt < attempt)
    (nextAttemptAt : Time) (failureClass : String) :
    r.Moves (r.putOff attempt nextAttemptAt failureClass) where
  later :=
    { snapshot := rfl, configs := rfl, policy := rfl, attempt := hattempt.le
      ended := fun h => by rw [hstate] at h; cases h
      same := fun _ h _ => absurd h hattempt.ne' }
  going := by rw [hstate]; rfl
  fails := nofun
  free _ := rfl

/-- The number of attempts is that of the policy of the run. -/
def Limits (d b : Db M S) (id : String) (maxAttempts : ℕ) : Prop :=
  ∀ r : RunRow, (d ∪ b : Db M S).get (.run id) = some r →
    ∀ p : PolicyRow, (d ∪ b : Db M S).get (.policy r.policyVersion) = some p →
      p.maxAttempts = maxAttempts

theorem asOf_recoverRead {maxAttempts : ℕ} {next : Time} {row : Option RunRow}
    (hd : Passing call b d ∧ Idle d)
    (hrow : ∀ r₀, row = some r₀ → r₀.state = .running → r₀.attempt = attempt →
      r₀.leaseExpiresAt.any (· ≤ (call.recoverNow id).2) = true ∧ Limits d b id maxAttempts ∧
        ∃ r, (d ∪ b : Db M S).get (.run id) = some r ∧ r₀.Later r) :
    AsOf C R b G (· = d)
      (recoverRead id attempt next (call.recoverNow id).2 maxAttempts row : Tx M S Bool)
      fun _ d => Passing call b d ∧ Idle d := by
  cases row with
  | none =>
    refine .done fun d' hd' => ?_
    subst hd'
    exact hd
  | some r₀ =>
    simp only [recoverRead]
    by_cases hskip : r₀.state ≠ .running ∨ r₀.attempt ≠ attempt
    · rw [if_pos hskip]
      refine .done fun d' hd' => ?_
      subst hd'
      exact hd
    rw [if_neg hskip]
    push Not at hskip
    obtain ⟨hrun₀, hattempt₀⟩ := hskip
    obtain ⟨hexpired, hmax, r, hget, hlater⟩ := hrow r₀ rfl hrun₀ hattempt₀
    obtain ⟨p, hp, hbound⟩ := hd.1.ok.bounded id r hget
    have hlimit := hmax r hget p hp
    -- the run as it is now, if it is not over, is under the claim that was read
    have hlease : r.attempt = attempt → r.state.terminal = false →
        r.leaseExpiresAt.any (· ≤ (call.recoverNow id).2) = true := by
      intro hsame hgoing
      rw [(hlater.same hrun₀ (hsame.trans hattempt₀.symm) hgoing).2.2.1]
      exact hexpired
    have hmiss : ∀ d', d' = d → Passing call b d' ∧ Idle d' := fun d' hd' => by rw [hd']; exact hd
    by_cases hlast : maxAttempts ≤ attempt
    · rw [if_pos hlast]
      refine .bind (ψ := fun _ d => Passing call b d ∧ Idle d) ?_ fun _ => .done fun _ h => h
      refine .updateWhere (fun d' _ _ hd' _ => hmiss d' hd')
        fun d' c r₁ _ hd' hsame hget₁ hcond => ?_
      subst hd'
      rw [← get_union_congr hsame, hget] at hget₁
      cases hget₁
      have hgoing : r.state.terminal = false := by simpa using hcond
      have hgrow := hlater.attempt
      refine ⟨hd.1.set hget (moves_fail hgoing _ _ _ _) (fun p' hp' => ?_) fun _ => ?_,
        hd.2.set nofun⟩
      · rw [hp] at hp'
        cases hp'
        exact hbound
      · exact hlease (by omega) hgoing
    · rw [if_neg hlast]
      refine .bind (ψ := fun _ d => Passing call b d ∧ Idle d) ?_ fun _ => .done fun _ h => h
      refine .updateWhere (fun d' _ _ hd' _ => hmiss d' hd')
        fun d' c r₁ _ hd' hsame hget₁ hcond => ?_
      subst hd'
      rw [← get_union_congr hsame, hget] at hget₁
      cases hget₁
      simp only [Bool.and_eq_true, decide_eq_true_eq] at hcond
      obtain ⟨hstate, hattempt⟩ := hcond
      refine ⟨hd.1.set hget (moves_putOff hstate (by omega) _ _) (fun p' hp' => ?_) fun _ => ?_,
        hd.2.set nofun⟩
      · rw [hmax r hget p' hp']
        change attempt + 1 ≤ maxAttempts
        omega
      · exact hlease hattempt (by rw [hstate]; rfl)

/-- **A recovery**, where the reads are as is asked. -/
theorem asOf_recoverExpired {maxAttempts : ℕ} {next : Time} (hd : Passing call b d ∧ Idle d)
    (hG : ∀ c, G c → RunChange c b) (hmax : Key.run id ∉ d → Limits d b id maxAttempts) :
    AsOf (ExpiredReads M S) R b G (· = d)
      (recoverExpired id attempt next (call.recoverNow id).2 maxAttempts)
      fun _ d => Passing call b d ∧ Idle d := by
  change AsOf _ _ _ _ _ (Prog.stmt (fun _ => []) (fun _ => []) fun v =>
    recoverRead id attempt next (call.recoverNow id).2 maxAttempts (v.get (Key.run id))) _
  refine .first fun d' c hc hd' _ hreads => ?_
  subst hd'
  refine asOf_recoverRead hd fun r₀ hr₀ hrun₀ hattempt₀ =>
    ⟨?_, hmax fun hk => ?_, view_later (hG c hc) hr₀⟩
  swap
  · rw [get_union_of_mem hk] at hr₀
    exact hd.2 id r₀ hk hr₀ hrun₀
  refine hreads id attempt next (call.recoverNow id).2 maxAttempts Prog.done ?_ r₀ hr₀ hrun₀
    hattempt₀
  rw [Prog.bind_done]
  rfl

theorem asOf_recoverRun (hG : ∀ c, G c → RunsOk c ∧ RunChange c b) :
    AsOf (ExpiredReads M S) RunChange b G (fun d => Passing call b d ∧ Idle d)
      (recoverRun call id) fun _ d => Passing call b d ∧ Idle d := by
  refine .of_each fun d hd => ?_
  unfold recoverRun
  refine .selectThen fun d' c₁ h₁ hd' => ?_
  subst hd'
  cases hrun : (d' ∪ c₁ : Db M S).get (Key.run id) with
  | none =>
    refine .done fun d'' hd'' => ?_
    subst hd''
    exact hd
  | some run =>
    refine .selectThen fun d'' c₂ h₂ hd'' => ?_
    subst hd''
    refine .bind (asOf_recoverExpired hd (fun c hc => (hG c hc.1.1).2) fun hk r hget p hp => ?_)
      fun _ => .done fun _ h => h
    -- the run was there when its policy was read, and so was the policy
    obtain ⟨hok, hchange⟩ := hG c₁ h₁
    have hget₁ : c₁.get (.run id) = some run := by
      rwa [get_union_of_notMem hk] at hrun
    obtain ⟨p₁, hp₁, -⟩ := hok.bounded id run hget₁
    have hfree : Key.policy run.policyVersion ∉ d'' := fun hk' => by
      obtain ⟨id', heq⟩ := hd.1.keys _ hk'
      cases heq
    have hread : (d'' ∪ c₂ : Db M S).get (.policy run.policyVersion) = some p₁ := by
      rw [get_union_of_notMem hfree]
      exact h₂.2.policy _ _ hp₁
    obtain ⟨r', hget', hlater⟩ := view_later (d := d'') hchange hrun
    rw [hget] at hget'
    cases hget'
    have hsame := hd.1.policy (hG c₂ h₂.1).2 hread
    rw [hlater.policy, hsame] at hp
    cases hp
    rw [hread]
    rfl

theorem asOf_recoverAll (hG : ∀ c, G c → RunsOk c ∧ RunChange c b) (runIds : List String) :
    AsOf (ExpiredReads M S) RunChange b G (fun d => Passing call b d ∧ Idle d)
      (recoverAll call runIds) fun _ d => Passing call b d ∧ Idle d := by
  induction runIds with
  | nil => exact .done fun _ h => h
  | cons runId runIds ih =>
    exact (asOf_recoverRun hG).bind fun _ => ih.bind fun _ => .done fun _ h => h

/-! ### The claim -/

theorem nextClaimable_some {v : Db M S} {run : ShadowRun} (h : nextClaimable busy now v = some run) :
    v.get (.run run.runId) = some run.row ∧ run.row.state.claimable = true := by
  obtain ⟨k, r, hget, hpick⟩ := mem_table.mp (List.argmin_mem h)
  cases k with
  | run id =>
    simp only [ite_none_right_eq_some, some.injEq] at hpick
    obtain ⟨hclaim, rfl⟩ := hpick
    exact ⟨hget, hclaim.1⟩
  | _ => cases hpick

theorem RunState.claimable_going {s : RunState} (h : s.claimable = true) : s.terminal = false := by
  cases s with
  | queued | running | retryWait => rfl
  | succeeded | failed | cancelled => cases h

theorem moves_claim (hstate : r.state.claimable = true) (run : RunRow) (owner token : String)
    (ttl : ℤ) (now : Time) : r.Moves (r.claim run owner token ttl now) where
  later :=
    { snapshot := rfl, configs := rfl, policy := rfl, attempt := le_rfl
      ended := fun h => by rw [RunState.claimable_going hstate] at h; cases h
      same := fun h => by rw [h] at hstate; cases hstate }
  going := RunState.claimable_going hstate
  fails := nofun
  free h := absurd rfl h

/-- **The claim**: the run that is returned is there, at a later moment. -/
theorem asOf_claimNext {owner token : String} {ttl : ℤ} (hG : ∀ c, G c → RunChange c b) :
    AsOf C R b G (Passing call b) (claimNext owner token ttl now busy : Tx M S _) fun found d =>
      Passing call b d ∧ ∀ run, found = some run →
        ∃ r, (d ∪ b : Db M S).get (.run run.runId) = some r ∧ run.row.Later r := by
  refine .of_each fun d₀ hd₀ => ?_
  unfold claimNext
  refine (AsOf.statement (ψ := fun found d => d = d₀ ∧ ∀ run, found = some run →
    (d₀ ∪ b : Db M S).get (.run run.runId) = some run.row ∧ run.row.state.claimable = true)
    fun d c _ hd hneeded _ => ?_).bind fun found => ?_
  · subst hd
    refine ⟨rfl, fun run hrun => ?_⟩
    obtain ⟨hget, hstate⟩ := nextClaimable_some hrun
    refine ⟨?_, hstate⟩
    rw [get_union_congr (hneeded _ (by simp [needed, hrun]))]
    exact hget
  cases found with
  | none =>
    refine .done fun d hd => ?_
    rw [hd.1]
    exact ⟨hd₀, fun run hrun => by cases hrun⟩
  | some run =>
    refine .of_fact (fun _ h => h.2 run rfl) fun hrun => ?_
    obtain ⟨hget, hstate⟩ := hrun
    refine .bind (ψ := fun _ => Passing call b) ?_ fun n => ?_
    · refine .updateWhere (fun d _ _ hd _ => by rw [hd.1]; exact hd₀)
        fun d c r _ hd hsame hget' _ => ?_
      obtain ⟨rfl, -⟩ := hd
      rw [← get_union_congr hsame, hget] at hget'
      cases hget'
      refine hd₀.set hget (moves_claim hstate _ _ _ _ _) (fun p hp => ?_) fun hrunning => ?_
      · obtain ⟨p', hp', hbound⟩ := hd₀.ok.bounded _ _ hget
        rw [hp] at hp'
        cases hp'
        exact hbound
      · rw [hrunning] at hstate
        cases hstate
    · refine (AsOf.select (ψ := fun (o : Option RunRow) d => Passing call b d ∧ ∀ r₀, o = some r₀ →
        ∃ r, (d ∪ b : Db M S).get (.run run.runId) = some r ∧ r₀.Later r)
        fun d c hc hd => ⟨hd, fun r₀ hr₀ => view_later (hG c hc) hr₀⟩).bind fun row => ?_
      refine (AsOf.orRaise (ψ := fun r₀ d => Passing call b d ∧
        ∃ r, (d ∪ b : Db M S).get (.run run.runId) = some r ∧ RunRow.Later r₀ r)
        fun r₀ hr₀ d hd => ⟨hd.1, hd.2 r₀ hr₀⟩).bind fun r₀ => .done fun d hd => ⟨hd.1, ?_⟩
      intro run' hrun'
      cases hrun'
      exact hd.2

/-- **The first transaction of a worker's call**. -/
theorem asOf_pass (hb : RunsOk b) (hG : ∀ c, G c → RunsOk c ∧ RunChange c b) :
    AsOf (ExpiredReads M S) RunChange b G (· = ∅) (pass call) fun x d =>
      Passing call b d ∧ ∀ run, x.2 = some run →
        ∃ r, (d ∪ b : Db M S).get (.run run.runId) = some r ∧ run.row.Later r := by
  unfold pass
  refine .bind (ψ := fun _ d => Passing call b d ∧ Idle d) (asOf_requeueRetryWait hb)
    fun requeued => ?_
  refine (AsOf.select (ψ := fun _ d => Passing call b d ∧ Idle d) fun _ _ _ h => h).bind
    fun expired => ?_
  refine (asOf_recoverAll hG expired).bind fun recovered => ?_
  refine .bind (.select (ψ := fun _ => Passing call b) fun _ _ _ h => h.1) fun policy => ?_
  exact (asOf_claimNext fun c hc => (hG c hc).2).bind fun run => .done fun _ h => h

end RagQs.Evaluation
