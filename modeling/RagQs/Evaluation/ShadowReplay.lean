import RagQs.Evaluation.ShadowProof

/-!
# The end of a worker's call

The transactions that end a run, put it off or fail it write nothing unless their claim holds the
run, and the one that makes a run succeed leaves a result for every sample item of its snapshot
and every candidate configuration.

## Main definitions

* `Worked` — what such a transaction leaves.
* `Replaying` — what the replays have written so far.

## Main results

* `asOf_process`, `asOf_judgeFailure` — the transactions.
-/

namespace RagQs.Evaluation

open Txn Discipline List Option Store AList

variable {M S : Type}
variable {r' : RunRow} {now : Time}

/-- What a transaction of a worker with a claim leaves: nothing, unless the claim holds the run;
and new results only with the run succeeded. -/
structure Worked (run : ShadowRun) (owner : String) (b v : Db M S) : Prop where
  held : HeldBy run owner b ∨ ∀ k, v.get k = b.get k
  result : ∀ id i c, v.get (.result id i c) ≠ b.get (.result id i c) → id = run.runId ∧
    ∃ r : RunRow, v.get (.run id) = some r ∧ r.state = .succeeded

/-- What such a transaction leaves, of the whole store. -/
def Leaving (run : ShadowRun) (owner : String) (b d : Db M S) : Prop :=
  RunsOk (d ∪ b) ∧ RunChange b (d ∪ b) ∧ Worked run owner b (d ∪ b)

variable {C : OnStatement (Row M S) Err} {R : Db M S → Db M S → Prop} {b d₀ : Db M S}
  {G : Db M S → Prop} {run : ShadowRun} {owner : String} {r : RunRow}

theorem Leaving.nothing (hb : RunsOk b) : Leaving run owner b ∅ := by
  unfold Leaving
  rw [empty_union]
  exact ⟨hb, .refl b, .inr fun _ => rfl, fun _ _ _ h => absurd rfl h⟩

theorem running_of_fenced {id token : String} {attempt : ℕ} (hb : RunsOk b)
    (hget : b.get (.run id) = some r) (h : r.fenced attempt owner token = true) :
    r.state = .running := by
  by_contra hstate
  simp only [RunRow.fenced, hb.free id r hget hstate, Bool.and_eq_true, decide_eq_true_eq] at h
  cases h.1.2

theorem Leaving.move (hb : RunsOk b) (hget : b.get (.run run.runId) = some r)
    (hfenced : r.fenced run.row.attempt owner run.token = true) (hmove : r.Moves r')
    (hbound : ∀ p : PolicyRow, b.get (.policy r.policyVersion) = some p →
      r'.attempt ≤ p.maxAttempts) :
    Leaving run owner b ((∅ : Db M S).set (.run run.runId) (some r')) := by
  have hm : RunsMoved b (b.set (.run run.runId) (some r')) := .set hget hmove hbound
  unfold Leaving
  rw [set_union, empty_union]
  refine ⟨hb.move hm, hm.change, .inl ⟨r, hget, running_of_fenced hb hget hfenced, hfenced⟩, ?_⟩
  exact fun id i c h => absurd (hm.other _ (by simp)) h

/-! ### Putting a run off, and failing it -/

theorem asOf_transitionTerminal {id token : String} {attempt : ℕ} {toState : RunState}
    {failureClass reportRef : Option String} {progress : Option Progress} :
    AsOf C R b G (· = d₀) (transitionTerminal id attempt owner token toState now failureClass
      progress reportRef : Tx M S ℕ) fun n d => n = 0 ∧ d = d₀ ∨ ∃ r : RunRow, n = 1 ∧
        (d₀ ∪ b : Db M S).get (.run id) = some r ∧ r.state.terminal = false ∧
        r.fenced attempt owner token = true ∧ toState.terminal = true ∧
        d = d₀.set (.run id) (some (r.finish toState now failureClass progress reportRef)) := by
  unfold transitionTerminal
  refine (AsOf.raiseIf (ψ := fun _ d => d = d₀ ∧ toState.terminal = true)
    fun h d hd => ⟨hd, by simpa using h⟩).bind fun _ => ?_
  refine AsOf.updateWhere (fun d c _ hd _ => .inl ⟨rfl, hd.1⟩)
    fun d c r _ hd hsame hget hcond => .inr ?_
  obtain ⟨rfl, hover⟩ := hd
  simp only [Bool.and_eq_true, Bool.not_eq_true'] at hcond
  rw [← get_union_congr hsame] at hget
  exact ⟨r, rfl, hget, hcond.1, hcond.2, hover, rfl⟩

theorem asOf_finishFailed {failureClass : String} (hb : RunsOk b) :
    AsOf C R b G (· = ∅) (finishFailed run owner now failureClass : Tx M S Unit)
      fun _ => Leaving run owner b := by
  unfold finishFailed
  refine asOf_transitionTerminal.bind fun n => .done fun d hd => ?_
  rcases hd with ⟨-, rfl⟩ | ⟨r, -, hget, hgoing, hfenced, -, rfl⟩
  · exact .nothing hb
  · rw [empty_union] at hget
    refine .move hb hget hfenced (moves_fail hgoing _ _ _ _) fun p hp => ?_
    obtain ⟨p', hp', hbound⟩ := hb.bounded _ r hget
    rw [hp] at hp'
    cases hp'
    exact hbound

/-- **A judge failure**: the run is put off within its policy, or fails. -/
theorem asOf_judgeFailure {code : String} {maxAttempts : ℕ} (hb : RunsOk b)
    (hmax : ∀ r : RunRow, b.get (.run run.runId) = some r →
      ∀ p : PolicyRow, b.get (.policy r.policyVersion) = some p → p.maxAttempts = maxAttempts) :
    AsOf C R b G (· = ∅) (judgeFailure run owner code maxAttempts now : Tx M S Unit)
      fun _ => Leaving run owner b := by
  unfold judgeFailure
  by_cases hretry : code ∈ retryableJudgeCodes ∧ run.row.attempt < maxAttempts
  swap
  · rw [if_neg hretry]
    exact asOf_finishFailed hb
  rw [if_pos hretry]
  refine .bind (ψ := fun _ => Leaving run owner b) ?_ fun _ => .done fun _ h => h
  refine .updateWhere (fun d _ _ hd _ => by rw [hd]; exact .nothing hb)
    fun d c r _ hd hsame hget hcond => ?_
  subst hd
  rw [← get_union_congr hsame, empty_union] at hget
  simp only [Bool.and_eq_true, decide_eq_true_eq] at hcond
  obtain ⟨hstate, hfenced⟩ := hcond
  refine .move hb hget hfenced (moves_putOff hstate (Nat.lt_succ_self _) _ _) fun p hp => ?_
  have hattempt : r.attempt = run.row.attempt := by
    simp only [RunRow.fenced, Bool.and_eq_true, decide_eq_true_eq] at hfenced
    exact hfenced.1.1
  rw [hmax r hget p hp]
  change r.attempt + 1 ≤ maxAttempts
  omega

/-! ### The replays -/

/-- What the replays have written so far: results of the run for the pairs that are done, and
heartbeats. -/
structure Replaying (run : ShadowRun) (r : RunRow) (done : List (String × String))
    (b d : Db M S) : Prop where
  keys : ∀ k ∈ d, k = .run run.runId ∨ ∃ i c, k = .result run.runId i c
  row : ∃ t, (d ∪ b : Db M S).get (.run run.runId) = some { r with heartbeatAt := t }
  result : ∀ i c, ((d ∪ b : Db M S).get (.result run.runId i c)).isSome = true ↔
    (i, c) ∈ done ∨ (b.get (.result run.runId i c)).isSome = true

variable {call : ReplayCall M} {done : List (String × String)} {d : Db M S}

theorem Replaying.start (hget : b.get (.run run.runId) = some r) :
    Replaying run r [] b (∅ : Db M S) where
  keys k hk := absurd hk (notMem_empty k)
  row := ⟨r.heartbeatAt, by rw [empty_union]; exact hget⟩
  result i c := by simp

theorem Replaying.set_row (h : Replaying run r done b d) :
    (∀ k ∈ d.set (.run run.runId) (some r'), k = .run run.runId ∨
      ∃ i c, k = .result run.runId i c) ∧
    ∀ i c, ((d.set (.run run.runId) (some r') ∪ b : Db M S).get
      (.result run.runId i c)).isSome = true ↔
        (i, c) ∈ done ∨ (b.get (.result run.runId i c)).isSome = true := by
  refine ⟨fun k hk => ?_, fun i c => ?_⟩
  · rcases (Store.mem_set ..).mp hk with rfl | hk
    · exact .inl rfl
    · exact h.keys k hk
  · rw [set_union, get_set_of_ne (by simp)]
    exact h.result i c

theorem asOf_beat {clock : ReplayClock} {last : Time} :
    AsOf C R b G (Replaying run r done b) (beat run call clock last : Tx M S Time)
      fun _ => Replaying run r done b := by
  unfold beat
  by_cases hdue : 1000000 * (call.policy.map PolicyRow.heartbeatSeconds).getD 15 ≤
      clock.check - last
  swap
  · rw [if_neg hdue]
    exact .done fun _ h => h
  rw [if_pos hdue]
  refine .bind (ψ := fun _ => Replaying run r done b) ?_ fun n => ?_
  · refine .updateWhere (fun _ _ _ h _ => h) fun d c r₁ _ h hsame hget _ => ?_
    obtain ⟨t, hrow⟩ := h.row
    rw [← get_union_congr hsame, hrow] at hget
    cases hget
    obtain ⟨hkeys, hresult⟩ := h.set_row
    refine ⟨hkeys, ⟨some clock.heartbeat, ?_⟩, hresult⟩
    rw [set_union, get_set_self]
  · exact (AsOf.raiseIf (ψ := fun _ => Replaying run r done b) fun _ _ h => h).bind
      fun _ => .done fun _ h => h

theorem asOf_insertResult {item config : String} {row : ResultRow M} :
    AsOf C R b G (Replaying run r done b) (insertResult run.runId item config row : Tx M S Unit)
      fun _ => Replaying run r ((item, config) :: done) b := by
  refine .insert fun d c _ h _ _ _ => ?_
  have hset : d.applyAll [(⟨.result run.runId item config, some row⟩ : Write (Row M S))]
      = d.set (.result run.runId item config) (some row) := rfl
  rw [hset]
  refine ⟨fun k hk => ?_, ?_, fun i c' => ?_⟩
  · rcases (Store.mem_set ..).mp hk with rfl | hk
    · exact .inr ⟨item, config, rfl⟩
    · exact h.keys k hk
  · obtain ⟨t, hrow⟩ := h.row
    exact ⟨t, by rw [set_union, get_set_of_ne (by simp)]; exact hrow⟩
  · rw [set_union, mem_cons]
    by_cases heq : (i, c') = (item, config)
    · cases heq
      simp
    · rw [get_set_of_ne (fun hkey => heq (by cases hkey; rfl)), h.result i c']
      simp [heq]

theorem asOf_replayAll (pairs : List (String × String)) :
    ∀ done last, AsOf C R b G (Replaying run r done b) (replayAll run call pairs last)
      fun _ => Replaying run r (pairs.reverse ++ done) b := by
  induction pairs with
  | nil => exact fun done last => .done fun _ h => h
  | cons pair pairs ih =>
    intro done last
    obtain ⟨item, config⟩ := pair
    refine asOf_beat.bind fun last' => ?_
    refine (AsOf.check (ψ := fun _ => Replaying run r done b) fun _ _ _ h => h).bind
      fun result => ?_
    refine asOf_insertResult.bind fun _ => (ih _ _).post fun _ d h => ?_
    rw [reverse_cons, append_assoc]
    exact h

theorem mem_sampleItems {snapshotId item : String} {v : Db M S} :
    item ∈ sampleItems snapshotId v ↔ (v.get (.item snapshotId item)).isSome = true := by
  unfold sampleItems
  rw [List.mem_map]
  simp only [mem_insertionSort, mem_table]
  constructor
  · rintro ⟨x, ⟨k, r, hget, hpick⟩, rfl⟩
    cases k with
    | item s i =>
      simp only [ite_none_right_eq_some, some.injEq] at hpick
      obtain ⟨rfl, rfl⟩ := hpick
      rw [hget]
      rfl
    | _ => cases hpick
  · intro hsome
    obtain ⟨row, hget⟩ := isSome_iff_exists.mp hsome
    exact ⟨(row.position, item), ⟨.item snapshotId item, row, hget, if_pos rfl⟩, rfl⟩

theorem later_heartbeat (hgoing : r.state.terminal = false) (t : Option Time) :
    r.Later { r with heartbeatAt := t } where
  snapshot := rfl
  configs := rfl
  policy := rfl
  attempt := le_rfl
  ended h := by rw [hgoing] at h; cases h
  same h _ _ := ⟨h, rfl, rfl, rfl⟩

theorem Replaying.succeed (h : Replaying run r done b d) (hb : RunsOk b)
    (hget : b.get (.run run.runId) = some r)
    (hfenced : r.fenced run.row.attempt owner run.token = true)
    (hdone : ∀ i c, (i, c) ∈ done ↔ (b.get (.item r.frozenSnapshot.snapshotId i)).isSome = true ∧
      c ∈ r.candidateConfigVersions) (hlater : r.Later r') (hstate : r'.state = .succeeded)
    (hattempt : r'.attempt = r.attempt) (hfree : r'.leaseOwner = none) :
    Leaving run owner b (d.set (.run run.runId) (some r')) := by
  have hrunning := running_of_fenced hb hget hfenced
  obtain ⟨hkeys, hresult⟩ := h.set_row
  have hother : ∀ k : Key, k ≠ .run run.runId → (∀ i c, k ≠ .result run.runId i c) →
      (d.set (.run run.runId) (some r') ∪ b : Db M S).get k = b.get k := by
    intro k hrun hres
    refine get_union_of_notMem fun hk => ?_
    rcases hkeys k hk with rfl | ⟨i, c, rfl⟩
    · exact hrun rfl
    · exact hres i c rfl
  have hget' : (d.set (.run run.runId) (some r') ∪ b : Db M S).get (.run run.runId) = some r' := by
    rw [set_union, get_set_self]
  have hresults : ∀ i c, ((d.set (.run run.runId) (some r') ∪ b : Db M S).get
      (.result run.runId i c)).isSome = true ↔
        (b.get (.item r.frozenSnapshot.snapshotId i)).isSome = true ∧
          c ∈ r.candidateConfigVersions := by
    intro i c
    rw [hresult i c, hb.no_result hget (by rw [hrunning]; rfl), ← hdone i c]
    simp
  obtain ⟨hok, hchange⟩ := hb.succeed hget hother hget' hlater hstate hattempt hfree hresults
  refine ⟨hok, hchange, .inl ⟨r, hget, hrunning, hfenced⟩, fun id i c hne => ?_⟩
  by_cases hid : id = run.runId
  · subst hid
    exact ⟨rfl, r', hget', hstate⟩
  · exact absurd (hother _ (by simp) (by simp [hid])) hne

/-- **The replay of a run**: it succeeds with all its results. -/
theorem asOf_replayRun (hb : RunsOk b) (hget : b.get (.run run.runId) = some r)
    (hlater : run.row.Later r)
    (hG : ∀ c, G c → RunChange c b ∧
      (c.get (.snapshot run.row.frozenSnapshot.snapshotId)).isSome = true) :
    AsOf C R b G (· = ∅) (replayRun run call) fun _ => Leaving run call.owner b := by
  unfold replayRun
  -- the items that are read are those of the snapshot as of the commit
  refine (AsOf.select (ψ := fun items d => d = ∅ ∧ ∀ i, i ∈ items ↔
    (b.get (.item r.frozenSnapshot.snapshotId i)).isSome = true) fun d c hc hd => ?_).bind
    fun items => ?_
  · subst hd
    refine ⟨rfl, fun i => ?_⟩
    obtain ⟨hchange, hsnapshot⟩ := hG c hc
    rw [empty_union, mem_sampleItems, hlater.snapshot, hchange.item _ hsnapshot i]
  refine .of_fact (fun _ h => h.2) fun hitems => ?_
  refine ((asOf_replayAll _ [] _).pre fun d hd => by rw [hd.1]; exact .start hget).bind fun _ => ?_
  refine .of_each fun d hd => ?_
  unfold finishSucceeded
  refine asOf_transitionTerminal.bind fun n => .raiseIf fun hn d' hd' => ?_
  rcases hd' with ⟨rfl, -⟩ | ⟨r₁, -, hget₁, hgoing, hfenced, -, rfl⟩
  · exact absurd (by decide) hn
  obtain ⟨t, hrow⟩ := hd.row
  rw [hrow] at hget₁
  cases hget₁
  have hpairs : ∀ i c, (i, c) ∈ (replayPairs items run.row.candidateConfigVersions).reverse ++ [] ↔
      (b.get (.item r.frozenSnapshot.snapshotId i)).isSome = true ∧
        c ∈ r.candidateConfigVersions := by
    intro i c
    rw [hlater.configs, ← hitems i]
    simp [replayPairs]
  have hgoing' : r.state.terminal = false := hgoing
  have hfinish := later_finish hgoing (rfl : RunState.succeeded.terminal = true) call.finish none
    (some ⟨items.length * run.row.candidateConfigVersions.length,
      (replayPairs items run.row.candidateConfigVersions).length, 0⟩)
    (some ("eval_report:" ++ run.runId))
  exact hd.succeed hb hget hfenced hpairs ((later_heartbeat hgoing' t).trans hfinish) rfl rfl rfl

/-- **The transaction that ends a run.** -/
theorem asOf_process (hb : RunsOk b) (hget : b.get (.run run.runId) = some r)
    (hlater : run.row.Later r)
    (hG : ∀ c, G c → RunChange c b ∧
      (c.get (.snapshot run.row.frozenSnapshot.snapshotId)).isSome = true) :
    AsOf C R b G (· = ∅) (process run call) fun _ => Leaving run call.owner b := by
  unfold process
  split
  · exact asOf_finishFailed hb
  · exact asOf_replayRun hb hget hlater hG

end RagQs.Evaluation
