import RagQs.Evaluation.ShadowRun

/-!
# What happens to shadow evaluation runs

The invariant of the committed runs with their results, and how the rows of two moments are
related: what a run is frozen to stays, its attempt only grows, and an attempt that is left is
not taken up again.

## Main definitions

* `RunsOk` — the invariant.
* `RunRow.Later`, `RunChange` — a run, and the tables, at a later moment.
* `RunRow.Moves`, `RunsMoved` — updates of runs that do not make them succeed.
* `Quiet` — the runs that were there, and the results, are untouched.
* `HeldBy`, `Overtaken` — a claim holds its run, or does not any more.

## Main results

* `RunsOk.move`, `RunsOk.succeed` — the invariant after updates of runs.
* `RunsOk.addPolicy`, `RunsOk.create` — the invariant with new rows.
* `Overtaken.not_held` — a claim that has been superseded stays so.
-/

namespace RagQs.Evaluation

open Txn

variable {M S : Type}

/-- The invariant of the runs: nobody but a worker with a claim owns a run, its attempt is within
its policy, its snapshot is there, and it has results exactly if it has succeeded, one for every
sample item and candidate configuration. -/
structure RunsOk (c : Db M S) : Prop where
  free : ∀ id (r : RunRow), c.get (.run id) = some r → r.state ≠ .running → r.leaseOwner = none
  policy : ∀ v (p : PolicyRow), c.get (.policy v) = some p → p.policyVersion = v ∧ 1 ≤ p.maxAttempts
  bounded : ∀ id (r : RunRow), c.get (.run id) = some r →
    ∃ p : PolicyRow, c.get (.policy r.policyVersion) = some p ∧ r.attempt ≤ p.maxAttempts
  frozen : ∀ id (r : RunRow), c.get (.run id) = some r →
    (c.get (.snapshot r.frozenSnapshot.snapshotId)).isSome = true
  results : ∀ id item config, (c.get (.result id item config)).isSome = true ↔
    ∃ r : RunRow, c.get (.run id) = some r ∧ r.state = .succeeded ∧
      (c.get (.item r.frozenSnapshot.snapshotId item)).isSome = true ∧
        config ∈ r.candidateConfigVersions

/-- The row of a run at a later moment. -/
structure RunRow.Later (r r' : RunRow) : Prop where
  snapshot : r'.frozenSnapshot = r.frozenSnapshot
  configs : r'.candidateConfigVersions = r.candidateConfigVersions
  policy : r'.policyVersion = r.policyVersion
  attempt : r.attempt ≤ r'.attempt
  /-- A run that is over stays as it is. -/
  ended : r.state.terminal = true → r' = r
  /-- An attempt that runs is the same claim for as long as it runs. -/
  same : r.state = .running → r'.attempt = r.attempt → r'.state.terminal = false →
    r'.state = .running ∧ r'.leaseOwner = r.leaseOwner ∧ r'.leaseExpiresAt = r.leaseExpiresAt ∧
      r'.fencingToken = r.fencingToken

namespace RunRow.Later

variable {r r' r'' : RunRow}

theorem refl (r : RunRow) : r.Later r :=
  ⟨rfl, rfl, rfl, le_rfl, fun _ => rfl, fun h _ _ => ⟨h, rfl, rfl, rfl⟩⟩

theorem trans (h : r.Later r') (h' : r'.Later r'') : r.Later r'' where
  snapshot := h'.snapshot.trans h.snapshot
  configs := h'.configs.trans h.configs
  policy := h'.policy.trans h.policy
  attempt := h.attempt.trans h'.attempt
  ended hover := by
    have heq := h.ended hover
    have heq' := h'.ended (by rw [heq]; exact hover)
    exact heq'.trans heq
  same hrun hattempt hopen := by
    have h₁ := h.attempt
    have h₂ := h'.attempt
    have hopen' : r'.state.terminal = false := by
      by_contra hover
      rw [h'.ended (by simpa using hover)] at hopen
      exact hover hopen
    obtain ⟨hrun', howner, hlease, htoken⟩ := h.same hrun (by omega) hopen'
    obtain ⟨hrun'', howner', hlease', htoken'⟩ := h'.same hrun' (by omega) hopen
    exact ⟨hrun'', howner'.trans howner, hlease'.trans hlease, htoken'.trans htoken⟩

end RunRow.Later

/-- The tables at a later moment. -/
structure RunChange (c c' : Db M S) : Prop where
  run : ∀ id (r : RunRow), c.get (.run id) = some r →
    ∃ r' : RunRow, c'.get (.run id) = some r' ∧ r.Later r'
  policy : ∀ v (p : PolicyRow), c.get (.policy v) = some p → c'.get (.policy v) = some p
  snapshot : ∀ id, (c.get (.snapshot id)).isSome = true → (c'.get (.snapshot id)).isSome = true
  item : ∀ id, (c.get (.snapshot id)).isSome = true → ∀ i, c'.get (.item id i) = c.get (.item id i)

namespace RunChange

variable {c c' c'' : Db M S}

theorem refl (c : Db M S) : RunChange c c :=
  ⟨fun _ r h => ⟨r, h, .refl r⟩, fun _ _ h => h, fun _ h => h, fun _ _ _ => rfl⟩

theorem trans (h : RunChange c c') (h' : RunChange c' c'') : RunChange c c'' where
  run id r hget := by
    obtain ⟨r', hget', hlater⟩ := h.run id r hget
    obtain ⟨r'', hget'', hlater'⟩ := h'.run id r' hget'
    exact ⟨r'', hget'', hlater.trans hlater'⟩
  policy v p hget := h'.policy v p (h.policy v p hget)
  snapshot id hget := h'.snapshot id (h.snapshot id hget)
  item id hget i := (h'.item id (h.snapshot id hget) i).trans (h.item id hget i)

end RunChange

/-! ### Updates of runs -/

variable {v : Db M S} {id : String} {r r' : RunRow}

/-- An update of a run that is not over, after which it has not succeeded. -/
structure RunRow.Moves (r r' : RunRow) : Prop where
  later : r.Later r'
  going : r.state.terminal = false
  fails : r'.state ≠ .succeeded
  free : r'.state ≠ .running → r'.leaseOwner = none

theorem RunsOk.no_result (h : RunsOk v) (hget : v.get (.run id) = some r)
    (hgoing : r.state.terminal = false) (item config : String) :
    v.get (.result id item config) = none := by
  by_contra hsome
  obtain ⟨r₁, hget₁, hstate, -⟩ := (h.results id item config).mp
    (Option.isSome_iff_ne_none.mpr hsome)
  rw [hget] at hget₁
  cases hget₁
  rw [hstate] at hgoing
  cases hgoing

/-- Some of the runs have been updated, within their policies, and nothing else. -/
structure RunsMoved (v v' : Db M S) : Prop where
  run : ∀ id, v'.get (.run id) = v.get (.run id) ∨ ∃ r r' : RunRow, v.get (.run id) = some r ∧
    v'.get (.run id) = some r' ∧ r.Moves r' ∧
      ∀ p : PolicyRow, v.get (.policy r.policyVersion) = some p → r'.attempt ≤ p.maxAttempts
  other : ∀ k : Key, (∀ id, k ≠ .run id) → v'.get k = v.get k

theorem RunsMoved.set (hget : v.get (.run id) = some r) (hmove : r.Moves r')
    (hbound : ∀ p : PolicyRow, v.get (.policy r.policyVersion) = some p →
      r'.attempt ≤ p.maxAttempts) : RunsMoved v (v.set (.run id) (some r')) where
  run id' := by
    by_cases hid : id' = id
    · subst hid
      exact .inr ⟨r, r', hget, Store.get_set_self .., hmove, hbound⟩
    · exact .inl (Store.get_set_of_ne (by simpa using hid))
  other k hk := Store.get_set_of_ne (hk id)

section Moved

variable {v' : Db M S}

theorem RunsMoved.change (h : RunsMoved v v') : RunChange v v' where
  run id' r₁ hget₁ := by
    rcases h.run id' with hsame | ⟨r, r', hget, hget', hmove, -⟩
    · exact ⟨r₁, hsame.trans hget₁, .refl r₁⟩
    · rw [hget] at hget₁
      cases hget₁
      exact ⟨r', hget', hmove.later⟩
  policy v' p hp := (h.other _ (by simp)).trans hp
  snapshot s hs := by
    rw [h.other _ (by simp)]
    exact hs
  item s _ i := h.other _ (by simp)

theorem RunsOk.move (hok : RunsOk v) (h : RunsMoved v v') : RunsOk v' := by
  refine ⟨fun id' r₁ hget₁ hstate => ?_, fun v₁ p hp => ?_, fun id' r₁ hget₁ => ?_,
    fun id' r₁ hget₁ => ?_, fun id' item config => ?_⟩
  · rcases h.run id' with hsame | ⟨r, r', hget, hget', hmove, -⟩
    · exact hok.free id' r₁ (hsame.symm.trans hget₁) hstate
    · rw [hget'] at hget₁
      cases hget₁
      exact hmove.free hstate
  · exact hok.policy v₁ p ((h.other _ (by simp)).symm.trans hp)
  · rw [h.other _ (by simp)]
    rcases h.run id' with hsame | ⟨r, r', hget, hget', hmove, hbound⟩
    · exact hok.bounded id' r₁ (hsame.symm.trans hget₁)
    · rw [hget'] at hget₁
      cases hget₁
      obtain ⟨p, hp, -⟩ := hok.bounded id' r hget
      exact ⟨p, by rw [hmove.later.policy]; exact hp, hbound p hp⟩
  · rw [h.other _ (by simp)]
    rcases h.run id' with hsame | ⟨r, r', hget, hget', hmove, -⟩
    · exact hok.frozen id' r₁ (hsame.symm.trans hget₁)
    · rw [hget'] at hget₁
      cases hget₁
      rw [hmove.later.snapshot]
      exact hok.frozen id' r hget
  · rw [h.other _ (by simp), hok.results id' item config]
    have hitem : ∀ s, v'.get (.item s item) = v.get (.item s item) := fun s => h.other _ (by simp)
    rcases h.run id' with hsame | ⟨r, r', hget, hget', hmove, -⟩
    · simp only [hsame, hitem]
    · -- a run that moves has not succeeded, before or after
      constructor
      · rintro ⟨r₁, hget₁, hstate, -⟩
        rw [hget] at hget₁
        cases hget₁
        have hgoing := hmove.going
        rw [hstate] at hgoing
        cases hgoing
      · rintro ⟨r₁, hget₁, hstate, -⟩
        rw [hget'] at hget₁
        cases hget₁
        exact absurd hstate hmove.fails

end Moved

theorem RunsOk.succeed {b : Db M S} (h : RunsOk b) (hget : b.get (.run id) = some r)
    (hother : ∀ k : Key, k ≠ .run id → (∀ i c, k ≠ .result id i c) → v.get k = b.get k)
    (hget' : v.get (.run id) = some r') (hlater : r.Later r') (hstate : r'.state = .succeeded)
    (hattempt : r'.attempt = r.attempt) (hfree : r'.leaseOwner = none)
    (hresults : ∀ i c, (v.get (.result id i c)).isSome = true ↔
      (b.get (.item r.frozenSnapshot.snapshotId i)).isSome = true ∧
        c ∈ r.candidateConfigVersions) : RunsOk v ∧ RunChange b v := by
  have hrow : ∀ id' (r₁ : RunRow), v.get (.run id') = some r₁ →
      id' = id ∧ r₁ = r' ∨ id' ≠ id ∧ b.get (.run id') = some r₁ := by
    intro id' r₁ hget₁
    by_cases hid : id' = id
    · subst hid
      rw [hget'] at hget₁
      cases hget₁
      exact .inl ⟨rfl, rfl⟩
    · rw [hother _ (by simpa using hid) (by simp)] at hget₁
      exact .inr ⟨hid, hget₁⟩
  have hpolicy : ∀ v', v.get (.policy v') = b.get (.policy v') := fun v' =>
    hother _ (by simp) (by simp)
  have hsnapshot : ∀ s, v.get (.snapshot s) = b.get (.snapshot s) := fun s =>
    hother _ (by simp) (by simp)
  have hitem : ∀ s i, v.get (.item s i) = b.get (.item s i) := fun s i =>
    hother _ (by simp) (by simp)
  refine ⟨⟨fun id' r₁ hget₁ hrunning => ?_, fun v' p hp => ?_, fun id' r₁ hget₁ => ?_,
    fun id' r₁ hget₁ => ?_, fun id' item config => ?_⟩, ⟨fun id' r₁ hget₁ => ?_, fun v' p hp => ?_,
    fun s hs => ?_, fun s _ i => hitem s i⟩⟩
  · rcases hrow id' r₁ hget₁ with ⟨-, rfl⟩ | ⟨-, hget₁⟩
    · exact hfree
    · exact h.free id' r₁ hget₁ hrunning
  · exact h.policy v' p (by rwa [hpolicy] at hp)
  · rw [hpolicy]
    rcases hrow id' r₁ hget₁ with ⟨rfl, rfl⟩ | ⟨-, hget₁⟩
    · obtain ⟨p, hp, hbound⟩ := h.bounded id' r hget
      exact ⟨p, by rw [hlater.policy]; exact hp, by omega⟩
    · exact h.bounded id' r₁ hget₁
  · rw [hsnapshot]
    rcases hrow id' r₁ hget₁ with ⟨rfl, rfl⟩ | ⟨-, hget₁⟩
    · rw [hlater.snapshot]
      exact h.frozen id' r hget
    · exact h.frozen id' r₁ hget₁
  · by_cases hid : id' = id
    · subst hid
      rw [hresults]
      constructor
      · rintro ⟨hi, hc⟩
        refine ⟨r', hget', hstate, ?_, ?_⟩
        · rw [hlater.snapshot, hitem]
          exact hi
        · rw [hlater.configs]
          exact hc
      · rintro ⟨r₁, hget₁, -, hi, hc⟩
        rw [hget'] at hget₁
        cases hget₁
        rw [hlater.snapshot, hitem] at hi
        rw [hlater.configs] at hc
        exact ⟨hi, hc⟩
    · rw [hother _ (by simp) (by simp [hid]), h.results]
      have hsame : v.get (.run id') = b.get (.run id') :=
        hother _ (by simpa using hid) (by simp)
      simp only [hsame, hitem]
  · by_cases hid : id' = id
    · subst hid
      rw [hget] at hget₁
      cases hget₁
      exact ⟨r', hget', hlater⟩
    · exact ⟨r₁, (hother _ (by simpa using hid) (by simp)).trans hget₁, .refl r₁⟩
  · rw [hpolicy]
    exact hp
  · rw [hsnapshot]
    exact hs

/-! ### New rows -/

/-- The runs that were there and the results are as they were. -/
structure Quiet (b v : Db M S) : Prop where
  run : ∀ id (r : RunRow), b.get (.run id) = some r → v.get (.run id) = some r
  result : ∀ id i c, v.get (.result id i c) = b.get (.result id i c)

theorem RunsOk.addPolicy {b : Db M S} {p : PolicyRow} (h : RunsOk b) (hp : 1 ≤ p.maxAttempts)
    (hnew : b.get (.policy p.policyVersion) = none) :
    RunsOk (b.set (.policy p.policyVersion) (some p)) ∧
      RunChange b (b.set (.policy p.policyVersion) (some p)) ∧
      Quiet b (b.set (.policy p.policyVersion) (some p)) := by
  have hother : ∀ k : Key, k ≠ .policy p.policyVersion →
      (b.set (.policy p.policyVersion) (some p)).get k = b.get k :=
    fun k hk => Store.get_set_of_ne hk
  have hkept : ∀ v' (p' : PolicyRow), b.get (.policy v') = some p' →
      (b.set (.policy p.policyVersion) (some p)).get (.policy v') = some p' := by
    intro v' p' hp'
    by_cases hv : v' = p.policyVersion
    · subst hv
      rw [hnew] at hp'
      cases hp'
    · rw [hother _ (by simpa using hv)]
      exact hp'
  refine ⟨⟨fun id r hget => ?_, fun v' p' hp' => ?_, fun id r hget => ?_, fun id r hget => ?_,
    fun id i c => ?_⟩, ⟨fun id r hget => ?_, hkept, fun s hs => ?_, fun s _ i => ?_⟩,
    ⟨fun id r hget => ?_, fun id i c => hother _ (by simp)⟩⟩
  · rw [hother _ (by simp)] at hget
    exact h.free id r hget
  · by_cases hv : v' = p.policyVersion
    · subst hv
      rw [Store.get_set_self] at hp'
      cases hp'
      exact ⟨rfl, hp⟩
    · rw [hother _ (by simpa using hv)] at hp'
      exact h.policy v' p' hp'
  · rw [hother _ (by simp)] at hget
    obtain ⟨p', hp', hbound⟩ := h.bounded id r hget
    exact ⟨p', hkept _ p' hp', hbound⟩
  · rw [hother _ (by simp)] at hget ⊢
    exact h.frozen id r hget
  · simp only [hother (.result id i c) (by simp), hother (.run id) (by simp),
      hother (.item _ i) (by simp)]
    exact h.results id i c
  · exact ⟨r, by rw [hother _ (by simp)]; exact hget, .refl r⟩
  · rw [hother _ (by simp)]
    exact hs
  · exact hother _ (by simp)
  · rw [hother _ (by simp)]
    exact hget

/-- The rows a new run is made of. -/
def Key.ofNewRun (runId snapshotId : String) (k : Key) : Prop :=
  k = .run runId ∨ k = .snapshot snapshotId ∨ (∃ i, k = .item snapshotId i) ∨
    ∃ userId key, k = .runCommand userId key

theorem RunsOk.create {b : Db M S} {snapshotId : String} (h : RunsOk b)
    (hnew : b.get (.snapshot snapshotId) = none) (hrun : b.get (.run id) = none)
    (hother : ∀ k : Key, ¬ k.ofNewRun id snapshotId → v.get k = b.get k)
    (hsnapshot : (v.get (.snapshot snapshotId)).isSome = true) (hget : v.get (.run id) = some r)
    (hstate : r.state = .queued) (hfree : r.leaseOwner = none)
    (hfrozen : r.frozenSnapshot.snapshotId = snapshotId)
    (hbound : ∃ p : PolicyRow, b.get (.policy r.policyVersion) = some p ∧
      r.attempt ≤ p.maxAttempts) : RunsOk v ∧ RunChange b v ∧ Quiet b v := by
  have hrow : ∀ id' (r₁ : RunRow), v.get (.run id') = some r₁ →
      id' = id ∧ r₁ = r ∨ id' ≠ id ∧ b.get (.run id') = some r₁ := by
    intro id' r₁ hget₁
    by_cases hid : id' = id
    · subst hid
      rw [hget] at hget₁
      cases hget₁
      exact .inl ⟨rfl, rfl⟩
    · rw [hother _ (by simp [Key.ofNewRun, hid])] at hget₁
      exact .inr ⟨hid, hget₁⟩
  have hpolicy : ∀ v', v.get (.policy v') = b.get (.policy v') := fun v' =>
    hother _ (by simp [Key.ofNewRun])
  have hkept : ∀ s, (b.get (.snapshot s)).isSome = true → s ≠ snapshotId := by
    rintro s hs rfl
    rw [hnew] at hs
    cases hs
  have hitem : ∀ s, s ≠ snapshotId → ∀ i, v.get (.item s i) = b.get (.item s i) := fun s hs i =>
    hother _ (by simp [Key.ofNewRun, hs])
  have hsame : ∀ id' (r₁ : RunRow), b.get (.run id') = some r₁ → v.get (.run id') = some r₁ := by
    intro id' r₁ hget₁
    have hid : id' ≠ id := by
      rintro rfl
      rw [hrun] at hget₁
      cases hget₁
    rw [hother _ (by simp [Key.ofNewRun, hid])]
    exact hget₁
  refine ⟨⟨fun id' r₁ hget₁ hrunning => ?_, fun v' p hp => ?_, fun id' r₁ hget₁ => ?_,
    fun id' r₁ hget₁ => ?_, fun id' i c => ?_⟩, ⟨fun id' r₁ hget₁ => ?_, fun v' p hp => ?_,
    fun s hs => ?_, fun s hs i => hitem s (hkept s hs) i⟩,
    ⟨hsame, fun id' i c => hother _ (by simp [Key.ofNewRun])⟩⟩
  · rcases hrow id' r₁ hget₁ with ⟨-, rfl⟩ | ⟨-, hget₁⟩
    · exact hfree
    · exact h.free id' r₁ hget₁ hrunning
  · exact h.policy v' p (by rwa [hpolicy] at hp)
  · rw [hpolicy]
    rcases hrow id' r₁ hget₁ with ⟨-, rfl⟩ | ⟨-, hget₁⟩
    · exact hbound
    · exact h.bounded id' r₁ hget₁
  · rcases hrow id' r₁ hget₁ with ⟨-, rfl⟩ | ⟨-, hget₁⟩
    · rw [hfrozen]
      exact hsnapshot
    · have hs := h.frozen id' r₁ hget₁
      rw [hother _ (by simp [Key.ofNewRun, hkept _ hs])]
      exact hs
  · rw [hother _ (by simp [Key.ofNewRun]), h.results id' i c]
    constructor
    · rintro ⟨r₁, hget₁, hsucceeded, hi, hc⟩
      refine ⟨r₁, hsame id' r₁ hget₁, hsucceeded, ?_, hc⟩
      rw [hitem _ (hkept _ (h.frozen id' r₁ hget₁))]
      exact hi
    · rintro ⟨r₁, hget₁, hsucceeded, hi, hc⟩
      rcases hrow id' r₁ hget₁ with ⟨-, rfl⟩ | ⟨-, hget₁⟩
      · rw [hstate] at hsucceeded
        cases hsucceeded
      · rw [hitem _ (hkept _ (h.frozen id' r₁ hget₁))] at hi
        exact ⟨r₁, hget₁, hsucceeded, hi, hc⟩
  · exact ⟨r₁, hsame id' r₁ hget₁, .refl r₁⟩
  · rw [hpolicy]
    exact hp
  · rw [hother _ (by simp [Key.ofNewRun, hkept s hs])]
    exact hs

/-! ### Claims -/

/-- The claim holds its run: it is running under its attempt, its owner and its token. -/
def HeldBy (run : ShadowRun) (owner : String) (c : Db M S) : Prop :=
  ∃ r : RunRow, c.get (.run run.runId) = some r ∧ r.state = .running ∧
    r.fenced run.row.attempt owner run.token = true

/-- The claim has been superseded: the run was recovered, or is over, or runs under another
token. -/
def Overtaken (run : ShadowRun) (c : Db M S) : Prop :=
  ∃ r : RunRow, c.get (.run run.runId) = some r ∧ (run.row.attempt < r.attempt ∨
    r.state.terminal = true ∨
      r.attempt = run.row.attempt ∧ r.state = .running ∧ r.fencingToken ≠ some run.token)

theorem Overtaken.not_held {run : ShadowRun} {owner : String} {c c' : Db M S}
    (h : Overtaken run c) (hchange : RunChange c c') : ¬ HeldBy run owner c' := by
  rintro ⟨r', hget', hrunning, hfenced⟩
  obtain ⟨r, hget, hpast⟩ := h
  obtain ⟨r₁, hget₁, hlater⟩ := hchange.run _ r hget
  rw [hget'] at hget₁
  cases hget₁
  simp only [RunRow.fenced, Bool.and_eq_true, decide_eq_true_eq] at hfenced
  obtain ⟨⟨hattempt, -⟩, htoken⟩ := hfenced
  rcases hpast with hless | hover | ⟨hsame, hrun, hother⟩
  · have hgrow := hlater.attempt
    omega
  · rw [hlater.ended hover] at hrunning
    rw [hrunning] at hover
    cases hover
  · obtain ⟨-, -, -, htoken'⟩ := hlater.same hrun (hattempt.trans hsame.symm)
      (by rw [hrunning]; rfl)
    exact hother (htoken'.symm.trans htoken)

end RagQs.Evaluation
