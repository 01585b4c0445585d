import RagQs.Documents.HeadProof
import RagQs.Documents.Work

/-!
# The steps of a document keep the attempts of its jobs in order

Every step of the state machine acts on the attempts of each job as one of the operations on them,
or leaves them as they are.

## Main definitions

* `Aggregate.work` — a job of the document with its attempts.

## Main results

* `Aggregate.Step.orderly` — a step keeps the attempts of every job in order.
-/

namespace RagQs.Documents

open Txn Option Function

/-- What is read of a row of an attempt. -/
def AttemptRow.turn (r : AttemptRow) : Turn :=
  ⟨r.attemptNumber, r.fencingToken, r.replayGeneration, r.state = .running⟩

/-- What is read of a row of a job. -/
def JobRow.work (r : JobRow) : JobWork :=
  ⟨r.state.live, r.state = .running, r.activeAttemptId, r.replayGeneration⟩

namespace Aggregate

/-- A job of the document with its attempts. -/
def work (s : Aggregate) (j : String) : Work where
  job := (s.job j).map JobRow.work
  attempt a := (s.attempt j a).map AttemptRow.turn

variable {s t : Aggregate} {j a : String} {job : JobRow}

theorem cycle_work {g n : ℕ} (h : s.Cycle j g n) : (s.work j).Cycle g n := by
  obtain ⟨keys, hkeys, hcard⟩ := h
  refine ⟨keys, fun a => (hkeys a).trans ?_, hcard⟩
  simp only [work, map_eq_some_iff]
  constructor
  · rintro ⟨r, hr, hg⟩
    exact ⟨_, ⟨r, hr, rfl⟩, hg⟩
  · rintro ⟨_, ⟨r, hr, rfl⟩, hg⟩
    exact ⟨r, hr, hg⟩

theorem work_congr (hjob : t.job j = s.job j) (hattempt : t.attempt j = s.attempt j) :
    t.work j = s.work j := by
  unfold work
  rw [hjob, hattempt]

theorem ends_of_rows {job' : JobRow} (hw : (s.work j).Orderly) (hjob : s.job j = some job)
    (hjob' : t.job j = some job') (hgeneration : job'.replayGeneration = job.replayGeneration)
    (hstopped : job'.state ≠ .running) (hidle : job'.state.live = true → job'.activeAttemptId = none)
    (hfew : job'.state.live = true → ∃ n, s.Cycle j job.replayGeneration n ∧ n < 4)
    (hkept : ∀ b r, s.attempt j b = some r → ∃ r', t.attempt j b = some r')
    (hattempt : ∀ b r', t.attempt j b = some r' → ∃ r, s.attempt j b = some r ∧
      r'.attemptNumber = r.attemptNumber ∧ r'.replayGeneration = r.replayGeneration ∧
      (r'.state = .running → r.state = .running ∧ job.activeAttemptId ≠ some b) ∧
      (r'.fencingToken = r.fencingToken ∨ r.fencingToken < r'.fencingToken ∧
        job.activeAttemptId = some b ∧ job.state = .running)) :
    Work.Ends (s.work j) (t.work j) job.work job'.work := by
  have hbefore : (s.work j).job = some job.work := by simp [work, hjob]
  refine ⟨hbefore, by simp [work, hjob'], hgeneration, by simp [JobRow.work, hstopped], hidle,
    fun hlive n hn => ?_, fun b t ht => ?_, fun b u hu => ?_⟩
  · obtain ⟨m, hm, hlt⟩ := hfew hlive
    rw [Tally.unique hn (cycle_work hm)]
    exact hlt
  · obtain ⟨r, hr, -⟩ := map_eq_some_iff.mp ht
    obtain ⟨r', hr'⟩ := hkept b r hr
    exact ⟨r'.turn, by simp [work, hr']⟩
  · obtain ⟨r', hr', rfl⟩ := map_eq_some_iff.mp hu
    obtain ⟨r, hr, hnumber, hgen, hrunning, hfence⟩ := hattempt b r' hr'
    have hget : (s.work j).attempt b = some r.turn := by simp [work, hr]
    refine ⟨r.turn, hget, hnumber, hgen, ?_, hfence.imp id ?_⟩
    · by_contra hlive
      obtain ⟨hold, hother⟩ := hrunning (by simpa [AttemptRow.turn] using hlive)
      obtain ⟨x, hx, -, hactive⟩ := hw.running b _ hget (by simpa [AttemptRow.turn] using hold)
      cases hx.symm.trans hbefore
      exact hother hactive
    · rintro ⟨hlt, hactive, hrun⟩
      refine ⟨hlt, ?_⟩
      obtain ⟨-, c, u, hc, hu', -, hlast⟩ := hw.latest _ hbefore (by simp [JobRow.work, hrun])
      cases hactive.symm.trans hc
      cases hget.symm.trans hu'
      exact hlast

theorem orderly_of_end {x : JobRow} (hw : ∀ i, (s.work i).Orderly) (hjob : s.job j = some job)
    (hafter : t.job j = some x) (hgeneration : x.replayGeneration = job.replayGeneration)
    (hstopped : x.state ≠ .running) (hover : x.state.live = true → x.activeAttemptId = none ∧
      ∃ n, s.Cycle j job.replayGeneration n ∧ n < 4)
    (hjobs : ∀ i, i ≠ j → t.job i = s.job i) (hattempts : ∀ i, i ≠ j → t.attempt i = s.attempt i)
    (hkept : ∀ b r, s.attempt j b = some r → ∃ r', t.attempt j b = some r')
    (hattempt : ∀ b r', t.attempt j b = some r' → ∃ r, s.attempt j b = some r ∧
      r'.attemptNumber = r.attemptNumber ∧ r'.replayGeneration = r.replayGeneration ∧
      (r'.state = .running → r.state = .running ∧ job.activeAttemptId ≠ some b) ∧
      (r'.fencingToken = r.fencingToken ∨ r.fencingToken < r'.fencingToken ∧
        job.activeAttemptId = some b ∧ job.state = .running)) (i : String) :
    (t.work i).Orderly := by
  by_cases hi : i = j
  · subst hi
    exact (hw i).ends (ends_of_rows (hw i) hjob hafter hgeneration hstopped
      (fun hlive => (hover hlive).1) (fun hlive => (hover hlive).2) hkept hattempt)
  · rw [work_congr (s := s) (t := t) (hjobs i hi) (hattempts i hi)]
    exact hw i

theorem orderly_of_stop {attempt : AttemptRow} (ended : AttemptState) (next : JobState)
    (reason : String) (nextAt : Option Time) (hw : ∀ i, (s.work i).Orderly)
    (hruns : s.Runs j a job attempt) (hended : ended ≠ .running) (hnext : next ≠ .running)
    (hfew : next.live = true → ∃ n, s.Cycle j job.replayGeneration n ∧ n < 4)
    (htj : t.job = (s.stop j a ended next reason nextAt).job)
    (hta : t.attempt = (s.stop j a ended next reason nextAt).attempt) (i : String) :
    (t.work i).Orderly := by
  have hjob : t.job = mapAt s.job j fun r =>
      { r with state := next, activeAttemptId := none, failureReason := some reason,
               nextAttemptAt := nextAt } := htj
  have hattempt : t.attempt = update s.attempt j (mapAt (s.attempt j) a fun r =>
      { r with state := ended, publicationId := none, failureReason := some reason }) := hta
  have hafter : t.job j = some { job with
      state := next, activeAttemptId := none, failureReason := some reason
      nextAttemptAt := nextAt } := by
    rw [hjob, mapAt_self hruns.ofJob]
  refine orderly_of_end hw hruns.ofJob hafter rfl hnext
    (fun hlive => ⟨rfl, hfew hlive⟩) (fun i hi => by rw [hjob, mapAt_of_ne hi])
    (fun i hi => by rw [hattempt, update_of_ne hi]) (fun b r hr => ?_)
    (fun b r' hr' => ?_) i
  · rw [hattempt, update_self]
    by_cases hb : b = a
    · subst hb
      exact ⟨_, mapAt_self hr⟩
    · exact ⟨r, by rw [mapAt_of_ne hb, hr]⟩
  · rw [hattempt, update_self, mapAt_eq_some] at hr'
    obtain ⟨r, hr, rfl⟩ := hr'
    refine ⟨r, hr, ?_⟩
    by_cases hb : b = a
    · rw [if_pos hb]
      exact ⟨rfl, rfl, fun h => absurd h hended, .inl rfl⟩
    · rw [if_neg hb]
      refine ⟨rfl, rfl, fun h => ⟨h, fun hactive => hb ?_⟩, .inl rfl⟩
      exact some.inj (hactive.symm.trans hruns.active)

/-- **A step keeps the attempts of every job in order.** -/
theorem Step.orderly {env : Env} {kind : StepKind} (hc : s.head.Consistent)
    (hw : ∀ i, (s.work i).Orderly) (h : s.Step env kind t) (i : String) : (t.work i).Orderly := by
  have hbegin : ∀ {u : Aggregate} {j : String} {job : JobRow}, s.job j = none →
      job.work = ⟨true, false, none, 0⟩ → u.job = update s.job j (some job) →
      u.attempt = s.attempt → (u.work i).Orderly := by
    intro u j job hnew hjob huj hua
    by_cases hi : i = j
    · subst hi
      have hwork : u.work i = (s.work i).begin := by
        unfold work Work.begin
        rw [huj, hua, update_self, map_some, hjob]
      rw [hwork]
      exact (hw i).begin (by simp [work, hnew])
    · rw [work_congr (s := s) (t := u) (by rw [huj, update_of_ne hi]) (by rw [hua])]
      exact hw i
  cases h with
  | create a info new generationId h =>
    have habsent := (hc.absent (by simp [head, h])).1 new.jobId
    exact hbegin (by simpa [head] using habsent) rfl rfl rfl
  | replace a generationId h hactive hidle hversion hjob hpublication hpending =>
    exact hbegin hjob rfl rfl rfl
  | reindex a generationId h hactive hidle hversion hjob hpublication =>
    exact hbegin hjob rfl rfl rfl
  | claim h hwaits hnew hstaging hnumber hfence hcycle hattempt =>
    rename_i job attempt publication j a p lastNumber lastFence cycle
    obtain ⟨hnumber', -, hfence', hgeneration, hrunning⟩ := hattempt
    by_cases hi : i = j
    · subst hi
      have hwork : (s.work i).job = some job.work := by simp [work, h]
      have hclaim := @Work.Orderly.claim _ a job.work attempt.turn (hw i) hwork
      refine cast (congrArg Work.Orderly ?_) (hclaim ?_ ?_ (by simp [work, hnew])
        (by simp [AttemptRow.turn, hrunning]) hgeneration ⟨lastNumber, hnumber', ?_, ?_⟩ ?_
        (cycle_work hcycle))
      · have hjob : job.work.generation = attempt.turn.generation := hgeneration.symm
        ext1
        · simp only [work, Work.claim, recordItem_job, update_self, map_some]
          rw [← hjob]
          rfl
        · funext b
          simp only [work, Work.claim, recordItem_attempt, update_self]
          by_cases hb : b = a
          · subst hb
            simp
          · simp [hb]
      · rcases hwaits with hstate | hstate <;> simp [JobRow.work, hstate, JobState.live]
      · rcases hwaits with hstate | hstate <;> simp [JobRow.work, hstate]
      · intro b u hu
        obtain ⟨r, hr, rfl⟩ := map_eq_some_iff.mp hu
        exact hnumber.le b r hr
      · refine hnumber.attained.imp id ?_
        rintro ⟨b, r, hr, hb⟩
        exact ⟨b, r.turn, by simp [work, hr], hb⟩
      · intro b u hu
        obtain ⟨r, hr, rfl⟩ := map_eq_some_iff.mp hu
        have := hfence.le b r hr
        show r.fencingToken < attempt.fencingToken
        omega
    · rw [work_congr (s := s) (by simp [hi]) (by simp [hi])]
      exact hw i
  | expire reason next h hcount hn =>
    exact orderly_of_stop .expired .retryWait reason next hw h (by simp) (by simp)
      (fun _ => ⟨_, hcount, hn⟩) (by simp) (by simp) i
  | deadLetter reason now h hruns hcount hn =>
    exact orderly_of_stop .expired .deadLetter reason none hw hruns (by simp) (by simp)
      (by intro h; cases h) (by simp)
      (by simp) i
  | retry reason next h hcount hn =>
    exact orderly_of_stop .failed .retryWait reason next hw h (by simp) (by simp)
      (fun _ => ⟨_, hcount, hn⟩) (by simp) (by simp) i
  | fail reason now h hruns hnext =>
    rename_i document job attempt j a next
    refine orderly_of_stop .failed next reason none hw hruns (by simp) ?_ (fun hlive => ?_) (by simp)
      (by simp) i
    · rcases hnext with rfl | rfl <;> simp
    · rcases hnext with rfl | rfl <;> cases hlive
  | cancel now h hjob hlive hfence =>
    rename_i document job j lastFence
    refine orderly_of_end hw hjob (j := j) (x := { job with state := .cancelled, activeAttemptId := none })
      (by simp [mapAt_self hjob]) rfl (by intro h; cases h) (by intro h; cases h)
      (fun i hi => by simp [mapAt_of_ne hi]) (fun i hi => by simp [hi])
      (fun b r hr => by simp [mapWhere, hr]) (fun b r' hr' => ?_) i
    simp only [recordItem_attempt, disclaim_attempt, close_attempt, unstage_attempt,
      update_self, mapWhere_eq_some] at hr'
    obtain ⟨r, hr, rfl⟩ := hr'
    refine ⟨r, hr, ?_⟩
    by_cases hb : job.activeAttemptId = some b
    · rw [if_pos (decide_eq_true hb)]
      have hrunning : job.state = .running := by
        by_contra hwaits
        have := (hw j).idle job.work (by simp [work, hjob]) hlive (by simp [JobRow.work, hwaits])
        rw [show job.work.active = job.activeAttemptId from rfl, hb] at this
        cases this
      have hlast := (hfence b hb).le b r hr
      exact ⟨rfl, rfl, (by simp), .inr ⟨Nat.lt_succ_of_le hlast, hb, hrunning⟩⟩
    · rw [if_neg (by simpa using hb)]
      exact ⟨rfl, rfl, fun h => ⟨h, hb⟩, .inl rfl⟩
  | replay a generationId h hactive hidle hbase hjob hover hversion hpurged hpublication =>
    rename_i document job version
    have hlive : job.work.live = false := by
      cases hs : job.state <;> simp [hs, JobState.replayable, JobState.live, JobRow.work] at hover ⊢
    by_cases hi : i = a.jobId
    · subst hi
      have hwork : (s.work a.jobId).job = some job.work := by simp [work, hjob]
      refine cast (congrArg Work.Orderly ?_) ((hw a.jobId).replay hwork hlive)
      ext1
      · simp [work, Work.replay, mapAt_self hjob, JobRow.work, JobState.live]
      · simp [work, Work.replay]
    · rw [work_congr (s := s) (by simp [mapAt_of_ne hi]) (by simp)]
      exact hw i
  | publish c h hactive hruns hoperation hbase hversion hname hreceipt hpublication hstaged
      hsettled =>
    rename_i document job attempt version publication name a charge debit
    refine orderly_of_end hw hruns.ofJob (j := c.jobId)
      (x := { job with state := .succeeded, activeAttemptId := some a,
                       quotaChargeStatus := charge.1, quotaChargeReason := charge.2 })
      (by simp [mapAt_self hruns.ofJob]) rfl (by intro h; cases h) (by intro h; cases h)
      (fun i hi => by simp [mapAt_of_ne hi]) (fun i hi => by simp [hi])
      (fun b r hr => ?_) (fun b r' hr' => ?_) i
    · simp only [recordItem_attempt, update_self]
      by_cases hb : b = a
      · subst hb
        exact ⟨_, mapAt_self hr⟩
      · exact ⟨r, by rw [mapAt_of_ne hb, hr]⟩
    · simp only [recordItem_attempt, update_self, mapAt_eq_some] at hr'
      obtain ⟨r, hr, rfl⟩ := hr'
      refine ⟨r, hr, ?_⟩
      by_cases hb : b = a
      · rw [if_pos hb]
        exact ⟨rfl, rfl, (by simp), .inl rfl⟩
      · rw [if_neg hb]
        refine ⟨rfl, rfl, fun h => ⟨h, fun hactive => hb ?_⟩, .inl rfl⟩
        exact some.inj (hactive.symm.trans hruns.active)
  | delete a staged h hactive =>
    -- Every job that is not over is cancelled, so each job of the document ends or has ended.
    cases hi : s.job i with
    | none =>
      have horphan : ∀ b, s.attempt i b = none := fun b => by
        simpa [work] using (hw i).orphan (by simp [work, hi]) b
      refine cast (congrArg Work.Orderly ?_) (hw i)
      ext1
      · simp [work, dropClaims, supersede, mapWhere, hi]
      · simp [work, dropClaims, supersede, mapWhere, horphan]
    | some job =>
      have hafter : mapWhere s.job (fun _ r => r.state.live)
          (fun r => { r with state := .cancelled }) i = some
            (if job.state.live then { job with state := .cancelled } else job) := by
        simp [mapWhere, hi]
      have hover : (if job.state.live then { job with state := .cancelled } else job : JobRow).state.live
          = false := by
        split
        · rfl
        · exact Bool.eq_false_iff.mpr ‹_›
      refine (hw i).ends (ends_of_rows (hw i) hi hafter ?_ (fun hrunning => ?_)
          (fun hlive => absurd (hover.symm.trans hlive) (by simp))
          (fun hlive => absurd (hover.symm.trans hlive) (by simp)) (fun b r hr => ?_)
          fun b r' hr' => ?_)
      · split <;> rfl
      · rw [hrunning] at hover
        cases hover
      · simp [dropClaims, supersede, mapWhere, hr]
      · simp only [dropClaims, supersede, unstage_attempt, mapWhere_eq_some] at hr'
        obtain ⟨r₁, ⟨r, hr, rfl⟩, rfl⟩ := hr'
        refine ⟨r, hr, ?_, ?_, fun hrunning => ?_, .inl ?_⟩
        · split <;> split <;> rfl
        · split <;> split <;> rfl
        · -- An attempt that runs is that of a job that is not over, and such attempts were cancelled.
          exfalso
          have hr' : r.state = .running ∧ ¬ (r.state = .running ∧ job.state.live = true) := by
            simp only [hi, any_some, decide_eq_true_eq] at hrunning
            split at hrunning <;> split at hrunning <;> simp_all
          obtain ⟨x, hx, hrun, -⟩ := (hw i).running b r.turn (by simp [work, hr])
            (decide_eq_true hr'.1)
          have hlive := ((hw i).latest x hx hrun).1
          obtain rfl : job.work = x := by simpa [work, hi] using hx
          exact hr'.2 ⟨hr'.1, hlive⟩
        · split <;> split <;> rfl

end Aggregate
end RagQs.Documents
