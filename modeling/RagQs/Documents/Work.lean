import RagQs.Documents.Aggregate

/-!
# The attempts of a job

What the attempts of one job have to agree on: which of them runs, how they are numbered, that
their fences follow one another, and how many there are in a replay cycle.  Claiming, ending,
cancelling and replaying a job are the operations of a small state machine, and each keeps the
attempts in order.

## Main definitions

* `Turn`, `JobWork`, `Work` — what is read of an attempt, of a job, and of both together.
* `Work.Orderly` — the attempts are in order.
* `Work.begin`, `Work.claim`, `Work.stop`, `Work.cancel`, `Work.replay`, `Work.succeed`,
  `Work.delete` — the operations.

## Main results

* `Work.Orderly.claim`, `Work.Orderly.stop` and so on — the operations keep the attempts in order.
-/

namespace RagQs.Documents

open Txn Option

/-- What is read of an attempt. -/
structure Turn where
  number : ℕ
  fence : ℕ
  generation : ℕ
  running : Bool

/-- What is read of a job. -/
structure JobWork where
  live : Bool
  running : Bool
  active : Option String
  generation : ℕ

/-- A job with its attempts. -/
@[ext] structure Work where
  job : Option JobWork
  attempt : String → Option Turn

namespace Work

/-- The number of attempts in a replay generation. -/
def Cycle (w : Work) (generation n : ℕ) : Prop :=
  @Tally String (fun _ => Turn) w.attempt (fun _ t => t.generation = generation) n

/-- The attempts of a job are in order. -/
structure Orderly (w : Work) : Prop where
  orphan : w.job = none → ∀ a, w.attempt a = none
  /-- An attempt that runs is the one of the job, which runs as well. -/
  running : ∀ a t, w.attempt a = some t → t.running = true →
    ∃ job, w.job = some job ∧ job.running = true ∧ job.active = some a
  /-- The attempt of a job that runs is the latest one. -/
  latest : ∀ job, w.job = some job → job.running = true → job.live = true ∧
    ∃ a t, job.active = some a ∧ w.attempt a = some t ∧ t.generation = job.generation ∧
      ∀ b u, w.attempt b = some u → u.number ≤ t.number
  idle : ∀ job, w.job = some job → job.live = true → job.running = false → job.active = none
  past : ∀ job a t, w.job = some job → w.attempt a = some t → t.generation ≤ job.generation
  /-- The numbers are those from one on. -/
  numbered : ∃ n, ∀ m, (0 < m ∧ m ≤ n) ↔ ∃ a t, w.attempt a = some t ∧ t.number = m
  distinct : ∀ a b t u, w.attempt a = some t → w.attempt b = some u → t.number = u.number → a = b
  fences : ∀ a b t u, w.attempt a = some t → w.attempt b = some u → t.number < u.number →
    t.fence < u.fence
  cycles : ∀ g n, w.Cycle g n → n ≤ 4
  /-- A job that waits has an attempt left. -/
  waiting : ∀ job, w.job = some job → job.live = true → job.running = false →
    ∀ n, w.Cycle job.generation n → n < 4

/-! ### The operations -/

/-- A new job. -/
def begin (w : Work) : Work := { w with job := some ⟨true, false, none, 0⟩ }

/-- A worker takes the job. -/
def claim (w : Work) (a : String) (turn : Turn) : Work where
  job := some ⟨true, true, some a, turn.generation⟩
  attempt := Function.update w.attempt a (some turn)

/-- A job that is over begins again. -/
def replay (w : Work) (job : JobWork) : Work :=
  { w with job := some ⟨true, false, none, job.generation + 1⟩ }

/-- No attempt of the job runs any more: those there were are still there, and at most the latest
of them has a new fence. -/
structure Ends (w w' : Work) (job job' : JobWork) : Prop where
  before : w.job = some job
  after : w'.job = some job'
  generation : job'.generation = job.generation
  stopped : job'.running = false
  idle : job'.live = true → job'.active = none
  /-- A job that goes on waiting has an attempt left. -/
  few : job'.live = true → ∀ n, w.Cycle job.generation n → n < 4
  kept : ∀ a t, w.attempt a = some t → ∃ u, w'.attempt a = some u
  attempt : ∀ a u, w'.attempt a = some u → ∃ t, w.attempt a = some t ∧ u.number = t.number ∧
    u.generation = t.generation ∧ u.running = false ∧ (u.fence = t.fence ∨
      t.fence < u.fence ∧ ∀ b v, w.attempt b = some v → v.number ≤ t.number)

/-! ### Order -/

variable {w w' : Work} {a : String} {job job' : JobWork} {turn : Turn}

theorem Ends.cycle (h : Ends w w' job job') {g n : ℕ} (hn : w'.Cycle g n) : w.Cycle g n := by
  refine .congr hn fun a => ⟨?_, ?_⟩
  · rintro ⟨u, hu, hg⟩
    obtain ⟨t, ht, -, hgen, -⟩ := h.attempt a u hu
    exact ⟨t, ht, by rw [← hgen]; exact hg⟩
  · rintro ⟨t, ht, hg⟩
    obtain ⟨u, hu⟩ := h.kept a t ht
    obtain ⟨t', ht', -, hgen, -⟩ := h.attempt a u hu
    cases ht.symm.trans ht'
    exact ⟨u, hu, by rw [hgen]; exact hg⟩

namespace Orderly

variable (hw : w.Orderly)
include hw

theorem begin (hnew : w.job = none) : w.begin.Orderly := by
  have hnone := hw.orphan hnew
  have hzero : ∀ g n, w.begin.Cycle g n → n = 0 := fun g n h =>
    Tally.unique h (Tally.zero fun a t ht => absurd (ht.symm.trans (hnone a)) nofun)
  constructor <;> simp only [Work.begin, hnone]
  case cycles => exact fun g n h => by rw [hzero g n h]; exact Nat.zero_le _
  case waiting => exact fun _ _ _ _ n h => by rw [hzero _ n h]; exact Nat.succ_pos _
  case numbered => exact ⟨0, fun m => ⟨fun h => absurd h.1 (by omega), nofun⟩⟩
  all_goals grind

theorem ends (h : Ends w w' job job') : w'.Orderly := by
  have hattempt := h.attempt
  have hafter := h.after
  have hstopped := h.stopped
  constructor
  case cycles => exact fun g n hn => hw.cycles g n (h.cycle hn)
  case waiting =>
    intro r hr hlive _ n hn
    cases hr.symm.trans hafter
    rw [h.generation] at hn
    exact h.few hlive n (h.cycle hn)
  case numbered =>
    obtain ⟨n, hn⟩ := hw.numbered
    refine ⟨n, fun m => (hn m).trans ⟨?_, ?_⟩⟩
    · rintro ⟨a, t, ht, rfl⟩
      obtain ⟨u, hu⟩ := h.kept a t ht
      obtain ⟨t', ht', hnumber, -⟩ := hattempt a u hu
      cases ht.symm.trans ht'
      exact ⟨a, u, hu, hnumber⟩
    · rintro ⟨a, u, hu, rfl⟩
      obtain ⟨t, ht, hnumber, -⟩ := hattempt a u hu
      exact ⟨a, t, ht, hnumber.symm⟩
  case fences =>
    intro a b u v hu hv hlt
    obtain ⟨t, ht, htn, -, -, htf⟩ := hattempt a u hu
    obtain ⟨r, hr, hrn, -, -, hrf⟩ := hattempt b v hv
    have hlt : t.number < r.number := by omega
    have hfence := hw.fences a b t r ht hr hlt
    rcases htf with htf | ⟨-, hlast⟩
    · rcases hrf with hrf | ⟨hrf, -⟩ <;> omega
    · have := hlast b r hr
      omega
  case past =>
    intro r a u hr hu
    cases hr.symm.trans hafter
    obtain ⟨t, ht, -, hgen, -⟩ := hattempt a u hu
    rw [hgen, h.generation]
    exact hw.past job a t h.before ht
  case distinct =>
    intro a b u v hu hv heq
    obtain ⟨t, ht, htn, -⟩ := hattempt a u hu
    obtain ⟨r, hr, hrn, -⟩ := hattempt b v hv
    exact hw.distinct a b t r ht hr (by omega)
  case idle =>
    intro r hr hlive _
    cases hr.symm.trans hafter
    exact h.idle hlive
  all_goals grind

theorem replay (hjob : w.job = some job) (hover : job.live = false) : (w.replay job).Orderly := by
  have hnone : ∀ n, (w.replay job).Cycle (job.generation + 1) n → n = 0 := by
    intro n hn
    refine Tally.unique hn (Tally.zero fun a t ht => decide_eq_false fun hg => ?_)
    have := hw.past job a t hjob ht
    omega
  have hidle : ∀ a t, w.attempt a = some t → t.running = false := by
    intro a t ht
    by_contra hrunning
    obtain ⟨r, hr, hr', -⟩ := hw.running a t ht (by simpa using hrunning)
    cases hr.symm.trans hjob
    have := (hw.latest _ hr hr').1
    simp [hover] at this
  constructor <;> simp only [Work.replay]
  case cycles => exact hw.cycles
  case numbered => exact hw.numbered
  case waiting =>
    intro r hr _ _ n hn
    cases hr
    rw [hnone n hn]
    exact Nat.succ_pos _
  case past =>
    intro r a t hr ht
    cases hr
    exact Nat.le_succ_of_le (hw.past job a t hjob ht)
  case running =>
    intro a t ht hrunning
    rw [hidle a t ht] at hrunning
    cases hrunning
  all_goals grind [Orderly]

theorem claim (hjob : w.job = some job) (hlive : job.live = true) (hwaits : job.running = false)
    (hnew : w.attempt a = none) (hrunning : turn.running = true)
    (hgeneration : turn.generation = job.generation)
    (hnumber : ∃ m, turn.number = m + 1 ∧ (∀ b t, w.attempt b = some t → t.number ≤ m) ∧
      (m = 0 ∨ ∃ b t, w.attempt b = some t ∧ t.number = m))
    (hfence : ∀ b t, w.attempt b = some t → t.fence < turn.fence)
    {n : ℕ} (hn : w.Cycle job.generation n) : (w.claim a turn).Orderly := by
  have hfew := hw.waiting job hjob hlive hwaits n hn
  obtain ⟨m, hm, hle, hmax⟩ := hnumber
  have hget : ∀ b u, (w.claim a turn).attempt b = some u ↔
      b = a ∧ u = turn ∨ b ≠ a ∧ w.attempt b = some u := fun b u => update_eq_some
  have hother : ∀ b t, w.attempt b = some t → b ≠ a := by
    rintro b t ht rfl
    rw [hnew] at ht
    cases ht
  have hidle : ∀ b t, w.attempt b = some t → t.running = false := by
    intro b t ht
    by_contra h
    obtain ⟨r, hr, hr', -⟩ := hw.running b t ht (by simpa using h)
    cases hr.symm.trans hjob
    rw [hwaits] at hr'
    cases hr'
  constructor
  case cycles =>
    intro g k hk
    by_cases hg : turn.generation = g
    · have hsucc : (w.claim a turn).Cycle g (n + 1) := by
        refine .insert ?_ hnew (decide_eq_true hg)
        rw [← hg, hgeneration]
        exact hn
      rw [Tally.unique hk hsucc]
      exact hfew
    · refine hw.cycles g k (.congr hk fun b => ?_)
      simp only [hget]
      grind
  case waiting =>
    intro r hr _ hwaits
    cases hr
    cases hwaits
  case numbered =>
    obtain ⟨k, hk⟩ := hw.numbered
    have hkm : k = m := by
      refine le_antisymm ?_ ?_
      · by_contra hlt
        obtain ⟨b, t, ht, hb⟩ := (hk k).mp ⟨by omega, le_rfl⟩
        have := hle b t ht
        omega
      · rcases hmax with rfl | hmax
        · exact Nat.zero_le _
        · exact ((hk m).mpr hmax).2
    subst hkm
    refine ⟨k + 1, fun i => ?_⟩
    by_cases hi : i = k + 1
    · subst hi
      exact ⟨fun _ => ⟨a, turn, (hget a turn).mpr (.inl ⟨rfl, rfl⟩), hm⟩,
        fun _ => ⟨by omega, le_rfl⟩⟩
    · have hold : (0 < i ∧ i ≤ k + 1) ↔ (0 < i ∧ i ≤ k) := by omega
      rw [hold, hk]
      constructor
      · rintro ⟨b, t, ht, hb⟩
        exact ⟨b, t, (hget b t).mpr (.inr ⟨hother b t ht, ht⟩), hb⟩
      · rintro ⟨b, t, ht, hb⟩
        rcases (hget b t).mp ht with ⟨-, rfl⟩ | ⟨-, ht⟩
        · omega
        · exact ⟨b, t, ht, hb⟩
  case latest =>
    intro r hr _
    cases hr
    refine ⟨rfl, a, turn, rfl, (hget a turn).mpr (.inl ⟨rfl, rfl⟩), rfl, fun b u hu => ?_⟩
    rcases (hget b u).mp hu with ⟨-, rfl⟩ | ⟨-, hu⟩
    · exact le_rfl
    · have := hle b u hu
      omega
  case past =>
    intro r b u hr hu
    cases hr
    rcases (hget b u).mp hu with ⟨-, rfl⟩ | ⟨-, hu⟩
    · exact le_rfl
    · show u.generation ≤ turn.generation
      rw [hgeneration]
      exact hw.past job b u hjob hu
  case distinct =>
    intro b c t u ht hu heq
    rcases (hget b t).mp ht with ⟨rfl, rfl⟩ | ⟨-, ht'⟩ <;>
      rcases (hget c u).mp hu with ⟨rfl, rfl⟩ | ⟨-, hu'⟩
    · rfl
    · have := hle c u hu'
      omega
    · have := hle b t ht'
      omega
    · exact hw.distinct b c t u ht' hu' heq
  case fences =>
    intro b c t u ht hu hlt
    rcases (hget b t).mp ht with ⟨rfl, rfl⟩ | ⟨-, ht'⟩ <;>
      rcases (hget c u).mp hu with ⟨rfl, rfl⟩ | ⟨-, hu'⟩
    · omega
    · have := hle c u hu'
      omega
    · exact hfence b t ht'
    · exact hw.fences b c t u ht' hu' hlt
  case running =>
    intro b t ht hrunning
    rcases (hget b t).mp ht with ⟨rfl, rfl⟩ | ⟨-, ht⟩
    · exact ⟨_, rfl, rfl, rfl⟩
    · rw [hidle b t ht] at hrunning
      cases hrunning
  case idle =>
    intro r hr _ h
    cases hr
    cases h
  case orphan => exact nofun

end Orderly
end Work
end RagQs.Documents
