import RagQs.Machine.Run
import RagQs.Txn.Footprint
import RagQs.Txn.Views

/-!
# Transactions that keep apart

The rows are partitioned into regions, and every operation writes in one region, and rows of none.
Where no statement leaves pending writes in a region in which another open transaction has some,
what a transaction has seen of its region since its first write there is still so at its end, though
no lock keeps it.

## Main definitions

* `Regions` — the region of a row, and that of an operation.
* `Regions.Apart` — a move is made apart.
* `Regions.Solo` — what is known of the open transactions.
* `Regions.Leaves` — what a program leaves, as far as is known of its statements.

## Main results

* `Regions.solo_of_run` — **the open transactions of a run whose moves are made apart.**
* `Regions.same_of_step` — a commit changes rows of one region.
* `Leaves.bind`, `Leaves.updateWhere`, `Leaves.insert` — the rules.
* `Regions.Solo.left` — what an open transaction has left when it comes to its end.
* `Regions.invariant_of_run` — an invariant of the committed store.
-/

namespace Txn

open List Option Function Store AList

variable {K : Type} [DecidableEq K] {Row : K → Type} {Op ε α Γ : Type}

/-- A run of the system is a run of a machine. -/
theorem machine_run (body : Op → Prog Row ε α) (s : Sys Row Op ε α) (ms : List (Move Op)) :
    Machine.run (step body) s ms = run body s ms := by
  induction ms generalizing s with
  | nil => rfl
  | cons m ms ih =>
    unfold Machine.run run
    cases step body s m with
    | none => rfl
    | some t => exact ih t

/-- The pending writes once the next statement has run. -/
def Prog.pending : Prog Row ε α → Store Row → Store Row → Store Row
  | .stmt _ w _, d, c => d.applyAll (w (d ∪ c))
  | _, d, _ => d

variable {cs : List (Store Row)}

/-- Pending writes stay. -/
theorem Prog.mem_of_runOn {p q : Prog Row ε α} {d d' : Store Row} (h : p.runOn d cs = some (q, d'))
    {k : K} (hk : k ∈ d) : k ∈ d' := by
  induction cs generalizing p d with
  | nil =>
    rw [runOn_nil] at h
    cases h
    exact hk
  | cons c cs ih =>
    cases p with
    | done a => cases h
    | fail e => cases h
    | stmt l w n => exact ih h (mem_applyAll.mpr (.inr hk))

variable {T : Prog Row ε α → Store Row → Store Row → Prop}

/-- What a statement has left pending is pending at the end. -/
theorem Prog.Along.pending {p q : Prog Row ε α} {d d' : Store Row} (h : p.Along T d cs)
    (hrun : p.runOn d cs = some (q, d')) :
    p.Along (fun p d c => T p d c ∧ ∀ k ∈ p.pending d c, k ∈ d') d cs := by
  induction cs generalizing p d with
  | nil => exact along_nil
  | cons c cs ih =>
    cases p with
    | done a => trivial
    | fail e => trivial
    | stmt l w n =>
      have hrest : (n (d ∪ c)).runOn (d.applyAll (w (d ∪ c))) cs = some (q, d') := hrun
      exact ⟨⟨h.1, fun k hk => mem_of_runOn hrest hk⟩, ih h.2 hrest⟩

/-- The regions of the rows, and the one every operation works in. -/
structure Regions (K Op Γ : Type) where
  region : K → Option Γ
  of : Op → Γ

namespace Regions

variable (P : Regions K Op Γ)

/-- A pending write is in the region. -/
def Pends (γ : Γ) (d : Store Row) : Prop := ∃ k ∈ d, P.region k = some γ

/-- The stores have the same rows in the region. -/
def Same (γ : Γ) (c c' : Store Row) : Prop := ∀ k, P.region k = some γ → c'.get k = c.get k

/-- The rows an operation may write: those of its region, and rows of none. -/
def Allowed (op : Op) (k : K) : Prop := ∀ γ, P.region k = some γ → γ = P.of op

/-- **A move is made apart**: a transaction only moves where `C` holds of its pending writes and the
committed store, and a statement leaves no pending write in a region in which another open
transaction has one. -/
structure Apart (C : Op → Store Row → Store Row → Prop) (s : Sys Row Op ε α) (m : Move Op) :
    Prop where
  holds : ∀ i x, m = .advance i → s.sessions i = some x → C x.op x.patch s.db
  apart : ∀ i x, m = .advance i → s.sessions i = some x →
    P.Pends (P.of x.op) (x.prog.pending x.patch s.db) →
    ∀ j y, j ≠ i → s.sessions j = some y → ¬ P.Pends (P.of x.op) y.patch

/-- What is known of the open transactions: where they stand, on stores that have had the rows of
their region since they write there, and that they are alone in it. -/
structure Solo (C : Op → Store Row → Store Row → Prop) (body : Op → Prog Row ε α)
    (s₀ : Sys Row Op ε α) (ms : List (Move Op)) (s : Sys Row Op ε α) : Prop where
  trace : ∀ i x, s.sessions i = some x → ∃ cs,
    (body x.op).runOn ∅ cs = some (x.prog, x.patch) ∧ (∀ c ∈ cs, During body s₀ ms i c) ∧
    (body x.op).Along (fun p d c => C x.op d c ∧
      (P.Pends (P.of x.op) (p.pending d c) → P.Same (P.of x.op) c s.db)) ∅ cs
  writes : ∀ i x, s.sessions i = some x → x.prog.Writes (P.Allowed x.op)
  own : ∀ i x, s.sessions i = some x → ∀ k ∈ x.patch, P.Allowed x.op k
  solo : ∀ i j x y, i ≠ j → s.sessions i = some x → s.sessions j = some y →
    P.Pends (P.of x.op) x.patch → ¬ P.Pends (P.of x.op) y.patch

variable {P} {C : Op → Store Row → Store Row → Prop} {body : Op → Prog Row ε α}
  {s₀ s t : Sys Row Op ε α} {ms : List (Move Op)} {m : Move Op} {γ : Γ} {c c' c'' d : Store Row}

theorem Same.refl : P.Same γ c c := fun _ _ => rfl

theorem Same.trans (h : P.Same γ c c') (h' : P.Same γ c' c'') : P.Same γ c c'' :=
  fun k hk => (h' k hk).trans (h k hk)

/-- Writes outside a region leave it as it is. -/
theorem Same.union (h : ¬ P.Pends γ d) : P.Same γ c (d ∪ c) :=
  fun _ hk => get_union_of_notMem fun hmem => h ⟨_, hmem, hk⟩

/-- A row of the view is the one of the store at the end. -/
theorem Same.view (h : P.Same γ c c') {k : K} (hk : P.region k = some γ) :
    (d ∪ c' : Store Row).get k = (d ∪ c : Store Row).get k := get_union_congr (h k hk)

variable {x : Session Row Op ε α}

omit [DecidableEq K] in
/-- A transaction that has pending writes in a region works in it. -/
theorem of_eq_of_pends (hown : ∀ k ∈ x.patch, P.Allowed x.op k) (h : P.Pends γ x.patch) :
    γ = P.of x.op := by
  obtain ⟨k, hk, hγ⟩ := h
  exact hown k hk γ hγ

/-- **A commit changes rows of one region**, and of none. -/
theorem same_of_step (h : step body s m = some t)
    (hγ : ∀ i x a, m = .advance i → s.sessions i = some x → x.prog = .done a →
      ¬ P.Pends γ x.patch) : P.Same γ s.db t.db := by
  rcases step_ends h with hdb | ⟨i, op, a, d, n, rfl, hx, hdb⟩
  · rw [hdb]
    exact .refl
  · rw [hdb]
    exact .union (hγ i _ a rfl hx rfl)

/-- What others do keeps the trace of a transaction. -/
private theorem trace_other (hs : P.Solo C body s₀ ms s) (h : step body s m = some t) {i : ℕ}
    (hi : m.number ≠ i) (hx : s.sessions i = some x) : ∃ cs,
    (body x.op).runOn ∅ cs = some (x.prog, x.patch) ∧
    (∀ c ∈ cs, During body s₀ (ms ++ [m]) i c) ∧
    (body x.op).Along (fun p d c => C x.op d c ∧
      (P.Pends (P.of x.op) (p.pending d c) → P.Same (P.of x.op) c t.db)) ∅ cs := by
  obtain ⟨cs, hcs, hduring, halong⟩ := hs.trace i x hx
  refine ⟨cs, hcs, fun c hc => (hduring c hc).snoc ?_, ?_⟩
  · rintro op rfl
    exact hi rfl
  refine (halong.pending hcs).mono fun p d c hT => ⟨hT.1.1, fun hpends => ?_⟩
  -- the transaction has pending writes there still, so nobody else has
  have hnow : P.Pends (P.of x.op) x.patch := by
    obtain ⟨k, hk, hγ⟩ := hpends
    exact ⟨k, hT.2 k hk, hγ⟩
  refine (hT.1.2 hpends).trans (same_of_step h fun j y a hm hy _ => ?_)
  refine hs.solo i j x y ?_ hx hy hnow
  rintro rfl
  subst hm
  exact hi rfl

theorem Solo.step (hwrites : ∀ op, (body op).Writes (P.Allowed op)) (hs : P.Solo C body s₀ ms s)
    (hrun : run body s₀ ms = some s) (hm : P.Apart C s m) (h : step body s m = some t) :
    P.Solo C body s₀ (ms ++ [m]) t := by
  -- the transaction that moves, if it is open afterwards, has been opened or has run a statement
  have hmoved : ∀ x, t.sessions m.number = some x →
      (∃ op, m = .start m.number op ∧ x = ⟨op, body op, ∅, s.hist.length⟩ ∧ t.db = s.db) ∨
      ∃ l w f d n, m = .advance m.number ∧ s.sessions m.number = some ⟨x.op, .stmt l w f, d, n⟩ ∧
        x.prog = f (d ∪ s.db) ∧ x.patch = d.applyAll (w (d ∪ s.db)) ∧ t.db = s.db := by
    intro x hx
    cases m with
    | start i op =>
      simp only [Txn.step] at h
      split at h <;> cases h
      simp only [Move.number, update_self, some.injEq] at hx
      exact .inl ⟨op, rfl, hx.symm, rfl⟩
    | abort i =>
      simp only [Txn.step] at h
      split at h <;> cases h
      cases (update_self ..).symm.trans hx
    | advance i =>
      simp only [Txn.step] at h
      split at h
      · cases h
      · cases h
        cases (update_self ..).symm.trans hx
      · cases h
        cases (update_self ..).symm.trans hx
      · next op l w f d n hold =>
        split at h <;> cases h
        simp only [Move.number, update_self, some.injEq] at hx
        subst hx
        exact .inr ⟨l, w, f, d, n, rfl, hold, rfl, rfl, rfl⟩
  have hwritesNow : ∀ i x, t.sessions i = some x → x.prog.Writes (P.Allowed x.op) := by
    intro i x hx
    by_cases hi : m.number = i
    · subst hi
      rcases hmoved x hx with ⟨op, -, rfl, -⟩ | ⟨l, w, f, d, n, -, hold, hprog, -, -⟩
      · exact hwrites op
      · rw [hprog]
        exact (hs.writes _ _ hold).2 _
    · rw [step_sessions h hi] at hx
      exact hs.writes i x hx
  have hown : ∀ i x, t.sessions i = some x → ∀ k ∈ x.patch, P.Allowed x.op k := by
    intro i x hx k hk
    by_cases hi : m.number = i
    · subst hi
      rcases hmoved x hx with ⟨op, -, rfl, -⟩ | ⟨l, w, f, d, n, -, hold, -, hpatch, -⟩
      · exact absurd hk (notMem_empty k)
      · rw [hpatch] at hk
        rcases mem_applyAll.mp hk with hk | hk
        · obtain ⟨e, he, rfl⟩ := List.mem_map.mp hk
          exact (hs.writes _ _ hold).1 _ e he
        · exact hs.own _ _ hold k hk
    · rw [step_sessions h hi] at hx
      exact hs.own i x hx k hk
  -- the one that moves is alone in its region, from its side and so from that of the others
  have hmover : ∀ x y j, t.sessions m.number = some x → j ≠ m.number → s.sessions j = some y →
      P.Pends (P.of x.op) x.patch → ¬ P.Pends (P.of x.op) y.patch := by
    intro x y j hx hj hy hpends
    rcases hmoved x hx with ⟨op, -, rfl, -⟩ | ⟨l, w, f, d, n, hadvance, hold, -, hpatch, -⟩
    · obtain ⟨k, hk, -⟩ := hpends
      exact absurd hk (notMem_empty k)
    · rw [hpatch] at hpends
      exact hm.apart _ _ hadvance hold hpends j y hj hy
  refine ⟨fun i x hx => ?_, hwritesNow, hown, fun i j x y hij hx hy hpends => ?_⟩
  · by_cases hi : m.number = i
    · subst hi
      rcases hmoved x hx with ⟨op, -, rfl, -⟩ | ⟨l, w, f, d, n, hadvance, hold, hprog, hpatch, hdb⟩
      · exact ⟨[], Prog.runOn_nil _ _, by simp, Prog.along_nil⟩
      · obtain ⟨cs, hcs, hduring, halong⟩ := hs.trace _ _ hold
        refine ⟨cs ++ [s.db], ?_, fun c hc => ?_, ?_⟩
        · rw [hprog, hpatch]
          exact Prog.runOn_snoc hcs
        · rcases mem_append.mp hc with hc | hc
          · refine (hduring c hc).snoc fun op hop => ?_
            rw [hop] at hadvance
            cases hadvance
          · rw [mem_singleton.mp hc]
            refine ⟨ms, [m], s, rfl, hrun, rfl, by simp [hold], fun op hmem => ?_⟩
            rw [hadvance] at hmem
            cases mem_singleton.mp hmem
        · rw [hdb]
          exact halong.snoc hcs ⟨hm.holds _ _ hadvance hold, fun _ => .refl⟩
    · rw [step_sessions h hi] at hx
      exact trace_other hs h hi hx
  · by_cases hi : m.number = i
    · subst hi
      rw [step_sessions h hij] at hy
      exact hmover x y j hx hij.symm hy hpends
    · rw [step_sessions h hi] at hx
      by_cases hj : m.number = j
      · subst hj
        intro hpends'
        have hof := of_eq_of_pends (hown _ y hy) hpends'
        rw [hof] at hpends hpends'
        exact hmover y x i hy hij hx hpends' hpends
      · rw [step_sessions h hj] at hy
        exact hs.solo i j x y hij hx hy hpends

/-- **The open transactions of a run whose moves are made apart.** -/
theorem solo_of_run (hwrites : ∀ op, (body op).Writes (P.Allowed op))
    (hs₀ : ∀ i, s₀.sessions i = none) (hms : Machine.Moves (Txn.step body) (P.Apart C) s₀ ms)
    (h : run body s₀ ms = some s) : P.Solo C body s₀ ms s := by
  induction ms using reverseRecOn generalizing s with
  | nil =>
    cases h
    refine ⟨fun i x hx => ?_, fun i x hx => ?_, fun i x hx => ?_, fun i j x y _ hx => ?_⟩ <;>
    · rw [hs₀ i] at hx
      cases hx
  | append_singleton ms m ih =>
    rw [run_append, bind_eq_some_iff] at h
    obtain ⟨u, hu, hm⟩ := h
    rw [run, bind_eq_some_iff] at hm
    obtain ⟨t, hm, ht⟩ := hm
    cases ht
    obtain ⟨hbefore, hlast⟩ := Machine.moves_append hms ((machine_run body s₀ ms).trans hu)
    exact (ih hbefore hu).step hwrites hu hlast.1 hm

/-! ### What a transaction leaves -/

/-- What is known of a statement that a transaction of the region `γ` has run: `C` held of the
pending writes and the committed store, and if it has left pending writes in the region, the rows of
the region are those of `b`. -/
def Known (P : Regions K Op Γ) (γ : Γ) (C : Store Row → Store Row → Prop) (b : Store Row)
    (p : Prog Row ε α) (d c : Store Row) : Prop :=
  C d c ∧ (P.Pends γ (p.pending d c) → P.Same γ c b)

/-- From pending writes with `φ` the program ends with pending writes with `ψ`, or with an error
with `χ`, as far as is known of its statements. -/
structure Leaves (P : Regions K Op Γ) (γ : Γ) (C : Store Row → Store Row → Prop) (b : Store Row)
    (φ : Store Row → Prop) (p : Prog Row ε α) (ψ : α → Store Row → Prop) (χ : ε → Prop) :
    Prop where
  ends : ∀ d cs q d', p.runOn d cs = some (q, d') → p.Along (P.Known γ C b) d cs → φ d →
    (∀ a, q = .done a → ψ a d') ∧ ∀ e, q = .fail e → χ e

namespace Leaves

variable {β : Type} {C : Store Row → Store Row → Prop} {b : Store Row} {φ φ' : Store Row → Prop}
  {p : Prog Row ε β} {f : β → Prog Row ε α} {ψ ψ' : β → Store Row → Prop}
  {χ : α → Store Row → Prop} {η η' : ε → Prop}

/-- **The rule of sequencing.** -/
theorem bind (hp : P.Leaves γ C b φ p ψ η) (hf : ∀ x, P.Leaves γ C b (ψ x) (f x) χ η) :
    P.Leaves γ C b φ (p >>= f) χ η := by
  refine ⟨fun d cs q d' hrun hT hφ => ?_⟩
  have hend := fun cs q d' hrun hT => hp.ends d cs q d' hrun hT hφ
  clear hp hφ
  induction p generalizing d cs with
  | done x => exact (hf x).ends d cs q d' hrun hT ((hend [] _ _ rfl Prog.along_nil).1 x rfl)
  | fail e =>
    cases cs with
    | nil =>
      cases hrun
      refine ⟨nofun, fun e' he => ?_⟩
      cases he
      exact (hend [] _ _ rfl Prog.along_nil).2 e rfl
    | cons c cs => cases hrun
  | stmt l w n ih =>
    cases cs with
    | nil =>
      cases hrun
      exact ⟨nofun, nofun⟩
    | cons c cs =>
      -- the statement is one of the part, and of the whole
      have hknown : P.Known γ C b (.stmt l w n : Prog Row ε β) d c := hT.1
      exact ih (d ∪ c) _ cs hrun hT.2 fun cs' q' d'' hrun' hT' =>
        hend (c :: cs') q' d'' hrun' ⟨hknown, hT'⟩

/-- The rule of consequence. -/
theorem conseq (hp : P.Leaves γ C b φ p ψ η) (hφ : ∀ d, φ' d → φ d) (hψ : ∀ x d, ψ x d → ψ' x d)
    (hη : ∀ e, η e → η' e) : P.Leaves γ C b φ' p ψ' η' :=
  ⟨fun d cs q d' hrun hT h =>
    have hend := hp.ends d cs q d' hrun hT (hφ d h)
    ⟨fun a ha => hψ a d' (hend.1 a ha), fun e he => hη e (hend.2 e he)⟩⟩

theorem pre (hp : P.Leaves γ C b φ p ψ η) (hφ : ∀ d, φ' d → φ d) : P.Leaves γ C b φ' p ψ η :=
  hp.conseq hφ (fun _ _ h => h) fun _ h => h

/-- The pending writes may be named. -/
theorem of_each (h : ∀ d₀, φ d₀ → P.Leaves γ C b (· = d₀) p ψ η) : P.Leaves γ C b φ p ψ η :=
  ⟨fun d cs q d' hrun hT hφ => (h d hφ).ends d cs q d' hrun hT rfl⟩

/-- The end of a program. -/
theorem done {x : β} (h : ∀ d, φ d → ψ x d) : P.Leaves γ C b φ (.done x : Prog Row ε β) ψ η := by
  refine ⟨fun d cs q d' hrun _ hφ => ?_⟩
  cases cs with
  | nil =>
    cases hrun
    refine ⟨fun a ha => ?_, nofun⟩
    cases ha
    exact h d hφ
  | cons c cs => cases hrun

theorem fail {e : ε} (h : ∀ d, φ d → η e) : P.Leaves γ C b φ (.fail e : Prog Row ε β) ψ η := by
  refine ⟨fun d cs q d' hrun _ hφ => ?_⟩
  cases cs with
  | nil =>
    cases hrun
    refine ⟨nofun, fun e' he => ?_⟩
    cases he
    exact h d hφ
  | cons c cs => cases hrun

theorem check {x : Except ε β} (h : ∀ y, x = .ok y → ∀ d, φ d → ψ y d)
    (he : ∀ e, x = .error e → ∀ d, φ d → η e) :
    P.Leaves γ C b φ (Txn.check x : Prog Row ε β) ψ η := by
  unfold Txn.check
  cases x with
  | ok y => exact done (h y rfl)
  | error e => exact fail (he e rfl)

theorem orRaise {o : Option β} {e : ε} (h : ∀ y, o = some y → ∀ d, φ d → ψ y d)
    (he : o = none → ∀ d, φ d → η e) : P.Leaves γ C b φ (Txn.orRaise o e : Prog Row ε β) ψ η := by
  cases o with
  | some y => exact done (h y rfl)
  | none => exact fail (he rfl)

/-- **The rule of one statement.** -/
theorem stmt {l : Store Row → List K} {w : Store Row → List (Write Row)}
    {n : Store Row → Prog Row ε β}
    (h : ∀ d c, φ d → C d c → (P.Pends γ (d.applyAll (w (d ∪ c))) → P.Same γ c b) →
      P.Leaves γ C b (· = d.applyAll (w (d ∪ c))) (n (d ∪ c)) ψ η) :
    P.Leaves γ C b φ (.stmt l w n) ψ η := by
  refine ⟨fun d cs q d' hrun hT hφ => ?_⟩
  cases cs with
  | nil =>
    cases hrun
    exact ⟨nofun, nofun⟩
  | cons c cs => exact (h d c hφ hT.1.1 hT.1.2).ends _ cs q d' hrun hT.2 rfl

/-- The rule of a plain read. -/
theorem select {q : Store Row → β}
    (h : ∀ d c, φ d → C d c → (P.Pends γ d → P.Same γ c b) → ψ (q (d ∪ c)) d) :
    P.Leaves γ C b φ (Prog.select q : Prog Row ε β) ψ η :=
  stmt fun d c hφ hC hsame => done fun _ hd => hd ▸ h d c hφ hC hsame

/-- The rule of a conditional update of one row of the region. -/
theorem updateWhere {k : K} {cond : Row k → Bool} {g : Row k → Row k} {ψ : ℕ → Store Row → Prop}
    (hk : P.region k = some γ)
    (hmiss : ∀ d c, φ d → C d c → (P.Pends γ d → P.Same γ c b) →
      (∀ r, (d ∪ c : Store Row).get k = some r → cond r = false) → ψ 0 d)
    (hhit : ∀ d c r, φ d → C d c → P.Same γ c b → (d ∪ c : Store Row).get k = some r →
      cond r = true → ψ 1 (d.set k (some (g r)))) :
    P.Leaves γ C b φ (Txn.updateWhere k cond g : Prog Row ε ℕ) ψ η := by
  refine stmt fun d c hφ hC hsame => ?_
  cases hv : ((d ∪ c : Store Row).get k).filter cond with
  | none =>
    simp only [hv, toList_none, map_nil, applyAll_nil, length_nil] at hsame ⊢
    refine done fun _ hd => hd ▸ hmiss d c hφ hC hsame fun r hget => ?_
    simpa [hget] using hv
  | some r =>
    obtain ⟨hget, hcond⟩ := filter_eq_some_iff.mp hv
    simp only [hv, toList_some, map_cons, map_nil, applyAll_cons,
      applyAll_nil, length_cons, length_nil] at hsame ⊢
    refine done fun _ hd => hd ▸ hhit d c r hφ hC (hsame ⟨k, ?_, hk⟩) hget hcond
    exact (Store.mem_set ..).mpr (.inl rfl)

/-- The rule of an insert. -/
theorem insert {e : ε} {unique : List K} {ws : List (Write Row)} {ψ : Unit → Store Row → Prop}
    (h : ∀ d c, φ d → C d c → taken (d ∪ c) unique = false →
      (P.Pends γ (d.applyAll ws) → P.Same γ c b) → ψ () (d.applyAll ws))
    (he : ∀ d c, φ d → C d c → taken (d ∪ c) unique = true → η e) :
    P.Leaves γ C b φ (Txn.insert e unique ws : Prog Row ε Unit) ψ η := by
  refine stmt fun d c hφ hC hsame => ?_
  cases ht : taken (d ∪ c) unique with
  | true =>
    simp only [if_true]
    exact fail fun _ _ => he d c hφ hC ht
  | false =>
    simp only [ht, if_neg Bool.false_ne_true] at hsame ⊢
    exact done fun _ hd => hd ▸ h d c hφ hC ht hsame

/-- Two facts hold together. -/
theorem and (hp : P.Leaves γ C b φ p ψ η) (hp' : P.Leaves γ C b φ' p ψ' η') :
    P.Leaves γ C b (fun d => φ d ∧ φ' d) p (fun x d => ψ x d ∧ ψ' x d) fun e => η e ∧ η' e :=
  ⟨fun d cs q d' hrun hT h =>
    have hend := hp.ends d cs q d' hrun hT h.1
    have hend' := hp'.ends d cs q d' hrun hT h.2
    ⟨fun a ha => ⟨hend.1 a ha, hend'.1 a ha⟩, fun e he => ⟨hend.2 e he, hend'.2 e he⟩⟩⟩

/-- What the writes of some rows leave alone is left alone by a program that writes only those. -/
theorem inside {W : K → Prop} (hp : p.Writes W)
    (hφ : ∀ d ws, (∀ x ∈ ws, W x.1) → φ d → φ (d.applyAll ws)) :
    P.Leaves γ C b φ p (fun _ => φ) fun _ => True := by
  induction p generalizing φ with
  | done x => exact done fun _ h => h
  | fail e => exact fail fun _ _ => trivial
  | stmt l w n ih =>
    refine ⟨fun d cs q d' hrun hT h => ?_⟩
    cases cs with
    | nil =>
      cases hrun
      exact ⟨nofun, nofun⟩
    | cons c cs => exact (ih _ (hp.2 _) hφ).ends _ cs q d' hrun hT.2 (hφ d _ (hp.1 _) h)

end Leaves

omit [DecidableEq K] in
/-- What is known of every store a program has run on is known of every statement. -/
theorem along_and {G : Store Row → Prop} {p : Prog Row ε α} [DecidableEq K] {d : Store Row}
    (h : p.Along T d cs) (hG : ∀ c ∈ cs, G c) : p.Along (fun p d c => T p d c ∧ G c) d cs := by
  induction cs generalizing p d with
  | nil => exact Prog.along_nil
  | cons c cs ih =>
    cases p with
    | done a => trivial
    | fail e => trivial
    | stmt l w n =>
      exact ⟨⟨h.1, hG c mem_cons_self⟩,
        ih h.2 fun c' hc' => hG c' (mem_cons_of_mem _ hc')⟩

/-- **What an open transaction has left** when it comes to its end. -/
theorem Solo.left {C : Op → Store Row → Store Row → Prop} (hs : P.Solo C body s₀ ms s) {i : ℕ}
    (hx : s.sessions i = some x) {φ : Store Row → Prop} (hφ : φ ∅) {ψ : α → Store Row → Prop}
    {χ : ε → Prop}
    (h : P.Leaves (P.of x.op) (fun d c => C x.op d c ∧ During body s₀ ms i c) s.db φ (body x.op)
      ψ χ) : (∀ a, x.prog = .done a → ψ a x.patch) ∧ ∀ e, x.prog = .fail e → χ e := by
  obtain ⟨cs, hcs, hduring, halong⟩ := hs.trace i x hx
  refine h.ends ∅ cs x.prog x.patch hcs ((along_and halong hduring).mono ?_) hφ
  exact fun p d c hT => ⟨⟨hT.1.1, hT.2⟩, hT.1.2⟩

/-- **An invariant of the committed store**, which may be used of the stores a transaction has run
on: it is enough that every transaction that comes to its end keeps it. -/
theorem invariant_of_run {C : Op → Store Row → Store Row → Prop} {Inv : Store Row → Prop}
    (hwrites : ∀ op, (body op).Writes (P.Allowed op)) (hs₀ : ∀ i, s₀.sessions i = none)
    (hInv : Inv s₀.db)
    (hcommit : ∀ ms s i x a, P.Solo (fun op d c => C op d c ∧ Inv c) body s₀ ms s → Inv s.db →
      C x.op x.patch s.db → s.sessions i = some x → x.prog = .done a → Inv (x.patch ∪ s.db))
    (hms : Machine.Moves (Txn.step body) (P.Apart C) s₀ ms) (h : run body s₀ ms = some s) :
    Inv s.db ∧ P.Solo (fun op d c => C op d c ∧ Inv c) body s₀ ms s := by
  induction ms using reverseRecOn generalizing s with
  | nil =>
    cases h
    exact ⟨hInv, solo_of_run hwrites hs₀ trivial rfl⟩
  | append_singleton ms m ih =>
    rw [run_append, bind_eq_some_iff] at h
    obtain ⟨u, hu, hm⟩ := h
    rw [run, bind_eq_some_iff] at hm
    obtain ⟨t, hm, ht⟩ := hm
    cases ht
    obtain ⟨hbefore, hlast⟩ := Machine.moves_append hms ((machine_run body s₀ ms).trans hu)
    obtain ⟨hnow, hsolo⟩ := ih hbefore hu
    refine ⟨?_, hsolo.step hwrites hu ⟨fun i x hi hx => ⟨hlast.1.holds i x hi hx, hnow⟩,
      hlast.1.apart⟩ hm⟩
    rcases step_ends hm with hdb | ⟨i, op, a, d, n, rfl, hx, hdb⟩
    · rw [hdb]
      exact hnow
    · rw [hdb]
      exact hcommit ms u i _ a hsolo hnow (hlast.1.holds i _ rfl hx) hx rfl

end Regions
end Txn
