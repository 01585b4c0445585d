import RagQs.Txn.Rely

/-!
# What an open transaction has seen

Where an open transaction stands is given by the committed stores its statements ran on: its
program is what is left of the operation's once it has run on them, and its pending writes are
those it made on the way.  The rows it has locked are still as they were.

## Main definitions

* `Prog.runOn` — a program run on given committed stores, one for each statement.
* `Prog.Along` — something holds of every statement that was run.
* `During` — a store was the committed one at some moment since a transaction was opened.

## Main results

* `session_seen` — where an open transaction stands.
-/

namespace Txn

open List Option Function Store

variable {K : Type} [DecidableEq K] {Row : K → Type} {Op ε α : Type}

/-- The program with its pending writes once its statements have run on the committed stores
`cs`, the first of them first. -/
def Prog.runOn : Prog Row ε α → Store Row → List (Store Row) → Option (Prog Row ε α × Store Row)
  | p, d, [] => some (p, d)
  | .stmt _ w n, d, c :: cs => (n (d ∪ c)).runOn (d.applyAll (w (d ∪ c))) cs
  | .done _, _, _ :: _ => none
  | .fail _, _, _ :: _ => none

@[simp] theorem Prog.runOn_nil (p : Prog Row ε α) (d : Store Row) :
    p.runOn d [] = some (p, d) := by
  cases p <;> rfl

@[simp] theorem Prog.runOn_stmt (l : Store Row → List K) (w : Store Row → List (Write Row))
    (n : Store Row → Prog Row ε α) (d c : Store Row) (cs : List (Store Row)) :
    (Prog.stmt l w n).runOn d (c :: cs) = (n (d ∪ c)).runOn (d.applyAll (w (d ∪ c))) cs := rfl

@[simp] theorem Prog.runOn_done (a : α) (d c : Store Row) (cs : List (Store Row)) :
    (Prog.done a : Prog Row ε α).runOn d (c :: cs) = none := rfl

@[simp] theorem Prog.runOn_fail (e : ε) (d c : Store Row) (cs : List (Store Row)) :
    (Prog.fail e : Prog Row ε α).runOn d (c :: cs) = none := rfl

variable {l : Store Row → List K} {w : Store Row → List (Write Row)} {n : Store Row → Prog Row ε α}

/-- One more statement. -/
theorem Prog.runOn_snoc {p : Prog Row ε α} {d d' c : Store Row} {cs : List (Store Row)}
    (h : p.runOn d cs = some (.stmt l w n, d')) :
    p.runOn d (cs ++ [c]) = some (n (d' ∪ c), d'.applyAll (w (d' ∪ c))) := by
  induction cs generalizing p d with
  | nil =>
    rw [runOn_nil] at h
    cases h
    simp
  | cons c' cs ih =>
    cases p with
    | done a => cases h
    | fail e => cases h
    | stmt l' w' n' => exact ih h

/-- The keys the next statement needs on a view. -/
def Prog.need : Prog Row ε α → Store Row → List K
  | .stmt l w _, v => needed l w v
  | _, _ => []

/-- `T` holds of every statement that has run: of the program that began with it, the pending
writes before it and the committed store it ran on. -/
def Prog.Along (T : Prog Row ε α → Store Row → Store Row → Prop) :
    Prog Row ε α → Store Row → List (Store Row) → Prop
  | .stmt l w n, d, c :: cs => T (.stmt l w n) d c ∧
      (n (d ∪ c)).Along T (d.applyAll (w (d ∪ c))) cs
  | _, _, _ => True

section Along

variable {T T' : Prog Row ε α → Store Row → Store Row → Prop} {p : Prog Row ε α}
  {d d' c : Store Row} {cs : List (Store Row)}

theorem Prog.along_nil : p.Along T d [] := by
  cases p <;> trivial

theorem Prog.Along.mono (h : p.Along T d cs) (hT : ∀ p d c, T p d c → T' p d c) :
    p.Along T' d cs := by
  induction cs generalizing p d with
  | nil => exact along_nil
  | cons c cs ih =>
    cases p with
    | done a => trivial
    | fail e => trivial
    | stmt l w n => exact ⟨hT _ _ _ h.1, ih h.2⟩

theorem Prog.Along.snoc (h : p.Along T d cs) (hrun : p.runOn d cs = some (.stmt l w n, d'))
    (hT : T (.stmt l w n) d' c) : p.Along T d (cs ++ [c]) := by
  induction cs generalizing p d with
  | nil =>
    rw [runOn_nil] at hrun
    cases hrun
    exact ⟨hT, along_nil⟩
  | cons c' cs ih =>
    cases p with
    | done a => cases hrun
    | fail e => cases hrun
    | stmt l' w' n' => exact ⟨h.1, ih h.2 hrun⟩

/-- The statements but the last one, and the last one. -/
theorem Prog.Along.of_snoc (h : p.Along T d (cs ++ [c]))
    (hrun : p.runOn d cs = some (.stmt l w n, d')) : p.Along T d cs ∧ T (.stmt l w n) d' c := by
  induction cs generalizing p d with
  | nil =>
    rw [runOn_nil] at hrun
    cases hrun
    exact ⟨along_nil, h.1⟩
  | cons c' cs ih =>
    cases p with
    | done a => cases hrun
    | fail e => cases hrun
    | stmt l' w' n' =>
      obtain ⟨hbefore, hlast⟩ := ih h.2 hrun
      exact ⟨⟨h.1, hbefore⟩, hlast⟩

/-- The keys that were written were needed. -/
theorem Prog.Along.mem_patch {q : Prog Row ε α} {P : K → Prop}
    (h : p.Along (fun p d c => ∀ k ∈ p.need (d ∪ c), P k) d cs) (hrun : p.runOn d cs = some (q, d')) {k : K}
    (hk : k ∈ d') : k ∈ d ∨ P k := by
  induction cs generalizing p d with
  | nil =>
    rw [runOn_nil] at hrun
    cases hrun
    exact .inl hk
  | cons c cs ih =>
    cases p with
    | done a => cases hrun
    | fail e => cases hrun
    | stmt l w n =>
      rcases ih h.2 hrun with hk | hk
      · rcases mem_applyAll.mp hk with hk | hk
        · exact .inr (h.1 k (mem_append_right _ hk))
        · exact .inl hk
      · exact .inr hk

end Along

/-- The store `c` was the committed one at some moment of the run at which the transaction under
the number `i` that is open at its end was open already. -/
def During (body : Op → Prog Row ε α) (s₀ : Sys Row Op ε α) (ms : List (Move Op)) (i : ℕ)
    (c : Store Row) : Prop :=
  ∃ ms₁ ms₂ u, ms = ms₁ ++ ms₂ ∧ run body s₀ ms₁ = some u ∧ u.db = c ∧
    (u.sessions i).isSome = true ∧ ∀ op, Move.start i op ∉ ms₂

variable {body : Op → Prog Row ε α} {s₀ s t : Sys Row Op ε α} {i : ℕ} {m : Move Op}

/-- The transaction a move is of. -/
def Move.number : Move Op → ℕ
  | .start i _ | .advance i | .abort i => i

/-- A move leaves the other transactions alone. -/
theorem step_sessions (h : step body s m = some t) (hi : m.number ≠ i) :
    t.sessions i = s.sessions i := by
  cases m with
  | start j op =>
    simp only [step] at h
    split at h
    · cases h
    · cases h
      exact update_of_ne (Ne.symm hi) _ _
  | advance j =>
    simp only [step] at h
    split at h
    · cases h
    · cases h
      exact update_of_ne (Ne.symm hi) _ _
    · cases h
      exact update_of_ne (Ne.symm hi) _ _
    · split at h
      · cases h
        exact update_of_ne (Ne.symm hi) _ _
      · cases h
  | abort j =>
    simp only [step] at h
    split at h
    · cases h
    · cases h
      exact update_of_ne (Ne.symm hi) _ _

theorem During.snoc {ms : List (Move Op)} {c : Store Row} (h : During body s₀ ms i c)
    (hm : ∀ op, m ≠ .start i op) : During body s₀ (ms ++ [m]) i c := by
  obtain ⟨ms₁, ms₂, u, rfl, hu, hc, hi, hstart⟩ := h
  refine ⟨ms₁, ms₂ ++ [m], u, append_assoc .., hu, hc, hi, fun op hmem => ?_⟩
  rcases mem_append.mp hmem with hmem | hmem
  · exact hstart op hmem
  · exact hm op (mem_singleton.mp hmem).symm

/-- The beginning of a run that is allowed is allowed. -/
theorem AllowsRun.of_prefix {A : Op → Prog Row ε α → Store Row → Prop} {ms ms₁ : List (Move Op)}
    (h : AllowsRun A body s ms) (hms : ms₁ <+: ms) (ht : run body s ms₁ = some t) :
    AllowsRun A body s ms₁ := by
  obtain ⟨ms₂, rfl⟩ := hms
  exact (allowsRun_append h ht).1

/-- A move leaves the locks of the other transactions alone. -/
theorem step_owner (h : step body s m = some t) (hi : m.number ≠ i) {k : K}
    (hk : s.owner k = some i) : t.owner k = some i := by
  have hrelease : ∀ j, j ≠ i → release s.owner j k = some i := by
    intro j hj
    unfold release
    rw [if_neg (by rw [hk]; simpa using Ne.symm hj), hk]
  cases m with
  | start j op =>
    simp only [step] at h
    split at h <;> cases h
    exact hk
  | advance j =>
    simp only [step] at h
    split at h
    · cases h
    · cases h
      exact hrelease j hi
    · cases h
      exact hrelease j hi
    · next op l w f d n hold =>
      split at h
      · next hfree =>
        cases h
        have hne : k ∉ needed l w (d ∪ s.db) := by
          intro hmem
          have hown := List.all_eq_true.mp hfree k hmem
          rw [hk] at hown
          have hij : i = j := by simpa using hown
          exact hi hij.symm
        simp [acquire, hne, hk]
      · cases h
  | abort j =>
    simp only [step] at h
    split at h <;> cases h
    exact hrelease j hi

/-- A transaction takes its locks itself. -/
theorem owner_of_step (h : step body s m = some t) (hi : m.number ≠ i) {k : K}
    (hk : t.owner k = some i) : s.owner k = some i := by
  have hrelease : ∀ j, release s.owner j k = some i → s.owner k = some i := by
    intro j hj
    unfold release at hj
    split at hj
    · cases hj
    · exact hj
  cases m with
  | start j op =>
    simp only [step] at h
    split at h <;> cases h
    exact hk
  | advance j =>
    simp only [step] at h
    split at h
    · cases h
    · cases h
      exact hrelease j hk
    · cases h
      exact hrelease j hk
    · split at h
      · cases h
        simp only [acquire] at hk
        split at hk
        · exact absurd (some.inj hk) hi
        · exact hk
      · cases h
  | abort j =>
    simp only [step] at h
    split at h <;> cases h
    exact hrelease j hk

/-- What has ended holds no lock. -/
theorem owner_open (hs : ∀ k i, s.owner k = some i → (s.sessions i).isSome = true)
    (h : step body s m = some t) {k : K} (hk : t.owner k = some i) :
    (t.sessions i).isSome = true := by
  by_cases hi : m.number = i
  · cases m with
    | start j op =>
      obtain rfl : j = i := hi
      simp only [step] at h
      split at h <;> cases h
      simp
    | advance j =>
      obtain rfl : j = i := hi
      simp only [step] at h
      split at h
      · cases h
      · cases h
        simp [release] at hk
      · cases h
        simp [release] at hk
      · split at h <;> cases h
        simp
    | abort j =>
      obtain rfl : j = i := hi
      simp only [step] at h
      split at h <;> cases h
      simp [release] at hk
  · rw [step_sessions h hi]
    exact hs k i (owner_of_step h hi hk)

/-- What is known of the statements of a transaction that is open. -/
private def Held (A : Prog Row ε α → Store Row → Prop) (s : Sys Row Op ε α) (i : ℕ) :
    Prog Row ε α → Store Row → Store Row → Prop := fun p d c =>
  (∀ k ∈ p.need (d ∪ c), s.owner k = some i ∧ s.db.get k = c.get k) ∧ A p (d ∪ c)

/-- Where the transaction under the number `i` stands. -/
private def Stands (A : Op → Prog Row ε α → Store Row → Prop) (body : Op → Prog Row ε α)
    (s₀ : Sys Row Op ε α) (ms : List (Move Op)) (s : Sys Row Op ε α) (i : ℕ)
    (x : Session Row Op ε α) : Prop :=
  ∃ cs, (body x.op).runOn ∅ cs = some (x.prog, x.patch) ∧
    (∀ c ∈ cs, During body s₀ ms i c) ∧ (body x.op).Along (Held (A x.op) s i) ∅ cs ∧
    ∀ k, s.owner k = some i → ¬ (body x.op).Along (fun p d c => k ∉ p.need (d ∪ c)) ∅ cs

variable {A : Op → Prog Row ε α → Store Row → Prop} {ms : List (Move Op)}

variable {x : Session Row Op ε α}

/-- The pending writes of a transaction are locked. -/
private theorem Stands.locked (h : Stands A body s₀ ms s i x) {k : K} (hk : k ∈ x.patch) :
    s.owner k = some i := by
  obtain ⟨cs, hcs, -, hheld, -⟩ := h
  have hlocks : (body x.op).Along (fun p d c => ∀ k ∈ p.need (d ∪ c), s.owner k = some i)
      ∅ cs := hheld.mono fun p d c hT k hk => (hT.1 k hk).1
  rcases hlocks.mem_patch hcs hk with hk | hk
  · exact absurd hk (AList.notMem_empty k)
  · exact hk

/-- A move leaves the rows that others have locked alone. -/
private theorem Stands.row {k : K} (hstands : ∀ j x, s.sessions j = some x →
    Stands A body s₀ ms s j x) (h : step body s m = some t) (hi : m.number ≠ i)
    (hk : s.owner k = some i) : t.db.get k = s.db.get k := by
  cases m with
  | start j op =>
    simp only [step] at h
    split at h <;> cases h
    rfl
  | advance j =>
    cases hx : s.sessions j with
    | none => simp [step, hx] at h
    | some x =>
      rcases step_advance_db hx h with hdb | ⟨a, -, hdb⟩
      · rw [hdb]
      · rw [hdb]
        refine get_union_of_notMem fun hmem => hi ?_
        have hown := (hstands j x hx).locked hmem
        rw [hk] at hown
        exact (some.inj hown).symm
  | abort j =>
    simp only [step] at h
    split at h <;> cases h
    rfl

private theorem stands_step (hstands : ∀ j x, s.sessions j = some x → Stands A body s₀ ms s j x)
    (hopen : ∀ k j, s.owner k = some j → (s.sessions j).isSome = true)
    (hs : run body s₀ ms = some s) (hA : Allows A s m) (h : step body s m = some t)
    (hx : t.sessions i = some x) : Stands A body s₀ (ms ++ [m]) t i x := by
  by_cases hi : m.number = i
  · cases m with
    | start j op =>
      obtain rfl : j = i := hi
      simp only [step] at h
      split at h
      · cases h
      · cases h
        simp only [update_self, some.injEq] at hx
        subst hx
        refine ⟨[], Prog.runOn_nil _ _, (by simp), Prog.along_nil, fun k hk => ?_⟩
        next hnone =>
          have hsome := hopen k j hk
          rw [hnone] at hsome
          cases hsome
    | abort j =>
      obtain rfl : j = i := hi
      simp only [step] at h
      split at h
      · cases h
      · cases h
        cases (update_self ..).symm.trans hx
    | advance j =>
      obtain rfl : j = i := hi
      simp only [step] at h
      split at h
      · cases h
      · cases h
        cases (update_self ..).symm.trans hx
      · cases h
        cases (update_self ..).symm.trans hx
      · next op l w f d n hold =>
        split at h
        · cases h
          simp only [update_self, some.injEq] at hx
          subst hx
          obtain ⟨cs, hcs, hduring, hheld, hneeded⟩ := hstands j _ hold
          refine ⟨cs ++ [s.db], Prog.runOn_snoc hcs, fun c hc => ?_, ?_, fun k hk halong => ?_⟩
          · rcases mem_append.mp hc with hc | hc
            · exact (hduring c hc).snoc (by simp)
            · rw [mem_singleton.mp hc]
              exact ⟨ms, [.advance j], s, rfl, hs, rfl, by simp [hold], by simp⟩
          · -- the locks that were held are kept, and those of the statement are taken
            have hkeep : ∀ k, s.owner k = some j →
                acquire s.owner j (needed l w (d ∪ s.db)) k = some j := by
              intro k hk
              unfold acquire
              split
              · rfl
              · exact hk
            refine (hheld.mono fun p d' c hT => ?_).snoc hcs ⟨fun k hk => ⟨?_, rfl⟩, ?_⟩
            · exact ⟨fun k hk => ⟨hkeep k (hT.1 k hk).1, (hT.1 k hk).2⟩, hT.2⟩
            · exact if_pos hk
            · exact hA j _ rfl hold
          · -- a lock that is new was needed just now, the others were before
            obtain ⟨hbefore, hnow⟩ := halong.of_snoc hcs
            simp only [acquire] at hk
            split at hk
            · next hmem => exact hnow hmem
            · exact hneeded k hk hbefore
        · cases h
  · rw [step_sessions h hi] at hx
    obtain ⟨cs, hcs, hduring, hheld, hneeded⟩ := hstands i x hx
    refine ⟨cs, hcs, fun c hc => (hduring c hc).snoc ?_, hheld.mono fun p d c hT => ?_,
      fun k hk => hneeded k (owner_of_step h hi hk)⟩
    · rintro op rfl
      exact hi rfl
    · refine ⟨fun k hk => ⟨step_owner h hi (hT.1 k hk).1, ?_⟩, hT.2⟩
      exact (Stands.row hstands h hi (hT.1 k hk).1).trans (hT.1 k hk).2

/-- **Where an open transaction stands**: its program has run on committed stores of its time, its
statements were allowed, the rows they needed are still as they were, and what it has locked one of
them needed. -/
theorem session_stands (hs₀ : ∀ i, s₀.sessions i = none) (howner : ∀ k, s₀.owner k = none)
    (hA : AllowsRun A body s₀ ms) (h : run body s₀ ms = some s) (hx : s.sessions i = some x) :
    ∃ cs, (body x.op).runOn ∅ cs = some (x.prog, x.patch) ∧
      (∀ c ∈ cs, During body s₀ ms i c) ∧
      (body x.op).Along (fun p d c => (∀ k ∈ p.need (d ∪ c), s.db.get k = c.get k) ∧
        A x.op p (d ∪ c)) ∅ cs ∧
      ∀ k, s.owner k = some i → ¬ (body x.op).Along (fun p d c => k ∉ p.need (d ∪ c)) ∅ cs := by
  have hstands : (∀ k j, s.owner k = some j → (s.sessions j).isSome = true) ∧
      ∀ i x, s.sessions i = some x → Stands A body s₀ ms s i x := by
    clear hx
    induction ms using reverseRecOn generalizing s with
    | nil =>
      cases h
      refine ⟨fun k j hk => ?_, fun i x hx => ?_⟩
      · rw [howner k] at hk
        cases hk
      · rw [hs₀ i] at hx
        cases hx
    | append_singleton ms m ih =>
      rw [run_append, bind_eq_some_iff] at h
      obtain ⟨s', hs, hm⟩ := h
      rw [run, bind_eq_some_iff] at hm
      obtain ⟨t, hm, ht⟩ := hm
      cases ht
      obtain ⟨hA₁, hA₂⟩ := allowsRun_append hA hs
      obtain ⟨hopen, hstands⟩ := ih hA₁ hs
      exact ⟨fun k j hk => owner_open hopen hm hk,
        fun i x hx => stands_step hstands hopen hs hA₂.1 hm hx⟩
  obtain ⟨cs, hcs, hduring, hheld, hneeded⟩ := hstands.2 i x hx
  exact ⟨cs, hcs, hduring, hheld.mono fun p d c hT => ⟨fun k hk => (hT.1 k hk).2, hT.2⟩, hneeded⟩

/-- The same without the locks. -/
theorem session_seen {db : Store Row} {s : Sys Row Op ε α} (hA : AllowsRun A body (Sys.init db) ms)
    (h : run body (Sys.init db) ms = some s) (hx : s.sessions i = some x) :
    ∃ cs, (body x.op).runOn ∅ cs = some (x.prog, x.patch) ∧
      (∀ c ∈ cs, During body (Sys.init db) ms i c) ∧
      (body x.op).Along (fun p d c => (∀ k ∈ p.need (d ∪ c), s.db.get k = c.get k) ∧
        A x.op p (d ∪ c)) ∅ cs := by
  obtain ⟨cs, hcs, hduring, halong, -⟩ := session_stands (fun _ => rfl) (fun _ => rfl) hA h hx
  exact ⟨cs, hcs, hduring, halong⟩

end Txn
