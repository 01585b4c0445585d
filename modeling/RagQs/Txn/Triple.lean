import RagQs.Txn.Statement

/-!
# Triples under interference

A triple says of a part of a transaction what holds of the pending writes before it and
after it, whatever the other transactions do meanwhile.  Both assertions are asked for now
and after every interference, so no rule has a side condition about stability.  What an
error leaves is rolled back and nothing is said of it.

## Main definitions

* `onWrites` — a condition on the writes of a statement and the view it runs on.
* `Discipline.Always` — an assertion that holds now and after every interference.
* `Discipline.Triple` — the triple.

## Main results

* `Triple.bind` — the rule of sequencing.
* `Triple.statement` — the rule of one statement, from which those of the statements in use
  follow.
* `Triple.commit` — a triple that ends in the discipline is one side of a specification.
-/

namespace Txn

open Discipline List Option Store

variable {K : Type} [DecidableEq K] {Row : K → Type} {ε α β : Type}
variable {Op : Type}

/-- A condition on the writes of a statement and the view it runs on, as one on programs. -/
def onWrites (C : List (Write Row) → Store Row → Prop) : Prog Row ε α → Store Row → Prop
  | .stmt _ w _, v => C (w v) v
  | _, _ => True

/-- The statement a move runs, if any, writes what the test lets pass. -/
def passes {Op : Type} (test : List (Write Row) → Store Row → Bool) (s : Sys Row Op ε α) :
    Move Op → Bool
  | .advance i =>
    match s.sessions i with
    | some ⟨_, .stmt _ w _, d, _⟩ => test (w (d ∪ s.db)) (d ∪ s.db)
    | _ => true
  | _ => true

/-- Every move of a run passes a test, in the state it is made in. -/
def checksRun {Op : Type} (test : Sys Row Op ε α → Move Op → Bool) (body : Op → Prog Row ε α) :
    Sys Row Op ε α → List (Move Op) → Bool
  | _, [] => true
  | s, m :: ms => test s m && (step body s m).all fun t => checksRun test body t ms

variable {test : Sys Row Op ε α → Move Op → Bool} {body : Op → Prog Row ε α}

/-- A run whose moves pass a test that only allowed moves pass is allowed. -/
theorem allowsRun_of_checksRun {A : Op → Prog Row ε α → Store Row → Prop}
    (hA : ∀ s m, test s m = true → Allows A s m) (ms : List (Move Op)) :
    ∀ s, checksRun test body s ms = true → AllowsRun A body s ms := by
  induction ms with
  | nil => exact fun _ _ => trivial
  | cons m ms ih =>
    intro s h
    unfold checksRun at h
    rw [Bool.and_eq_true] at h
    refine ⟨hA s m h.1, fun t ht => ih t ?_⟩
    rw [ht] at h
    exact h.2

/-- A run whose moves pass a test that only asked for operations pass opens only such. -/
theorem opensRun_of_checksRun {Pre : Op → List (Ended Op ε α) → Prop}
    (hPre : ∀ s m, test s m = true → Opens Pre s m) (ms : List (Move Op)) :
    ∀ s, checksRun test body s ms = true → OpensRun Pre body s ms := by
  induction ms with
  | nil => exact fun _ _ => trivial
  | cons m ms ih =>
    intro s h
    unfold checksRun at h
    rw [Bool.and_eq_true] at h
    refine ⟨hPre s m h.1, fun t ht => ih t ?_⟩
    rw [ht] at h
    exact h.2

/-- The writes of every statement of a run pass a test. -/
abbrev passesRun {Op : Type} (test : List (Write Row) → Store Row → Bool)
    (body : Op → Prog Row ε α) : Sys Row Op ε α → List (Move Op) → Bool :=
  checksRun (passes test) body

/-- A run that passes the test is allowed. -/
theorem allowsRun_of_passesRun {test : List (Write Row) → Store Row → Bool}
    {C : List (Write Row) → Store Row → Prop} (hC : ∀ ws v, test ws v = true → C ws v)
    (ms : List (Move Op)) (s : Sys Row Op ε α) (h : passesRun test body s ms = true) :
    AllowsRun (fun _ => onWrites C) body s ms := by
  refine allowsRun_of_checksRun (fun s m htest => ?_) ms s h
  rintro i ⟨op, p, d, n⟩ rfl hx
  cases p with
  | stmt l w f =>
    simp only [passes, hx] at htest
    exact hC _ _ htest
  | done a => exact trivial
  | fail e => exact trivial

namespace Discipline

variable (D : Discipline Row)

/-- The assertion holds now and after every interference. -/
def Always (φ : Assn Row) : Assn Row := fun c d H => ∀ c', D.Rely H c c' → φ c' d H

/-- From pending writes with `φ` the program gets to pending writes with `ψ`, provided every
statement writes on a view `C` allows it on. -/
structure Triple (C : List (Write Row) → Store Row → Prop) (φ : Assn Row) (p : Prog Row ε α)
    (ψ : α → Assn Row) : Prop where
  wp : ∀ c d H, D.Inv c → D.Always φ c d H →
    D.wp (onWrites C) p (fun a => D.Always (ψ a)) (fun _ _ _ _ => True) c d H

variable {D} {C : List (Write Row) → Store Row → Prop} {φ φ' : Assn Row} {c c' d : Store Row}
  {H : K → Prop}

theorem Always.rely (h : D.Always φ c d H) (hr : D.Rely H c c') : D.Always φ c' d H :=
  fun _ hr' => h _ (hr.trans hr')

theorem Always.now (h : D.Always φ c d H) (hc : D.Inv c) : φ c d H := h c (.refl hc)

theorem Always.mono (h : D.Always φ c d H) (hφ : ∀ c, D.Inv c → φ c d H → φ' c d H) :
    D.Always φ' c d H := fun _ hr => hφ _ hr.inv (h _ hr)

/-- What follows a part of a program does not change the condition on its statements. -/
theorem wp_onWrites_bind {p : Prog Row ε β} {f : β → Prog Row ε α} {Q : α → Assn Row}
    {E : ε → Assn Row}
    (h : D.wp (onWrites C) p (fun b => D.wp (onWrites C) (f b) Q E) E c d H) (hc : D.Inv c) :
    D.wp (onWrites C) (p >>= f) Q E c d H := by
  refine wp_bind ?_ hc
  clear hc
  induction p generalizing c d H with
  | done a => exact h
  | fail e => exact h
  | stmt l w n ih => exact fun c' hr hA => ih _ (h c' hr hA)

namespace Triple

variable {p : Prog Row ε β} {f : β → Prog Row ε α} {ψ ψ' : β → Assn Row} {χ : α → Assn Row}

/-- **The rule of sequencing.** -/
theorem bind (hp : D.Triple C φ p ψ) (hf : ∀ b, D.Triple C (ψ b) (f b) χ) :
    D.Triple C φ (p >>= f) χ := by
  refine ⟨fun c d H hc h => ?_⟩
  refine wp_onWrites_bind (wp_conseq (hp.wp c d H hc h) ?_ fun _ _ _ _ _ h => h) hc
  exact fun b c' d' H' hc' hb => (hf b).wp c' d' H' hc' hb

/-- The rule of consequence. -/
theorem conseq (hp : D.Triple C φ p ψ) (hφ : ∀ c d H, D.Inv c → φ' c d H → φ c d H)
    (hψ : ∀ b c d H, D.Inv c → ψ b c d H → ψ' b c d H) : D.Triple C φ' p ψ' :=
  ⟨fun c d H hc h => wp_conseq (hp.wp c d H hc (h.mono fun c hc => hφ c d H hc))
    (fun b _ _ _ _ hb => hb.mono fun c hc => hψ b c _ _ hc) fun _ _ _ _ _ h => h⟩

theorem pre (hp : D.Triple C φ p ψ) (hφ : ∀ c d H, D.Inv c → φ' c d H → φ c d H) :
    D.Triple C φ' p ψ := hp.conseq hφ fun _ _ _ _ _ h => h

theorem post (hp : D.Triple C φ p ψ) (hψ : ∀ b c d H, D.Inv c → ψ b c d H → ψ' b c d H) :
    D.Triple C φ p ψ' := hp.conseq (fun _ _ _ _ h => h) hψ

/-- The end of a program. -/
theorem done {b : β} (h : ∀ c d H, D.Inv c → φ c d H → ψ b c d H) :
    D.Triple C φ (.done b : Prog Row ε β) ψ :=
  ⟨fun _ d H _ hφ _ hr _ hr' => h _ d H hr'.inv (hφ _ (hr.trans hr'))⟩

/-- An error is rolled back. -/
theorem fail {e : ε} : D.Triple C φ (.fail e : Prog Row ε β) ψ :=
  ⟨fun _ _ _ _ _ _ _ => trivial⟩

/-- Nothing is asked of what the program leaves. -/
theorem trivial_post {p : Prog Row ε β} : D.Triple C φ p fun _ _ _ _ => True := by
  refine ⟨fun c d H _ _ => ?_⟩
  clear * -
  induction p generalizing c d H with
  | done a => exact fun _ _ _ _ => trivial
  | fail e => exact fun _ _ => trivial
  | stmt l w n ih => exact fun c' _ _ => ih _ c' _ _

/-- A fact the assertion gives may be used for the program. -/
theorem of_fact {P : Prop} (hφ : ∀ c d H, D.Inv c → φ c d H → P) (h : P → D.Triple C φ p ψ) :
    D.Triple C φ p ψ :=
  ⟨fun c d H hc hf => (h (hφ c d H hc (hf.now hc))).wp c d H hc hf⟩

theorem raiseIf {bad : Prop} [Decidable bad] {e : ε} {ψ : Unit → Assn Row}
    (h : ¬ bad → ∀ c d H, D.Inv c → φ c d H → ψ () c d H) :
    D.Triple C φ (Txn.raiseIf bad e : Prog Row ε Unit) ψ := by
  unfold Txn.raiseIf
  by_cases hb : bad
  · rw [if_pos hb]
    exact fail
  · rw [if_neg hb]
    exact done (h hb)

theorem orRaise {o : Option β} {e : ε}
    (h : ∀ b, o = some b → ∀ c d H, D.Inv c → φ c d H → ψ b c d H) :
    D.Triple C φ (Txn.orRaise o e : Prog Row ε β) ψ := by
  cases o with
  | some b => exact done (h b rfl)
  | none => exact fail

variable {q : Store Row → β}

variable {l : Store Row → List K}

/-- **The rule of one statement.** -/
theorem statement {w : Store Row → List (Write Row)}
    (h : ∀ c d H, D.Inv c → D.Always φ c d H → C (w (d ∪ c)) (d ∪ c) →
      D.Always (ψ (q (d ∪ c))) c (d.applyAll (w (d ∪ c))) (grow H l w (d ∪ c))) :
    D.Triple C φ (Prog.statement l w q : Prog Row ε β) ψ :=
  ⟨fun _ d H _ hφ c₁ hr hC _ hr' =>
    (h c₁ d H hr.inv (hφ.rely hr) hC).rely hr'⟩

/-- The rule of a plain read. -/
theorem select (h : ∀ c d H, D.Inv c → D.Always φ c d H → D.Always (ψ (q (d ∪ c))) c d H) :
    D.Triple C φ (Prog.select q : Prog Row ε β) ψ := by
  refine statement fun c d H hc hφ _ => ?_
  rw [grow_nil rfl rfl]
  exact h c d H hc hφ

/-- The rule of a locking read. -/
theorem selectForUpdate (h : ∀ c d H, D.Inv c → D.Always φ c d H →
      D.Always (ψ (q (d ∪ c))) c d (fun k => H k ∨ k ∈ l (d ∪ c))) :
    D.Triple C φ (Prog.selectForUpdate l q : Prog Row ε β) ψ := by
  refine statement fun c d H hc hφ _ => ?_
  have hH : grow H l (fun _ => []) (d ∪ c) = fun k => H k ∨ k ∈ l (d ∪ c) := by
    funext k
    simp [grow, needed]
  rw [hH]
  exact h c d H hc hφ

/-- The rule of a locking read of one row. -/
theorem lockRow {k : K} {ψ : Option (Row k) → Assn Row}
    (hnone : ∀ c d H, D.Inv c → D.Always φ c d H → (d ∪ c : Store Row).get k = none →
      D.Always (ψ none) c d H)
    (hsome : ∀ c d H r, D.Inv c → D.Always φ c d H → (d ∪ c : Store Row).get k = some r →
      D.Always (ψ (some r)) c d fun k' => H k' ∨ k' = k) :
    D.Triple C φ (Txn.lockRow k : Prog Row ε _) ψ := by
  refine selectForUpdate fun c d H hc hφ => ?_
  cases hget : (d ∪ c : Store Row).get k with
  | none => simpa using hnone c d H hc hφ hget
  | some r => simpa using hsome c d H r hc hφ hget

/-- The rule of a conditional update of one row. -/
theorem updateWhere {k : K} {cond : Row k → Bool} {g : Row k → Row k} {ψ : ℕ → Assn Row}
    (hmiss : ∀ c d H, D.Inv c → D.Always φ c d H →
      (∀ r, (d ∪ c : Store Row).get k = some r → cond r = false) → D.Always (ψ 0) c d H)
    (hhit : ∀ c d H r, D.Inv c → D.Always φ c d H → (d ∪ c : Store Row).get k = some r →
      cond r = true → C [⟨k, some (g r)⟩] (d ∪ c) →
      D.Always (ψ 1) c (d.set k (some (g r))) fun k' => H k' ∨ k' = k) :
    D.Triple C φ (Txn.updateWhere k cond g : Prog Row ε ℕ) ψ := by
  refine statement fun c d H hc hφ hC => ?_
  cases hv : ((d ∪ c : Store Row).get k).filter cond with
  | none =>
    rw [grow_nil rfl (by simp [hv])]
    simp only [toList_none, map_nil, applyAll_nil, length_nil]
    exact hmiss c d H hc hφ fun r hget => by simpa [hget] using hv
  | some r =>
    obtain ⟨hget, hcond⟩ := filter_eq_some_iff.mp hv
    have hH : grow H (fun _ : Store Row => [])
        (fun v => ((v.get k).filter cond).toList.map fun r => ⟨k, some (g r)⟩) (d ∪ c)
        = fun k' => H k' ∨ k' = k := by
      funext k'
      simp [grow, needed, hv]
    rw [hH]
    simp only [hv, toList_some, map_cons, map_nil] at hC
    simp only [toList_some, map_cons, map_nil, applyAll_cons,
      applyAll_nil, length_cons, length_nil]
    exact hhit c d H r hc hφ hget hcond hC

/-- The rule of an insert. -/
theorem insert {e : ε} {unique : List K} {ws : List (Write Row)} {ψ : Unit → Assn Row}
    (h : ∀ c d H, D.Inv c → D.Always φ c d H → taken (d ∪ c) unique = false →
      C ws (d ∪ c) → D.Always (ψ ()) c (d.applyAll ws) (writing H ws)) :
    D.Triple C φ (Txn.insert e unique ws : Prog Row ε Unit) ψ := by
  refine ⟨fun c d H _ hφ c₁ hr hC => ?_⟩
  cases ht : taken (d ∪ c₁) unique with
  | true =>
    simp only [ht, if_true]
    exact fun _ _ => trivial
  | false =>
    have hH : grow H (fun _ : Store Row => []) (fun v => if taken v unique then [] else ws) (d ∪ c₁)
        = writing H ws := by
      funext k
      simp [grow, needed, writing, ht]
    rw [hH]
    simp only [onWrites, ht, if_neg Bool.false_ne_true] at hC ⊢
    exact fun c₂ hr₂ => (h c₁ d H hr.inv (hφ.rely hr) ht hC).rely hr₂

/-- **A triple that ends in the discipline** is one side of a specification. -/
theorem commit {p : Prog Row ε α} {R : α → Store Row → Store Row → Prop} {ψ : α → Assn Row}
    (h : D.Triple C φ p ψ) (hc : D.Inv c) (hφ : D.Always φ c ∅ fun _ => False)
    (hψ : ∀ a c d H, D.Inv c → ψ a c d H →
      D.Inv (d ∪ c) ∧ D.guar H c (d ∪ c) ∧ R a c (d ∪ c)) :
    D.wp (onWrites C) p (D.Commit R) (fun _ _ _ _ => True) c ∅ fun _ => False :=
  wp_conseq (h.wp c ∅ _ hc hφ) (fun a c d H hc hψ' => hψ a c d H hc (hψ'.now hc))
    fun _ _ _ _ _ h => h

end Triple
end Discipline
end Txn
