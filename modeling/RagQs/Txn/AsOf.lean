import RagQs.Txn.Triple
import RagQs.Txn.Under
import RagQs.Txn.Views

/-!
# Programs as of the commit

What a transaction commits is judged by the store it is committed to.  Its statements ran on
earlier ones; the rows they needed are locked, so those still are as they were, and of the other
rows a condition on the earlier stores may say as much.

## Main definitions

* `OnStatement` — a condition on a statement and the view it runs on.
* `AsOf` — what a program leaves, as of the store it is committed to.

## Main results

* `AsOf.bind`, `AsOf.statement`, `AsOf.updateWhere`, `AsOf.insert` — the rules.
* `AsOf.commits` — what an open transaction has left when it comes to its end.
* `AsOf.verified` — what every operation leaves is its side of a specification.
-/

namespace Txn

open List Store

variable {K : Type} [DecidableEq K] {Row : K → Type} {Op ε α β : Type}

/-- A condition on the next statement of a program and the view it runs on, whatever comes after
the part of the program it is in. -/
structure OnStatement {K : Type} (Row : K → Type) (ε : Type) where
  holds : {α : Type} → Prog Row ε α → Store Row → Prop
  of_bind : ∀ {α β : Type} {p : Prog Row ε β} {f : β → Prog Row ε α} {v : Store Row},
    holds (p >>= f) v → holds p v

/-- A condition on what the statement writes. -/
def OnStatement.writes (C : List (Write Row) → Store Row → Prop) : OnStatement Row ε where
  holds := onWrites C
  of_bind {_ _ p _ _} h := by
    cases p with
    | stmt l w n => exact h
    | done a => trivial
    | fail e => trivial

variable {e : ε} {ws : List (Write Row)}

/-- What is asked of an insert that goes through. -/
theorem OnStatement.of_insert {C : List (Write Row) → Store Row → Prop} {unique : List K}
    {v : Store Row} (htaken : taken v unique = false)
    (h : (writes C).holds (Txn.insert e unique ws : Prog Row ε Unit) v) : C ws v := by
  simpa [writes, onWrites, Txn.insert, htaken] using h

/-- From pending writes with `φ` the program ends with pending writes with `ψ`, if the committed
stores its statements run on have `G`, are related by `R` in their order, show the rows a statement
needs as `b` does, and `C` lets every statement run. -/
structure AsOf (C : OnStatement Row ε) (R : Store Row → Store Row → Prop) (b : Store Row)
    (G : Store Row → Prop) (φ : Store Row → Prop) (p : Prog Row ε α)
    (ψ : α → Store Row → Prop) : Prop where
  ends : ∀ d cs a d', p.runOn d cs = some (.done a, d') →
    p.Along (fun p d c => (∀ k ∈ p.need (d ∪ c), b.get k = c.get k) ∧ C.holds p (d ∪ c)) d cs →
    (∀ c ∈ cs, G c) → cs.Pairwise R → φ d → ψ a d'

omit [DecidableEq K] in
/-- The keys a statement needs do not depend on what follows it. -/
theorem Prog.need_bind {p : Prog Row ε β} {f : β → Prog Row ε α} {v : Store Row} {k : K}
    (hk : k ∈ p.need v) : k ∈ (p >>= f).need v := by
  cases p with
  | stmt l w n => exact hk
  | done a => cases hk
  | fail e => cases hk

/-- The stores a sequence ran on are those its parts ran on. -/
theorem Prog.runOn_bind {p : Prog Row ε β} {f : β → Prog Row ε α} {d d' : Store Row}
    {cs : List (Store Row)} {a : α} {T : Prog Row ε α → Store Row → Store Row → Prop}
    {T' : Prog Row ε β → Store Row → Store Row → Prop}
    (hT' : ∀ p d c, T (p >>= f) d c → T' p d c)
    (h : (p >>= f).runOn d cs = some (.done a, d')) (hT : (p >>= f).Along T d cs) :
    ∃ cs₁ cs₂ b d₁, cs = cs₁ ++ cs₂ ∧ p.runOn d cs₁ = some (.done b, d₁) ∧ p.Along T' d cs₁ ∧
      (f b).runOn d₁ cs₂ = some (.done a, d') ∧ (f b).Along T d₁ cs₂ := by
  induction p generalizing d cs with
  | done b => exact ⟨[], cs, b, d, rfl, runOn_nil _ _, along_nil, h, hT⟩
  | fail e =>
    cases cs with
    | nil => cases h
    | cons c cs => cases h
  | stmt l w n ih =>
    cases cs with
    | nil => cases h
    | cons c cs =>
      obtain ⟨cs₁, cs₂, b, d₁, rfl, h₁, hT₁, h₂, hT₂⟩ := ih _ h hT.2
      exact ⟨c :: cs₁, cs₂, b, d₁, rfl, h₁, ⟨hT' (.stmt l w n) d c hT.1, hT₁⟩, h₂, hT₂⟩

namespace AsOf

variable {C : OnStatement Row ε} {R : Store Row → Store Row → Prop} {b d : Store Row}
  {G G' : Store Row → Prop} {φ φ' : Store Row → Prop} {p : Prog Row ε β} {f : β → Prog Row ε α}
  {ψ ψ' : β → Store Row → Prop} {χ : α → Store Row → Prop}

/-- **The rule of sequencing.** -/
theorem bind (hp : AsOf C R b G φ p ψ) (hf : ∀ x, AsOf C R b G (ψ x) (f x) χ) :
    AsOf C R b G φ (p >>= f) χ := by
  refine ⟨fun d cs a d' hrun hT hG hR hφ => ?_⟩
  have hpart : ∀ (p : Prog Row ε β) (d c : Store Row),
      ((∀ k ∈ (p >>= f).need (d ∪ c), b.get k = c.get k) ∧ C.holds (p >>= f) (d ∪ c)) →
      (∀ k ∈ p.need (d ∪ c), b.get k = c.get k) ∧ C.holds p (d ∪ c) :=
    fun p d c h => ⟨fun k hk => h.1 k (Prog.need_bind hk), C.of_bind h.2⟩
  obtain ⟨cs₁, cs₂, x, d₁, rfl, h₁, hT₁, h₂, hT₂⟩ := Prog.runOn_bind hpart hrun hT
  obtain ⟨hR₁, hR₂, -⟩ := pairwise_append.mp hR
  have hmid : ψ x d₁ := hp.ends d cs₁ x d₁ h₁ hT₁
    (fun c hc => hG c (mem_append_left _ hc)) hR₁ hφ
  exact (hf x).ends d₁ cs₂ a d' h₂ hT₂ (fun c hc => hG c (mem_append_right _ hc)) hR₂ hmid

/-- The rule of consequence. -/
theorem conseq (hp : AsOf C R b G φ p ψ) (hφ : ∀ d, φ' d → φ d) (hψ : ∀ x d, ψ x d → ψ' x d) :
    AsOf C R b G φ' p ψ' :=
  ⟨fun d cs a d' hrun hT hG hR h => hψ a d' (hp.ends d cs a d' hrun hT hG hR (hφ d h))⟩

theorem pre (hp : AsOf C R b G φ p ψ) (hφ : ∀ d, φ' d → φ d) : AsOf C R b G φ' p ψ :=
  hp.conseq hφ fun _ _ h => h

theorem post (hp : AsOf C R b G φ p ψ) (hψ : ∀ x d, ψ x d → ψ' x d) : AsOf C R b G φ p ψ' :=
  hp.conseq (fun _ h => h) hψ

/-- Two facts hold together. -/
theorem and (hp : AsOf C R b G φ p ψ) (hp' : AsOf C R b G φ' p ψ') :
    AsOf C R b G (fun d => φ d ∧ φ' d) p fun x d => ψ x d ∧ ψ' x d :=
  ⟨fun d cs a d' hrun hT hG hR h =>
    ⟨hp.ends d cs a d' hrun hT hG hR h.1, hp'.ends d cs a d' hrun hT hG hR h.2⟩⟩

/-- A fact the assertion gives may be used for the program. -/
theorem of_fact {P : Prop} (hφ : ∀ d, φ d → P) (h : P → AsOf C R b G φ p ψ) : AsOf C R b G φ p ψ :=
  ⟨fun d cs a d' hrun hT hG hR hd => (h (hφ d hd)).ends d cs a d' hrun hT hG hR hd⟩

/-- The pending writes may be named. -/
theorem of_each (h : ∀ d₀, φ d₀ → AsOf C R b G (· = d₀) p ψ) : AsOf C R b G φ p ψ :=
  ⟨fun d cs a d' hrun hT hG hR hφ => (h d hφ).ends d cs a d' hrun hT hG hR rfl⟩

/-- The end of a program. -/
theorem done {x : β} (h : ∀ d, φ d → ψ x d) : AsOf C R b G φ (.done x : Prog Row ε β) ψ := by
  refine ⟨fun d cs a d' hrun _ _ _ hφ => ?_⟩
  cases cs with
  | nil =>
    cases hrun
    exact h d hφ
  | cons c cs => cases hrun

/-- A program that has failed commits nothing. -/
theorem fail : AsOf C R b G φ (.fail e : Prog Row ε β) ψ := by
  refine ⟨fun d cs a d' hrun _ _ _ _ => ?_⟩
  cases cs with
  | nil => cases hrun
  | cons c cs => cases hrun

theorem check {x : Except ε β} (h : ∀ y, x = .ok y → ∀ d, φ d → ψ y d) :
    AsOf C R b G φ (Txn.check x : Prog Row ε β) ψ := by
  unfold Txn.check
  cases x with
  | ok y => exact done (h y rfl)
  | error e => exact fail

theorem raiseIf {bad : Prop} [Decidable bad] {ψ : Unit → Store Row → Prop}
    (h : ¬ bad → ∀ d, φ d → ψ () d) : AsOf C R b G φ (Txn.raiseIf bad e : Prog Row ε Unit) ψ := by
  unfold Txn.raiseIf
  by_cases hb : bad
  · rw [if_pos hb]
    exact fail
  · rw [if_neg hb]
    exact done (h hb)

theorem orRaise {o : Option β} (h : ∀ y, o = some y → ∀ d, φ d → ψ y d) :
    AsOf C R b G φ (Txn.orRaise o e : Prog Row ε β) ψ := by
  cases o with
  | some y => exact done (h y rfl)
  | none => exact fail

variable {l : Store Row → List K} {w : Store Row → List (Write Row)}

/-- **The rule of one statement.** -/
theorem statement {q : Store Row → β}
    (h : ∀ d c, G c → φ d → (∀ k ∈ needed l w (d ∪ c), b.get k = c.get k) →
      C.holds (Prog.statement l w q : Prog Row ε β) (d ∪ c) →
      ψ (q (d ∪ c)) (d.applyAll (w (d ∪ c)))) :
    AsOf C R b G φ (Prog.statement l w q : Prog Row ε β) ψ := by
  refine ⟨fun d cs a d' hrun hT hG hR hφ => ?_⟩
  cases cs with
  | nil => cases hrun
  | cons c cs =>
    cases cs with
    | nil =>
      cases hrun
      exact h d c (hG c mem_cons_self) hφ hT.1.1 hT.1.2
    | cons c' cs => cases hrun

/-- The rule of one statement, with all that comes after it: that runs on later stores. -/
theorem first {n : Store Row → Prog Row ε β}
    (h : ∀ d c, G c → φ d → (∀ k ∈ needed l w (d ∪ c), b.get k = c.get k) →
      C.holds (.stmt l w n) (d ∪ c) →
      AsOf C R b (fun c' => G c' ∧ R c c') (· = d.applyAll (w (d ∪ c))) (n (d ∪ c)) ψ) :
    AsOf C R b G φ (.stmt l w n) ψ := by
  refine ⟨fun d cs a d' hrun hT hG hR hφ => ?_⟩
  cases cs with
  | nil => cases hrun
  | cons c cs =>
    obtain ⟨hlater, hR⟩ := pairwise_cons.mp hR
    refine (h d c (hG c mem_cons_self) hφ hT.1.1 hT.1.2).ends _ cs a d' hrun hT.2 ?_ hR rfl
    exact fun c' hc' => ⟨hG c' (mem_cons_of_mem _ hc'), hlater c' hc'⟩

/-- The rule of a plain read, with all that comes after it. -/
theorem selectThen {γ : Type} {q : Store Row → γ} {f : γ → Prog Row ε β}
    (h : ∀ d c, G c → φ d →
      AsOf C R b (fun c' => G c' ∧ R c c') (· = d) (f (q (d ∪ c))) ψ) :
    AsOf C R b G φ (Prog.select q >>= f) ψ :=
  first fun d c hG hφ _ _ => h d c hG hφ

/-- The rule of a plain read. -/
theorem select {q : Store Row → β} (h : ∀ d c, G c → φ d → ψ (q (d ∪ c)) d) :
    AsOf C R b G φ (Prog.select q : Prog Row ε β) ψ :=
  statement fun d c hG hφ _ _ => h d c hG hφ

/-- The rule of a conditional update of one row. -/
theorem updateWhere {k : K} {cond : Row k → Bool} {g : Row k → Row k} {ψ : ℕ → Store Row → Prop}
    (hmiss : ∀ d c, G c → φ d → (∀ r, (d ∪ c : Store Row).get k = some r → cond r = false) →
      ψ 0 d)
    (hhit : ∀ d c r, G c → φ d → b.get k = c.get k → (d ∪ c : Store Row).get k = some r →
      cond r = true → ψ 1 (d.set k (some (g r)))) :
    AsOf C R b G φ (Txn.updateWhere k cond g : Prog Row ε ℕ) ψ := by
  refine statement fun d c hG hφ hneeded _ => ?_
  cases hv : ((d ∪ c : Store Row).get k).filter cond with
  | none => exact hmiss d c hG hφ fun r hget => by simpa [hget] using hv
  | some r =>
    obtain ⟨hget, hcond⟩ := Option.filter_eq_some_iff.mp hv
    exact hhit d c r hG hφ (hneeded k (by simp [needed, hv])) hget hcond

/-- The rule of an insert. -/
theorem insert {unique : List K} {ψ : Unit → Store Row → Prop}
    (h : ∀ d c, G c → φ d → taken (d ∪ c) unique = false → (∀ x ∈ ws, b.get x.1 = c.get x.1) →
      C.holds (Txn.insert e unique ws : Prog Row ε Unit) (d ∪ c) → ψ () (d.applyAll ws)) :
    AsOf C R b G φ (Txn.insert e unique ws : Prog Row ε Unit) ψ := by
  refine ⟨fun d cs a d' hrun hT hG hR hφ => ?_⟩
  cases cs with
  | nil => cases hrun
  | cons c cs =>
    obtain ⟨hneeded, hC⟩ := hT.1
    cases ht : taken (d ∪ c) unique with
    | true =>
      simp only [Txn.insert, Prog.runOn_stmt, ht, if_true] at hrun
      cases cs with
      | nil => cases hrun
      | cons c' cs => cases hrun
    | false =>
      simp only [Txn.insert, Prog.runOn_stmt, ht, if_neg Bool.false_ne_true] at hrun
      cases cs with
      | nil =>
        cases hrun
        exact h d c (hG c mem_cons_self) hφ ht
          (fun x hx => hneeded x.1 (by simpa [Prog.need, needed, ht] using ⟨x.2, hx⟩)) hC
      | cons c' cs => cases hrun

/-- The rule of an update of many rows: as of the commit, every row is replaced or stays, and it
stays where the statement saw no row to replace. -/
theorem updateAll {pick : (k : K) → Row k → Option (Option (Row k))} {ψ : ℕ → Store Row → Prop}
    (h : ∀ d c n d', G c → φ d → (∀ k, ((k ∈ d' → k ∈ d) ∧
        (d' ∪ b : Store Row).get k = (d ∪ b : Store Row).get k ∧
        ∀ r, (d ∪ c : Store Row).get k = some r → pick k r = none) ∨
      ∃ r o, (d ∪ b : Store Row).get k = some r ∧ pick k r = some o ∧
        (d' ∪ b : Store Row).get k = o) → ψ n d') :
    AsOf C R b G φ (Txn.updateAll pick : Prog Row ε ℕ) ψ := by
  refine statement fun d c hG hφ hneeded _ => h d c _ _ hG hφ fun k => ?_
  by_cases hk : k ∈ (table (d ∪ c) fun k r => (pick k r).map (Sigma.mk k)).map Sigma.fst
  · -- a row that is hit is locked, so the commit finds it as the statement did
    have hsame : (d ∪ b : Store Row).get k = (d ∪ c : Store Row).get k :=
      get_union_congr (hneeded k (by simpa [needed] using hk))
    have hafter : ((d ∪ c : Store Row).applyAll (table (d ∪ c) fun k r =>
        (pick k r).map (Sigma.mk k))).get k
          = ((d ∪ c : Store Row).get k).bind fun r => (pick k r).getD (some r) :=
      get_applyAll_updateAll k
    obtain ⟨x, hx, hkey⟩ := mem_map.mp hk
    obtain ⟨k', r, hget, hpick⟩ := mem_table.mp hx
    obtain ⟨o, ho, rfl⟩ := Option.map_eq_some_iff.mp hpick
    obtain rfl : k' = k := hkey
    refine .inr ⟨r, o, hsame.trans hget, ho, ?_⟩
    rw [applyAll_union, get_applyAll_at hsame, hafter, hget]
    simp [ho]
  · refine .inl ⟨fun hmem => (mem_applyAll.mp hmem).resolve_left hk, ?_, fun r hget => ?_⟩
    · rw [applyAll_union, get_applyAll_of_notMem hk]
    · cases hpick : pick k r with
      | none => rfl
      | some o =>
        have hmem : (⟨k, o⟩ : Write Row) ∈ table (d ∪ c) fun k r => (pick k r).map (Sigma.mk k) :=
          mem_table.mpr ⟨k, r, hget, by rw [hpick]; rfl⟩
        exact absurd (mem_map.mpr ⟨_, hmem, rfl⟩) hk

/-- What the writes of some rows leave alone is left alone by a program that writes only those. -/
theorem inside {W : K → Prop} (hp : p.Writes W)
    (hφ : ∀ d ws, (∀ x ∈ ws, W x.1) → φ d → φ (d.applyAll ws)) :
    AsOf C R b G φ p fun _ => φ := by
  refine ⟨fun d cs a d' hrun hT hG hR h => ?_⟩
  clear hT hG hR
  induction p generalizing d cs with
  | done x =>
    cases cs with
    | nil =>
      cases hrun
      exact h
    | cons c cs => cases hrun
  | fail e =>
    cases cs with
    | nil => cases hrun
    | cons c cs => cases hrun
  | stmt l w n ih =>
    cases cs with
    | nil => cases hrun
    | cons c cs => exact ih _ (hp.2 _) _ cs hrun (hφ d _ (hp.1 _) h)

/-- **What an open transaction has left** when it comes to its end. -/
theorem commits {body : Op → Prog Row ε β} {db : Store Row} {s : Sys Row Op ε β}
    {ms : List (Move Op)} {i n : ℕ} {op : Op} {a : β}
    (hA : AllowsRun (fun _ => C.holds) body (Sys.init db) ms)
    (hs : run body (Sys.init db) ms = some s) (hx : s.sessions i = some ⟨op, .done a, d, n⟩)
    (hG : ∀ c, During body (Sys.init db) ms i c → G c)
    (h : AsOf C (fun _ _ => True) s.db G φ (body op) ψ) (hφ : φ ∅) : ψ a d := by
  obtain ⟨cs, hcs, hduring, halong⟩ := session_seen hA hs hx
  exact h.ends ∅ cs a d hcs halong (fun c hc => hG c (hduring c hc))
    (pairwise_of_forall fun _ _ => trivial) hφ

end AsOf

/-! ### Specifications as of the commit -/

open Discipline

/-- The discipline of an invariant and a change that is allowed under all locks. -/
def Discipline.ofChange (Inv : Store Row → Prop) (R : Store Row → Store Row → Prop)
    (refl : ∀ c, R c c) (trans : ∀ {a b c}, R a b → R b c → R a c) : Discipline Row where
  Inv := Inv
  guar _ := R
  refl _ := refl
  trans := trans
  mono _ h := h

section Specification

variable {D : Discipline Row} {R : Store Row → Store Row → Prop}

/-- What a program leaves after any interference, from what it leaves on any stores it may see. -/
private theorem wp_of_ends {A : Prog Row ε α → Store Row → Prop} {p : Prog Row ε α}
    {Q : α → Store Row → Store Row → Prop} {c d : Store Row} {H : K → Prop}
    (hR : ∀ H c c', D.Rely H c c' → R c c') (htrans : ∀ {a b c}, R a b → R b c → R a c)
    (h : ∀ b cs a d', D.Rely H c b → p.runOn d cs = some (.done a, d') →
      p.Along (fun p d c => (∀ k ∈ p.need (d ∪ c), b.get k = c.get k) ∧ A p (d ∪ c)) d cs →
      (∀ c' ∈ cs, D.Inv c' ∧ R c c' ∧ R c' b) → cs.Pairwise R → Q a b d') :
    D.wp A p (fun a b d _ => Q a b d) (fun _ _ _ _ => True) c d H := by
  induction p generalizing c d H with
  | done a => exact fun c' hr => h c' [] a d hr (Prog.runOn_nil _ _) Prog.along_nil nofun .nil
  | fail e => exact fun _ _ => trivial
  | stmt l w n ih =>
    intro c' hr hA
    refine ih _ fun b cs a d' hr' hrun halong hcs horder => ?_
    have hH : D.Rely H c' b := hr'.mono fun k hk => .inl hk
    refine h b (c' :: cs) a d' (hr.trans hH) hrun
      ⟨⟨fun k hk => hr'.rows k (.inr hk), hA⟩, halong⟩ (fun c'' hc'' => ?_)
      (pairwise_cons.mpr ⟨fun c'' hc'' => (hcs c'' hc'').2.1, horder⟩)
    rcases mem_cons.mp hc'' with rfl | hc''
    · exact ⟨hr.inv, hR _ _ _ hr, hR _ _ _ hH⟩
    · obtain ⟨hinv, hafter, hbefore⟩ := hcs c'' hc''
      exact ⟨hinv, htrans (hR _ _ _ hr) hafter, hbefore⟩

/-- **A specification as of the commit**: it is enough that every operation leaves what it should
as of any store it may be committed to, running on stores between the one it was opened on and
that one. -/
theorem AsOf.verified {C : Op → OnStatement Row ε} {body : Op → Prog Row ε α} {Inv : Store Row → Prop}
    {refl : ∀ c, R c c} {trans : ∀ {a b c}, R a b → R b c → R a c}
    {Pre : Op → List (Ended Op ε α) → Prop} {P : Store Row → List (Ended Op ε α) → Prop}
    {Q : Op → Store Row → α → Store Row → Store Row → Prop}
    (h : ∀ op c₀ hist b, Pre op hist → P c₀ hist → Inv c₀ → Inv b → R c₀ b →
      AsOf (C op) R b (fun c => Inv c ∧ R c₀ c ∧ R c b) (· = ∅) (body op)
        fun a d => Inv (d ∪ b) ∧ R b (d ∪ b) ∧ Q op c₀ a b (d ∪ b)) :
    VerifiedFrom (.ofChange Inv R refl trans) (fun op => (C op).holds) body Pre Q
      (fun _ _ _ _ => True) P where
  wp op c₀ hist hinv hP hpre :=
    wp_of_ends (R := R) (fun _ _ _ hr => hr.guar) trans fun b cs a d hr hrun halong hcs horder =>
      (h op c₀ hist b hpre hP hinv hr.inv hr.guar).ends ∅ cs a d hrun halong hcs horder rfl

end Specification
end Txn
