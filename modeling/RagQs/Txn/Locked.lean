import RagQs.Txn.Apart
import RagQs.Txn.Toward
import RagQs.Txn.Yields

/-!
# Regions under a lock

Every region of rows has a row that stands for it, and who writes in the region has locked that row
first.  A transaction that has the lock sees the region to its end as the commit will find it, so on
the rows of the region it runs as if it were alone.

## Main definitions

* `Regions.locked` — the discipline of the lock.
* `Regions.On` — the transaction has the lock, and its view of the commit has a property.
* `Regions.Reads` — what is read depends on the region only.

## Main results

* `On.select`, `On.updateWhere`, `On.inside` — the rules of a transaction that has the lock.
* `Regions.inv_of_run`, `Regions.commits_of_run` — the committed store of a run, and what every
  commit does.
* `Regions.exec_of_keeps` — what an operation that runs alone does.
-/

namespace Txn

variable {K : Type} [DecidableEq K] {Row : K → Type} {Op ε α β Γ : Type}

namespace Discipline.Ends

variable {D : Discipline Row} {b : Store Row} {φ φ' : Pend Row} {p : Prog Row ε β}
  {ψ ψ' : β → Pend Row}

/-- Two facts hold together. -/
theorem and {χ χ' : ε → Prop} (hp : Ends D b φ p ψ χ) (hp' : Ends D b φ' p ψ' χ') :
    Ends D b (fun d H => φ d H ∧ φ' d H) p (fun x d H => ψ x d H ∧ ψ' x d H)
      fun e => χ e ∧ χ' e := by
  refine ⟨fun c d H hc hr h => ?_⟩
  have h₁ := hp.toward c d H hc hr h.1
  have h₂ := hp'.toward c d H hc hr h.2
  clear hp hp' h hr hc
  induction p generalizing c d H with
  | done x => exact ⟨h₁, h₂⟩
  | fail e => exact ⟨h₁, h₂⟩
  | stmt l w n ih =>
    exact fun c' hr hb hA => ih _ _ _ _ (h₁ c' hr hb hA) (h₂ c' hr hb hA)

/-- The rule of one statement, with what comes after it. -/
theorem stmt {χ : ε → Prop} {l : Store Row → List K} {w : Store Row → List (Write Row)}
    {n : Store Row → Prog Row ε β}
    (h : ∀ c d H, D.Inv c → D.Rely (grow H l w (d ∪ c)) c b → φ d H →
      Ends D b (fun d' H' => d' = d.applyAll (w (d ∪ c)) ∧ H' = grow H l w (d ∪ c)) (n (d ∪ c))
        ψ χ) : Ends D b φ (.stmt l w n) ψ χ :=
  ⟨fun _ d H _ _ hφ c' hr hb _ => (h c' d H hr.inv hb hφ).toward c' _ _ hr.inv hb ⟨rfl, rfl⟩⟩

/-- What a transaction that runs alone leaves, if it does not fail. -/
theorem exec {χ : ε → Prop} (hp : Ends D b φ p ψ χ) (hb : D.Inv b) (hφ : φ ∅ fun _ => False)
    {x : β} {c : Store Row} (h : p.exec b = .ok (x, c)) : ∃ d H, c = d ∪ b ∧ ψ x d H := by
  have ht := hp.toward b ∅ (fun _ => False) hb (.refl hb) hφ
  have hview : p.exec (∅ ∪ b) = .ok (x, c) := by
    rw [AList.empty_union]
    exact h
  generalize (∅ : Store Row) = d at ht hview
  generalize (fun _ => False : K → Prop) = H at ht
  clear hp hφ h
  induction p generalizing d H with
  | done y =>
    cases hview
    exact ⟨d, H, rfl, ht⟩
  | fail e => cases hview
  | stmt l w n ih =>
    refine ih _ _ ?_ _ (ht b (.refl hb) (.refl hb) trivial)
    rw [Store.applyAll_union]
    exact hview

end Discipline.Ends

namespace Regions

open Discipline

/-- **The discipline of the lock**: the rows of a region change only under its lock. -/
def locked (P : Regions K Op Γ) (lock : Γ → K) (Inv : Store Row → Prop) : Discipline Row where
  Inv := Inv
  guar W c c' := ∀ γ, ¬ W (lock γ) → P.Same γ c c'
  refl _ _ _ _ := .refl
  trans h h' γ hγ := (h γ hγ).trans (h' γ hγ)
  mono hW h γ hγ := h γ fun hk => hγ (hW _ hk)

/-- What is read depends on the rows of the region only. -/
def Reads (P : Regions K Op Γ) (γ : Γ) (q : Store Row → β) : Prop :=
  ∀ v v', P.Same γ v v' → q v' = q v

/-- The transaction has the lock of the region, and what it has written has `V` in the view of the
commit. -/
def On (lock : Γ → K) (b : Store Row) (γ : Γ) (V : Store Row → Prop) : Pend Row :=
  fun d H => H (lock γ) ∧ V (d ∪ b)

variable {P : Regions K Op Γ} {lock : Γ → K} {Inv : Store Row → Prop} {γ : Γ} {b c d : Store Row}
  {H : K → Prop}

/-- What a transaction that has the lock sees of the region is what the commit will find. -/
theorem same_of_rely (hr : (P.locked lock Inv).Rely H c b) (hH : H (lock γ)) :
    P.Same γ (d ∪ b) (d ∪ c) := fun k hk =>
  Store.get_union_congr (hr.guar γ (not_not_intro hH) k hk).symm

theorem get_of_rely (hr : (P.locked lock Inv).Rely H c b) (hH : H (lock γ)) {k : K}
    (hk : P.region k = some γ) : (d ∪ c : Store Row).get k = (d ∪ b : Store Row).get k :=
  same_of_rely hr hH k hk

namespace On

variable {V : Store Row → Prop} {χ : ε → Prop}

/-- The rule of a plain read of the region. -/
theorem select {q : Store Row → β} (hq : P.Reads γ q) :
    (P.locked lock Inv).Ends b (On lock b γ V) (Prog.select q : Prog Row ε β)
      (fun x => On lock b γ fun v => V v ∧ x = q v) χ :=
  .select fun _ _ _ _ hb h => ⟨h.1, h.2, hq _ _ (same_of_rely hb h.1)⟩

/-- The rule of a read of anything. -/
theorem read {q : Store Row → β} :
    (P.locked lock Inv).Ends b (On lock b γ V) (Prog.select q : Prog Row ε β)
      (fun _ => On lock b γ V) χ :=
  .select fun _ _ _ _ _ h => h

/-- The rule of an update of one row of the region. -/
theorem updateWhere {k : K} {cond : Row k → Bool} {g : Row k → Row k} {U : ℕ → Store Row → Prop}
    (hk : P.region k = some γ)
    (hmiss : ∀ v, V v → (∀ r, v.get k = some r → cond r = false) → U 0 v)
    (hhit : ∀ v r, V v → v.get k = some r → cond r = true → U 1 (v.set k (some (g r)))) :
    (P.locked lock Inv).Ends b (On lock b γ V) (Txn.updateWhere k cond g : Prog Row ε ℕ)
      (fun n => On lock b γ (U n)) χ := by
  refine .updateWhere (fun c d H _ hb h hcond => ⟨h.1, hmiss _ h.2 fun r hr => ?_⟩)
    fun c d H r _ _ h hget hcond => ⟨.inl h.1, ?_⟩
  · exact hcond r ((get_of_rely hb h.1 hk).trans hr)
  · rw [Store.set_union]
    exact hhit _ r h.2 hget hcond

/-- The rule of a part that leaves alone what the writes of some rows leave alone. -/
theorem inside {p : Prog Row ε β} {W : K → Prop} (hp : p.Writes W)
    (hV : ∀ v ws, (∀ x ∈ ws, W x.1) → V v → V (v.applyAll ws)) :
    (P.locked lock Inv).Ends b (On lock b γ V) p (fun _ => On lock b γ V) fun _ => True := by
  refine .inside hp fun d H ws H' hws hH _ h => ⟨hH _ h.1, ?_⟩
  rw [Store.applyAll_union]
  exact hV _ ws hws h.2

end On

/-! ### Runs -/

variable {body : Op → Prog Row ε α} {Q : Op → Store Row → Store Row → Prop}

/-- What an operation has to leave: the invariant and its own effect, with nothing written in a
region that is not locked. -/
def Keeps (P : Regions K Op Γ) (lock : Γ → K) (Inv : Store Row → Prop) (body : Op → Prog Row ε α)
    (Q : Op → Store Row → Store Row → Prop) : Prop :=
  ∀ op b, Inv b → (P.locked lock Inv).Ends b (fun d H => d = ∅ ∧ H = fun _ => False) (body op)
    (fun _ d H => Inv (d ∪ b) ∧ (∀ γ, P.Pends γ d → H (lock γ)) ∧ Q op b (d ∪ b)) fun _ => True

/-- What an operation that runs alone does, if it does not fail. -/
theorem exec_of_keeps (h : Keeps P lock Inv body Q) {op : Op} (hb : Inv b) {a : α}
    (hexec : (body op).exec b = .ok (a, c)) : Inv c ∧ Q op b c := by
  obtain ⟨d, H, rfl, hinv, -, hQ⟩ := (h op b hb).exec hb ⟨rfl, rfl⟩ hexec
  exact ⟨hinv, hQ⟩

private theorem verified (h : Keeps P lock Inv body Q) :
    Verified (P.locked lock Inv) (fun _ _ _ => True) body (fun op _ _ => Q op)
      (fun _ _ _ _ => True) where
  wp op c hc := by
    refine wp_conseq (wp_of_toward (Q := fun b _ _ d H => Inv (d ∪ b) ∧
      (∀ γ, P.Pends γ d → H (lock γ)) ∧ Q op b (d ∪ b)) (E := fun _ _ _ _ _ => True)
      fun b hr => (h op b hr.inv).toward c ∅ (fun _ => False) hc hr ⟨rfl, rfl⟩) ?_
      fun _ _ _ _ _ _ => trivial
    rintro a b d H - ⟨hinv, hown, hQ⟩
    exact ⟨hinv, fun γ hγ => .union fun hpends => hγ (hown γ hpends), hQ⟩

variable {ms : List (Move Op)} {s : Sys Row Op ε α}

private theorem sysOk_of_run (h : Keeps P lock Inv body Q) {db : Store Row} (hdb : Inv db)
    (hrun : run body (Sys.init db) ms = some s) :
    SysOk (P.locked lock Inv) (fun _ _ _ => True) (fun op _ _ => Q op) (fun _ _ _ _ => True)
      (fun _ _ => True) s :=
  ((verified h).run (P := fun _ _ => True) .true ms (allowsRun_true body ms _) (.init hdb trivial)
    hrun).1

/-- The invariant of the committed store of a run. -/
theorem inv_of_run (h : Keeps P lock Inv body Q) {db : Store Row} (hdb : Inv db)
    (hrun : run body (Sys.init db) ms = some s) : Inv s.db := (sysOk_of_run h hdb hrun).inv

end Regions
end Txn
