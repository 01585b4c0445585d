import RagQs.Txn.Triple
import Mathlib.Logic.Relation

/-!
# Rows under a guard

A service often has one row that stands for an aggregate: whoever reads or writes the rows that
belong to it locks that row first and keeps the lock to the end.  The rows under a guard that is
locked do not change meanwhile, so on them the program runs as if it were alone; everything else
it reads may be anything the other transactions leave.

`Guards.gwp` computes what has to hold of a program on the view alone, `Guards.Under` what a
program does to the rows under one locked guard, and `Guards.tracks_block` turns the latter into
a fact about the interleaved system: between the committed store and the store a transaction
would leave, the rows under each guard have gone through the steps of the program.

## Main definitions

* `Guards` — which guard a row is under, and the lock that stands for the guard.
* `Guards.region` — the rows of a store under a guard.
* `Guards.Seen`, `Guards.gwp` — the views a statement may see, and what a program needs.
* `Guards.Under` — what a program does to the rows under a locked guard.
* `Guards.Kept`, `Guards.Tracks` — the assertions on pending writes.

## Main results

* `Guards.Guarded.wp` — a program that meets `gwp` on the view keeps its side.
* `Guards.tracks_block` — the rule of a program that locks a guard and works under it.
* `Guards.Tracks.inv`, `Guards.Tracks.guar` — what is owed at the commit.
-/

namespace Txn

open Discipline List Store AList

variable {K : Type} [DecidableEq K] {Row : K → Type} {ε α β Γ : Type} [DecidableEq Γ]

/-- The rows under one guard, as a map. -/
abbrev Region {K : Type} (Row : K → Type) := (k : K) → Option (Row k)

/-- Which guard a row is under, and the lock that stands for the guard. -/
structure Guards {K : Type} (Row : K → Type) (Γ : Type) where
  under : (k : K) → Row k → Option Γ
  lock : Γ → K

namespace Guards

variable (G : Guards Row Γ)

/-- The rows of a store under a guard. -/
def region (g : Γ) (c : Store Row) : Region Row :=
  fun k => (c.get k).filter fun r => G.under k r = some g

/-- The stores have the same rows under the guard. -/
def Agree (g : Γ) (c c' : Store Row) : Prop := G.region g c' = G.region g c

variable {G} {g : Γ} {c c' d u v : Store Row} {H H' : K → Prop} {W : Γ → Prop}

theorem region_eq_some {k : K} {r : Row k} :
    G.region g c k = some r ↔ c.get k = some r ∧ G.under k r = some g := by
  unfold region
  rw [Option.filter_eq_some_iff, decide_eq_true_iff]

/-- A row that can only be under the guard is read off the region. -/
theorem region_of_static {k : K} (hk : ∀ r, G.under k r = some g) : G.region g c k = c.get k := by
  unfold region
  cases c.get k with
  | none => rfl
  | some r => simp [hk r]

theorem Agree.refl : G.Agree g c c := rfl

theorem Agree.trans {c'' : Store Row} (h : G.Agree g c c') (h' : G.Agree g c' c'') :
    G.Agree g c c'' := Eq.trans h' h

theorem Agree.symm (h : G.Agree g c c') : G.Agree g c' c := Eq.symm h

/-- The rows under a guard depend on the store underneath through those under the guard. -/
theorem Agree.union (h : G.Agree g c c') : G.Agree g (d ∪ c) (d ∪ c') := by
  funext k
  have hk := congrFun h k
  unfold region at hk ⊢
  by_cases hmem : k ∈ d
  · rw [get_union_of_mem hmem, get_union_of_mem hmem]
  · rw [get_union_of_notMem hmem, get_union_of_notMem hmem]
    exact hk

variable {ws : List (Write Row)}

/-- A key that is written has one of the rows that were written. -/
theorem get_applyAll_of_keys {s : Store Row} {k : K} (h : k ∈ ws.map Sigma.fst) :
    ∃ o, (⟨k, o⟩ : Write Row) ∈ ws ∧ (s.applyAll ws).get k = o := by
  induction ws generalizing s with
  | nil => cases h
  | cons w ws ih =>
    obtain ⟨k', o⟩ := w
    by_cases hk : k ∈ ws.map Sigma.fst
    · obtain ⟨o', hmem, hget⟩ := ih (s := s.set k' o) hk
      exact ⟨o', mem_cons_of_mem _ hmem, hget⟩
    · obtain rfl : k = k' := by simpa [hk] using h
      refine ⟨o, mem_cons_self, ?_⟩
      rw [applyAll_cons, get_applyAll_of_notMem hk, get_set_self]

/-- Writes that replace no row under a guard and bring none there leave its rows alone. -/
theorem Agree.applyAll
    (h : ∀ x ∈ ws, ∀ r, G.under x.1 r = some g → x.2 ≠ some r ∧ c.get x.1 ≠ some r) :
    G.Agree g c (c.applyAll ws) := by
  funext k
  by_cases hk : k ∈ ws.map Sigma.fst
  · obtain ⟨o, hmem, hget⟩ := get_applyAll_of_keys (s := c) hk
    have hnone : ∀ o' : Option (Row k), (∀ r, G.under k r = some g → o' ≠ some r) →
        o'.filter (fun r => G.under k r = some g) = none := by
      intro o' ho'
      cases o' with
      | none => rfl
      | some r =>
        have hr : G.under k r ≠ some g := fun hu => ho' r hu rfl
        simp [Option.filter, hr]
    unfold region
    rw [hget, hnone o fun r hu => (h _ hmem r hu).1, hnone _ fun r hu => (h _ hmem r hu).2]
  · unfold region
    rw [get_applyAll_of_notMem hk]

variable (G) (Ok : Γ → Region Row → Prop) (C : List (Write Row) → Store Row → Prop)

/-- What a statement of a program that works under the guards of `W` may see of the rows, when
the one before left the view `u` and the locks `H` are held: the locked rows and the rows under
locked guards are the same, and the rows under the other guards are good. -/
structure Seen (W : Γ → Prop) (H : K → Prop) (u v : Store Row) : Prop where
  held : ∀ k, H k → v.get k = u.get k
  agree : ∀ g, H (G.lock g) → G.Agree g u v
  good : ∀ g, ¬ W g → Ok g (G.region g v)

/-- The writes touch no rows but those under guards of `W`, which are locked, and rows under no
guard. -/
def Owned (W : Γ → Prop) (H : K → Prop) (ws : List (Write Row)) (v : Store Row) : Prop :=
  ∀ x ∈ ws, ∀ r g, G.under x.1 r = some g → (x.2 = some r ∨ v.get x.1 = some r) →
    W g ∧ H (G.lock g)

/-- What a program needs of the view so that it only writes under its guards and, whatever it
sees of the other rows, ends with `Q`, provided every statement writes on a view `C` allows it
on. -/
def gwp (W : Γ → Prop) :
    Prog Row ε α → (α → Store Row → (K → Prop) → Prop) → Store Row → (K → Prop) → Prop
  | .done a, Q => fun u H => Q a u H
  | .fail _, _ => fun _ _ => True
  | .stmt l w n, Q => fun u H => ∀ v, G.Seen Ok W H u v → C (w v) v →
      G.Owned W (grow H l w v) (w v) v ∧ gwp W (n v) Q (v.applyAll (w v)) (grow H l w v)

/-- The pending writes are locked, and so are the guards of the rows they bring or replace. -/
def Kept : Assn Row := fun c d H =>
  ∀ k ∈ d, H k ∧
    ∀ r g, G.under k r = some g → (d.get k = some r ∨ c.get k = some r) → H (G.lock g)

/-- A discipline that lets the rows under a guard change only under its lock. -/
structure Guarded (D : Discipline Row) : Prop where
  inv : ∀ c, D.Inv c → ∀ g, Ok g (G.region g c)
  guar : ∀ W c c', D.guar W c c' → ∀ g, ¬ W (G.lock g) → G.Agree g c c'

variable {G Ok C} {D : Discipline Row}

omit [DecidableEq Γ] in
theorem Kept.empty : G.Kept c ∅ H := fun _ hk => absurd hk (notMem_empty _)

omit [DecidableEq Γ] in
theorem Kept.rely (h : G.Kept c d H) (hr : D.Rely H c c') : G.Kept c' d H := by
  intro k hk
  obtain ⟨hH, hkept⟩ := h k hk
  refine ⟨hH, fun r g hu ho => hkept r g hu ?_⟩
  rwa [hr.rows k hH] at ho

/-- No pending write is under a guard that is not locked. -/
theorem Kept.agree (h : G.Kept c d H) (hg : ¬ H (G.lock g)) : G.Agree g c (d ∪ c) := by
  funext k
  by_cases hk : k ∈ d
  · obtain ⟨-, hkept⟩ := h k hk
    have hnone : ∀ o : Option (Row k), (∀ r, o = some r → d.get k = some r ∨ c.get k = some r) →
        o.filter (fun r => G.under k r = some g) = none := by
      intro o ho
      cases o with
      | none => rfl
      | some r =>
        have hr : G.under k r ≠ some g := fun hu => hg (hkept r g hu (ho r rfl))
        simp [Option.filter, hr]
    unfold region
    rw [get_union_of_mem hk, hnone _ fun r hr => .inl hr, hnone _ fun r hr => .inr hr]
  · unfold region
    rw [get_union_of_notMem hk]

namespace Guarded

variable (hD : G.Guarded Ok D)
include hD

/-- The rows under a locked guard do not change. -/
theorem agree (hr : D.Rely H c c') (hg : H (G.lock g)) : G.Agree g c c' :=
  hD.guar _ c c' hr.guar g (not_not_intro hg)

/-- What the other transactions do is something a statement may see. -/
theorem seen (h : G.Kept c d H) (hgood : ∀ g, ¬ W g → Ok g (G.region g (d ∪ c)))
    (hr : D.Rely H c c') : G.Seen Ok W H (d ∪ c) (d ∪ c') := by
  refine ⟨fun k hk => hr.view d hk, fun g hg => (hD.agree hr hg).union, fun g hW => ?_⟩
  by_cases hg : H (G.lock g)
  · rw [(hD.agree hr hg).union]
    exact hgood g hW
  · rw [(h.rely hr).agree hg]
    exact hD.inv c' hr.inv g

end Guarded

variable {l : Store Row → List K} {w : Store Row → List (Write Row)}

omit [DecidableEq Γ] in
theorem Kept.statement (h : G.Kept c d H) (ho : G.Owned W (grow H l w (d ∪ c)) (w (d ∪ c)) (d ∪ c)) :
    G.Kept c (d.applyAll (w (d ∪ c))) (grow H l w (d ∪ c)) := by
  intro k hk
  by_cases hw : k ∈ (w (d ∪ c)).map Sigma.fst
  · obtain ⟨o, hmem, hget⟩ := get_applyAll_of_keys (s := d) hw
    refine ⟨.inr (mem_append_right _ hw), fun r g hu hr => ?_⟩
    rcases hr with hr | hr
    · exact (ho _ hmem r g hu (.inl (hget.symm.trans hr))).2
    · by_cases hd : k ∈ d
      · exact .inl ((h k hd).2 r g hu (.inr hr))
      · refine (ho _ hmem r g hu (.inr ?_)).2
        exact (get_union_of_notMem hd).trans hr
  · have hd : k ∈ d := (mem_applyAll.mp hk).resolve_left hw
    refine ⟨.inl (h k hd).1, fun r g hu hr => ?_⟩
    rw [get_applyAll_of_notMem hw] at hr
    exact .inl ((h k hd).2 r g hu hr)

/-- What a program that works under the guards of `W` leaves as it was: the committed rows under
the guards that are locked, the rows it sees under the locked guards it does not work under, and
that it has written nothing under a guard. -/
structure Steady (G : Guards Row Γ) (W : Γ → Prop) (H₀ : K → Prop) (c₀ u₀ c u : Store Row) :
    Prop where
  committed : ∀ g, H₀ (G.lock g) → G.Agree g c₀ c
  others : ∀ g, H₀ (G.lock g) → ¬ W g → G.Agree g u₀ u
  untouched : ∀ g, ¬ W g → G.Agree g c₀ u₀ → G.Agree g c u

/-- The writes of a statement change nothing under the guards it does not work under. -/
theorem Owned.agree (ho : G.Owned W H ws (d ∪ c)) (hW : ¬ W g) :
    G.Agree g (d ∪ c) (d.applyAll ws ∪ c) := by
  rw [applyAll_union]
  refine .applyAll fun x hx r hu => ⟨fun h => ?_, fun h => ?_⟩
  · exact hW (ho x hx r g hu (.inl h)).1
  · exact hW (ho x hx r g hu (.inr h)).1

/-- Where nothing is written under a guard, nothing is after the others have run. -/
theorem Guarded.untouched (hD : G.Guarded Ok D) (h : G.Kept c d H) (hr : D.Rely H c c')
    (hfree : G.Agree g c (d ∪ c)) : G.Agree g c' (d ∪ c') := by
  by_cases hg : H (G.lock g)
  · have hagree := hD.agree hr hg
    exact (hagree.symm.trans hfree).trans hagree.union
  · exact (h.rely hr).agree hg

/-- **Soundness**: a program that meets `gwp` on the view keeps its pending writes under the
locked guards, and ends with what `gwp` asks for. -/
theorem Guarded.wp (hD : G.Guarded Ok D) {p : Prog Row ε α} {Q : α → Store Row → (K → Prop) → Prop}
    (hQ : ∀ a u v H, G.Seen Ok W H u v → Q a u H → Q a v H) (h : G.gwp Ok C W p Q (d ∪ c) H)
    (hkept : G.Kept c d H) (hgood : ∀ g, ¬ W g → Ok g (G.region g (d ∪ c))) :
    D.wp (onWrites C) p (fun a c' d' H' => G.Kept c' d' H' ∧ Q a (d' ∪ c') H' ∧ (∀ k, H k → H' k) ∧
      G.Steady W H c (d ∪ c) c' (d' ∪ c')) (fun _ _ _ _ => True) c d H := by
  induction p generalizing c d H with
  | done a =>
    intro c' hr
    refine ⟨hkept.rely hr, hQ _ _ _ _ (hD.seen hkept hgood hr) h, fun _ hk => hk, ?_⟩
    exact ⟨fun g hg => hD.agree hr hg, fun g hg _ => (hD.agree hr hg).union,
      fun g _ hfree => hD.untouched hkept hr hfree⟩
  | fail e => exact fun _ _ => trivial
  | stmt l w n ih =>
    intro c₁ hr hC
    have hseen := hD.seen hkept hgood hr
    obtain ⟨howned, hnext⟩ := h _ hseen hC
    have hkept₁ := (hkept.rely hr).statement howned
    have hgood₁ : ∀ g, ¬ W g → Ok g (G.region g (d.applyAll (w (d ∪ c₁)) ∪ c₁)) := by
      intro g hW
      rw [howned.agree hW]
      exact hseen.good g hW
    rw [← applyAll_union] at hnext
    refine wp_conseq (ih _ hnext hkept₁ hgood₁) (fun a c' d' H' _ hpost => ?_)
      fun _ _ _ _ _ h => h
    obtain ⟨hk, hQ, hH, hsteady⟩ := hpost
    refine ⟨hk, hQ, fun k hk' => hH k (.inl hk'), fun g hg => ?_, fun g hg hW => ?_,
      fun g hW hfree => ?_⟩
    · exact (hD.agree hr hg).trans (hsteady.committed g (.inl hg))
    · exact ((hD.agree hr hg).union.trans (howned.agree hW)).trans (hsteady.others g (.inl hg) hW)
    · exact hsteady.untouched g hW ((hD.untouched hkept hr hfree).trans (howned.agree hW))

/-! ### Steps of the rows under each guard -/

section Tracks

variable (G) in
/-- Between the committed store and the one the transaction would leave, the rows under each
guard go through steps of `E`. -/
def Tracks (E : Γ → Region Row → Region Row → Prop) : Assn Row := fun c d H =>
  G.Kept c d H ∧
    ∀ g, Relation.ReflTransGen (E g) (G.region g c) (G.region g (d ∪ c))

variable {E : Γ → Region Row → Region Row → Prop}

theorem Tracks.empty : G.Tracks E c ∅ H := by
  refine ⟨.empty, fun g => ?_⟩
  rw [empty_union]

theorem Tracks.rely (hD : G.Guarded Ok D) (h : G.Tracks E c d H) (hr : D.Rely H c c') :
    G.Tracks E c' d H := by
  have hkept := h.1.rely hr
  refine ⟨hkept, fun g => ?_⟩
  by_cases hg : H (G.lock g)
  · have hagree := hD.agree hr hg
    have hview : G.Agree g (d ∪ c) (d ∪ c') := hagree.union
    rw [hagree, hview]
    exact h.2 g
  · rw [hkept.agree hg]

theorem Tracks.always (hD : G.Guarded Ok D) (h : G.Tracks E c d H) :
    D.Always (G.Tracks E) c d H := fun _ hr => h.rely hD hr

omit [DecidableEq K] [DecidableEq Γ] in
/-- Steps that keep rows good keep them good together. -/
theorem ok_steps (hE : ∀ g x y, Ok g x → E g x y → Ok g y) {x y : Region Row} (hx : Ok g x)
    (h : Relation.ReflTransGen (E g) x y) : Ok g y := by
  induction h with
  | refl => exact hx
  | tail _ hstep ih => exact hE g _ _ ih hstep

/-- The rows under every guard are good in the view. -/
theorem Tracks.ok (hD : G.Guarded Ok D) (hE : ∀ g x y, Ok g x → E g x y → Ok g y)
    (h : G.Tracks E c d H) (hc : D.Inv c) : Ok g (G.region g (d ∪ c)) :=
  ok_steps hE (hD.inv c hc g) (h.2 g)

/-- The rows under a guard that is not locked are as they are committed. -/
theorem Tracks.guar (h : G.Tracks E c d H) (hg : ¬ H (G.lock g)) : G.Agree g c (d ∪ c) :=
  h.1.agree hg

/-- **The rule of a block**: the first statement does nothing, or it locks a guard under which
the rest of the program works. -/
theorem tracks_block (hD : G.Guarded Ok D) (hE : ∀ g x y, Ok g x → E g x y → Ok g y)
    {n : Store Row → Prog Row ε α} (h : ∀ v, (∀ g, Ok g (G.region g v)) →
      (l v = [] ∧ w v = [] ∧ D.Triple C (G.Tracks E) (n v) fun _ => G.Tracks E) ∨
      ∃ g, G.lock g ∈ needed l w v ∧
        (∀ H, H (G.lock g) → G.Owned (· = g) H (w v) v) ∧
        ∀ H, H (G.lock g) → G.gwp Ok C (· = g) (n v) (fun _ u H => H (G.lock g) ∧
          Relation.ReflTransGen (E g) (G.region g v) (G.region g u)) (v.applyAll (w v)) H) :
    D.Triple C (G.Tracks E) (.stmt l w n) fun _ => G.Tracks E := by
  refine ⟨fun c d H hc hφ c₁ hr _ => ?_⟩
  have htracks := hφ c₁ hr
  rcases h (d ∪ c₁) (fun g => htracks.ok hD hE hr.inv) with ⟨hl, hw, hn⟩ | ⟨g, hlock, howned, hn⟩
  · rw [grow_nil hl hw, hw]
    exact hn.wp c₁ d H hr.inv (htracks.always hD)
  · have hg : grow H l w (d ∪ c₁) (G.lock g) := .inr hlock
    have hkept := htracks.1.statement (howned _ hg)
    have hnext := hn _ hg
    rw [← applyAll_union] at hnext
    have hgood : ∀ g', ¬ g' = g → Ok g' (G.region g' (d.applyAll (w (d ∪ c₁)) ∪ c₁)) := by
      intro g' heq
      rw [(howned _ hg).agree heq]
      exact htracks.ok hD hE hr.inv
    have hstable : ∀ (a : α) (u v : Store Row) (H : K → Prop), G.Seen Ok (· = g) H u v →
        (H (G.lock g) ∧ Relation.ReflTransGen (E g) (G.region g (d ∪ c₁)) (G.region g u)) →
        H (G.lock g) ∧ Relation.ReflTransGen (E g) (G.region g (d ∪ c₁)) (G.region g v) := by
      intro a u v H hseen hu
      rw [hseen.agree g hu.1]
      exact hu
    refine wp_conseq (hD.wp hstable hnext hkept hgood) (fun a c' d' H' hc' hpost => ?_)
      fun _ _ _ _ _ h => h
    obtain ⟨hkept', ⟨-, hsteps⟩, hH, hsteady⟩ := hpost
    refine .always hD ⟨hkept', fun g' => ?_⟩
    by_cases heq : g' = g
    · subst heq
      rw [hsteady.committed g' hg]
      exact (htracks.2 g').trans hsteps
    · have hwrites := (howned _ hg).agree heq
      by_cases hold : H (G.lock g')
      · have hgrow : grow H l w (d ∪ c₁) (G.lock g') := .inl hold
        rw [hsteady.committed g' hgrow, hwrites.trans (hsteady.others g' hgrow heq)]
        exact htracks.2 g'
      · -- nothing was written under a guard that was not locked before
        rw [hsteady.untouched g' heq ((htracks.guar hold).trans hwrites)]

end Tracks
end Guards
end Txn
