import RagQs.Txn.Footprint
import RagQs.Txn.Guarded
import Mathlib.Data.Finset.Card

/-!
# Working under one locked guard

The rules of `Guards.Under`: what each statement in use does to the rows under the guard the
program holds.  What a statement reads of these rows is what the program left there; what it
reads of others is left open.

## Main definitions

* `Guards.Under` — from the rows `x` under the guard the program gets to rows with `R`.
* `Guards.Own`, `Guards.Free` — keys whose rows are under the guard, or under none.
* `updateAll`, `Region.modify` — `UPDATE` and `DELETE` of all rows of a kind.
* `Tally` — how many rows of a region are of a kind.

## Main results

* `Guards.Under.bind` — the rule of sequencing.
* `Guards.Under.updateOwn`, `Guards.Under.insertOwn`, `Guards.Under.updateAll` — the writes.
* `Tally.insert`, `Tally.update` — what a write does to a count.
-/

namespace Txn

open Discipline List Option Function Store

variable {K : Type} [DecidableEq K] {Row : K → Type} {ε α β Γ : Type} [DecidableEq Γ]

/-! ### Many rows at once -/

/-- `UPDATE ... WHERE` and `DELETE ... WHERE` over many rows: `pick` gives the new row of each
row that is hit, or `none` to delete it.  Reports the row count. -/
def updateAll (pick : (k : K) → Row k → Option (Option (Row k))) : Prog Row ε ℕ :=
  Prog.update (fun v => table v fun k r => (pick k r).map (Sigma.mk k)) fun v =>
    (table v fun k r => (pick k r).map fun _ => ()).length

/-- `updateAll` where what is hit also depends on other rows. -/
def updateAllOf (pick : Store Row → (k : K) → Row k → Option (Option (Row k))) : Prog Row ε ℕ :=
  Prog.update (fun v => table v fun k r => (pick v k r).map (Sigma.mk k)) fun v =>
    (table v fun k r => (pick v k r).map fun _ => ()).length

/-- `DELETE` of one row. -/
def deleteRow (k : K) : Prog Row ε Unit :=
  Prog.update (fun v => (v.get k).toList.map fun _ => ⟨k, none⟩) fun _ => ()

/-- The rule of a deletion. -/
theorem wp_deleteRow_bind {D : Discipline Row} {A : Prog Row ε α → Store Row → Prop}
    {Q : α → Assn Row} {E : ε → Assn Row} {c d : Store Row} {H : K → Prop} {k : K}
    {f : Unit → Prog Row ε α}
    (hnone : ∀ c', D.Rely H c c' → (d ∪ c' : Store Row).get k = none → D.wp A (f ()) Q E c' d H)
    (hsome : ∀ c' r, D.Rely H c c' → (d ∪ c' : Store Row).get k = some r →
      D.wp A (f ()) Q E c' (d.set k none) (fun k' => H k' ∨ k' = k)) :
    D.wp A (deleteRow k >>= f) Q E c d H := by
  refine wp_statement_bind fun c' hr => ?_
  cases hv : (d ∪ c' : Store Row).get k with
  | none =>
    rw [grow_nil rfl (by simp [hv])]
    simp only [toList_none, map_nil, applyAll_nil]
    exact hnone c' hr hv
  | some r =>
    have hH : grow H (fun _ : Store Row => [])
        (fun v => (v.get k).toList.map fun _ => ⟨k, none⟩) (d ∪ c') = fun k' => H k' ∨ k' = k := by
      funext k'
      simp [grow, needed, hv]
    rw [hH]
    simp only [toList_some, map_cons, map_nil, applyAll_cons,
      applyAll_nil]
    exact hsome c' r hr hv

/-- The rows of a region once those that are hit have been replaced. -/
def Region.modify (x : Region Row) (pick : (k : K) → Row k → Option (Option (Row k))) :
    Region Row :=
  fun k => (x k).bind fun r => (pick k r).getD (some r)

theorem get_applyAll_updateAll {v : Store Row}
    {pick : (k : K) → Row k → Option (Option (Row k))} (k : K) :
    (v.applyAll (table v fun k r => (pick k r).map (Sigma.mk k))).get k
      = (v.get k).bind fun r => (pick k r).getD (some r) := by
  have hmem : ∀ o, (⟨k, o⟩ : Write Row) ∈ table v (fun k r => (pick k r).map (Sigma.mk k)) ↔
      ∃ r, v.get k = some r ∧ pick k r = some o := by
    intro o
    rw [mem_table]
    constructor
    · rintro ⟨k', r, hget, hpick⟩
      obtain ⟨o', ho', heq⟩ := map_eq_some_iff.mp hpick
      cases heq
      exact ⟨r, hget, ho'⟩
    · rintro ⟨r, hget, hpick⟩
      exact ⟨k, r, hget, by rw [hpick]; rfl⟩
  have hnodup : ((table v fun k r => (pick k r).map (Sigma.mk k)).map Sigma.fst).Nodup := by
    refine nodup_table fun k r b k' r' b' hb hb' heq => ?_
    obtain ⟨o, -, rfl⟩ := map_eq_some_iff.mp hb
    obtain ⟨o', -, rfl⟩ := map_eq_some_iff.mp hb'
    exact heq
  cases hget : v.get k with
  | none =>
    rw [get_applyAll_of_notMem, hget]
    · rfl
    · intro hk
      obtain ⟨⟨k', o⟩, hx, rfl⟩ := List.mem_map.mp hk
      obtain ⟨r, hr, -⟩ := (hmem o).mp hx
      rw [hget] at hr
      cases hr
  | some r =>
    cases hpick : pick k r with
    | none =>
      rw [get_applyAll_of_notMem, hget]
      · simp [hpick]
      · intro hk
        obtain ⟨⟨k', o⟩, hx, rfl⟩ := List.mem_map.mp hk
        obtain ⟨r', hr', hpick'⟩ := (hmem o).mp hx
        rw [hget] at hr'
        cases hr'
        rw [hpick] at hpick'
        cases hpick'
    | some o =>
      rw [get_applyAll_of_mem hnodup ((hmem o).mpr ⟨r, hget, hpick⟩)]
      simp [hpick]

/-! ### Counting -/

/-- There are `n` rows of the kind. -/
def Tally (x : Region Row) (kind : (k : K) → Row k → Bool) (n : ℕ) : Prop :=
  ∃ s : Finset K, (∀ k, k ∈ s ↔ ∃ r, x k = some r ∧ kind k r = true) ∧ s.card = n

namespace Tally

variable {x y : Region Row} {kind : (k : K) → Row k → Bool} {n m : ℕ} {k : K}

omit [DecidableEq K] in
theorem unique (h : Tally x kind n) (h' : Tally x kind m) : n = m := by
  obtain ⟨s, hs, rfl⟩ := h
  obtain ⟨t, ht, rfl⟩ := h'
  exact congrArg Finset.card (Finset.ext fun k => (hs k).trans (ht k).symm)

omit [DecidableEq K] in
theorem congr (h : Tally x kind n)
    (hxy : ∀ k, (∃ r, x k = some r ∧ kind k r = true) ↔ ∃ r, y k = some r ∧ kind k r = true) :
    Tally y kind n := by
  obtain ⟨s, hs, rfl⟩ := h
  exact ⟨s, fun k => (hs k).trans (hxy k), rfl⟩

omit [DecidableEq K] in
theorem zero (h : ∀ k r, x k = some r → kind k r = false) : Tally x kind 0 := by
  refine ⟨∅, fun k => ⟨fun hk => absurd hk (Finset.notMem_empty k), ?_⟩, rfl⟩
  rintro ⟨r, hr, hkind⟩
  rw [h k r hr] at hkind
  cases hkind

variable {r : Row k}

omit [DecidableEq K] in
/-- A row of the kind is counted. -/
theorem pos (h : Tally x kind n) (hget : x k = some r) (hkind : kind k r = true) : 0 < n := by
  obtain ⟨s, hs, rfl⟩ := h
  exact Finset.card_pos.mpr ⟨k, (hs k).mpr ⟨r, hget, hkind⟩⟩

/-- A new row of the kind. -/
theorem insert (h : Tally x kind n) (hnew : x k = none) (hkind : kind k r = true) :
    Tally (update x k (some r)) kind (n + 1) := by
  obtain ⟨s, hs, rfl⟩ := h
  have hk : k ∉ s := by
    intro hmem
    obtain ⟨r', hr', -⟩ := (hs k).mp hmem
    rw [hnew] at hr'
    cases hr'
  refine ⟨Insert.insert k s, fun k' => ?_, Finset.card_insert_of_notMem hk⟩
  rw [Finset.mem_insert]
  by_cases heq : k' = k
  · subst heq
    simp [hkind]
  · rw [update_of_ne heq]
    simp [heq, hs k']

end Tally

namespace Guards

variable (G : Guards Row Γ) (Ok : Γ → Region Row → Prop)
  (C : List (Write Row) → Store Row → Prop)

/-- Counting the rows of a kind that is under the guard. -/
theorem tally_table {G : Guards Row Γ} {g : Γ} {v : Store Row} {kind : (k : K) → Row k → Bool}
    (hown : ∀ k r, kind k r = true → G.under k r = some g) :
    Tally (G.region g v) kind
      (table v fun k r => if kind k r then some k else none).length := by
  have hnodup : (table v fun k r => if kind k r = true then some k else none).Nodup := by
    have h := @nodup_table K Row K K v (fun k r => if kind k r = true then some k else none) id
      fun k r b k' r' b' hb hb' heq => ?_
    · rwa [List.map_id] at h
    · split at hb
      · split at hb'
        · exact (some.inj hb).trans (heq.trans (some.inj hb').symm)
        · cases hb'
      · cases hb
  refine ⟨(table v fun k r => if kind k r = true then some k else none).toFinset, fun k => ?_,
    toFinset_card_of_nodup hnodup⟩
  rw [List.mem_toFinset, mem_table]
  constructor
  · rintro ⟨k', r, hget, hpick⟩
    split at hpick
    · next hkind =>
      cases hpick
      exact ⟨r, region_eq_some.mpr ⟨hget, hown _ _ hkind⟩, hkind⟩
    · cases hpick
  · rintro ⟨r, hr, hkind⟩
    exact ⟨k, r, (region_eq_some.mp hr).1, by rw [if_pos hkind]⟩

/-! ### The rows under the guard -/

/-- The rows at the key are under the guard. -/
def Own (g : Γ) (k : K) : Prop := ∀ r, G.under k r = some g

/-- The rows at the key are under no guard. -/
def Free (k : K) : Prop := ∀ r, G.under k r = none

variable {G Ok C} {g : Γ} {u v : Store Row} {k : K} {x y : Region Row}

variable {o : Option (Row k)}

theorem region_set : G.region g (v.set k o)
    = update (G.region g v) k (o.filter fun r => G.under k r = some g) := by
  funext k'
  by_cases h : k' = k
  · subst h
    rw [update_self]
    unfold region
    rw [get_set_self]
  · rw [update_of_ne h]
    unfold region
    rw [get_set_of_ne h]

theorem region_set_own (ho : ∀ r, o = some r → G.under k r = some g) :
    G.region g (v.set k o) = update (G.region g v) k o := by
  rw [region_set]
  congr 1
  cases o with
  | none => rfl
  | some r => simp [Option.filter, ho r rfl]

theorem region_set_free (hk : G.Free k) : G.region g (v.set k o) = G.region g v := by
  have hnone : ∀ o' : Option (Row k), o'.filter (fun r => G.under k r = some g) = none := by
    intro o'
    cases o' with
    | none => rfl
    | some r => simp [Option.filter, hk r]
  rw [region_set, hnone]
  funext k'
  by_cases h : k' = k
  · subst h
    rw [update_self]
    unfold region
    rw [hnone]
  · rw [update_of_ne h]

theorem Own.get (hk : G.Own g k) (hv : G.region g v = x) : v.get k = x k := by
  rw [← hv, region_of_static hk]

theorem region_updateAll {pick : (k : K) → Row k → Option (Option (Row k))}
    (hold : ∀ k r o, pick k r = some o → G.under k r = some g)
    (hnew : ∀ k r r', pick k r = some (some r') → G.under k r' = some g) :
    G.region g (v.applyAll (table v fun k r => (pick k r).map (Sigma.mk k)))
      = Region.modify (G.region g v) pick := by
  funext k
  have hleft : G.region g (v.applyAll (table v fun k r => (pick k r).map (Sigma.mk k))) k
      = ((v.get k).bind fun r => (pick k r).getD (some r)).filter
          fun r => G.under k r = some g := by
    unfold region
    rw [get_applyAll_updateAll]
  rw [hleft]
  unfold Region.modify region
  cases hget : v.get k with
  | none => rfl
  | some r =>
    cases hpick : pick k r with
    | none =>
      by_cases hu : G.under k r = some g <;> simp [Option.filter, hpick, hu]
    | some o =>
      have hu := hold k r o hpick
      cases o with
      | none => simp [Option.filter, hpick, hu]
      | some r' => simp [Option.filter, hpick, hu, hnew k r r' hpick]

variable (G Ok C)

/-- From the rows `x` under the locked guard the program gets to rows with `R`, whatever it sees
of the rest. -/
def Under (g : Γ) (p : Prog Row ε α) (R : α → Region Row → Prop) (x : Region Row) : Prop :=
  ∀ u H, H (G.lock g) → G.region g u = x →
    G.gwp Ok C (· = g) p (fun a u H => H (G.lock g) ∧ R a (G.region g u)) u H

variable {G Ok C} {H : K → Prop} {W : Γ → Prop}

/-- The rule of sequencing for `gwp`. -/
theorem gwp_bind {p : Prog Row ε β} {f : β → Prog Row ε α}
    {Q : α → Store Row → (K → Prop) → Prop}
    (h : G.gwp Ok C W p (fun b => G.gwp Ok C W (f b) Q) u H) : G.gwp Ok C W (p >>= f) Q u H := by
  induction p generalizing u H with
  | done b => exact h
  | fail e => exact trivial
  | stmt l w n ih => exact fun v hseen hC => ⟨(h v hseen hC).1, ih v (h v hseen hC).2⟩

theorem gwp_conseq {p : Prog Row ε α} {Q Q' : α → Store Row → (K → Prop) → Prop}
    (h : G.gwp Ok C W p Q u H) (hQ : ∀ a u H, Q a u H → Q' a u H) : G.gwp Ok C W p Q' u H := by
  induction p generalizing u H with
  | done b => exact hQ _ _ _ h
  | fail e => exact trivial
  | stmt l w n ih => exact fun v hseen hC => ⟨(h v hseen hC).1, ih v (h v hseen hC).2⟩

namespace Under

variable {p : Prog Row ε β} {f : β → Prog Row ε α} {R : α → Region Row → Prop}
  {S S' : β → Region Row → Prop}

theorem done {a : α} (h : R a x) : G.Under Ok C g (.done a : Prog Row ε α) R x :=
  fun _ _ hg hx => ⟨hg, hx.symm ▸ h⟩

variable {e : ε}

theorem fail : G.Under Ok C g (.fail e : Prog Row ε α) R x := fun _ _ _ _ => trivial

/-- **The rule of sequencing.** -/
theorem bind (hp : G.Under Ok C g p S x) (hf : ∀ b y, S b y → G.Under Ok C g (f b) R y) :
    G.Under Ok C g (p >>= f) R x := by
  intro u H hg hx
  exact gwp_bind (gwp_conseq (hp u H hg hx) fun b u H h => hf b _ h.2 u H h.1 rfl)

theorem conseq (hp : G.Under Ok C g p S x) (hS : ∀ b y, S b y → S' b y) :
    G.Under Ok C g p S' x :=
  fun u H hg hx => gwp_conseq (hp u H hg hx) fun b _ _ h => ⟨h.1, hS b _ h.2⟩

/-- The rule of a statement. -/
theorem stmt {l : Store Row → List K} {w : Store Row → List (Write Row)}
    {n : Store Row → Prog Row ε α}
    (h : ∀ v, G.region g v = x → C (w v) v → (∀ z ∈ w v, ∀ r g', G.under z.1 r = some g' →
        (z.2 = some r ∨ v.get z.1 = some r) → g' = g) ∧
      G.Under Ok C g (n v) R (G.region g (v.applyAll (w v)))) :
    G.Under Ok C g (.stmt l w n) R x := by
  intro u H hg hx v hseen hC
  obtain ⟨howned, hn⟩ := h v (Eq.trans (hseen.agree g hg) hx) hC
  refine ⟨fun z hz r g' hu ho => ?_, hn _ _ (.inl hg) rfl⟩
  obtain rfl := howned z hz r g' hu ho
  exact ⟨rfl, .inl hg⟩

variable {q : Store Row → β}

/-- The rule of a read: of the rows under the guard it reads those that are there. -/
theorem read {l : Store Row → List K} (h : ∀ v, G.region g v = x → G.Under Ok C g (f (q v)) R x) :
    G.Under Ok C g (Prog.statement l (fun _ => []) q >>= f) R x := by
  refine stmt fun v hv _ => ⟨fun z hz => (not_mem_nil hz).elim, ?_⟩
  have hn := h v hv
  rw [← hv] at hn
  exact hn

theorem select (h : ∀ v, G.region g v = x → G.Under Ok C g (f (q v)) R x) :
    G.Under Ok C g (Prog.select q >>= f) R x := read h

theorem readOwn {f : Option (Row k) → Prog Row ε α} (hk : G.Own g k)
    (h : G.Under Ok C g (f (x k)) R x) : G.Under Ok C g (readRow k >>= f) R x :=
  select fun v hv => by rw [hk.get hv]; exact h

theorem lockOwn {f : Option (Row k) → Prog Row ε α} (hk : G.Own g k)
    (h : G.Under Ok C g (f (x k)) R x) : G.Under Ok C g (lockRow k >>= f) R x :=
  read fun v hv => by rw [hk.get hv]; exact h

/-- The rule of a read of a row that may be under no guard. -/
theorem readAny {f : Option (Row k) → Prog Row ε α} (h : ∀ o, G.Under Ok C g (f o) R x) :
    G.Under Ok C g (readRow k >>= f) R x := select fun _ _ => h _

theorem check {z : Except ε β} (h : ∀ b, z = .ok b → G.Under Ok C g (f b) R x) :
    G.Under Ok C g (Txn.check z >>= f) R x := by
  unfold Txn.check
  cases z with
  | ok b => exact h b rfl
  | error e => exact fail

theorem raiseIf {bad : Prop} [Decidable bad] {f : Unit → Prog Row ε α}
    (h : ¬ bad → G.Under Ok C g (f ()) R x) : G.Under Ok C g (Txn.raiseIf bad e >>= f) R x := by
  unfold Txn.raiseIf
  by_cases hb : bad
  · rw [if_pos hb]
    exact fail
  · rw [if_neg hb]
    exact h hb

theorem orRaise {o : Option β} (h : ∀ b, o = some b → G.Under Ok C g (f b) R x) :
    G.Under Ok C g (Txn.orRaise o e >>= f) R x := by
  cases o with
  | some b => exact h b rfl
  | none => exact fail

/-- From the rows `x` under the locked guard the program gets to rows with `R`, where the row `r`
under no guard or another one is locked as well. -/
structure Holding (G : Guards Row Γ) (Ok : Γ → Region Row → Prop)
    (C : List (Write Row) → Store Row → Prop) (g : Γ) (k : K) (r : Row k) (p : Prog Row ε α)
    (R : α → Region Row → Prop) (x : Region Row) : Prop where
  gwp : ∀ u H, H (G.lock g) → H k → G.region g u = x → u.get k = some r →
    G.gwp Ok C (· = g) p (fun a u H => H (G.lock g) ∧ R a (G.region g u)) u H

/-- The rule of the lock of a row that may be under the guard or not. -/
theorem lockHolding {f : Option (Row k) → Prog Row ε α}
    (hnone : x k = none → G.Under Ok C g (f none) R x)
    (hown : ∀ r, x k = some r → G.under k r = some g → G.Under Ok C g (f (some r)) R x)
    (hother : ∀ r, G.under k r ≠ some g → Holding G Ok C g k r (f (some r)) R x) :
    G.Under Ok C g (lockRow k >>= f) R x := by
  intro u H hg hx v hseen _
  have hv : G.region g v = x := Eq.trans (hseen.agree g hg) hx
  refine ⟨fun z hz => absurd hz not_mem_nil, ?_⟩
  show G.gwp Ok C (· = g) (f (v.get k)) _ v _
  cases hget : v.get k with
  | none =>
    refine hnone ?_ v _ (.inl hg) hv
    rw [← hv]
    unfold region
    rw [hget]
    rfl
  | some r =>
    by_cases hr : G.under k r = some g
    · have hx : x k = some r := by
        rw [← hv]
        exact region_eq_some.mpr ⟨hget, hr⟩
      exact hown r hx hr v _ (.inl hg) hv
    · have hk : k ∈ needed (fun v : Store Row => if (v.get k).isSome then [k] else [])
          (fun _ => []) v := by
        simp [needed, hget]
      exact (hother r hr).gwp v _ (.inl hg) (.inr hk) hv hget

/-- The rule of a read while the row is locked: the rows under the other guards are good. -/
theorem Holding.select {r : Row k}
    (h : ∀ v, v.get k = some r → (∀ g', g' ≠ g → Ok g' (G.region g' v)) → G.region g v = x →
      G.Under Ok C g (f (q v)) R x) : Holding G Ok C g k r (Prog.select q >>= f) R x := by
  refine ⟨fun u H hg hk hx hr v hseen _ => ⟨fun z hz => absurd hz not_mem_nil, ?_⟩⟩
  have hv : G.region g v = x := Eq.trans (hseen.agree g hg) hx
  exact h v ((hseen.held k hk).trans hr) hseen.good hv v _ (.inl hg) hv

variable {cond : Row k → Bool} {up : Row k → Row k}

/-- The rule of a conditional update of a row that is under the guard, and stays there. -/
theorem updateHere {r : Row k} {f : ℕ → Prog Row ε α} (hr : x k = some r) (hcond : cond r = true)
    (hup : G.under k (up r) = some g)
    (h : G.Under Ok C g (f 1) R (update x k (some (up r)))) :
    G.Under Ok C g (updateWhere k cond up >>= f) R x := by
  refine stmt fun v hv _ => ?_
  obtain ⟨hget, hu⟩ := region_eq_some.mp (hv.symm ▸ hr)
  have hfilter : (v.get k).filter cond = some r :=
    filter_eq_some_iff.mpr ⟨hget, hcond⟩
  refine ⟨fun z hz r' g' hu' ho => ?_, ?_⟩
  · obtain rfl : z = ⟨k, some (up r)⟩ := by simpa [hfilter] using hz
    rcases ho with ho | ho
    · cases ho
      exact some.inj (hu'.symm.trans hup)
    · cases hget.symm.trans ho
      exact some.inj (hu'.symm.trans hu)
  · show G.Under Ok C g (f (Option.filter cond (v.get k)).toList.length) R _
    rw [hfilter, toList_some, map_cons, map_nil, applyAll_cons,
      applyAll_nil, region_set_own fun r' h' => some.inj h' ▸ hup, hv]
    exact h

/-- The rule of a conditional update of a row under the guard, with the view it is allowed on. -/
theorem updateAllowed {f : ℕ → Prog Row ε α} (hk : G.Own g k)
    (hmiss : (∀ r, x k = some r → cond r = false) → G.Under Ok C g (f 0) R x)
    (hhit : ∀ r v, x k = some r → cond r = true → G.region g v = x → C [⟨k, some (up r)⟩] v →
      G.Under Ok C g (f 1) R (update x k (some (up r)))) :
    G.Under Ok C g (updateWhere k cond up >>= f) R x := by
  refine stmt fun v hv hC => ?_
  have hget := hk.get hv
  cases hfilter : (v.get k).filter cond with
  | none =>
    have hnone : ∀ r, x k = some r → cond r = false := by
      intro r hr
      rw [hget, hr] at hfilter
      simpa using hfilter
    refine ⟨fun z hz => by simp at hz, ?_⟩
    show G.Under Ok C g (f (Option.filter cond (v.get k)).toList.length) R _
    rw [hfilter, toList_none, map_nil, applyAll_nil, hv]
    exact hmiss hnone
  | some r =>
    obtain ⟨hr, hcond⟩ := filter_eq_some_iff.mp hfilter
    rw [hfilter] at hC
    refine ⟨fun z hz r' g' hu _ => ?_, ?_⟩
    · obtain rfl : z = ⟨k, some (up r)⟩ := by simpa using hz
      exact some.inj (hu.symm.trans (hk r'))
    · show G.Under Ok C g (f (Option.filter cond (v.get k)).toList.length) R _
      rw [hfilter, toList_some, map_cons, map_nil, applyAll_cons,
        applyAll_nil, region_set_own fun r' _ => hk r', hv]
      exact hhit r v (hget.symm.trans hr) hcond hv hC

/-- The rule of a conditional update of a row under the guard. -/
theorem updateOwn {f : ℕ → Prog Row ε α} (hk : G.Own g k)
    (hmiss : (∀ r, x k = some r → cond r = false) → G.Under Ok C g (f 0) R x)
    (hhit : ∀ r, x k = some r → cond r = true →
      G.Under Ok C g (f 1) R (update x k (some (up r)))) :
    G.Under Ok C g (updateWhere k cond up >>= f) R x :=
  updateAllowed hk hmiss fun r _ hr hcond _ _ => hhit r hr hcond

/-- The rule of an insertion. -/
theorem insert {unique : List K} {ws : List (Write Row)} {f : Unit → Prog Row ε α}
    (h : ∀ v, G.region g v = x → (∀ k ∈ unique, v.get k = none) →
      (∀ z ∈ ws, ∀ r g', G.under z.1 r = some g' → (z.2 = some r ∨ v.get z.1 = some r) → g' = g) ∧
        G.Under Ok C g (f ()) R (G.region g (v.applyAll ws))) :
    G.Under Ok C g (Txn.insert e unique ws >>= f) R x := by
  refine stmt fun v hv _ => ?_
  cases htaken : taken v unique with
  | true =>
    refine ⟨fun z hz => by simp at hz, ?_⟩
    show G.Under Ok C g ((if taken v unique = true then .fail e else .done ()) >>= f) R _
    rw [htaken, if_pos rfl]
    exact fail
  | false =>
    have hfree : ∀ k ∈ unique, v.get k = none := by
      intro k hk
      simpa using List.any_eq_false.mp htaken k hk
    obtain ⟨hown, hn⟩ := h v hv hfree
    refine ⟨fun z hz => hown z (by simpa using hz), ?_⟩
    show G.Under Ok C g ((if taken v unique = true then .fail e else .done ()) >>= f) R _
    rw [htaken, if_neg Bool.false_ne_true]
    exact hn

/-- The rule of the insertion of a row under the guard. -/
theorem insertOwn {unique : List K} {r : Row k} {f : Unit → Prog Row ε α} (hk : G.Own g k)
    (hmem : k ∈ unique) (h : x k = none → (∀ k' ∈ unique, G.Own g k' → x k' = none) →
      G.Under Ok C g (f ()) R (update x k (some r))) :
    G.Under Ok C g (Txn.insert e unique [⟨k, some r⟩] >>= f) R x := by
  refine insert fun v hv hfree => ⟨fun z hz r' g' hu _ => ?_, ?_⟩
  · obtain rfl := mem_singleton.mp hz
    exact some.inj (hu.symm.trans (hk r'))
  · rw [applyAll_cons, applyAll_nil, region_set_own fun r' _ => hk r', hv]
    exact h ((hk.get hv).symm.trans (hfree k hmem))
      fun k' hk' hown => (hown.get hv).symm.trans (hfree k' hk')

/-- Writes of rows under no guard. -/
theorem region_applyAll_free {ws : List (Write Row)} (hws : ∀ z ∈ ws, G.Free z.1) :
    G.region g (v.applyAll ws) = G.region g v := by
  induction ws generalizing v with
  | nil => rfl
  | cons z ws ih =>
    obtain ⟨k, o⟩ := z
    rw [applyAll_cons, ih fun z hz => hws z (mem_cons_of_mem _ hz)]
    exact region_set_free (hws _ mem_cons_self)

/-- The rule of the deletion of a row under the guard. -/
theorem deleteOwn {f : Unit → Prog Row ε α} (hk : G.Own g k)
    (h : G.Under Ok C g (f ()) R (update x k none)) :
    G.Under Ok C g (deleteRow k >>= f) R x := by
  refine stmt fun v hv _ => ⟨fun z hz r' g' hu _ => ?_, ?_⟩
  · obtain ⟨r, -, rfl⟩ := List.mem_map.mp hz
    exact some.inj (hu.symm.trans (hk r'))
  · cases hget : v.get k with
    | none =>
      rw [toList_none, map_nil, applyAll_nil, hv]
      have hsame : update x k none = x := by
        rw [update_eq_self_iff, ← hk.get hv, hget]
      rw [hsame] at h
      exact h
    | some r =>
      rw [toList_some, map_cons, map_nil, applyAll_cons,
        applyAll_nil, region_set_own (by simp), hv]
      exact h

/-- The rule of an insertion that may be skipped. -/
theorem insertOrSkip {r : Row k} {f : Bool → Prog Row ε α} (hr : G.under k r = some g)
    (hskip : G.Under Ok C g (f false) R x)
    (hnew : x k = none → G.Under Ok C g (f true) R (update x k (some r))) :
    G.Under Ok C g (Txn.insertOrSkip e k [] [⟨k, some r⟩] >>= f) R x := by
  refine stmt fun v hv _ => ?_
  cases htaken : taken v [k] with
  | true =>
    have hn : (if taken v [k] = true then Prog.done false
        else if taken v [] = true then .fail e else .done true : Prog Row ε Bool) = .done false := by
      rw [htaken, if_pos rfl]
    refine ⟨fun z hz => by simp at hz, ?_⟩
    show G.Under Ok C g ((if taken v [k] = true then Prog.done false
      else if taken v [] = true then .fail e else .done true) >>= f) R _
    rw [hn, Bool.true_or, if_pos rfl, applyAll_nil, hv]
    exact hskip
  | false =>
    have hget : v.get k = none := by simpa [taken] using htaken
    have hothers : taken v ([] : List K) = false := rfl
    have hx : x k = none := by
      rw [← hv]
      unfold region
      rw [hget]
      rfl
    refine ⟨fun z hz r' g' hu ho => ?_, ?_⟩
    · obtain rfl : z = ⟨k, some r⟩ := by simpa [hothers] using hz
      rcases ho with ho | ho
      · cases ho
        exact some.inj (hu.symm.trans hr)
      · cases hget.symm.trans ho
    · have hn : (if taken v [k] = true then Prog.done false
          else if taken v [] = true then .fail e else .done true : Prog Row ε Bool)
          = .done true := by
        rw [htaken, hothers, if_neg Bool.false_ne_true, if_neg Bool.false_ne_true]
      show G.Under Ok C g ((if taken v [k] = true then Prog.done false
        else if taken v [] = true then .fail e else .done true) >>= f) R _
      rw [hn, hothers, Bool.or_self, if_neg Bool.false_ne_true, applyAll_cons,
        applyAll_nil, region_set_own, hv]
      · exact hnew hx
      · intro r' h'
        cases h'
        exact hr

/-- The rule of a part of the program that only writes rows under no guard. -/
theorem free (hp : p.Writes G.Free) (h : ∀ b, G.Under Ok C g (f b) R x) :
    G.Under Ok C g (p >>= f) R x := by
  induction p with
  | done b => exact h b
  | fail e => exact fail
  | stmt l w n ih =>
    refine stmt fun v hv _ => ⟨fun z hz r g' hu _ => ?_, ?_⟩
    · cases (hp.1 v z hz r).symm.trans hu
    · rw [region_applyAll_free (hp.1 v), hv]
      exact ih v (hp.2 v)

/-- The rule of an update of many rows under the guard, of which others decide. -/
theorem updateAllOf {pick : Store Row → (k : K) → Row k → Option (Option (Row k))}
    {f : ℕ → Prog Row ε α}
    (hold : ∀ v k r o, pick v k r = some o → G.under k r = some g)
    (hnew : ∀ v k r r', pick v k r = some (some r') → G.under k r' = some g)
    (h : ∀ v n, G.region g v = x → G.Under Ok C g (f n) R (Region.modify x (pick v))) :
    G.Under Ok C g (Txn.updateAllOf pick >>= f) R x := by
  refine stmt fun v hv _ => ⟨fun z hz => ?_, ?_⟩
  · obtain ⟨k, r₀, hget, hmap⟩ := mem_table.mp hz
    obtain ⟨o, hpick, rfl⟩ := map_eq_some_iff.mp hmap
    show ∀ (r : Row k) g', G.under k r = some g' → (o = some r ∨ v.get k = some r) → g' = g
    intro r g' hu ho
    rcases ho with rfl | ho
    · exact some.inj (hu.symm.trans (hnew v k r₀ r hpick))
    · cases hget.symm.trans ho
      exact some.inj (hu.symm.trans (hold v k r₀ o hpick))
  · rw [region_updateAll (hold v) (hnew v), hv]
    exact h v _ hv

/-- The rule of an update of many rows under the guard. -/
theorem updateAll {pick : (k : K) → Row k → Option (Option (Row k))} {f : ℕ → Prog Row ε α}
    (hold : ∀ k r o, pick k r = some o → G.under k r = some g)
    (hnew : ∀ k r r', pick k r = some (some r') → G.under k r' = some g)
    (h : ∀ n, G.Under Ok C g (f n) R (Region.modify x pick)) :
    G.Under Ok C g (Txn.updateAll pick >>= f) R x :=
  updateAllOf (fun _ => hold) (fun _ => hnew) fun _ n _ => h n

/-- The rule of a branch. -/
theorem ite {cond : Prop} [Decidable cond] {p q : Prog Row ε α}
    (hp : cond → G.Under Ok C g p R x) (hq : ¬ cond → G.Under Ok C g q R x) :
    G.Under Ok C g (if cond then p else q) R x := by
  by_cases h : cond
  · rw [if_pos h]
    exact hp h
  · rw [if_neg h]
    exact hq h

end Under

/-! ### Blocks -/

section Blocks

variable {D : Discipline Row} {E : Γ → Region Row → Region Row → Prop}

/-- **The rule of a program under the lock of a guard.** -/
theorem tracks_lock (hD : G.Guarded Ok D) (hE : ∀ g x y, Ok g x → E g x y → Ok g y)
    (hown : G.Own g (G.lock g)) {f : Option (Row (G.lock g)) → Prog Row ε α}
    (hnone : D.Triple C (G.Tracks E) (f none) fun _ => G.Tracks E)
    (hsome : ∀ r x, Ok g x → x (G.lock g) = some r →
      G.Under Ok C g (f (some r)) (fun _ => Relation.ReflTransGen (E g) x) x) :
    D.Triple C (G.Tracks E) (lockRow (G.lock g) >>= f) fun _ => G.Tracks E := by
  refine tracks_block hD hE fun v hv => ?_
  cases hget : v.get (G.lock g) with
  | none =>
    refine .inl ⟨by simp, rfl, ?_⟩
    show D.Triple C _ (f (v.get (G.lock g))) _
    rw [hget]
    exact hnone
  | some r =>
    refine .inr ⟨g, by simp [needed, hget], fun _ _ z hz => absurd hz not_mem_nil,
      fun H hH => ?_⟩
    show G.gwp Ok C (· = g) (f (v.get (G.lock g))) _ v H
    rw [hget]
    exact hsome r _ (hv g) (Eq.trans (hown.get rfl).symm hget) v H hH rfl

/-- **The rule of a program under a guard whose lock it creates.** -/
theorem tracks_create (hD : G.Guarded Ok D) (hE : ∀ g x y, Ok g x → E g x y → Ok g y)
    (hown : G.Own g (G.lock g)) {e : ε} {r : Row (G.lock g)} {f : Unit → Prog Row ε α}
    (h : ∀ x, Ok g x → x (G.lock g) = none →
      G.Under Ok C g (f ()) (fun _ => Relation.ReflTransGen (E g) x)
        (update x (G.lock g) (some r))) :
    D.Triple C (G.Tracks E) (Txn.insert e [G.lock g] [⟨G.lock g, some r⟩] >>= f)
      fun _ => G.Tracks E := by
  refine tracks_block hD hE fun v hv => ?_
  cases hget : v.get (G.lock g) with
  | some r' =>
    have htaken : taken v [G.lock g] = true := by simp [taken, hget]
    refine .inl ⟨rfl, by simp [htaken], ?_⟩
    show D.Triple C _ ((if taken v [G.lock g] = true then .fail e else .done ()) >>= f) _
    rw [htaken, if_pos rfl]
    exact .fail
  | none =>
    have htaken : taken v [G.lock g] = false := by simp [taken, hget]
    refine .inr ⟨g, by simp [needed, htaken], fun H hH z hz r' g' hu _ => ?_, fun H hH => ?_⟩
    · obtain rfl : z = ⟨G.lock g, some r⟩ := by simpa [htaken] using hz
      exact ⟨some.inj (hu.symm.trans (hown r')), some.inj (hu.symm.trans (hown r'))
        ▸ hH⟩
    · show G.gwp Ok C (· = g) ((if taken v [G.lock g] = true then .fail e else .done ()) >>= f) _
        (v.applyAll (if taken v [G.lock g] = true then [] else [⟨G.lock g, some r⟩])) H
      rw [htaken, if_neg Bool.false_ne_true, if_neg Bool.false_ne_true]
      refine h _ (hv g) (Eq.trans (hown.get rfl).symm hget) _ H hH ?_
      rw [applyAll_cons, applyAll_nil, region_set_own fun r' _ => hown r']

/-- A program that only writes rows under no guard. -/
theorem tracks_free (hD : G.Guarded Ok D) {p : Prog Row ε α} (hp : p.Writes G.Free) :
    D.Triple C (G.Tracks E) p fun _ => G.Tracks E := by
  induction p with
  | done a => exact .done fun _ _ _ _ h => h
  | fail e => exact .fail
  | stmt l w n ih =>
    refine ⟨fun c d H _ hφ c₁ hr _ => ?_⟩
    have htracks := hφ c₁ hr
    have howned : G.Owned (fun _ => False) (grow H l w (d ∪ c₁)) (w (d ∪ c₁)) (d ∪ c₁) := by
      intro z hz r g' hu _
      cases (hp.1 _ z hz r).symm.trans hu
    refine (ih _ (hp.2 _)).wp c₁ _ _ hr.inv (.always hD ⟨htracks.1.statement howned, ?_⟩)
    intro g'
    rw [howned.agree not_false]
    exact htracks.2 g'

end Blocks

end Guards
end Txn
