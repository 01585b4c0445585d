import RagQs.Txn.Under

/-!
# Programs on their way to a commit

What a transaction commits is judged by the store it is committed to.  Once that store is named, an
assertion about the pending writes needs no stability: of every statement it is known which store
it ran on, that the rows it needed are to the end as it saw them, and what the others may have done
in between under the locks that were left to them.

## Main definitions

* `Discipline.toward` — what has to hold of a transaction for it to end as it should, on a store
  that is named in advance.
* `Discipline.Ends` — what a part of a transaction does to the pending writes and the locks.

## Main results

* `wp_of_toward` — the weakest precondition under interference, from that towards every store the
  transaction may end on.
* `toward_bind`, `toward_lockRow_bind`, `toward_updateWhere_bind`, `toward_updateAll_bind`,
  `toward_insert_bind` — the rules.
* `toward_savepoint`, `toward_inside` — after an error the view is the one at the savepoint;
  what the writes of some rows leave alone is left alone.
-/

namespace Txn

open List Option Store

variable {K : Type} [DecidableEq K] {Row : K → Type} {ε α β : Type}

namespace Discipline

/-- What has to hold of a transaction that ends on the committed store `b` so that a normal end
meets `Q` and an error meets `E`, provided every statement runs on a view `A` allows it on.  The
assertions are about the store the last statement ran on. -/
def toward (D : Discipline Row) (b : Store Row) (A : Prog Row ε α → Store Row → Prop) :
    Prog Row ε α → (α → Assn Row) → (ε → Assn Row) → Assn Row
  | .done a, Q, _ => fun c d H => Q a c d H
  | .fail e, _, E => fun c d H => E e c d H
  | .stmt l w n, Q, E => fun c d H => ∀ c', D.Rely H c c' → D.Rely (grow H l w (d ∪ c')) c' b →
      A (.stmt l w n) (d ∪ c') →
      toward D b A (n (d ∪ c')) Q E c' (d.applyAll (w (d ∪ c'))) (grow H l w (d ∪ c'))

variable {D : Discipline Row} {A : Prog Row ε α → Store Row → Prop} {b c d : Store Row}
  {H : K → Prop} {Q : α → Assn Row} {E : ε → Assn Row}

/-- **Towards every store it may end on** a transaction is what it has to be. -/
theorem wp_of_toward {p : Prog Row ε α} {Q : Store Row → α → Assn Row} {E : Store Row → ε → Assn Row}
    (h : ∀ b, D.Rely H c b → D.toward b A p (fun a _ d H => Q b a b d H)
      (fun e _ d H => E b e b d H) c d H) :
    D.wp A p (fun a b d H => Q b a b d H) (fun e b d H => E b e b d H) c d H := by
  induction p generalizing c d H with
  | done a => exact fun c' hr => h c' hr
  | fail e => exact fun c' hr => h c' hr
  | stmt l w n ih =>
    exact fun c' hr hA => ih _ fun b hr' => h b (hr.trans (hr'.mono fun k hk => .inl hk)) c' hr hr' hA

/-- The rule of consequence. -/
theorem toward_conseq {p : Prog Row ε α} {Q' : α → Assn Row} {E' : ε → Assn Row}
    (h : D.toward b A p Q E c d H) (hQ : ∀ a c d H, Q a c d H → Q' a c d H)
    (hE : ∀ e c d H, E e c d H → E' e c d H) : D.toward b A p Q' E' c d H := by
  induction p generalizing c d H with
  | done a => exact hQ a c d H h
  | fail e => exact hE e c d H h
  | stmt l w n ih => exact fun c' hr hb hA => ih _ (h c' hr hb hA)

/-- **The rule of sequencing.** -/
theorem toward_bind {p : Prog Row ε β} {f : β → Prog Row ε α}
    (h : D.toward b (fun p' => A (p' >>= f)) p (fun x => D.toward b A (f x) Q E) E c d H) :
    D.toward b A (p >>= f) Q E c d H := by
  induction p generalizing c d H with
  | done a => exact h
  | fail e => exact h
  | stmt l w n ih => exact fun c' hr hb hA => ih _ (h c' hr hb hA)

variable {l : Store Row → List K} {q : Store Row → β}

variable {w : Store Row → List (Write Row)}

/-- The rule of one statement followed by the rest of the program. -/
theorem toward_statement_bind {f : β → Prog Row ε α}
    (h : ∀ c', D.Rely H c c' → D.Rely (grow H l w (d ∪ c')) c' b →
      A (Prog.statement l w q >>= f) (d ∪ c') →
      D.toward b A (f (q (d ∪ c'))) Q E c' (d.applyAll (w (d ∪ c'))) (grow H l w (d ∪ c'))) :
    D.toward b A (Prog.statement l w q >>= f) Q E c d H :=
  fun c' hr hb hA => h c' hr hb hA

omit [DecidableEq K] in
/-- The locks of a statement that writes nothing. -/
theorem grow_locks {v : Store Row} :
    grow H l (fun _ => ([] : List (Write Row))) v = fun k => H k ∨ k ∈ l v := by
  funext k
  simp [grow, needed]

/-- The rule of a read that locks. -/
theorem toward_selectForUpdate_bind {f : β → Prog Row ε α}
    (h : ∀ c', D.Rely H c c' → D.Rely (fun k => H k ∨ k ∈ l (d ∪ c')) c' b →
      A (Prog.selectForUpdate l q >>= f) (d ∪ c') →
      D.toward b A (f (q (d ∪ c'))) Q E c' d fun k => H k ∨ k ∈ l (d ∪ c')) :
    D.toward b A (Prog.selectForUpdate l q >>= f) Q E c d H := by
  refine toward_statement_bind fun c' hr hb hA => ?_
  rw [grow_locks] at hb ⊢
  exact h c' hr hb hA

/-- The rule of a locking read of one row. -/
theorem toward_lockRow_bind {k : K} {f : Option (Row k) → Prog Row ε α}
    (hnone : ∀ c', D.Rely H c c' → D.Rely H c' b → (d ∪ c' : Store Row).get k = none →
      A (Txn.lockRow k >>= f) (d ∪ c') → D.toward b A (f none) Q E c' d H)
    (hsome : ∀ c' r, D.Rely H c c' → D.Rely (fun k' => H k' ∨ k' = k) c' b →
      (d ∪ c' : Store Row).get k = some r → A (Txn.lockRow k >>= f) (d ∪ c') →
      D.toward b A (f (some r)) Q E c' d fun k' => H k' ∨ k' = k) :
    D.toward b A (Txn.lockRow k >>= f) Q E c d H := by
  refine toward_selectForUpdate_bind fun c' hr hb hA => ?_
  cases hget : (d ∪ c' : Store Row).get k with
  | none =>
    simp only [hget, isSome_none, Bool.false_eq_true, if_false, not_mem_nil,
      or_false] at hb ⊢
    exact hnone c' hr hb hget hA
  | some r =>
    simp only [hget, isSome_some, if_true, mem_singleton] at hb ⊢
    exact hsome c' r hr hb hget hA

/-- The rule of a conditional update of one row. -/
theorem toward_updateWhere_bind {k : K} {cond : Row k → Bool} {g : Row k → Row k}
    {f : ℕ → Prog Row ε α}
    (hmiss : ∀ c', D.Rely H c c' → D.Rely H c' b →
      (∀ r, (d ∪ c' : Store Row).get k = some r → cond r = false) → D.toward b A (f 0) Q E c' d H)
    (hhit : ∀ c' r, D.Rely H c c' → D.Rely (fun k' => H k' ∨ k' = k) c' b →
      (d ∪ c' : Store Row).get k = some r → cond r = true →
      A (Txn.updateWhere k cond g >>= f) (d ∪ c') →
      D.toward b A (f 1) Q E c' (d.set k (some (g r))) fun k' => H k' ∨ k' = k) :
    D.toward b A (Txn.updateWhere k cond g >>= f) Q E c d H := by
  refine toward_statement_bind fun c' hr hb hA => ?_
  cases hv : ((d ∪ c' : Store Row).get k).filter cond with
  | none =>
    rw [grow_nil rfl (by simp [hv])] at hb ⊢
    simp only [toList_none, map_nil, applyAll_nil, length_nil]
    exact hmiss c' hr hb fun r hget => by simpa [hget] using hv
  | some r =>
    obtain ⟨hget, hcond⟩ := filter_eq_some_iff.mp hv
    have hH : grow H (fun _ : Store Row => [])
        (fun v => ((v.get k).filter cond).toList.map fun r => ⟨k, some (g r)⟩) (d ∪ c')
        = fun k' => H k' ∨ k' = k := by
      funext k'
      simp [grow, needed, hv]
    rw [hH] at hb ⊢
    simp only [toList_some, map_cons, map_nil, applyAll_cons,
      applyAll_nil, length_cons, length_nil]
    exact hhit c' r hr hb hget hcond hA

variable {e : ε} {ws : List (Write Row)}

/-- The rule of an insert. -/
theorem toward_insert_bind {unique : List K} {f : Unit → Prog Row ε α}
    (htaken : ∀ c', D.Rely H c c' → D.Rely H c' b → taken (d ∪ c') unique = true → E e c' d H)
    (hfree : ∀ c', D.Rely H c c' → D.Rely (writing H ws) c' b → taken (d ∪ c') unique = false →
      D.toward b A (f ()) Q E c' (d.applyAll ws) (writing H ws)) :
    D.toward b A (Txn.insert e unique ws >>= f) Q E c d H := by
  intro c' hr hb _
  cases ht : taken (d ∪ c') unique with
  | true =>
    rw [grow_nil rfl (by simp [ht])] at hb ⊢
    simp only [ht, if_true, applyAll_nil]
    exact htaken c' hr hb ht
  | false =>
    have hH : grow H (fun _ : Store Row => []) (fun v => if taken v unique then [] else ws) (d ∪ c')
        = writing H ws := by
      funext k
      simp [grow, needed, writing, ht]
    rw [hH] at hb ⊢
    simp only [ht, if_neg Bool.false_ne_true]
    exact hfree c' hr hb ht

/-- The rule of a part that leaves alone what the writes of some rows leave alone. -/
theorem toward_inside {p : Prog Row ε α} {W : K → Prop} {φ : Assn Row} (hp : p.Writes W)
    (hφ : ∀ c c' d H ws H', D.Rely H c c' → D.Rely H' c' b → (∀ x ∈ ws, W x.1) →
      (∀ k, H k → H' k) → (∀ x ∈ ws, H' x.1) → φ c d H → φ c' (d.applyAll ws) H')
    (h : φ c d H) : D.toward b A p (fun _ => φ) (fun _ => φ) c d H := by
  induction p generalizing c d H with
  | done a => exact h
  | fail e => exact h
  | stmt l w n ih =>
    refine fun c' hr hb _ => ih _ (hp.2 _) (hφ c c' d H _ _ hr hb (hp.1 _) (fun k hk => .inl hk) ?_ h)
    exact fun x hx => .inr (mem_append_right _ (List.mem_map_of_mem hx))

/-! ### Savepoints -/

private theorem toward_undoing {p : Prog Row ε α} {undo : List (Write Row)} {c₀ d₀ : Store Row}
    {H₀ : K → Prop} {P : ε → Prop}
    (hu : ∀ k, ((d ∪ b : Store Row).applyAll undo).get k = (d₀ ∪ b : Store Row).get k)
    (hundo : ∀ k ∈ undo.map Sigma.fst, H k) (hd : ∀ k ∈ d, H k) (hH : ∀ k, H₀ k → H k)
    (hc : D.Rely H₀ c₀ c)
    (hok : D.toward b (fun p' v => ∃ undo, A (undoing p' undo) v) p Q (fun e _ _ _ => P e) c d H)
    (herr : ∀ e c' d' H', P e → D.Rely H₀ c₀ c' → D.Rely H' c' b → (∀ k, H₀ k → H' k) →
      (∀ k ∈ d', H' k) → (∀ k, (d' ∪ b : Store Row).get k = (d₀ ∪ b : Store Row).get k) →
      E e c' d' H') : D.toward b A (undoing p undo) Q E c d H := by
  induction p generalizing undo c d H with
  | done a => exact hok
  | fail e =>
    intro c₁ hr₁ hb _
    have hgrow : grow H (fun _ => []) (fun _ => undo) (d ∪ c₁) = H := by
      funext k
      simp only [grow, needed, nil_append, eq_iff_iff, or_iff_left_iff_imp]
      exact hundo k
    rw [hgrow] at hb ⊢
    refine herr e c₁ _ H hok (hc.trans (hr₁.mono hH)) hb hH (fun k hk => ?_) fun k => ?_
    · rcases mem_applyAll.mp hk with hk | hk
      · exact hundo k hk
      · exact hd k hk
    · rw [applyAll_union]
      exact hu k
  | stmt l w n ih =>
    intro c₁ hr₁ hb hA
    have hgrown : ∀ k, H k → grow H l w (d ∪ c₁) k := fun k hk => .inl hk
    have hwritten : ∀ k ∈ (w (d ∪ c₁)).map Sigma.fst, grow H l w (d ∪ c₁) k :=
      fun k hk => .inr (mem_append_right _ hk)
    refine ih _ (fun k => ?_) (fun k hk => ?_) (fun k hk => ?_) (fun k hk => hgrown k (hH k hk))
      (hc.trans (hr₁.mono hH)) (hok c₁ hr₁ hb ⟨undo, hA⟩)
    · -- the rows that are put back are as the commit finds them
      have hmap : (w (d ∪ c₁)).map (fun x => (⟨x.1, (d ∪ c₁ : Store Row).get x.1⟩ : Write Row))
          = ((w (d ∪ c₁)).map Sigma.fst).map fun k => ⟨k, (d ∪ b : Store Row).get k⟩ := by
        rw [List.map_map]
        refine map_congr_left fun x hx => ?_
        rw [Function.comp_apply, hb.view d (hwritten x.1 (List.mem_map_of_mem hx))]
      rw [applyAll_union, applyAll_append, ← hu k, hmap]
      refine get_applyAll_at ?_
      exact get_applyAll_restore (fun k hk => get_applyAll_of_notMem hk) k
    · rw [map_append, List.map_map, mem_append] at hk
      rcases hk with hk | hk
      · exact hwritten k hk
      · exact hgrown k (hundo k hk)
    · rcases mem_applyAll.mp hk with hk | hk
      · exact hwritten k hk
      · exact hgrown k (hd k hk)

/-! ### Parts of a transaction -/

/-- An assertion on the pending writes and the locks, as of the commit. -/
abbrev Pend {K : Type} (Row : K → Type) := Store Row → (K → Prop) → Prop

/-- Towards the store `b` the program gets from pending writes and locks with `φ` to such with
`ψ`, and raises errors with `χ` only. -/
structure Ends (D : Discipline Row) (b : Store Row) (φ : Pend Row) (p : Prog Row ε α)
    (ψ : α → Pend Row) (χ : ε → Prop) : Prop where
  toward : ∀ c d H, D.Inv c → D.Rely H c b → φ d H →
    D.toward b (fun _ _ => True) p (fun a _ => ψ a) (fun e _ _ _ => χ e) c d H

namespace Ends

variable {φ φ' : Pend Row} {p : Prog Row ε β} {f : β → Prog Row ε α} {ψ ψ' : β → Pend Row}
  {ξ : α → Pend Row} {χ χ' : ε → Prop}

/-- A part that is as it should be where nothing is forbidden is so under any condition; what
follows it has seen a store the commit is reached from. -/
theorem bind_toward (hp : Ends D b φ p ψ χ) (hc : D.Inv c) (hr : D.Rely H c b) (hφ : φ d H)
    (hf : ∀ x c d H, D.Inv c → D.Rely H c b → ψ x d H → D.toward b A (f x) Q E c d H)
    (hE : ∀ e c d H, χ e → E e c d H) : D.toward b A (p >>= f) Q E c d H := by
  refine toward_bind ?_
  have h := hp.toward c d H hc hr hφ
  clear hφ hp
  induction p generalizing c d H with
  | done x => exact hf x c d H hc hr h
  | fail e => exact hE e c d H h
  | stmt l w n ih => exact fun c' hr' hb _ => ih _ hr'.inv hb (h c' hr' hb trivial)

/-- **The rule of sequencing.** -/
theorem bind (hp : Ends D b φ p ψ χ) (hf : ∀ x, Ends D b (ψ x) (f x) ξ χ) :
    Ends D b φ (p >>= f) ξ χ :=
  ⟨fun _ _ _ hc hr hφ => hp.bind_toward hc hr hφ (fun x c d H hc hr hψ => (hf x).toward c d H hc hr hψ)
    fun _ _ _ _ h => h⟩

/-- The rule of consequence. -/
theorem conseq (hp : Ends D b φ p ψ χ) (hφ : ∀ d H, φ' d H → φ d H)
    (hψ : ∀ x d H, ψ x d H → ψ' x d H) (hχ : ∀ e, χ e → χ' e) : Ends D b φ' p ψ' χ' :=
  ⟨fun c d H hc hr h => toward_conseq (hp.toward c d H hc hr (hφ d H h)) (fun x _ d H => hψ x d H)
    fun e _ _ _ => hχ e⟩

theorem pre (hp : Ends D b φ p ψ χ) (hφ : ∀ d H, φ' d H → φ d H) : Ends D b φ' p ψ χ :=
  hp.conseq hφ (fun _ _ _ h => h) fun _ h => h

/-- A fact the assertion gives may be used for the program. -/
theorem of_fact {P : Prop} (hφ : ∀ d H, φ d H → P) (h : P → Ends D b φ p ψ χ) :
    Ends D b φ p ψ χ :=
  ⟨fun c d H hc hr hd => (h (hφ d H hd)).toward c d H hc hr hd⟩

/-- The end of a program. -/
theorem done {x : β} (h : ∀ d H, φ d H → ψ x d H) : Ends D b φ (.done x : Prog Row ε β) ψ χ :=
  ⟨fun _ d H _ _ => h d H⟩

/-- An error. -/
theorem fail (h : χ e) : Ends D b φ (.fail e : Prog Row ε β) ψ χ :=
  ⟨fun _ _ _ _ _ _ => h⟩

theorem check {x : Except ε β} (h : ∀ y, x = .ok y → ∀ d H, φ d H → ψ y d H)
    (he : ∀ e, x = .error e → χ e) : Ends D b φ (Txn.check x : Prog Row ε β) ψ χ := by
  unfold Txn.check
  cases x with
  | ok y => exact done (h y rfl)
  | error e => exact fail (he e rfl)

theorem raiseIf {bad : Prop} [Decidable bad] {ψ : Unit → Pend Row}
    (h : ¬ bad → ∀ d H, φ d H → ψ () d H) (he : bad → χ e) :
    Ends D b φ (Txn.raiseIf bad e : Prog Row ε Unit) ψ χ := by
  unfold Txn.raiseIf
  by_cases hb : bad
  · rw [if_pos hb]
    exact fail (he hb)
  · rw [if_neg hb]
    exact done (h hb)

theorem orRaise {o : Option β} (h : ∀ y, o = some y → ∀ d H, φ d H → ψ y d H) (he : o = none → χ e) :
    Ends D b φ (Txn.orRaise o e : Prog Row ε β) ψ χ := by
  cases o with
  | some y => exact done (h y rfl)
  | none => exact fail (he rfl)

/-- The rule of one statement. -/
theorem statement (h : ∀ c d H, D.Inv c → D.Rely (grow H l w (d ∪ c)) c b → φ d H →
      ψ (q (d ∪ c)) (d.applyAll (w (d ∪ c))) (grow H l w (d ∪ c))) :
    Ends D b φ (Prog.statement l w q : Prog Row ε β) ψ χ :=
  ⟨fun _ d H _ _ hφ c' hr hb _ => h c' d H hr.inv hb hφ⟩

/-- The rule of a plain read. -/
theorem select (h : ∀ c d H, D.Inv c → D.Rely H c b → φ d H → ψ (q (d ∪ c)) d H) :
    Ends D b φ (Prog.select q : Prog Row ε β) ψ χ := by
  refine statement fun c d H hc hb hφ => ?_
  rw [grow_nil rfl rfl] at hb ⊢
  exact h c d H hc hb hφ

/-- The rule of a locking read of one row: what it finds, the commit finds. -/
theorem lockRow {k : K} {ψ : Option (Row k) → Pend Row}
    (hnone : ∀ d H, φ d H → ψ none d H)
    (hsome : ∀ c d H r, D.Inv c → D.Rely (fun k' => H k' ∨ k' = k) c b → φ d H →
      (d ∪ b : Store Row).get k = some r → ψ (some r) d fun k' => H k' ∨ k' = k) :
    Ends D b φ (Txn.lockRow k : Prog Row ε _) ψ χ := by
  refine ⟨fun c d H hc hr hφ => ?_⟩
  have h := toward_lockRow_bind (D := D) (b := b) (A := fun _ _ => True) (c := c) (d := d) (H := H)
    (f := fun o => (.done o : Prog Row ε _)) (k := k) (Q := fun a _ => ψ a) (E := fun e _ _ _ => χ e)
    (fun c' _ _ _ _ => hnone d H hφ)
    fun c' r hr hb hget _ => hsome c' d H r hr.inv hb hφ ((hb.view d (.inr rfl)).trans hget)
  rwa [Prog.bind_done] at h

/-- The rule of a conditional update of one row. -/
theorem updateWhere {k : K} {cond : Row k → Bool} {g : Row k → Row k} {ψ : ℕ → Pend Row}
    (hmiss : ∀ c d H, D.Inv c → D.Rely H c b → φ d H →
      (∀ r, (d ∪ c : Store Row).get k = some r → cond r = false) → ψ 0 d H)
    (hhit : ∀ c d H r, D.Inv c → D.Rely (fun k' => H k' ∨ k' = k) c b → φ d H →
      (d ∪ b : Store Row).get k = some r → cond r = true →
      ψ 1 (d.set k (some (g r))) fun k' => H k' ∨ k' = k) :
    Ends D b φ (Txn.updateWhere k cond g : Prog Row ε ℕ) ψ χ := by
  refine ⟨fun c d H hc hr hφ => ?_⟩
  have h : D.toward b (fun _ _ => True) (Txn.updateWhere k cond g >>= fun n => .done n)
      (fun a _ => ψ a) (fun e _ _ _ => χ e) c d H := toward_updateWhere_bind
    (fun c' hr hb hmiss' => hmiss c' d H hr.inv hb hφ hmiss')
    fun c' r hr hb hget hcond _ => hhit c' d H r hr.inv hb hφ ((hb.view d (.inr rfl)).trans hget) hcond
  rwa [Prog.bind_done] at h

/-- The rule of an insert. -/
theorem insert {unique : List K} {ψ : Unit → Pend Row}
    (h : ∀ c d H, D.Inv c → D.Rely (writing H ws) c b → φ d H → taken (d ∪ c) unique = false →
      ψ () (d.applyAll ws) (writing H ws)) (he : χ e) :
    Ends D b φ (Txn.insert e unique ws : Prog Row ε Unit) ψ χ := by
  refine ⟨fun c d H hc hr hφ => ?_⟩
  have h' : D.toward b (fun _ _ => True) (Txn.insert e unique ws >>= fun x => .done x)
      (fun a _ => ψ a) (fun e _ _ _ => χ e) c d H := toward_insert_bind (fun _ _ _ _ => he)
    fun c' hr hb hfree => h c' d H hr.inv hb hφ hfree
  rwa [Prog.bind_done] at h'

/-- The rule of a part that leaves alone what the writes of some rows leave alone. -/
theorem inside {W : K → Prop} (hp : p.Writes W)
    (hφ : ∀ d H ws H', (∀ x ∈ ws, W x.1) → (∀ k, H k → H' k) → (∀ x ∈ ws, H' x.1) → φ d H →
      φ (d.applyAll ws) H') : Ends D b φ p (fun _ => φ) fun _ => True :=
  ⟨fun _ _ _ _ _ h => toward_conseq
    (toward_inside (φ := fun _ => φ) hp (fun _ _ d H ws H' _ _ => hφ d H ws H') h)
    (fun _ _ _ _ h => h) fun _ _ _ _ _ => trivial⟩

end Ends

end Discipline
end Txn
