import RagQs.Txn.Rely

/-!
# Statements in use

The forms of `INSERT`, `UPDATE` and `SELECT ... FOR UPDATE` a service is written with, over
any tables, and the rule of each under interference.

## Main definitions

* `check`, `raiseIf`, `orRaise` — computations that touch no row and may raise.
* `insert`, `insertOrSkip` — inserts, without and with `ON CONFLICT DO NOTHING`.
* `updateWhere` — a conditional update of one row, reporting the row count.
* `readRow`, `lockRow` — `SELECT` by primary key, without and with `FOR UPDATE`.
* `table` — the rows of a table.
* `savepoint` — a part of a transaction whose writes are undone when it raises.

## Main results

* `wp_savepoint_bind` — after an error the view is the one at the savepoint.
-/

namespace Txn

open Discipline List Store

variable {K : Type} [DecidableEq K] {Row : K → Type} {ε α β : Type}

/-! ### Statements -/

/-- A computation without statements, which may raise. -/
@[irreducible] def check : Except ε α → Prog Row ε α
  | .ok a => .done a
  | .error e => .fail e

/-- `raise` under a condition. -/
def raiseIf (bad : Prop) [Decidable bad] (e : ε) : Prog Row ε Unit :=
  if bad then .fail e else .done ()

/-- The value, or `raise` when there is none. -/
def orRaise (o : Option α) (e : ε) : Prog Row ε α :=
  match o with
  | some a => .done a
  | none => .fail e

/-- One of the keys is taken. -/
def taken (v : Store Row) (keys : List K) : Bool :=
  keys.any fun k => (v.get k).isSome

/-- `INSERT`: the primary key and the unique index entries of the new row have to be
free, otherwise the error is `e`. -/
def insert (e : ε) (unique : List K) (ws : List (Write Row)) : Prog Row ε Unit :=
  .stmt (fun _ => []) (fun v => if taken v unique then [] else ws)
    fun v => if taken v unique then .fail e else .done ()

/-- `INSERT ... ON CONFLICT DO NOTHING` on one index, and whether it inserted; another
index that is taken is the error `e`. -/
def insertOrSkip (e : ε) (arbiter : K) (others : List K) (ws : List (Write Row)) :
    Prog Row ε Bool :=
  .stmt (fun _ => []) (fun v => if taken v [arbiter] || taken v others then [] else ws)
    fun v => if taken v [arbiter] then .done false
      else if taken v others then .fail e else .done true

/-- `UPDATE ... WHERE` the row of one key meets `cond`, and the row count. -/
def updateWhere (k : K) (cond : Row k → Bool) (f : Row k → Row k) : Prog Row ε ℕ :=
  .stmt (fun _ => [])
    (fun v => ((v.get k).filter cond).toList.map fun r => ⟨k, some (f r)⟩)
    fun v => .done ((v.get k).filter cond).toList.length

/-- `SELECT ... FOR UPDATE` of the row of one key. -/
def lockRow (k : K) : Prog Row ε (Option (Row k)) :=
  Prog.selectForUpdate (fun v => if (v.get k).isSome then [k] else []) fun v => v.get k

/-- `SELECT` of the row of one key. -/
def readRow (k : K) : Prog Row ε (Option (Row k)) := Prog.select fun v => v.get k

/-- The rows of one table. -/
def table (v : Store Row) (pick : (k : K) → Row k → Option β) : List β :=
  v.rows.filterMap fun e => pick e.1 e.2

theorem mem_table {v : Store Row} {pick : (k : K) → Row k → Option β} {b : β} :
    b ∈ table v pick ↔ ∃ k r, v.get k = some r ∧ pick k r = some b := by
  unfold table
  rw [mem_filterMap]
  constructor
  · rintro ⟨⟨k, r⟩, hmem, hpick⟩
    exact ⟨k, r, mem_rows.mp hmem, hpick⟩
  · rintro ⟨k, r, hget, hpick⟩
    exact ⟨⟨k, r⟩, mem_rows.mpr hget, hpick⟩

omit [DecidableEq K] in
/-- Rows that are told apart by what is picked from them are picked once. -/
theorem nodup_table {v : Store Row} {pick : (k : K) → Row k → Option β} {f : β → γ}
    (h : ∀ k r b k' r' b', pick k r = some b → pick k' r' = some b' → f b = f b' → k = k') :
    ((table v pick).map f).Nodup := by
  have hrows := pairwise_map.mp (nodup_rows v)
  refine pairwise_map.mpr (pairwise_filterMap.mpr (hrows.imp ?_))
  intro x y hne b hb b' hb' heq
  exact hne (h x.1 x.2 b y.1 y.2 b' hb hb' heq)

/-- A part of a program that remembers, in `undo`, the rows it has overwritten, and puts
them back when it raises. -/
def undoing : Prog Row ε α → List (Write Row) → Prog Row ε α
  | .done a, _ => .done a
  | .fail e, undo => .stmt (fun _ => []) (fun _ => undo) fun _ => .fail e
  | .stmt l w n, undo =>
    .stmt l w fun v => undoing (n v) ((w v).map (fun x => ⟨x.1, v.get x.1⟩) ++ undo)

/-- `with connection.begin_nested()`: an error rolls back to the savepoint and is raised
again.  The rows stay locked. -/
def savepoint (p : Prog Row ε α) : Prog Row ε α := undoing p []

/-! ### Their rules -/

section Rules

variable {D : Discipline Row} {A : Prog Row ε α → Store Row → Prop} {Q : α → Assn Row}
  {E : ε → Assn Row} {c d : Store Row} {H : K → Prop}

/-- The locks of a transaction once it has also written `ws`. -/
def writing (H : K → Prop) (ws : List (Write Row)) : K → Prop :=
  fun k => H k ∨ k ∈ ws.map Sigma.fst

variable {f : β → Prog Row ε α}

theorem wp_check_bind {x : Except ε β} (hok : ∀ b, x = .ok b → D.wp A (f b) Q E c d H)
    (herr : ∀ e, x = .error e → ∀ c', D.Rely H c c' → E e c' d H) :
    D.wp A (check x >>= f) Q E c d H := by
  unfold check
  cases x with
  | ok b => exact hok b rfl
  | error e => exact herr e rfl

theorem wp_raiseIf_bind {bad : Prop} [Decidable bad] {e : ε} {f : Unit → Prog Row ε α}
    (hok : ¬ bad → D.wp A (f ()) Q E c d H)
    (herr : bad → ∀ c', D.Rely H c c' → E e c' d H) :
    D.wp A (raiseIf bad e >>= f) Q E c d H := by
  unfold raiseIf
  by_cases hb : bad
  · rw [if_pos hb]
    exact herr hb
  · rw [if_neg hb]
    exact hok hb

theorem wp_orRaise_bind {o : Option β} {e : ε} (hok : ∀ b, o = some b → D.wp A (f b) Q E c d H)
    (herr : o = none → ∀ c', D.Rely H c c' → E e c' d H) :
    D.wp A (orRaise o e >>= f) Q E c d H := by
  cases o with
  | some b => exact hok b rfl
  | none => exact herr rfl

theorem wp_readRow_bind {k : K} {f : Option (Row k) → Prog Row ε α}
    (h : ∀ c', D.Rely H c c' → D.wp A (f ((d ∪ c' : Store Row).get k)) Q E c' d H) :
    D.wp A (readRow k >>= f) Q E c d H :=
  wp_select_bind h

/-- The rule of a row lock, which is taken on a view it is allowed on. -/
theorem wp_lockRow_allowed_bind {k : K} {f : Option (Row k) → Prog Row ε α}
    (hnone : ∀ c', D.Rely H c c' → (d ∪ c' : Store Row).get k = none →
      A (lockRow k >>= f) (d ∪ c') → D.wp A (f none) Q E c' d H)
    (hsome : ∀ c' r, D.Rely H c c' → (d ∪ c' : Store Row).get k = some r →
      A (lockRow k >>= f) (d ∪ c') → D.wp A (f (some r)) Q E c' d (fun k' => H k' ∨ k' = k)) :
    D.wp A (lockRow k >>= f) Q E c d H := by
  intro c' hr hA
  cases hv : (d ∪ c' : Store Row).get k with
  | none =>
    rw [grow_nil (by simp [hv]) rfl]
    simp only [hv, applyAll_nil]
    exact hnone c' hr hv hA
  | some r =>
    have hH : grow H (fun v : Store Row => if (v.get k).isSome then [k] else []) (fun _ => []) (d ∪ c')
        = fun k' => H k' ∨ k' = k := by
      funext k'
      simp [grow, needed, hv]
    rw [hH]
    simp only [hv, applyAll_nil]
    exact hsome c' r hr hv hA

theorem wp_lockRow_bind {k : K} {f : Option (Row k) → Prog Row ε α}
    (hnone : ∀ c', D.Rely H c c' → (d ∪ c' : Store Row).get k = none → D.wp A (f none) Q E c' d H)
    (hsome : ∀ c' r, D.Rely H c c' → (d ∪ c' : Store Row).get k = some r →
      D.wp A (f (some r)) Q E c' d (fun k' => H k' ∨ k' = k)) :
    D.wp A (lockRow k >>= f) Q E c d H :=
  wp_lockRow_allowed_bind (fun c' hr hget _ => hnone c' hr hget)
    fun c' r hr hget _ => hsome c' r hr hget

/-- The rule of a conditional update, which runs on a view it is allowed on. -/
theorem wp_updateWhere_allowed_bind {k : K} {cond : Row k → Bool} {g : Row k → Row k}
    {f : ℕ → Prog Row ε α}
    (hmiss : ∀ c', D.Rely H c c' → (∀ r, (d ∪ c' : Store Row).get k = some r → cond r = false) →
      D.wp A (f 0) Q E c' d H)
    (hhit : ∀ c' r, D.Rely H c c' → (d ∪ c' : Store Row).get k = some r → cond r = true →
      A (updateWhere k cond g >>= f) (d ∪ c') → D.wp A (f 1) Q E c' (d.set k (some (g r))) (fun k' => H k' ∨ k' = k)) :
    D.wp A (updateWhere k cond g >>= f) Q E c d H := by
  intro c' hr hA
  cases hv : ((d ∪ c' : Store Row).get k).filter cond with
  | none =>
    rw [grow_nil rfl (by simp [hv])]
    simp only [hv, Option.toList_none, map_nil, applyAll_nil, length_nil]
    exact hmiss c' hr fun r hget => by simpa [hget] using hv
  | some r =>
    obtain ⟨hget, hcond⟩ := Option.filter_eq_some_iff.mp hv
    have hH : grow H (fun _ : Store Row => [])
        (fun v => ((v.get k).filter cond).toList.map fun r => ⟨k, some (g r)⟩) (d ∪ c')
        = fun k' => H k' ∨ k' = k := by
      funext k'
      simp [grow, needed, hv]
    rw [hH]
    simp only [hv, Option.toList_some, map_cons, map_nil, applyAll_cons,
      applyAll_nil, length_cons, length_nil]
    exact hhit c' r hr hget hcond hA

theorem wp_updateWhere_bind {k : K} {cond : Row k → Bool} {g : Row k → Row k}
    {f : ℕ → Prog Row ε α}
    (hmiss : ∀ c', D.Rely H c c' → (∀ r, (d ∪ c' : Store Row).get k = some r → cond r = false) →
      D.wp A (f 0) Q E c' d H)
    (hhit : ∀ c' r, D.Rely H c c' → (d ∪ c' : Store Row).get k = some r → cond r = true →
      D.wp A (f 1) Q E c' (d.set k (some (g r))) (fun k' => H k' ∨ k' = k)) :
    D.wp A (updateWhere k cond g >>= f) Q E c d H :=
  wp_updateWhere_allowed_bind hmiss fun c' r hr hget hcond _ => hhit c' r hr hget hcond

variable {ws : List (Write Row)}

theorem wp_insert_bind {e : ε} {unique : List K} {f : Unit → Prog Row ε α}
    (herr : ∀ c', D.Rely H c c' → E e c' d H)
    (hfree : ∀ c', D.Rely H c c' → taken (d ∪ c') unique = false →
      D.wp A (f ()) Q E c' (d.applyAll ws) (writing H ws)) :
    D.wp A (insert e unique ws >>= f) Q E c d H := by
  intro c' hr _
  cases ht : taken (d ∪ c') unique with
  | true =>
    rw [grow_nil rfl (by simp [ht])]
    simp only [ht, if_true, applyAll_nil]
    exact fun c'' hr' => herr c'' (hr.trans hr')
  | false =>
    have hH : grow H (fun _ : Store Row => []) (fun v => if taken v unique then [] else ws) (d ∪ c')
        = writing H ws := by
      funext k
      simp [grow, needed, writing, ht]
    rw [hH]
    simp only [ht, if_neg Bool.false_ne_true]
    exact hfree c' hr ht

theorem wp_insertOrSkip_bind {e : ε} {arbiter : K} {others : List K} {f : Bool → Prog Row ε α}
    (htaken : ∀ c', D.Rely H c c' → ((d ∪ c' : Store Row).get arbiter).isSome = true →
      D.wp A (f false) Q E c' d H)
    (herr : ∀ c' c'', D.Rely H c c' → taken (d ∪ c') others = true → D.Rely H c' c'' → E e c'' d H)
    (hfree : ∀ c', D.Rely H c c' → (d ∪ c' : Store Row).get arbiter = none →
      taken (d ∪ c') others = false →
      D.wp A (f true) Q E c' (d.applyAll ws) (writing H ws)) :
    D.wp A (insertOrSkip e arbiter others ws >>= f) Q E c d H := by
  intro c' hr _
  have hone : taken (d ∪ c') [arbiter] = ((d ∪ c' : Store Row).get arbiter).isSome := by
    simp [taken]
  cases ha : (d ∪ c' : Store Row).get arbiter with
  | some r =>
    have ht : taken (d ∪ c') [arbiter] = true := by rw [hone, ha]; rfl
    rw [grow_nil rfl (by simp [ht])]
    simp only [ht, Bool.true_or, if_true, applyAll_nil]
    exact htaken c' hr (by rw [ha]; rfl)
  | none =>
    have ht : taken (d ∪ c') [arbiter] = false := by rw [hone, ha]; rfl
    cases ho : taken (d ∪ c') others with
    | true =>
      rw [grow_nil rfl (by simp [ho])]
      simp only [ht, ho, Bool.or_true, if_true, if_neg Bool.false_ne_true, applyAll_nil]
      exact fun c'' hr' => herr c' c'' hr ho hr'
    | false =>
      have hH : grow H (fun _ : Store Row => [])
          (fun v => if taken v [arbiter] || taken v others then [] else ws) (d ∪ c')
          = writing H ws := by
        funext k
        simp [grow, needed, writing, ht, ho]
      rw [hH]
      simp only [ht, ho, Bool.or_self, if_neg Bool.false_ne_true]
      exact hfree c' hr ha ho

/-! ### Savepoints -/

/-- Writes do to views that have the same row of a key the same there. -/
theorem get_applyAll_at {s s' : Store Row} {k : K} (h : s.get k = s'.get k) :
    (s.applyAll ws).get k = (s'.applyAll ws).get k := by
  induction ws generalizing s s' with
  | nil => exact h
  | cons w ws ih =>
    obtain ⟨k', r⟩ := w
    refine ih ?_
    by_cases hk : k = k'
    · subst hk
      rw [get_set_self, get_set_self]
    · rw [get_set_of_ne hk, get_set_of_ne hk]
      exact h

/-- Putting the rows of some keys back gives the view they were read from. -/
theorem get_applyAll_restore {ks : List K} {s v : Store Row}
    (h : ∀ k, k ∉ ks → s.get k = v.get k) (k : K) :
    (s.applyAll (ks.map fun k => ⟨k, v.get k⟩)).get k = v.get k := by
  induction ks generalizing s with
  | nil => exact h k not_mem_nil
  | cons k' ks ih =>
    refine ih fun k hk => ?_
    by_cases heq : k = k'
    · subst heq
      rw [get_set_self]
    · rw [get_set_of_ne heq]
      exact h k (by simp [hk, heq])

/-- What a program after a savepoint keeps: the rows to put back give the view of the
savepoint, whose pending writes are `d₀`, and all of them are locked. -/
structure Undoes (d₀ : Store Row) (undo : List (Write Row)) (c d : Store Row) (H : K → Prop) :
    Prop where
  view : ∀ k, ((d ∪ c : Store Row).applyAll undo).get k = (d₀ ∪ c : Store Row).get k
  undo : ∀ k ∈ undo.map Sigma.fst, H k
  held : ∀ k ∈ d, H k
  before : ∀ k ∈ d₀, H k

variable {undo : List (Write Row)}

theorem Undoes.rely {d₀ : Store Row} {c' : Store Row} (h : Undoes d₀ undo c d H)
    (hr : D.Rely H c c') : Undoes d₀ undo c' d H := by
  refine ⟨fun k => ?_, h.undo, h.held, h.before⟩
  by_cases hk : H k
  · have hview : ∀ d' : Store Row, (d' ∪ c' : Store Row).get k = (d' ∪ c : Store Row).get k :=
      fun d' => hr.view d' hk
    have happly : ((d ∪ c' : Store Row).applyAll undo).get k
        = ((d ∪ c : Store Row).applyAll undo).get k := by
      rw [← applyAll_union, ← applyAll_union]
      exact hview _
    rw [happly, hview]
    exact h.view k
  · rw [get_applyAll_of_notMem fun hmem => hk (h.undo k hmem),
      get_union_of_notMem fun hmem => hk (h.held k hmem),
      get_union_of_notMem fun hmem => hk (h.before k hmem)]

/-- A statement adds the rows it overwrites to those to put back. -/
theorem Undoes.statement {d₀ : Store Row} {l : Store Row → List K}
    {w : Store Row → List (Write Row)} (h : Undoes d₀ undo c d H) :
    Undoes d₀ ((w (d ∪ c)).map (fun x => ⟨x.1, (d ∪ c : Store Row).get x.1⟩) ++ undo) c
      (d.applyAll (w (d ∪ c))) (grow H l w (d ∪ c)) := by
  refine ⟨fun k => ?_, fun k hk => ?_, fun k hk => ?_, fun k hk => .inl (h.before k hk)⟩
  · rw [applyAll_union, applyAll_append, ← h.view k]
    refine get_applyAll_at ?_
    have hmap : (w (d ∪ c)).map (fun x => (⟨x.1, (d ∪ c : Store Row).get x.1⟩ : Write Row))
        = ((w (d ∪ c)).map Sigma.fst).map fun k => ⟨k, (d ∪ c : Store Row).get k⟩ := by
      rw [map_map]
      rfl
    rw [hmap]
    exact get_applyAll_restore (fun k hk => get_applyAll_of_notMem hk) k
  · rw [map_append, map_map, mem_append] at hk
    rcases hk with hk | hk
    · exact .inr (mem_append_right _ hk)
    · exact .inl (h.undo k hk)
  · rcases mem_applyAll.mp hk with hk | hk
    · exact .inr (mem_append_right _ hk)
    · exact .inl (h.held k hk)

private theorem wp_undoing {p : Prog Row ε α} {d₀ : Store Row}
    {A₀ : Prog Row ε α → Store Row → Prop} (hu : Undoes d₀ undo c d H)
    (hok : D.wp (fun _ _ => True) p Q (fun _ _ _ _ => True) c d H)
    (herr : ∀ e c' d' H', D.Rely H c c' → (∀ k, H k → H' k) → Undoes d₀ [] c' d' H' → E e c' d' H') :
    D.wp A₀ (undoing p undo) Q E c d H := by
  induction p generalizing undo c d H with
  | done a => exact hok
  | fail e =>
    intro c₁ hr₁ _ c₂ hr₂
    have hgrow : grow H (fun _ => []) (fun _ => undo) (d ∪ c₁) = H := by
      funext k
      simp only [grow, needed, nil_append, eq_iff_iff, or_iff_left_iff_imp]
      exact hu.undo k
    rw [hgrow] at hr₂ ⊢
    have hu₂ := (hu.rely hr₁).rely hr₂
    refine herr e c₂ _ H (hr₁.trans hr₂) (fun _ hk => hk) ⟨fun k => ?_, by simp, fun k hk => ?_,
      hu₂.before⟩
    · rw [applyAll_union]
      exact hu₂.view k
    · rcases mem_applyAll.mp hk with hk | hk
      · exact hu₂.undo k hk
      · exact hu₂.held k hk
  | stmt l w n ih =>
    intro c₁ hr₁ _
    have hu₁ := (hu.rely hr₁).statement (l := l) (w := w)
    refine ih _ hu₁ (hok c₁ hr₁ trivial) fun e c' d' H' hr hH hu' => ?_
    exact herr e c' d' H' (hr₁.trans (hr.mono fun k hk => .inl hk)) (fun k hk => hH k (.inl hk)) hu'

/-- **The rule of a savepoint**: an error leaves pending writes that give the view there was
at the savepoint. -/
theorem wp_savepoint_bind {p : Prog Row ε β} (hc : D.Inv c) (hd : ∀ k ∈ d, H k)
    (hok : D.wp (fun _ _ => True) p (fun b => D.wp A (f b) Q E) (fun _ _ _ _ => True) c d H)
    (herr : ∀ e c' d' H', D.Rely H c c' → (∀ k, H k → H' k) → Undoes d [] c' d' H' → E e c' d' H') :
    D.wp A (savepoint p >>= f) Q E c d H :=
  wp_bind (wp_undoing ⟨fun _ => rfl, by simp, hd, hd⟩ hok herr) hc

/-- The rule of a savepoint where nothing is asked for after an error. -/
theorem wp_savepoint_raises_bind {p : Prog Row ε β} (hc : D.Inv c)
    (hok : D.wp (fun _ _ => True) p (fun b => D.wp A (f b) Q E) (fun _ _ _ _ => True) c d H)
    (herr : ∀ e c d H, E e c d H) : D.wp A (savepoint p >>= f) Q E c d H := by
  refine wp_bind ?_ hc
  unfold savepoint
  generalize ([] : List (Write Row)) = undo
  induction p generalizing undo c d H with
  | done a => exact hok
  | fail e => exact fun _ _ _ _ _ => herr _ _ _ _
  | stmt l w n ih => exact fun c' hr _ => ih _ hr.inv (hok c' hr trivial) _

/-- The rule of an insert under a savepoint whose violated constraint is caught. -/
theorem wp_tryInsert_bind {e : ε} {unique : List K} {b : β} {g : ε → Prog Row ε β}
    (htaken : ∀ c', D.Rely H c c' → D.wp A (g e >>= f) Q E c' d H)
    (hfree : ∀ c', D.Rely H c c' → taken (d ∪ c') unique = false →
      D.wp A (f b) Q E c' (d.applyAll ws) (writing H ws)) :
    D.wp A ((savepoint (insert e unique ws) >>= fun _ => .done b).tryCatch g >>= f) Q E c d H := by
  intro c' hr _
  cases ht : taken (d ∪ c') unique with
  | true =>
    rw [grow_nil rfl (by simp [ht])]
    simp only [ht, if_true, applyAll_nil]
    -- what is put back is nothing
    intro c'' hr' _
    rw [grow_nil rfl (by simp)]
    exact htaken c'' (hr.trans hr')
  | false =>
    have hH : grow H (fun _ : Store Row => []) (fun v => if taken v unique then [] else ws) (d ∪ c')
        = writing H ws := by
      funext k
      simp [grow, needed, writing, ht]
    rw [hH]
    simp only [ht, if_neg Bool.false_ne_true]
    exact hfree c' hr ht

omit [DecidableEq K] in
/-- The locks of two lists of writes. -/
theorem writing_writing (H : K → Prop) (ws ws' : List (Write Row)) :
    writing (writing H ws) ws' = writing H (ws ++ ws') := by
  funext k
  simp only [writing, map_append, mem_append, or_assoc]

end Rules

end Txn
