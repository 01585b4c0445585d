import RagQs.Usage.PriceTimeline

/-!
# Runs of the writers of the price catalogue

Transactions that register and close versions, interleaved statement by statement.  A
caller may catch the error of a writer and commit what it left; a registration that fails
after its savepoint leaves the versions as they were.

## Main definitions

* `catalogDiscipline` — the versions of a scope change under the lock of its row.
* `Draft` — the history of its scope a writer works on, in the store and in its view.
* `CatalogOp`, `catalogBody` — the transactions.

## Main results

* `catalog_verified` — every writer keeps the discipline.
* `price_catalog_history` — every scope has a history in every state of a run, and no commit
  changes what is selected before its time.
* `close_changes_end` — a selected version shows its new end.
-/

namespace RagQs.Usage.Catalog

open Txn Txn.Discipline List Option Store AList

variable {H' : Key → Prop}

/-! ### The discipline -/

/-- What a transaction may change with the locks `W`. -/
structure Guar (W : Key → Prop) (c c' : Db) : Prop where
  /-- The versions of a scope change under its lock. -/
  scope : ∀ p (a : PriceRow), ¬ W (.priceScope a.scope) →
    (c'.get (.price p) = some a ↔ c.get (.price p) = some a)
  /-- Of a version only the end changes. -/
  facts : ∀ p (a : PriceRow), c.get (.price p) = some a →
    ∃ a' : PriceRow, c'.get (.price p) = some a' ∧ a'.toPriceFacts = a.toPriceFacts
  /-- The row of a scope is never deleted. -/
  scopeRow : ∀ sc, (c.get (.priceScope sc)).isSome = true →
    (c'.get (.priceScope sc)).isSome = true

/-- The discipline of the writers. -/
def catalogDiscipline : Discipline Row where
  Inv := CatalogInv
  guar := Guar
  refl _ _ := ⟨fun _ _ _ => Iff.rfl, fun _ a h => ⟨a, h, rfl⟩, fun _ h => h⟩
  trans h₁ h₂ := ⟨fun p a ha => (h₂.scope p a ha).trans (h₁.scope p a ha), fun p a ha => by
      obtain ⟨a', ha', hf⟩ := h₁.facts p a ha
      obtain ⟨a'', ha'', hf'⟩ := h₂.facts p a' ha'
      exact ⟨a'', ha'', hf'.trans hf⟩, fun sc h => h₂.scopeRow sc (h₁.scopeRow sc h)⟩
  mono hW h := ⟨fun p a ha => h.scope p a fun hw => ha (hW _ hw), h.facts, h.scopeRow⟩

variable {α : Type} {c c' d : Db} {H : Key → Prop} {scope : Scope} {l l' : List Version}
  {b : Time} {A : Tx α → Db → Prop} {Q : α → Assn Row} {E : Err → Assn Row}

/-! ### What a writer has done so far -/

/-- A writer holds the lock of its scope, whose history is `l` in the store and `l'` in the
view of the writer; other scopes are the same in both. -/
structure Draft (scope : Scope) (l l' : List Version) (c d : Db) (H : Key → Prop) : Prop where
  lock : H (.priceScope scope)
  held : ∀ k ∈ d, H k
  old : ScopeHistory c scope l
  new : ScopeHistory (d ∪ c : Db) scope l'
  other : ∀ p (a : PriceRow), a.scope ≠ scope →
    ((d ∪ c : Db).get (.price p) = some a ↔ c.get (.price p) = some a)
  scopeRow : ∀ sc, (c.get (.priceScope sc)).isSome = true →
    ((d ∪ c : Db).get (.priceScope sc)).isSome = true

theorem ScopeHistory.congr (h : ScopeHistory c scope l)
    (hsame : ∀ p (a : PriceRow), a.scope = scope →
      (c'.get (.price p) = some a ↔ c.get (.price p) = some a)) : ScopeHistory c' scope l := by
  refine ⟨fun x => ?_, h.timeline, h.chain, h.first⟩
  rw [h.rows x]
  exact and_congr_left fun hx => (hsame x.1 x.2 hx).symm

theorem Draft.rely (h : Draft scope l l' c d H) (hr : catalogDiscipline.Rely H c c') :
    Draft scope l l' c' d H := by
  have hg : Guar (fun k => ¬ H k) c c' := hr.guar
  have hold : ∀ p (a : PriceRow), a.scope = scope →
      (c'.get (.price p) = some a ↔ c.get (.price p) = some a) := fun p a ha =>
    hg.scope p a fun hn => hn (ha ▸ h.lock)
  -- a row is a pending one, which is locked, or the one of the store
  have hview : ∀ k, k ∈ d → (d ∪ c' : Db).get k = (d ∪ c : Db).get k ∧ c'.get k = c.get k :=
    fun k hk => ⟨hr.view d (h.held k hk), hr.rows k (h.held k hk)⟩
  refine ⟨h.lock, h.held, h.old.congr hold, h.new.congr fun p a ha => ?_, fun p a ha => ?_,
    fun sc hsc => ?_⟩
  · by_cases hk : Key.price p ∈ d
    · rw [(hview _ hk).1]
    · rw [get_union_of_notMem hk, get_union_of_notMem hk]
      exact hold p a ha
  · by_cases hk : Key.price p ∈ d
    · rw [(hview _ hk).1, (hview _ hk).2]
      exact h.other p a ha
    · rw [get_union_of_notMem hk]
  · by_cases hk : Key.priceScope sc ∈ d
    · rw [(hview _ hk).2] at hsc
      rw [(hview _ hk).1]
      exact h.scopeRow sc hsc
    · rw [get_union_of_notMem hk]
      exact hsc

theorem Draft.mono (h : Draft scope l l' c d H) (hH : ∀ k, H k → H' k) : Draft scope l l' c d H' :=
  ⟨hH _ h.lock, fun k hk => hH _ (h.held k hk), h.old, h.new, h.other, h.scopeRow⟩

theorem Draft.undo {d' : Db} (h : Draft scope l l' c d H) (hH : ∀ k, H k → H' k)
    (hu : Undoes d [] c d' H') : Draft scope l l' c d' H' := by
  have hview : ∀ k, (d' ∪ c : Db).get k = (d ∪ c : Db).get k := hu.view
  refine ⟨hH _ h.lock, hu.held, h.old, h.new.congr fun p a _ => by rw [hview], fun p a ha => ?_,
    fun sc hsc => ?_⟩
  · rw [hview]
    exact h.other p a ha
  · rw [hview]
    exact h.scopeRow sc hsc

/-- What a commit says of the versions just before and just after. -/
def Outcome (b : Time) (r : Except Err Unit) (c c' : Db) : Prop :=
  match r with
  | .ok _ => ∀ scope at_, at_ < b → SameSelection b (covering c scope at_) (covering c' scope at_)
  | .error _ => ∀ p, c'.get (.price p) = c.get (.price p)

theorem covering_congr {at_ : Time} (h : ScopeHistory c scope l) (h' : ScopeHistory c' scope l) :
    covering c' scope at_ = covering c scope at_ := by
  apply Option.ext
  intro x
  rw [covering_eq_some h, covering_eq_some h']

theorem Draft.guar (h : Draft scope l l' c d H) (hc : CatalogInv c) (hrev : Revised b l l') :
    CatalogInv (d ∪ c : Db) ∧ Guar H c (d ∪ c : Db) := by
  constructor
  · intro sc
    by_cases hsc : sc = scope
    · subst hsc
      exact ⟨l', h.new⟩
    · obtain ⟨m, hm⟩ := hc sc
      exact ⟨m, hm.congr fun p a ha => h.other p a (ha ▸ hsc)⟩
  · refine ⟨fun p a ha => h.other p a fun heq => ha (heq ▸ h.lock), fun p a ha => ?_, h.scopeRow⟩
    by_cases hscope : a.scope = scope
    · obtain ⟨y, hy, hid, hfacts, _⟩ := hrev.forward (p, a) ((h.old.rows (p, a)).mpr ⟨ha, hscope⟩)
      have hget := ((h.new.rows y).mp hy).1
      rw [hid] at hget
      exact ⟨y.2, hget, hfacts⟩
    · exact ⟨a, (h.other p a hscope).mpr ha, rfl⟩

/-- **A draft that revises the history may be committed.** -/
theorem Draft.commit {u : Unit} (h : Draft scope l l' c d H) (hc : CatalogInv c)
    (hrev : Revised b l l') : catalogDiscipline.Commit (Outcome b) (.ok u) c d H := by
  obtain ⟨hinv, hguar⟩ := h.guar hc hrev
  refine ⟨hinv, hguar, fun sc at_ hb => ?_⟩
  by_cases hsc : sc = scope
  · subst hsc
    exact hrev.selection h.old h.new hb
  · obtain ⟨m, hm⟩ := hc sc
    rw [covering_congr hm (hm.congr fun p a ha => h.other p a (ha ▸ hsc))]
    exact .refl _ _

theorem Draft.commit_error {e : Err} (h : Draft scope l l c d H) (hc : CatalogInv c) :
    catalogDiscipline.Commit (Outcome b) (.error e) c d H := by
  obtain ⟨hinv, hguar⟩ := h.guar hc (Revised.same (b := b))
  refine ⟨hinv, hguar, fun p => ?_⟩
  apply Option.ext
  intro a
  by_cases hscope : a.scope = scope
  · have hiff := (h.new.rows (p, a)).symm.trans (h.old.rows (p, a))
    constructor
    · exact fun ha => (hiff.mp ⟨ha, hscope⟩).1
    · exact fun ha => (hiff.mpr ⟨ha, hscope⟩).1
  · exact h.other p a hscope

theorem commit_empty {e : Err} (hc : CatalogInv c) :
    catalogDiscipline.Commit (Outcome b) (.error e) c ∅ H := by
  unfold Commit
  rw [empty_union]
  exact ⟨hc, catalogDiscipline.refl H c, fun _ => rfl⟩

theorem Draft.write {ws : List (Write Row)} {l'' : List Version} (h : Draft scope l l' c d H)
    (hH : ∀ k, H k → H' k) (hws : ∀ k ∈ ws.map Sigma.fst, H' k)
    (hscope : ∀ sc, Key.priceScope sc ∉ ws.map Sigma.fst)
    (hnew : ScopeHistory ((d ∪ c : Db).applyAll ws) scope l'')
    (hother : ∀ p (a : PriceRow), a.scope ≠ scope →
      (((d ∪ c : Db).applyAll ws).get (.price p) = some a ↔
        (d ∪ c : Db).get (.price p) = some a)) : Draft scope l l'' c (d.applyAll ws) H' := by
  refine ⟨hH _ h.lock, fun k hk => ?_, h.old, ?_, fun p a ha => ?_, fun sc hsc => ?_⟩
  · rcases mem_applyAll.mp hk with hk | hk
    · exact hws k hk
    · exact hH k (h.held k hk)
  · rw [applyAll_union]
    exact hnew
  · rw [applyAll_union]
    exact (hother p a ha).trans (h.other p a ha)
  · rw [applyAll_union, get_applyAll_of_notMem (hscope sc)]
    exact h.scopeRow sc hsc

/-! ### The steps of a writer -/

/-- `_scope_lock` leaves the writer with the lock of its scope and nothing changed. -/
theorem wp_scopeLock_bind {now : Time} {f : Unit → Tx α}
    (h : ∀ c' d' H' l, catalogDiscipline.Rely (fun _ => False) c c' →
      Draft scope l l c' d' H' → catalogDiscipline.wp A (f ()) Q E c' d' H') :
    catalogDiscipline.wp A (scopeLock scope now >>= f) Q E c ∅ (fun _ => False) := by
  -- the pending writes are those to the row of the scope
  have hdraft : ∀ (x : ScopeRow) (d c' : Db) (H' : Key → Prop) l,
      (∀ k ∈ d, H' k) → (∀ k, k ≠ .priceScope scope → (d ∪ c' : Db).get k = c'.get k) →
      ScopeHistory c' scope l → H' (.priceScope scope) →
      Draft scope l l c' (d.set (.priceScope scope) (some x)) H' := by
    intro x d c' H' l hheld hd hl hlock
    have hprice : ∀ p, (d.set (.priceScope scope) (some x) ∪ c' : Db).get (.price p)
        = c'.get (.price p) := by
      intro p
      rw [set_union, get_set_of_ne (by simp), hd _ (by simp)]
    refine ⟨hlock, fun k hk => ?_, hl, hl.congr fun p a _ => by rw [hprice],
      fun p a _ => by rw [hprice], fun sc hsc => ?_⟩
    · rcases (Store.mem_set _ _ _ _).mp hk with rfl | hk
      · exact hlock
      · exact hheld k hk
    · rw [set_union]
      by_cases heq : sc = scope
      · subst heq
        rw [get_set_self]
        rfl
      · have hne : Key.priceScope sc ≠ .priceScope scope := by simpa using heq
        rw [get_set_of_ne hne, hd _ hne]
        exact hsc
  unfold scopeLock
  simp only [Prog.bind_assoc]
  refine wp_insertOrSkip_bind (fun c₁ hr₁ hsome => ?_) (fun _ _ _ ht => by cases ht)
    fun c₁ hr₁ _ _ => ?_
  · rw [empty_union] at hsome
    refine wp_updateWhere_bind (fun c₂ hr₂ hmiss => ?_) fun c₂ (x : ScopeRow) hr₂ _ _ => ?_
    · -- a scope's row is never deleted
      have hg : Guar (fun _ => ¬ False) c₁ c₂ := hr₂.guar
      obtain ⟨x, hx⟩ := isSome_iff_exists.mp (hg.scopeRow scope hsome)
      rw [empty_union] at hmiss
      exact absurd (hmiss x hx) (by simp)
    · obtain ⟨l, hl⟩ := hr₂.inv scope
      refine h c₂ _ _ l (hr₁.trans hr₂) (hdraft _ ∅ c₂ _ l (fun k hk => ?_) (fun k _ => ?_) hl
        (.inr rfl))
      · exact absurd hk (notMem_empty k)
      · rw [empty_union]
  · refine wp_updateWhere_bind (fun c₂ hr₂ hmiss => ?_) fun c₂ (x : ScopeRow) hr₂ _ _ => ?_
    · refine absurd (hmiss ⟨0, now⟩ ?_) (by simp)
      simp
    · obtain ⟨l, hl⟩ := hr₂.inv scope
      refine h c₂ _ _ l (hr₁.trans (hr₂.mono fun _ hf => hf.elim))
        (hdraft _ _ c₂ _ l (fun k hk => ?_) (fun k hk => ?_) hl (.inr rfl))
      · exact .inl (.inr (by simpa using hk))
      · rw [applyAll_cons, applyAll_nil, set_union, empty_union,
          get_set_of_ne hk]

theorem ScopeHistory.close {x : Version} {t : Time} (h : ScopeHistory c scope (l ++ [x]))
    (hopen : x.2.effectiveToUtc = none) (hlater : x.2.effectiveFromUtc < t) :
    ScopeHistory (c.applyAll [⟨.price x.1, some (closed x t).2⟩, ⟨.priceOpen x.2.scope, none⟩])
      scope (l ++ [closed x t]) := by
  have hget : ∀ p, (c.applyAll [⟨.price x.1, some (closed x t).2⟩,
      ⟨.priceOpen x.2.scope, none⟩]).get (.price p)
      = (c.set (.price x.1) (some (closed x t).2)).get (.price p) := by
    intro p
    rw [applyAll_cons, applyAll_cons, applyAll_nil,
      get_set_of_ne (by simp)]
  obtain ⟨hx, hscope⟩ := (h.rows x).mp (by simp)
  obtain ⟨ht, hc, hf⟩ := (Revised.close l x rfl hopen hlater).ordered h.timeline h.chain h.first
  refine ⟨fun y => ?_, ht, hc, hf⟩
  rw [hget]
  by_cases hy : y.1 = x.1
  · rw [hy, get_set_self]
    constructor
    · intro hmem
      rcases mem_append.mp hmem with hmem | hmem
      · -- no other version has its identifier
        obtain ⟨hrow, _⟩ := (h.rows y).mp (mem_append_left _ hmem)
        rw [hy, hx, some.injEq] at hrow
        have heq : y = x := Prod.ext hy hrow.symm
        exact absurd heq ((pairwise_append.mp h.timeline.nodup).2.2 y hmem x
          (mem_singleton_self _))
      · obtain rfl := mem_singleton.mp hmem
        exact ⟨rfl, hscope⟩
    · rintro ⟨hrow, _⟩
      have heq : y = closed x t := Prod.ext hy (some.inj hrow).symm
      simp [heq]
  · rw [get_set_of_ne (by simpa using hy), ← h.rows y]
    have hne : y ≠ x := fun heq => hy (congrArg Prod.fst heq)
    have hne' : y ≠ closed x t := by
      rintro rfl
      exact hy rfl
    simp [hne, hne']

theorem wp_closeRow_bind {x : Version} {t : Time} {f : Unit → Tx α}
    (hd : Draft scope l (l' ++ [x]) c d H) (hopen : x.2.effectiveToUtc = none)
    (hlater : x.2.effectiveFromUtc < t)
    (h : ∀ c' d' H', catalogDiscipline.Rely H c c' → (∀ k, H k → H' k) →
      Draft scope l (l' ++ [closed x t]) c' d' H' → catalogDiscipline.wp A (f ()) Q E c' d' H') :
    catalogDiscipline.wp A (closeRow x.1 t >>= f) Q E c d H := by
  refine wp_statement_bind fun c₁ hr₁ => ?_
  have hd₁ := hd.rely hr₁
  obtain ⟨hx, hscope⟩ := (hd₁.new.rows x).mp (by simp)
  refine h c₁ _ _ hr₁ (fun k hk => .inl hk) ?_
  rw [hx]
  refine hd₁.write (fun k hk => .inl hk) (fun k hk => .inr ?_) (by simp)
    (hd₁.new.close hopen hlater) fun p a ha => ?_
  · rw [needed, hx]
    exact mem_append_right _ hk
  · rw [applyAll_cons, applyAll_cons, applyAll_nil,
      get_set_of_ne (by simp)]
    by_cases hp : p = x.1
    · subst hp
      rw [get_set_self, hx]
      constructor
      · intro heq
        cases heq
        exact absurd hscope ha
      · intro heq
        cases heq
        exact absurd hscope ha
    · rw [get_set_of_ne (by simpa using hp)]

/-- The history is ready for a version that starts at `f`: the last version is the one to
supersede, and ends in time. -/
def Ready (f : Time) (supersedes : Option String) (l : List Version) : Prop :=
  l.getLast?.map Prod.fst = supersedes ∧
    ∀ x ∈ l.getLast?, ∃ t, x.2.effectiveToUtc = some t ∧ t ≤ f

/-- `_close_predecessor` closes the newest version unless it is closed. -/
theorem wp_closePredecessor_bind {f : Time} {supersedes : String} {g : Unit → Tx α}
    (hE : ∀ e c d H, E e c d H) (hd : Draft scope l l c d H)
    (h : ∀ c' d' H' l', catalogDiscipline.Rely H c c' → (∀ k, H k → H' k) → Revised f l l' →
      Ready f (some supersedes) l' → Draft scope l l' c' d' H' →
      catalogDiscipline.wp A (g ()) Q E c' d' H') :
    catalogDiscipline.wp A (closePredecessor scope f supersedes >>= g) Q E c d H := by
  unfold closePredecessor
  simp only [Prog.bind_assoc]
  refine wp_readRow_bind fun c₁ hr₁ => wp_orRaise_bind (fun _ _ => ?_) fun _ _ _ => hE _ _ _ _
  refine wp_raiseIf_bind (fun _ => ?_) fun _ _ _ => hE _ _ _ _
  refine wp_statement_bind fun c₂ hr₂ => wp_orRaise_bind (fun x hx => ?_) fun _ _ _ => hE _ _ _ _
  obtain ⟨hnew, hid⟩ := filter_eq_some_iff.mp hx
  obtain rfl : x.1 = supersedes := by simpa using hid
  refine wp_raiseIf_bind (fun hlate => ?_) fun _ _ _ => hE _ _ _ _
  refine wp_raiseIf_bind (fun hend => ?_) fun _ _ _ => hE _ _ _ _
  have hr := hr₁.trans hr₂
  have hgrow : ∀ k, H k → grow H (fun v : Db => ((newest (versions v scope)).map fun p =>
      Key.price p.1).toList) (fun _ => []) (d ∪ c₂) k := fun _ hk => .inl hk
  generalize grow H (fun v : Db => ((newest (versions v scope)).map fun p =>
      Key.price p.1).toList) (fun _ => []) (d ∪ c₂) = H₂ at hgrow ⊢
  have hd₂ := (hd.rely hr).mono hgrow
  -- the newest version is the last of the history
  obtain ⟨l₀, rfl⟩ := newest_eq_last hd₂.new hnew
  simp only [rejectRetroactiveClose, Prog.bind_assoc]
  refine wp_select_bind fun c₃ hr₃ => wp_raiseIf_bind (fun _ => ?_) fun _ _ _ => hE _ _ _ _
  by_cases hopen : x.2.effectiveToUtc = none
  · have hlater : x.2.effectiveFromUtc < f := by simpa [hopen] using hlate
    rw [if_pos hopen]
    simp only [rejectPendingDispatches, Prog.bind_assoc]
    refine wp_select_bind fun c₄ hr₄ => wp_raiseIf_bind (fun _ => ?_) fun _ _ _ => hE _ _ _ _
    have hr₄' := hr₃.trans hr₄
    refine wp_closeRow_bind (hd₂.rely hr₄') hopen hlater fun c₅ d' H' hr₅ hH' hd' => ?_
    refine h c₅ d' H' _ (hr.trans ((hr₄'.trans hr₅).mono hgrow))
      (fun k hk => hH' k (hgrow k hk)) (.close l₀ x rfl hopen hlater) ⟨?_, fun y hy => ?_⟩ hd'
    · simp [closed]
    · simp only [List.getLast?_append, List.getLast?_singleton, some_or,
        mem_def, some.injEq] at hy
      subst hy
      exact ⟨f, rfl, le_rfl⟩
  · rw [if_neg hopen]
    obtain ⟨t, ht⟩ := ne_none_iff_exists'.mp hopen
    have hle : t ≤ f := by simpa [ht] using hend
    refine h c₃ d H₂ _ (hr.trans (hr₃.mono hgrow)) hgrow .same ⟨?_, fun y hy => ?_⟩
      (hd₂.rely hr₃)
    · simp
    · simp only [List.getLast?_append, List.getLast?_singleton, some_or,
        mem_def, some.injEq] at hy
      subst hy
      exact ⟨t, ht, hle⟩

theorem ScopeHistory.add {y : Version} (ws : List (Write Row)) (h : ScopeHistory c scope l)
    (hready : Ready y.2.effectiveFromUtc y.2.supersedesVersionId l)
    (hopen : y.2.effectiveToUtc = none) (hscope : y.2.scope = scope)
    (hnew : c.get (.price y.1) = none) (hws : ∀ p, Key.price p ∉ ws.map Sigma.fst) :
    ScopeHistory (c.applyAll (⟨.price y.1, some y.2⟩ :: ws)) scope (l ++ [y]) := by
  have hget : ∀ p, (c.applyAll (⟨.price y.1, some y.2⟩ :: ws)).get (.price p)
      = (c.set (.price y.1) (some y.2)).get (.price p) := by
    intro p
    rw [applyAll_cons, get_applyAll_of_notMem (hws p)]
  have hrevised : Revised y.2.effectiveFromUtc l (l ++ [y]) := by
    refine .add l y .same (fun x hx => ?_) (fun hnil => ?_) rfl hopen
    · obtain ⟨t, ht, hle⟩ := hready.2 x hx
      refine ⟨?_, t, ht, h.timeline.interval x (List.mem_of_getLast? hx) t ht, hle⟩
      rw [← hready.1, mem_def.mp hx]
      rfl
    · subst hnil
      exact hready.1.symm
  obtain ⟨ht, hc, hf⟩ := hrevised.ordered h.timeline h.chain h.first
  refine ⟨fun x => ?_, ht, hc, hf⟩
  rw [hget, mem_append, mem_singleton, h.rows x]
  by_cases hx : x.1 = y.1
  · rw [hx, get_set_self, hnew]
    constructor
    · rintro (⟨hnone, _⟩ | rfl)
      · cases hnone
      · exact ⟨rfl, hscope⟩
    · rintro ⟨hrow, _⟩
      exact .inr (Prod.ext hx (some.inj hrow).symm)
  · rw [get_set_of_ne (by simpa using hx)]
    have hne : x ≠ y := fun heq => hx (congrArg Prod.fst heq)
    simp [hne]

theorem wp_insertVersion {y : Version} (hE : ∀ e c d H, E e c d H)
    (hd : Draft y.2.scope l l' c d H)
    (hready : Ready y.2.effectiveFromUtc y.2.supersedesVersionId l')
    (hopen : y.2.effectiveToUtc = none) {Q : Unit → Assn Row} {A : Tx Unit → Db → Prop}
    (h : ∀ c' d' H', catalogDiscipline.Rely (fun _ => False) c c' →
      Draft y.2.scope l (l' ++ [y]) c' d' H' → Q () c' d' H') :
    catalogDiscipline.wp A (insertVersion y.1 y.2) Q E c d H := by
  rw [← Prog.bind_done (insertVersion y.1 y.2)]
  unfold insertVersion
  refine wp_insert_bind (fun _ _ => hE _ _ _ _) fun c₁ hr₁ hfree => ?_
  have hd₁ := hd.rely hr₁
  have hnone : (d ∪ c₁ : Db).get (.price y.1) = none := by
    have := (List.any_eq_false.mp hfree) (.price y.1) (by simp)
    simpa using this
  intro c₂ hr₂
  refine h c₂ _ _ ((hr₁.mono fun _ hf => hf.elim).trans (hr₂.mono fun _ hf => hf.elim))
    (.rely ?_ hr₂)
  refine hd₁.write (fun k hk => .inl hk) (fun k hk => .inr hk) (by simp)
    (hd₁.new.add [⟨.priceFrom y.2.scope y.2.effectiveFromUtc, some y.1⟩,
      ⟨.priceOpen y.2.scope, some y.1⟩] hready hopen rfl hnone (by simp)) fun p a ha => ?_
  rw [applyAll_cons, get_applyAll_of_notMem (by simp)]
  by_cases hp : p = y.1
  · subst hp
    rw [get_set_self, hnone]
    constructor
    · intro heq
      cases heq
      exact absurd rfl ha
    · intro heq
      cases heq
  · rw [get_set_of_ne (by simpa using hp)]

/-! ### The writers -/

variable {env : Env}

/-- What has to hold at the end of a writer with the time `b`, for a result and an error. -/
abbrev writerPost (b : Time) (r : Except Err Unit) : Assn Row :=
  catalogDiscipline.Commit (Outcome b) r

theorem wp_register {a : RegisterArgs} {A : Tx Unit → Db → Prop} :
    catalogDiscipline.wp A (register env a >>= fun _ => pure ())
      (fun u => writerPost a.effectiveFromUtc (.ok u))
      (fun e => writerPost a.effectiveFromUtc (.error e)) c ∅ (fun _ => False) := by
  unfold register
  rw [Prog.bind_assoc]
  refine wp_check_bind (fun row hrow => ?_) fun _ _ _ hr => commit_empty hr.inv
  obtain ⟨hopen, hfrom⟩ := validateRegister_ok hrow
  simp only [Prog.bind_assoc]
  refine wp_scopeLock_bind fun c₁ d₁ H₁ l hr₁ hd₁ => ?_
  refine wp_savepoint_bind hr₁.inv hd₁.held ?_ fun e c₂ d₂ H₂ hr₂ hH hu =>
    ((hd₁.rely hr₂).undo hH hu).commit_error hr₂.inv
  -- the insert, once the history is ready for the version
  have hinsert : ∀ c₂ d₂ H₂ l', Draft row.scope l l' c₂ d₂ H₂ →
      Revised row.effectiveFromUtc l l' → Ready row.effectiveFromUtc row.supersedesVersionId l' →
      catalogDiscipline.wp (fun _ _ => True) (insertVersion ("price_" ++ a.token) row)
        (fun _ => catalogDiscipline.wp A (readRow (.price ("price_" ++ a.token)) >>=
          fun stored => orRaise (stored : Option PriceRow)
            (priceNotFound "Price version was not found") >>=
          fun stored => pure { toPriceRow := stored, id := "price_" ++ a.token } >>=
          fun _ : PriceVersion => pure ())
          (fun u => writerPost a.effectiveFromUtc (.ok u))
          (fun e => writerPost a.effectiveFromUtc (.error e)))
        (fun _ _ _ _ => True) c₂ d₂ H₂ := by
    intro c₂ d₂ H₂ l' hd₂ hrevised hready
    refine wp_insertVersion (y := ("price_" ++ a.token, row)) (fun _ _ _ _ => trivial) hd₂ hready
      hopen fun c₃ d₃ H₃ _ hd₃ => ?_
    refine wp_readRow_bind fun c₄ hr₄ => wp_orRaise_bind (fun _ _ => ?_) fun hnone => ?_
    · intro c₅ hr₅
      have hd₅ := (hd₃.rely hr₄).rely hr₅
      rw [← hfrom]
      refine hd₅.commit hr₅.inv (.add l' _ hrevised (fun x hx => ?_) (fun hnil => ?_) rfl hopen)
      · obtain ⟨t, ht, hle⟩ := hready.2 x hx
        have hmem : x ∈ l' ++ [("price_" ++ a.token, row)] :=
          mem_append_left _ (List.mem_of_getLast? hx)
        refine ⟨?_, t, ht, hd₅.new.timeline.interval x hmem t ht, hle⟩
        rw [← hready.1, mem_def.mp hx]
        rfl
      · subst hnil
        exact hready.1.symm
    · -- the version just inserted is there
      obtain ⟨hget, _⟩ := ((hd₃.rely hr₄).new.rows ("price_" ++ a.token, row)).mp (by simp)
      rw [hnone] at hget
      cases hget
  unfold addVersion supersede
  cases hsupersedes : row.supersedesVersionId with
  | some supersedes =>
    refine wp_closePredecessor_bind (fun _ _ _ _ => trivial) hd₁
      fun c₂ d₂ H₂ l' hr₂ _ hrevised hready hd₂ => ?_
    rw [← hsupersedes] at hready
    exact hinsert c₂ d₂ H₂ l' hd₂ hrevised hready
  | none =>
    simp only [ensureNoHistory, Prog.bind_assoc]
    refine wp_select_bind fun c₂ hr₂ => wp_raiseIf_bind (fun hnone => ?_) fun _ _ _ => trivial
    have hd₂ := hd₁.rely hr₂
    have hnil : l = [] := by
      apply eq_nil_iff_forall_not_mem.mpr
      intro x hx
      have hmem := mem_versions.mpr ((hd₂.new.rows x).mp hx)
      rw [not_not.mp hnone] at hmem
      exact absurd hmem not_mem_nil
    subst hnil
    refine hinsert c₂ d₁ H₁ [] hd₂ .same ⟨?_, fun x hx => by cases hx⟩
    rw [hsupersedes]
    rfl

theorem wp_closeVersion {p : String} {t now : Time} {A : Tx Unit → Db → Prop} :
    catalogDiscipline.wp A (closeVersion p t now) (fun u => writerPost t (.ok u))
      (fun e => writerPost t (.error e)) c ∅ (fun _ => False) := by
  rw [← Prog.bind_done (closeVersion p t now)]
  unfold closeVersion
  simp only [Prog.bind_assoc]
  refine wp_readRow_bind fun c₁ hr₁ => wp_orRaise_bind (fun (row : PriceRow) hrow => ?_)
    fun _ _ hr => commit_empty hr.inv
  rw [empty_union] at hrow
  refine wp_scopeLock_bind fun c₂ d₂ H₂ l hr₂ hd₂ => ?_
  refine wp_lockRow_bind (fun c₃ hr₃ _ => fun c₄ hr₄ => ?_) fun c₃ (a : PriceRow) hr₃ hget => ?_
  · exact ((hd₂.rely hr₃).rely hr₄).commit_error hr₄.inv
  have hd₃ : Draft row.scope l l c₃ d₂ (fun k => H₂ k ∨ k = .price p) :=
    (hd₂.rely hr₃).mono fun k hk => .inl hk
  -- the locked version is of the scope that was locked
  have hscope : a.scope = row.scope := by
    have hg : Guar (fun _ => ¬ False) c₁ c₃ := (hr₂.trans (hr₃.mono fun _ hf => hf.elim)).guar
    obtain ⟨a', ha', hfacts⟩ := hg.facts p row hrow
    have hsame : a'.scope = row.scope := congrArg PriceFacts.scope hfacts
    obtain ⟨hview, _⟩ := (hd₃.new.rows (p, a')).mp ((hd₃.old.rows (p, a')).mpr ⟨ha', hsame⟩)
    rw [hget, some.injEq] at hview
    rw [hview, hsame]
  refine wp_orRaise_bind (fun x hx => ?_) fun hnone => by cases hnone
  cases hx
  have herror : ∀ e c₄, catalogDiscipline.Rely (fun k => H₂ k ∨ k = .price p) c₃ c₄ →
      writerPost t (.error e) c₄ d₂ (fun k => H₂ k ∨ k = .price p) := fun e c₄ hr₄ =>
    (hd₃.rely hr₄).commit_error hr₄.inv
  refine wp_raiseIf_bind (fun hopen => ?_) fun _ c₄ hr₄ => herror _ c₄ hr₄
  refine wp_raiseIf_bind (fun hlate => ?_) fun _ c₄ hr₄ => herror _ c₄ hr₄
  simp only [rejectAnyUsage, rejectPendingDispatches, Prog.bind_assoc]
  refine wp_select_bind fun c₄ hr₄ => wp_raiseIf_bind (fun _ => ?_) fun _ c₅ hr₅ =>
    herror _ c₅ (hr₄.trans hr₅)
  refine wp_select_bind fun c₅ hr₅ => wp_raiseIf_bind (fun _ => ?_) fun _ c₆ hr₆ =>
    herror _ c₆ ((hr₄.trans hr₅).trans hr₆)
  -- an open version is the last
  have hmem : (p, a) ∈ l := (hd₃.new.rows (p, a)).mpr ⟨hget, hscope⟩
  obtain ⟨l₀, rfl⟩ := hd₃.new.timeline.open_last hmem (not_not.mp hopen)
  have hd₅ := (hd₃.rely hr₄).rely hr₅
  refine wp_closeRow_bind (x := (p, a)) hd₅ (not_not.mp hopen) (not_le.mp hlate)
    fun c₆ d₆ H₆ _ _ hd₆ c₇ hr₇ => ?_
  exact (hd₆.rely hr₇).commit hr₇.inv
    (.close l₀ (p, a) rfl (not_not.mp hopen) (not_le.mp hlate))

/-! ### Runs -/

/-- The transactions of the writers. -/
inductive CatalogOp
  | register (a : RegisterArgs)
  | close (versionId : String) (effectiveToUtc now : Time)

/-- The start of the new version, or the end of the closed one. -/
def CatalogOp.time : CatalogOp → Time
  | .register a => a.effectiveFromUtc
  | .close _ effectiveToUtc _ => effectiveToUtc

/-- The program of a transaction, whose caller catches an error and commits.  A caller that
does not is a transaction that is thrown away. -/
def catalogBody (env : Env) : CatalogOp → Tx (Except Err Unit)
  | .register a => Prog.attempt do
    let _ ← register env a
    return ()
  | .close versionId effectiveToUtc now => Prog.attempt (closeVersion versionId effectiveToUtc now)

/-- **Every writer keeps the discipline.** -/
theorem catalog_verified (env : Env) :
    Verified catalogDiscipline (fun _ _ _ => True) (catalogBody env)
      (fun op _ r => Outcome op.time r) (fun _ _ _ _ => True) where
  wp op c _ := by
    cases op with
    | register a => exact wp_attempt wp_register
    | close versionId effectiveToUtc now => exact wp_attempt wp_closeVersion

/-- What one move of the scheduler does to the versions: nothing, or it is the commit of a
writer that succeeded, and every time before the writer's own selects as before. -/
def KeepsSelection (t t' : Sys Row CatalogOp Err (Except Err Unit)) (m : Move CatalogOp) : Prop :=
  (∀ p, t'.db.get (.price p) = t.db.get (.price p)) ∨
    ∃ i op d n, m = .advance i ∧ t.sessions i = some ⟨op, .done (.ok ()), d, n⟩ ∧
      ∀ scope at_, at_ < op.time →
        SameSelection op.time (covering t.db scope at_) (covering t'.db scope at_)

/-- **The history of the prices.**  In every state of every run of registrations and closes,
from a catalogue without versions, the versions of every scope are a timeline in which each
supersedes the one before it, so an instant is in at most one; and no move changes what is
selected before the time of the writer that commits, but for the end of the version it
closes. -/
theorem price_catalog_history (env : Env) (db₀ : Db) (hempty : ∀ p, db₀.get (.price p) = none)
    (ms : List (Move CatalogOp)) (t : Sys Row CatalogOp Err (Except Err Unit))
    (hrun : run (catalogBody env) (Sys.init db₀) ms = some t) :
    (∀ scope, ∃ l, ScopeHistory t.db scope l) ∧
    (∀ p q (a b : PriceRow) at_, t.db.get (.price p) = some a → t.db.get (.price q) = some b →
      a.scope = b.scope → a.contains at_ = true → b.contains at_ = true → p = q) ∧
    ∀ m t', step (catalogBody env) t m = some t' → KeepsSelection t t' m := by
  have hinit : CatalogInv db₀ := by
    intro scope
    refine ⟨[], fun x => ?_, Timeline.nil, List.isChain_nil, fun x hx => by cases hx⟩
    simp [hempty]
  have hv := catalog_verified env
  obtain ⟨hok, _⟩ := hv.run Preserved.true ms (allowsRun_true _ ms _)
    (SysOk.init hinit trivial) hrun
  have hinv : CatalogInv t.db := hok.inv
  refine ⟨hinv, fun p q a b at_ ha hb hscope hca hcb => ?_, fun m t' hstep => ?_⟩
  · obtain ⟨l, hl⟩ := hinv a.scope
    have heq := hl.timeline.unique (p, a) ((hl.rows (p, a)).mpr ⟨ha, rfl⟩) (q, b)
      ((hl.rows (q, b)).mpr ⟨hb, hscope.symm⟩) (within_iff.mpr hca) (within_iff.mpr hcb)
    exact congrArg Prod.fst heq
  · cases m with
    | start i op =>
      simp only [step] at hstep
      split at hstep <;> cases hstep
      exact .inl fun _ => rfl
    | abort i =>
      simp only [step] at hstep
      split at hstep <;> cases hstep
      exact .inl fun _ => rfl
    | advance i =>
      cases hx : t.sessions i with
      | none => simp [step, hx] at hstep
      | some x =>
        rcases step_advance_db hx hstep with hsame | ⟨r, hdone, hdb⟩
        · exact .inl fun _ => by rw [hsame]
        · obtain ⟨op, prog, d, n⟩ := x
          simp only at hdone hdb
          subst hdone
          obtain ⟨_, _, hout⟩ := hok.committed hx
          rw [← hdb] at hout
          cases r with
          | error e => exact .inl hout
          | ok u => exact .inr ⟨i, op, d, n, rfl, hx, hout⟩

/-! ### A version that is closed -/

/-- A version is registered from `0` on, and a transaction is about to commit its end. -/
def sampleWriters : List (Move CatalogOp) :=
  alone 0 (.register sampleRegister) 6 ++ .start 1 (.close "price_1" 10 6) ::
    replicate 7 (.advance 1)

/-- The writer is about to commit a success, with a time after `5`. -/
def committing (x : Session Row CatalogOp Err (Except Err Unit)) : Bool :=
  match x.prog with
  | .done (.ok ()) => decide (5 < x.op.time)
  | _ => false

/-- The end of the version that is selected at `5`. -/
def selectedEnd (t : Sys Row CatalogOp Err (Except Err Unit)) : Option (Option Time) :=
  (covering t.db ⟨"openai", "m", "chat"⟩ 5).map fun x => x.2.effectiveToUtc

theorem close_changes_end :
    ∃ t t' i x, run (catalogBody sampleEnv) (Sys.init ∅) sampleWriters = some t ∧
      t.sessions i = some x ∧ x.prog = .done (.ok ()) ∧ 5 < x.op.time ∧
      step (catalogBody sampleEnv) t (.advance i) = some t' ∧
      covering t'.db ⟨"openai", "m", "chat"⟩ 5 ≠ covering t.db ⟨"openai", "m", "chat"⟩ 5 := by
  have hrun : ((run (catalogBody sampleEnv) (Sys.init ∅) sampleWriters).bind fun t =>
      (t.sessions 1).bind fun x => (step (catalogBody sampleEnv) t (.advance 1)).map fun t' =>
        (committing x, selectedEnd t, selectedEnd t'))
      = some (true, some none, some (some 10)) := by decide +kernel
  obtain ⟨t, ht, hrun⟩ := Option.bind_eq_some_iff.mp hrun
  obtain ⟨x, hx, hrun⟩ := Option.bind_eq_some_iff.mp hrun
  obtain ⟨t', ht', hends⟩ := Option.map_eq_some_iff.mp hrun
  obtain ⟨hcommit, hends⟩ := Prod.mk.inj hends
  obtain ⟨hbefore, hafter⟩ := Prod.mk.inj hends
  unfold committing at hcommit
  split at hcommit
  · next hprog =>
    refine ⟨t, t', 1, x, ht, hx, hprog, of_decide_eq_true hcommit, ht', fun hsame => ?_⟩
    unfold selectedEnd at hbefore hafter
    rw [hsame, hbefore] at hafter
    cases hafter
  · cases hcommit

theorem price_catalog_history_sample :
    ∃ t l, run (catalogBody sampleEnv) (Sys.init ∅) sampleWriters = some t ∧
      ScopeHistory t.db ⟨"openai", "m", "chat"⟩ l ∧ l ≠ [] := by
  have hrun : (run (catalogBody sampleEnv) (Sys.init ∅) sampleWriters).map
      (fun t => (covering t.db ⟨"openai", "m", "chat"⟩ 5).isSome) = some true := by
    decide +kernel
  obtain ⟨t, ht, hsome⟩ := Option.map_eq_some_iff.mp hrun
  obtain ⟨hhistory, _, _⟩ := price_catalog_history sampleEnv ∅ (by simp) sampleWriters t ht
  obtain ⟨l, hl⟩ := hhistory ⟨"openai", "m", "chat"⟩
  refine ⟨t, l, ht, hl, ?_⟩
  rintro rfl
  obtain ⟨x, hx⟩ := Option.isSome_iff_exists.mp hsome
  exact absurd ((covering_eq_some hl).mp hx).1 List.not_mem_nil

end RagQs.Usage.Catalog
