import RagQs.Usage.LedgerProof

/-!
# The writers of the price catalogue keep the discipline of the ledger

A writer holds the lock of its scope's row, so the versions of the scope stay while it
works; and it holds the lock of the version it closes, so no call is sent or completed
under that version after the writer has made sure that none needs the closed part.

## Main definitions

* `Closable` — no call that has left needs the version from a time on.
* `CatalogOk`, `CatalogPatch` — the writes to the versions of a scope, and what a writer
  has written so far.

## Main results

* `PriceInv.close`, `PriceInv.add` — closing and adding a version.
* `wp_register_bind`, `wp_closeVersion_bind` — the rules of the writers.
-/

namespace RagQs.Usage

open Txn Txn.Discipline List Option Store AList

variable {α : Type} {env : Env} {A : Tx α → Db → Prop} {Q : α → Assn Row} {G : Err → Prop}
  {c c' d : Db} {H : Key → Prop} {scope : Scope}

variable {p q : String} {a row : PriceRow} {ws : List (Write Row)} {t : Time}

/-! ### The catalogue after a write -/

theorem PriceInv.close {f : Time} (h : PriceInv c) (ha : c.get (.price p) = some a)
    (hopen : a.effectiveToUtc = none) (hf : a.effectiveFromUtc < f) :
    PriceInv (c.set (.price p) (some ({ a with effectiveToUtc := some f } : PriceRow))) := by
  have hget : ∀ q (b : PriceRow),
      (c.set (.price p) (some ({ a with effectiveToUtc := some f } : PriceRow))).get (.price q)
        = some b → q = p ∧ b = { a with effectiveToUtc := some f } ∨
          q ≠ p ∧ c.get (.price q) = some b := by
    intro q b hb
    by_cases hq : q = p
    · subst hq
      rw [get_set_self] at hb
      exact .inl ⟨rfl, (some.inj hb).symm⟩
    · rw [get_set_of_ne (by simpa using hq)] at hb
      exact .inr ⟨hq, hb⟩
  constructor
  · intro q b t hb ht
    rcases hget q b hb with ⟨_, rfl⟩ | ⟨_, hb⟩
    · cases ht
      exact hf
    · exact h.interval q b t hb ht
  · intro q₁ q₂ b₁ b₂ h₁ h₂ hscope hfrom
    rcases hget q₁ b₁ h₁ with ⟨rfl, rfl⟩ | ⟨_, g₁⟩ <;> rcases hget q₂ b₂ h₂ with ⟨rfl, rfl⟩ | ⟨_, g₂⟩
    · rfl
    · exact h.distinct _ _ a b₂ ha g₂ hscope hfrom
    · exact h.distinct _ _ b₁ a g₁ ha hscope hfrom
    · exact h.distinct _ _ b₁ b₂ g₁ g₂ hscope hfrom
  · intro q₁ q₂ b₁ b₂ h₁ h₂ hscope hfrom
    rcases hget q₁ b₁ h₁ with ⟨rfl, rfl⟩ | ⟨_, g₁⟩ <;> rcases hget q₂ b₂ h₂ with ⟨rfl, rfl⟩ | ⟨_, g₂⟩
    · exact absurd hfrom (lt_irrefl _)
    · -- an open version is the last of its scope
      obtain ⟨t, ht, _⟩ := h.disjoint _ _ a b₂ ha g₂ hscope hfrom
      rw [hopen] at ht
      cases ht
    · exact h.disjoint _ _ b₁ a g₁ ha hscope hfrom
    · exact h.disjoint _ _ b₁ b₂ g₁ g₂ hscope hfrom

theorem PriceInv.add (h : PriceInv c) (hnone : c.get (.price q) = none)
    (hopen : row.effectiveToUtc = none)
    (hafter : ∀ p (a : PriceRow), c.get (.price p) = some a → a.scope = row.scope →
      ∃ t, a.effectiveToUtc = some t ∧ t ≤ row.effectiveFromUtc) :
    PriceInv (c.set (.price q) (some row)) := by
  have hget : ∀ p (b : PriceRow), (c.set (.price q) (some row)).get (.price p) = some b →
      p = q ∧ b = row ∨ p ≠ q ∧ c.get (.price p) = some b := by
    intro p b hb
    by_cases hp : p = q
    · subst hp
      rw [get_set_self] at hb
      exact .inl ⟨rfl, (some.inj hb).symm⟩
    · rw [get_set_of_ne (by simpa using hp)] at hb
      exact .inr ⟨hp, hb⟩
  have hbefore : ∀ p (a : PriceRow), c.get (.price p) = some a → a.scope = row.scope →
      a.effectiveFromUtc < row.effectiveFromUtc := by
    intro p a ha hscope
    obtain ⟨t, ht, hle⟩ := hafter p a ha hscope
    exact lt_of_lt_of_le (h.interval p a t ha ht) hle
  constructor
  · intro p b t hb ht
    rcases hget p b hb with ⟨_, rfl⟩ | ⟨_, hb⟩
    · rw [hopen] at ht
      cases ht
    · exact h.interval p b t hb ht
  · intro p₁ p₂ b₁ b₂ h₁ h₂ hscope hfrom
    rcases hget p₁ b₁ h₁ with ⟨rfl, rfl⟩ | ⟨_, g₁⟩ <;> rcases hget p₂ b₂ h₂ with ⟨rfl, rfl⟩ | ⟨_, g₂⟩
    · rfl
    · exact absurd hfrom (ne_of_gt (hbefore _ _ g₂ hscope.symm))
    · exact absurd hfrom (ne_of_lt (hbefore _ _ g₁ hscope))
    · exact h.distinct _ _ b₁ b₂ g₁ g₂ hscope hfrom
  · intro p₁ p₂ b₁ b₂ h₁ h₂ hscope hfrom
    rcases hget p₁ b₁ h₁ with ⟨rfl, rfl⟩ | ⟨_, g₁⟩ <;> rcases hget p₂ b₂ h₂ with ⟨rfl, rfl⟩ | ⟨_, g₂⟩
    · exact absurd hfrom (lt_irrefl _)
    · exact absurd hfrom (not_lt_of_gt (hbefore _ _ g₂ hscope.symm))
    · exact hafter _ _ g₁ hscope
    · exact h.disjoint _ _ b₁ b₂ g₁ g₂ hscope hfrom

/-! ### Closing a version -/

/-- No call that has left needs the version at `f` or later. -/
def Closable (c : Db) (p : String) (f : Time) : Prop :=
  ∀ id sc s, SentAt c id sc s → Covers c p sc s → s < f

theorem Closable.rely {f : Time} (h : Closable c p f) (hH : H (.price p))
    (hr : (ledgerDiscipline env).Rely H c c') : Closable c' p f := by
  intro id sc s hs hcov
  have hg : Guar (fun k => ¬ H k) c c' := hr.guar
  obtain ⟨hs', _⟩ := hg.sent id p sc s (fun hn => hn hH) hcov hs
  obtain ⟨a, ha, hrest⟩ := hcov
  exact h id sc s hs' ⟨a, (hr.rows _ hH).symm.trans ha, hrest⟩

/-- The two checks together: first no event of the version at `f` or later, then no
pending call of the scope.  A call completed between them would need the version's
lock. -/
theorem closable_of_checks {f : Time} (hc : LedgerInv env c) (ha : c.get (.price p) = some a)
    (hH : H (.price p)) (hr : (ledgerDiscipline env).Rely H c c')
    (hevents : ∀ n (e : EventRow), c.get (.event n) = some e → e.priceVersionId = p →
      e.startedAtUtc < f)
    (hpending : ∀ id (r : CallRow) s, c'.get (.call id) = some r → r.scope = a.scope →
      r.completable = true → r.startedAtUtc = some s → s < f) : Closable c' p f := by
  intro id sc s hs hcov
  have hg : Guar (fun k => ¬ H k) c c' := hr.guar
  obtain ⟨hs₀, hcompleted⟩ := hg.sent id p sc s (fun hn => hn hH) hcov hs
  obtain ⟨b, hb, hbs, hbc⟩ := hcov
  have hb₀ : c.get (.price p) = some b := (hr.rows _ hH).symm.trans hb
  obtain rfl : a = b := some.inj (ha.symm.trans hb₀)
  obtain ⟨r, hget, hsent, hstart, hsc⟩ := hs
  cases hst : r.status with
  | dispatching =>
    exact hpending id r s hget (hsc.trans hbs.symm) (by simp [CallRow.completable, hst]) hstart
  | unknown =>
    exact hpending id r s hget (hsc.trans hbs.symm) (by simp [CallRow.completable, hst]) hstart
  | completed =>
    obtain ⟨r₀, hget₀, hst₀⟩ := hcompleted ⟨r, hget, hst⟩
    obtain ⟨x, hx, _, hxs, hxsc⟩ := hs₀
    obtain rfl : r₀ = x := some.inj (hget₀.symm.trans hx)
    obtain ⟨n, hn⟩ := (hc.call id).completed.mpr ⟨r₀, hget₀, hst₀⟩
    obtain ⟨e, he, heid⟩ := ((hc.call id).index n).mp hn
    obtain ⟨_, hes, _, hcove⟩ := (hc.call id).event n e r₀ he heid hget₀
    obtain rfl : s = e.startedAtUtc := some.inj (hxs.symm.trans hes)
    have hpid : e.priceVersionId = p :=
      hc.price.unique (hxsc ▸ hcove) ⟨a, ha, hbs, hbc⟩
    exact hevents n e he hpid
  | prepared =>
    rw [hst] at hsent
    cases hsent
  | notSent =>
    rw [hst] at hsent
    cases hsent

/-! ### What a writer has written -/

/-- The keys of the catalogue. -/
def Key.catalog : Key → Bool
  | .priceScope _ | .price _ | .priceFrom _ _ | .priceOpen _ => true
  | _ => false

/-- Writes to the versions of one scope that keep the discipline. -/
structure CatalogOk (scope : Scope) (ws : List (Write Row)) (c : Db) : Prop where
  inv : PriceInv (c.applyAll ws)
  other : ∀ p (a : PriceRow), a.scope ≠ scope →
    ((c.applyAll ws).get (.price p) = some a ↔ c.get (.price p) = some a)
  facts : ∀ p (a : PriceRow), c.get (.price p) = some a →
    ∃ a' : PriceRow, (c.applyAll ws).get (.price p) = some a' ∧ a'.toPriceFacts = a.toPriceFacts
  cover : ∀ id p sc s, SentAt c id sc s → Covers c p sc s → Covers (c.applyAll ws) p sc s

theorem catalogOk_nil (h : PriceInv c) : CatalogOk scope [] c :=
  ⟨h, fun _ _ _ => Iff.rfl, fun _ a ha => ⟨a, ha, rfl⟩, fun _ _ _ _ _ h => h⟩

theorem catalogOk_close {f : Time} (h : PriceInv c) (ha : c.get (.price p) = some a)
    (hscope : a.scope = scope) (hopen : a.effectiveToUtc = none) (hf : a.effectiveFromUtc < f)
    (hclosable : Closable c p f) :
    CatalogOk scope [⟨.price p, some ({ a with effectiveToUtc := some f } : PriceRow)⟩] c := by
  refine ⟨h.close ha hopen hf, fun q b hb => ?_, fun q b hb => ?_, fun id q sc s hs hcov => ?_⟩
  · by_cases hq : q = p
    · subst hq
      rw [applyAll_cons, applyAll_nil, get_set_self, ha]
      constructor
      · intro hx
        cases hx
        exact absurd hscope hb
      · intro hx
        cases hx
        exact absurd hscope hb
    · rw [applyAll_cons, applyAll_nil, get_set_of_ne (by simpa using hq)]
  · by_cases hq : q = p
    · subst hq
      cases ha.symm.trans hb
      exact ⟨_, get_set_self _ _ _, rfl⟩
    · exact ⟨b, (get_set_of_ne (by simpa using hq)).trans hb, rfl⟩
  · have hlt : q = p → s < f := fun hq => hclosable id sc s hs (hq ▸ hcov)
    obtain ⟨b, hb, hbs, hbc⟩ := hcov
    by_cases hq : q = p
    · subst hq
      cases ha.symm.trans hb
      refine ⟨_, get_set_self _ _ _, hbs, PriceRow.contains_iff.mpr
        ⟨(PriceRow.contains_iff.mp hbc).1, fun u hu => ?_⟩⟩
      cases hu
      exact hlt rfl
    · exact ⟨b, (get_set_of_ne (by simpa using hq)).trans hb, hbs, hbc⟩

theorem CatalogOk.add (h : CatalogOk scope ws c) (hscope : row.scope = scope)
    (hnone : (c.applyAll ws).get (.price q) = none) (hopen : row.effectiveToUtc = none)
    (hafter : ∀ p (a : PriceRow), (c.applyAll ws).get (.price p) = some a → a.scope = row.scope →
      ∃ t, a.effectiveToUtc = some t ∧ t ≤ row.effectiveFromUtc) :
    CatalogOk scope (ws ++ [⟨.price q, some row⟩]) c := by
  have happ : c.applyAll (ws ++ [⟨.price q, some row⟩])
      = (c.applyAll ws).set (.price q) (some row) := by
    rw [applyAll_append]
    rfl
  have hne : ∀ {p : String} {a : PriceRow}, (c.applyAll ws).get (.price p) = some a → p ≠ q := by
    intro p a ha hp
    rw [hp, hnone] at ha
    cases ha
  refine ⟨?_, fun p a ha => ?_, fun p a ha => ?_, fun id p sc s hs hcov => ?_⟩
  · rw [happ]
    exact h.inv.add hnone hopen hafter
  · rw [happ, ← h.other p a ha]
    by_cases hp : p = q
    · subst hp
      rw [get_set_self, hnone]
      constructor
      · intro hx
        cases hx
        exact absurd hscope ha
      · intro hx
        cases hx
    · rw [get_set_of_ne (by simpa using hp)]
  · obtain ⟨a', ha', hf⟩ := h.facts p a ha
    rw [happ]
    exact ⟨a', (get_set_of_ne (by simpa using hne ha')).trans ha', hf⟩
  · obtain ⟨a', ha', hrest⟩ := h.cover id p sc s hs hcov
    rw [happ]
    exact ⟨a', (get_set_of_ne (by simpa using hne ha')).trans ha', hrest⟩

/-- The pending writes of a writer: those to the versions are `ws`, the others concern the
rows of the scope and the index entries. -/
structure CatalogPatch (scope : Scope) (ws : List (Write Row)) (d : Db) (H : Key → Prop) :
    Prop where
  lock : H (.priceScope scope)
  frame : ∀ (s : Db) k, k.catalog = false → (d ∪ s : Db).get k = s.get k
  scopeRow : ∀ (s : Db) sc, (s.get (.priceScope sc)).isSome = true →
    ((d ∪ s : Db).get (.priceScope sc)).isSome = true
  price : ∀ (s : Db) p, (d ∪ s : Db).get (.price p) = (s.applyAll ws).get (.price p)
  held : ∀ k ∈ ws.map Sigma.fst, H k

theorem CatalogPatch.committable (h : CatalogPatch scope ws d H)
    (hok : ∀ c', (ledgerDiscipline env).Rely H c c' → CatalogOk scope ws c') :
    Committable env c d H := by
  intro c' hrely
  have hinv : LedgerInv env c' := hrely.inv
  have ho := hok c' hrely
  refine (PriceChange.commit ⟨h.lock, fun id => ⟨h.frame c' _ rfl, h.frame c' _ rfl,
    fun n e _ => by rw [h.frame c' _ rfl], fun n x _ => by rw [h.frame c' _ rfl]⟩,
    fun n => h.frame c' _ rfl, h.frame c' _ rfl, fun p a ha => ?_, fun p a ha => ?_,
    fun p hp => ?_, h.scopeRow c', ?_, fun id p sc s hs hcov => ?_⟩ hinv)
  · rw [h.price]
    exact ho.other p a ha
  · rw [h.price]
    exact ho.facts p a ha
  · rw [h.price]
    exact get_applyAll_of_notMem fun hmem => hp (h.held _ hmem)
  · exact ⟨fun p a t ha => ho.inv.interval p a t (h.price c' p ▸ ha),
      fun p q a b ha hb => ho.inv.distinct p q a b (h.price c' p ▸ ha) (h.price c' q ▸ hb),
      fun p q a b ha hb => ho.inv.disjoint p q a b (h.price c' p ▸ ha) (h.price c' q ▸ hb)⟩
  · have := ho.cover id p sc s hs hcov
    unfold Covers at this ⊢
    rwa [h.price]

/-- The entries of the unique indexes of the versions. -/
def Key.priceIndex : Key → Bool
  | .priceFrom _ _ | .priceOpen _ => true
  | _ => false

theorem CatalogPatch.version {us : List (Write Row)} {id : String} {H' : Key → Prop}
    (h : CatalogPatch scope ws d H) (hH : ∀ k, H k → H' k) (hid : H' (.price id))
    (hus : ∀ k ∈ us.map Sigma.fst, k.priceIndex = true) :
    CatalogPatch scope (ws ++ [⟨.price id, some row⟩])
      (d.applyAll (⟨.price id, some row⟩ :: us)) H' := by
  have hget : ∀ (s : Db) k, k.priceIndex = false → (d.applyAll (⟨.price id, some row⟩ :: us) ∪ s
      : Db).get k = ((d ∪ s : Db).set (.price id) (some row)).get k := by
    intro s k hk
    rw [applyAll_union, applyAll_cons]
    refine get_applyAll_of_notMem fun hmem => ?_
    rw [hus k hmem] at hk
    cases hk
  refine ⟨hH _ h.lock, fun s k hk => ?_, fun s sc hs => ?_, fun s p => ?_, fun k hk => ?_⟩
  · have hne : k ≠ .price id := by
      rintro rfl
      cases hk
    rw [hget s k (by cases k <;> first | rfl | cases hk), get_set_of_ne hne, h.frame s k hk]
  · rw [hget s _ rfl, get_set_of_ne (by simp)]
    exact h.scopeRow s sc hs
  · rw [hget s _ rfl, applyAll_append]
    by_cases hp : p = id
    · subst hp
      simp
    · rw [get_set_of_ne (by simpa using hp), h.price]
      exact (get_set_of_ne (by simpa using hp)).symm
  · rw [map_append, mem_append] at hk
    rcases hk with hk | hk
    · exact hH _ (h.held k hk)
    · obtain rfl : k = .price id := by simpa using hk
      exact hid

/-! ### The rules of the writers -/

theorem scope_of_rely (hH : H (.priceScope scope)) (hr : (ledgerDiscipline env).Rely H c c')
    (ha : a.scope = scope) : c'.get (.price p) = some a ↔ c.get (.price p) = some a := by
  have hg : Guar (fun k => ¬ H k) c c' := hr.guar
  exact hg.scope p a fun hn => hn (ha ▸ hH)

variable {f : Unit → Tx α}

/-- `_scope_lock` leaves the transaction with the lock of the scope's row, which it has
created or found. -/
theorem wp_scopeLock_bind {now : Time}
    (h : ∀ c' d' H', (ledgerDiscipline env).Rely H c c' → CatalogPatch scope [] d' H' →
      (ledgerDiscipline env).wp A (f ()) Q (raises G) c' d' H') :
    (ledgerDiscipline env).wp A (scopeLock scope now >>= f) Q (raises G) c ∅ H := by
  have hpatch : ∀ (x : ScopeRow) (d : Db) (H' : Key → Prop),
      (∀ (s : Db) k, k ≠ .priceScope scope → (d ∪ s : Db).get k = s.get k) →
      H' (.priceScope scope) →
      CatalogPatch scope [] (d.set (.priceScope scope) (some x)) H' := by
    intro x d H' hd hlock
    refine ⟨hlock, fun s k hk => ?_, fun s sc hs => ?_, fun s p => ?_, fun k hk => by cases hk⟩
    · have hne : k ≠ .priceScope scope := by
        rintro rfl
        cases hk
      rw [set_union, get_set_of_ne hne, hd s k hne]
    · rw [set_union]
      by_cases hsc : sc = scope
      · subst hsc
        rw [get_set_self]
        rfl
      · have hne : Key.priceScope sc ≠ .priceScope scope := by simpa using hsc
        rw [get_set_of_ne hne, hd s _ hne]
        exact hs
    · rw [set_union, get_set_of_ne (by simp), hd s _ (by simp)]
      rfl
  unfold scopeLock
  simp only [Prog.bind_assoc]
  refine wp_insertOrSkip_bind (fun c₁ hr₁ hsome => ?_) (fun _ _ _ ht => by cases ht)
    fun c₁ hr₁ _ _ => ?_
  · rw [empty_union] at hsome
    refine wp_updateWhere_bind (fun c₂ hr₂ hmiss => ?_) fun c₂ (x : ScopeRow) hr₂ hget _ => ?_
    · -- a scope's row is never deleted
      have hg : Guar (fun k => ¬ H k) c₁ c₂ := hr₂.guar
      obtain ⟨x, hx⟩ := isSome_iff_exists.mp (hg.scopeRow scope hsome)
      rw [empty_union] at hmiss
      exact absurd (hmiss x hx) (by simp)
    · refine h c₂ _ _ (hr₁.trans hr₂) (hpatch _ ∅ _ (fun s k _ => ?_) (Or.inr rfl))
      rw [empty_union]
  · have hd : ∀ (s : Db) k, k ≠ .priceScope scope →
        ((∅ : Db).set (.priceScope scope) (some (⟨0, now⟩ : ScopeRow)) ∪ s : Db).get k = s.get k := by
      intro s k hk
      rw [set_union, empty_union, get_set_of_ne hk]
    refine wp_updateWhere_bind (fun c₂ hr₂ hmiss => ?_) fun c₂ (x : ScopeRow) hr₂ _ _ => ?_
    · refine absurd (hmiss ⟨0, now⟩ ?_) (by simp)
      simp
    · refine h c₂ _ _ (hr₁.trans (hr₂.mono fun k hk => Or.inl hk)) (hpatch _ _ _ hd (Or.inr rfl))

theorem wp_closeRow_bind (hd : CatalogPatch scope [] d H) (hlock : H (.price p))
    (ha : c.get (.price p) = some a) (hscope : a.scope = scope) (hopen : a.effectiveToUtc = none)
    (hf : a.effectiveFromUtc < t) (hclosable : Closable c p t)
    (h : ∀ c' d' H', (ledgerDiscipline env).Rely H c c' →
      CatalogPatch scope [⟨.price p, some ({ a with effectiveToUtc := some t } : PriceRow)⟩] d' H' →
      (∀ k, H k → H' k) → (∀ c'', (ledgerDiscipline env).Rely H' c' c'' → CatalogOk scope
        [⟨.price p, some ({ a with effectiveToUtc := some t } : PriceRow)⟩] c'') →
      (ledgerDiscipline env).wp A (f ()) Q (raises G) c' d' H') :
    (ledgerDiscipline env).wp A (closeRow p t >>= f) Q (raises G) c d H := by
  refine wp_statement_bind fun c₁ hr₁ => ?_
  have ha₁ : c₁.get (.price p) = some a := (hr₁.rows _ hlock).trans ha
  have hv : ((d ∪ c₁ : Db).get (.price p) : Option PriceRow) = some a := by
    rw [hd.price]
    exact ha₁
  refine h c₁ _ _ hr₁ ?_ (fun k hk => Or.inl hk) fun c₂ hr₂ => ?_
  · rw [hv]
    exact hd.version (fun k hk => Or.inl hk) (Or.inl hlock) (by simp [Key.priceIndex])
  · have hr : (ledgerDiscipline env).Rely H c₁ c₂ := hr₂.mono fun k hk => Or.inl hk
    have hinv : LedgerInv env c₂ := hr₂.inv
    exact catalogOk_close hinv.price ((hr.rows _ hlock).trans ha₁) hscope hopen hf
      (((hclosable.rely hlock hr₁)).rely hlock hr)

/-- The versions of the scope end before the new one starts, in the pending writes. -/
def Before (scope : Scope) (f : Time) (ws : List (Write Row)) (c : Db) : Prop :=
  ∀ p (a : PriceRow), (c.applyAll ws).get (.price p) = some a → a.scope = scope →
    ∃ t, a.effectiveToUtc = some t ∧ t ≤ f

theorem newest_last {p : String × PriceRow} (hc : PriceInv c)
    (hnew : newest (versions c scope) = some p) {b : PriceRow} (hb : c.get (.price q) = some b)
    (hscope : b.scope = scope) :
    q = p.1 ∨ ∃ t, b.effectiveToUtc = some t ∧ t ≤ p.2.effectiveFromUtc := by
  obtain ⟨hget, hps⟩ := mem_versions.mp (mem_of_newest hnew)
  have hle : b.effectiveFromUtc ≤ p.2.effectiveFromUtc :=
    le_of_mem_argmax (f := fun x : String × PriceRow => x.2.effectiveFromUtc)
      (mem_versions.mpr ⟨hb, hscope⟩ : (q, b) ∈ versions c scope) hnew
  rcases hle.lt_or_eq with hlt | heq
  · exact .inr (hc.disjoint q p.1 b p.2 hb hget (hscope.trans hps.symm) hlt)
  · exact .inl (hc.distinct q p.1 b p.2 hb hget (hscope.trans hps.symm) heq)

theorem CatalogPatch.mono {H' : Key → Prop} (h : CatalogPatch scope ws d H) (hH : ∀ k, H k → H' k) :
    CatalogPatch scope ws d H' :=
  ⟨hH _ h.lock, h.frame, h.scopeRow, h.price, fun k hk => hH _ (h.held k hk)⟩

theorem CatalogPatch.priceInv (h : CatalogPatch scope [] d H) (s : Db) :
    PriceInv s → PriceInv (d ∪ s) := fun hs =>
  ⟨fun p a t ha => hs.interval p a t (h.price s p ▸ ha),
    fun p q a b ha hb => hs.distinct p q a b (h.price s p ▸ ha) (h.price s q ▸ hb),
    fun p q a b ha hb => hs.disjoint p q a b (h.price s p ▸ ha) (h.price s q ▸ hb)⟩

theorem not_pending (hd : ∀ (s : Db) k, k.catalog = false → (d ∪ s : Db).get k = s.get k)
    (hnone : ¬ ((calls (d ∪ c)).any fun c => c.2.scope = scope &&
      (c.2.status = .dispatching || c.2.status = .unknown) &&
        c.2.startedAtUtc.any (t ≤ ·)) = true) {id : String} {r : CallRow} {s : Time}
    (hr : c.get (.call id) = some r) (hscope : r.scope = scope) (hcomp : r.completable = true)
    (hs : r.startedAtUtc = some s) : s < t := by
  have hmem : (id, r) ∈ calls (d ∪ c) := mem_calls.mpr ((hd c _ rfl).trans hr)
  unfold CallRow.completable at hcomp
  by_contra hge
  refine hnone (List.any_eq_true.mpr ⟨_, hmem, ?_⟩)
  simp_all

theorem before_close (hf : a.effectiveFromUtc < t)
    (hlast : ∀ q (b : PriceRow), c.get (.price q) = some b → b.scope = scope → q ≠ p →
      ∃ u, b.effectiveToUtc = some u ∧ u ≤ a.effectiveFromUtc) :
    Before scope t [⟨.price p, some ({ a with effectiveToUtc := some t } : PriceRow)⟩] c := by
  intro q b hb hbs
  rw [applyAll_cons, applyAll_nil] at hb
  by_cases hq : q = p
  · subst hq
    rw [get_set_self] at hb
    cases hb
    exact ⟨t, rfl, le_rfl⟩
  · rw [get_set_of_ne (by simpa using hq)] at hb
    obtain ⟨u, hu, hle⟩ := hlast q b hb hbs hq
    exact ⟨u, hu, hle.trans hf.le⟩

/-- `_close_predecessor` leaves every version of the scope closed before the successor
starts. -/
theorem wp_closePredecessor_bind {supersedes : String} (hG : ∀ e, G e)
    (hd : CatalogPatch scope [] d H)
    (h : ∀ c' d' H' ws, (ledgerDiscipline env).Rely H c c' → CatalogPatch scope ws d' H' →
      (∀ c'', (ledgerDiscipline env).Rely H' c' c'' →
        CatalogOk scope ws c'' ∧ Before scope t ws c'') →
      (ledgerDiscipline env).wp A (f ()) Q (raises G) c' d' H') :
    (ledgerDiscipline env).wp A (closePredecessor scope t supersedes >>= f) Q (raises G) c d H := by
  unfold closePredecessor
  simp only [Prog.bind_assoc]
  refine wp_readRow_bind fun c₁ hr₁ => wp_orRaise_bind (fun _ _ => ?_) fun _ _ _ => hG _
  refine wp_raiseIf_bind (fun _ => ?_) fun _ _ _ => hG _
  refine wp_statement_bind fun c₂ hr₂ => wp_orRaise_bind (fun p hp => ?_) fun _ _ _ => hG _
  obtain ⟨hnew, hid⟩ := filter_eq_some_iff.mp hp
  obtain rfl : p.1 = supersedes := by simpa using hid
  refine wp_raiseIf_bind (fun hlate => ?_) fun _ _ _ => hG _
  refine wp_raiseIf_bind (fun hend => ?_) fun _ _ _ => hG _
  -- from here on the row of the newest version is locked
  have hgrow : ∀ k, H k → grow H (fun v : Db => ((newest (versions v scope)).map fun p =>
      Key.price p.1).toList) (fun _ => []) (d ∪ c₂) k := fun _ hk => Or.inl hk
  have hlock : grow H (fun v : Db => ((newest (versions v scope)).map fun p =>
      Key.price p.1).toList) (fun _ => []) (d ∪ c₂) (.price p.1) :=
    Or.inr (by simp [needed, hnew])
  generalize grow H (fun v : Db => ((newest (versions v scope)).map fun p =>
      Key.price p.1).toList) (fun _ => []) (d ∪ c₂) = H₂ at hgrow hlock ⊢
  have hd₂ : CatalogPatch scope [] d H₂ := hd.mono hgrow
  have hinv₂ : LedgerInv env c₂ := hr₂.inv
  obtain ⟨hget, hscope⟩ := mem_versions.mp (mem_of_newest hnew)
  replace hget : c₂.get (.price p.1) = some p.2 := (hd.price c₂ p.1).symm.trans hget
  -- the other versions of the scope end before it starts
  have hlast : ∀ c', (ledgerDiscipline env).Rely H₂ c₂ c' → ∀ q (b : PriceRow),
      c'.get (.price q) = some b → b.scope = scope → q ≠ p.1 →
      ∃ u, b.effectiveToUtc = some u ∧ u ≤ p.2.effectiveFromUtc := by
    intro c' hr' q b hb hbs hq
    have hb₂ := (scope_of_rely hd₂.lock hr' hbs).mp hb
    exact (newest_last (hd.priceInv c₂ hinv₂.price) hnew ((hd.price c₂ q).trans hb₂)
      hbs).resolve_left hq
  have hr₂' : (ledgerDiscipline env).Rely H c c₂ := hr₁.trans hr₂
  simp only [rejectRetroactiveClose, Prog.bind_assoc]
  refine wp_select_bind fun c₃ hr₃ => wp_raiseIf_bind (fun hused => ?_) fun _ _ _ => hG _
  have hget₃ := (hr₃.rows _ hlock).trans hget
  have hinv₃ : LedgerInv env c₃ := hr₃.inv
  by_cases hopen : p.2.effectiveToUtc = none
  · have hft : p.2.effectiveFromUtc < t := by simpa [hopen] using hlate
    rw [if_pos hopen]
    simp only [rejectPendingDispatches, Prog.bind_assoc]
    refine wp_select_bind fun c₄ hr₄ => wp_raiseIf_bind (fun hpending => ?_) fun _ _ _ => hG _
    have hclosable : Closable c₄ p.1 t := by
      refine closable_of_checks hinv₃ hget₃ hlock hr₄ (fun n e he hpv => ?_)
        fun id r s hr hrs hcomp hs => not_pending (d := d) hd₂.frame hpending hr
          (hrs.trans hscope) hcomp hs
      have hmem : (n, e) ∈ events (d ∪ c₃) := mem_events.mpr ((hd₂.frame c₃ _ rfl).trans he)
      by_contra hge
      exact hused (List.any_eq_true.mpr ⟨_, hmem, by simp [hpv, not_lt.mp hge]⟩)
    refine wp_closeRow_bind hd₂ hlock ((hr₄.rows _ hlock).trans hget₃) hscope hopen hft hclosable
      fun c₅ d' H' hr₅ hd' hH' hok => h c₅ d' H' _ ?_ hd' fun c₆ hr₆ => ⟨hok c₆ hr₆, ?_⟩
    · exact hr₂'.trans (((hr₃.trans hr₄).trans hr₅).mono hgrow)
    · exact before_close hft fun q b hb hbs hq => hlast c₆
        (((hr₃.trans hr₄).trans hr₅).trans (hr₆.mono hH')) q b hb hbs hq
  · rw [if_neg hopen]
    refine h c₃ d H₂ [] (hr₂'.trans (hr₃.mono hgrow)) hd₂ fun c₄ hr₄ => ⟨?_, fun q b hb hbs => ?_⟩
    · have hinv₄ : LedgerInv env c₄ := hr₄.inv
      exact catalogOk_nil hinv₄.price
    · obtain ⟨u, hu⟩ := ne_none_iff_exists'.mp hopen
      have hut : u ≤ t := by simpa [hu] using hend
      by_cases hq : q = p.1
      · subst hq
        cases ((hr₄.rows _ hlock).trans hget₃).symm.trans hb
        exact ⟨u, hu, hut⟩
      · obtain ⟨w, hw, hle⟩ := hlast c₄ (hr₃.trans hr₄) q b hb hbs hq
        have hpu := hinv₂.price.interval p.1 p.2 u hget hu
        exact ⟨w, hw, hle.trans (hpu.le.trans hut)⟩

/-- The version `insertVersion` adds follows those of its scope. -/
theorem wp_insertVersion_bind (hG : ∀ e, G e) (hopen : row.effectiveToUtc = none)
    (hd : CatalogPatch row.scope ws d H) (hok : ∀ c', (ledgerDiscipline env).Rely H c c' →
      CatalogOk row.scope ws c' ∧ Before row.scope row.effectiveFromUtc ws c')
    (h : ∀ c' d' H', (ledgerDiscipline env).Rely H c c' → Committable env c' d' H' →
      (ledgerDiscipline env).wp A (f ()) Q (raises G) c' d' H') :
    (ledgerDiscipline env).wp A (insertVersion q row >>= f) Q (raises G) c d H := by
  unfold insertVersion
  refine wp_insert_bind (fun _ _ => hG _) fun c₁ hr₁ hfree => ?_
  have hnone : (d ∪ c₁ : Db).get (.price q) = none := by
    have := (List.any_eq_false.mp hfree) (.price q) (by simp)
    simpa using this
  refine h c₁ _ _ hr₁ (CatalogPatch.committable
    (hd.version (fun k hk => Or.inl hk) (Or.inr (by simp)) (by simp [Key.priceIndex]))
    fun c₂ hr₂ => ?_)
  have hr : (ledgerDiscipline env).Rely H c₁ c₂ := hr₂.mono fun k hk => Or.inl hk
  obtain ⟨hcat, hbefore⟩ := hok c₂ (hr₁.trans hr)
  refine hcat.add rfl ?_ hopen hbefore
  rw [← hd.price, hr₂.view d (Or.inr (by simp))]
  exact hnone

theorem wp_register_bind {a : RegisterArgs} {f : PriceVersion → Tx α} (hG : ∀ e, G e)
    (h : ∀ v, WpRest env A Q G c (f v)) :
    (ledgerDiscipline env).wp A (register env a >>= f) Q (raises G) c ∅ H := by
  unfold register
  rw [Prog.bind_assoc]
  refine wp_check_bind (fun row hrow => ?_) fun _ _ _ _ => hG _
  obtain ⟨hopen, _⟩ := validateRegister_ok hrow
  simp only [Prog.bind_assoc]
  refine wp_scopeLock_bind fun c₁ d₁ H₁ hr₁ hd₁ => ?_
  refine wp_savepoint_raises_bind hr₁.inv ?_ fun e _ _ _ => hG e
  -- what follows the savepoint, once the writes may be committed
  have hend : ∀ c₃ d₃ H₃, (ledgerDiscipline env).Rely (fun _ => False) c₁ c₃ →
      Committable env c₃ d₃ H₃ →
      (ledgerDiscipline env).wp A (readRow (.price ("price_" ++ a.token)) >>= fun stored =>
        orRaise (stored : Option PriceRow) (priceNotFound "Price version was not found") >>=
        fun stored => pure { toPriceRow := stored, id := "price_" ++ a.token } >>= f) Q
        (raises G) c₃ d₃ H₃ := by
    intro c₃ d₃ H₃ hr₃ hcommit
    refine wp_readRow_bind fun c₄ hr₄ => wp_orRaise_bind (fun v _ => ?_) fun _ _ _ => hG _
    exact h _ c₄ d₃ H₃ ((rely_none hr₁).trans (hr₃.trans (rely_none hr₄)))
      fun c' hr' => hcommit c' (hr₄.trans hr')
  -- the insert, once every version of the scope is closed
  have hinsert : ∀ c₂ d₂ H₂ ws, (ledgerDiscipline env).Rely H₁ c₁ c₂ →
      CatalogPatch row.scope ws d₂ H₂ → (∀ c'', (ledgerDiscipline env).Rely H₂ c₂ c'' →
        CatalogOk row.scope ws c'' ∧ Before row.scope row.effectiveFromUtc ws c'') →
      (ledgerDiscipline env).wp (fun _ _ => True) (insertVersion ("price_" ++ a.token) row)
        (fun _ => (ledgerDiscipline env).wp A (readRow (.price ("price_" ++ a.token)) >>=
          fun stored => orRaise (stored : Option PriceRow)
            (priceNotFound "Price version was not found") >>=
          fun stored => pure { toPriceRow := stored, id := "price_" ++ a.token } >>= f) Q
          (raises G)) (raises fun _ => True) c₂ d₂ H₂ := by
    intro c₂ d₂ H₂ ws hr₂ hd₂ hok
    rw [← Prog.bind_done (insertVersion ("price_" ++ a.token) row)]
    refine wp_insertVersion_bind (fun _ => trivial) hopen hd₂ hok
      fun c₃ d₃ H₃ hr₃ hcommit c₄ hr₄ => ?_
    exact hend c₄ d₃ H₃ ((rely_none hr₂).trans ((rely_none hr₃).trans (rely_none hr₄)))
      fun c' hr' => hcommit c' (hr₄.trans hr')
  unfold addVersion supersede
  cases row.supersedesVersionId with
  | some supersedes =>
    exact wp_closePredecessor_bind (fun _ => trivial) hd₁ fun c₂ d₂ H₂ ws hr₂ hd₂ hok =>
      hinsert c₂ d₂ H₂ ws hr₂ hd₂ hok
  | none =>
    simp only [ensureNoHistory, Prog.bind_assoc]
    refine wp_select_bind fun c₂ hr₂ => wp_raiseIf_bind (fun hnone => ?_) fun _ _ _ => trivial
    refine hinsert c₂ d₁ H₁ [] hr₂ hd₁ fun c₃ hr₃ => ⟨?_, fun p b hb hbs => ?_⟩
    · have hinv₃ : LedgerInv env c₃ := hr₃.inv
      exact catalogOk_nil hinv₃.price
    · have hb₂ := (scope_of_rely hd₁.lock hr₃ hbs).mp hb
      have hmem : (p, b) ∈ versions (d₁ ∪ c₂) row.scope :=
        mem_versions.mpr ⟨(hd₁.price c₂ p).trans hb₂, hbs⟩
      rw [not_not.mp hnone] at hmem
      cases hmem

theorem wp_closeVersion_bind {now : Time} (hG : ∀ e, G e) (h : WpRest env A Q G c (f ())) :
    (ledgerDiscipline env).wp A (closeVersion p t now >>= f) Q (raises G) c ∅ H := by
  unfold closeVersion
  simp only [Prog.bind_assoc]
  refine wp_readRow_bind fun c₁ hr₁ => wp_orRaise_bind (fun (row : PriceRow) hrow => ?_)
    fun _ _ _ => hG _
  rw [empty_union] at hrow
  refine wp_scopeLock_bind fun c₂ d₂ H₂ hr₂ hd₂ => ?_
  refine wp_lockRow_bind (fun c₃ _ _ => fun _ _ => hG _) fun c₃ (a : PriceRow) hr₃ hget => ?_
  replace hget : c₃.get (.price p) = some a := (hd₂.price c₃ p).symm.trans hget
  have hscope : a.scope = row.scope := by
    have hg : Guar (fun k => ¬ False) c₁ c₃ := ((rely_none hr₂).trans (rely_none hr₃)).guar
    obtain ⟨a', ha', hf⟩ := hg.facts p row hrow
    obtain rfl : a' = a := some.inj (ha'.symm.trans hget)
    exact congrArg PriceFacts.scope hf
  have hd₃ : CatalogPatch row.scope [] d₂ (fun k => H₂ k ∨ k = .price p) :=
    hd₂.mono fun k hk => Or.inl hk
  have hlock : (fun k => H₂ k ∨ k = Key.price p) (.price p) := Or.inr rfl
  refine wp_orRaise_bind (fun b hb => ?_) fun _ _ _ => hG _
  cases hb
  refine wp_raiseIf_bind (fun hopen => ?_) fun _ _ _ => hG _
  refine wp_raiseIf_bind (fun hlate => ?_) fun _ _ _ => hG _
  have hinv₃ : LedgerInv env c₃ := hr₃.inv
  simp only [rejectAnyUsage, rejectPendingDispatches, Prog.bind_assoc]
  refine wp_select_bind fun c₄ hr₄ => wp_raiseIf_bind (fun hused => ?_) fun _ _ _ => hG _
  refine wp_select_bind fun c₅ hr₅ => wp_raiseIf_bind (fun hpending => ?_) fun _ _ _ => hG _
  have hinv₄ : LedgerInv env c₄ := hr₄.inv
  have hget₄ := (hr₄.rows _ hlock).trans hget
  have hclosable : Closable c₅ p t := by
    refine closable_of_checks hinv₄ hget₄ hlock hr₅ (fun n e he hpv => ?_)
      fun id r s hr hrs hcomp hs => not_pending (d := d₂) hd₂.frame hpending hr
        (hrs.trans hscope) hcomp hs
    have hmem : (n, e) ∈ events (d₂ ∪ c₄) := mem_events.mpr ((hd₂.frame c₄ _ rfl).trans he)
    exact absurd (List.any_eq_true.mpr ⟨_, hmem, by simp [hpv]⟩) hused
  refine wp_closeRow_bind hd₃ hlock ((hr₅.rows _ hlock).trans hget₄) hscope (not_not.mp hopen)
    (not_le.mp hlate) hclosable fun c₆ d' H' hr₆ hd' _ hok => h c₆ d' H' ?_ (hd'.committable hok)
  exact (rely_none hr₁).trans ((rely_none hr₂).trans ((rely_none hr₃).trans
    ((rely_none hr₄).trans ((rely_none hr₅).trans (rely_none hr₆)))))

end RagQs.Usage
