import RagQs.Usage.QuotaInvariant

/-!
# The appends and the rebuild under interference

The rule of each transaction of the quota ledger, for every discipline that includes the
one of the ledger.

## Main definitions

* `Unwritten` — a transaction has written nothing that counts yet.
* `Kept` — its writes keep the discipline of the ledger.

## Main results

* `wp_appendEntry_bind` — the rule of the last steps of an append.
* `wp_appendDebit_bind`, `wp_appendReversal_bind`, `wp_appendSupplement_bind`,
  `wp_appendCredit_bind`, `wp_rebuildProjection_bind` — the rules of the transactions.
-/

namespace RagQs.Usage

open Txn Txn.Discipline Store List Option

variable {now : Time} {u : EntryIndex} {row : QuotaDebitRow}
variable {id : String} {g : (k : Key) → Row k → ℤ} {a : AdjustmentArgs}

section Rules

variable {α : Type} {env : Env} {D : Discipline Row} {A : Tx α → Db → Prop} {Q : α → Assn Row}
  {E : Err → Assn Row} {c d : Db} {H : Key → Prop} {subject period : String}

/-! ### The projection row -/

/-- The second view differs from the first one in the row of one key. -/
def Frame (k : Key) (d d' : Db) : Prop :=
  ∀ k', k' ≠ k → ∀ c : Db, (d' ∪ c : Db).get k' = (d ∪ c : Db).get k'

theorem Frame.refl (k : Key) (d : Db) : Frame k d d := fun _ _ _ => rfl

theorem Frame.set {k : Key} {d d' : Db} (h : Frame k d d') (r : Option (Row k)) :
    Frame k d (d'.set k r) := fun k' hk c => by
  rw [set_union, get_set_of_ne hk, h k' hk]

theorem locked_twice (H : Key → Prop) (k : Key) :
    (fun k' => (H k' ∨ k' = k) ∨ k' = k) = fun k' => H k' ∨ k' = k := by
  funext k'
  simp

/-- The rule of `ensureProjection`: the row it locks says what the view said before. -/
theorem wp_ensureProjection_bind (hD : KeepsQuota D) {f : Option QuotaProjectionRow → Tx α}
    (h : ∀ c' d' (p : QuotaProjectionRow), D.Rely H c c' →
      Frame (.quotaProjection subject period) d d' →
      (d' ∪ c' : Db).get (.quotaProjection subject period) = some p →
      p.used = usedOf (d ∪ c') subject period →
      p.extraGranted = grantedOf (d ∪ c') subject period →
      D.wp A (f (some p)) Q E c' d' (fun k => H k ∨ k = .quotaProjection subject period))
    (hE : ∀ e c' d' H', D.Rely H c c' → E e c' d' H') :
    D.wp A (ensureProjection env subject period now >>= f) Q E c d H := by
  unfold ensureProjection
  simp only [Prog.bind_assoc]
  refine wp_insertOrSkip_bind (fun c₁ hr₁ hsome => ?_)
    (fun _ c₂ hr₁ _ hr₂ => hE _ c₂ d H (hr₁.trans hr₂)) fun c₁ hr₁ hfree _ => ?_
  · refine wp_lockRow_bind (fun c₂ hr₂ hnone => ?_) fun c₂ p hr₂ hget => ?_
    · -- a projection row is never deleted
      have hkept : ((d ∪ c₂ : Db).get (.quotaProjection subject period)).isSome = true := by
        by_cases hmem : Key.quotaProjection subject period ∈ d
        · rw [get_union_of_mem hmem] at hsome ⊢
          exact hsome
        · rw [get_union_of_notMem hmem] at hsome ⊢
          exact (hD.guar _ _ _ hr₂.guar).projection subject period hsome
      rw [hnone] at hkept
      cases hkept
    · refine h c₂ d p (hr₁.trans hr₂) (.refl _ d) hget ?_ ?_
      · unfold usedOf
        rw [hget]
      · unfold grantedOf
        rw [hget]
  · have hH : writing H ([⟨.quotaProjection subject period, some (initialProjection env now)⟩] :
        List (Write Row)) = fun k => H k ∨ k = .quotaProjection subject period := by
      funext k
      simp [writing]
    rw [hH]
    refine wp_lockRow_bind (fun c₂ hr₂ hnone => ?_) fun c₂ (p : QuotaProjectionRow) hr₂ hget => ?_
    · simp at hnone
    · have hview : (d ∪ c₂ : Db).get (.quotaProjection subject period) = none := by
        rw [hr₂.view d (.inr rfl), hfree]
      have hp : p = initialProjection env now := by
        simpa using hget.symm
      subst hp
      rw [locked_twice]
      refine h c₂ _ _ (hr₁.trans (hr₂.mono fun _ hk => .inl hk))
        ((Frame.refl _ d).set _) hget ?_ ?_
      · unfold usedOf
        rw [hview]
        rfl
      · unfold grantedOf
        rw [hview]
        rfl

/-- The rule of `lockProjection`. -/
theorem wp_lockProjection_bind (hD : KeepsQuota D) {f : QuotaProjectionRow → Tx α}
    (h : ∀ c' d' (p : QuotaProjectionRow), D.Rely H c c' →
      Frame (.quotaProjection subject period) d d' →
      (d' ∪ c' : Db).get (.quotaProjection subject period) = some p →
      p.used = usedOf (d ∪ c') subject period →
      p.extraGranted = grantedOf (d ∪ c') subject period →
      D.wp A (f p) Q E c' d' (fun k => H k ∨ k = .quotaProjection subject period))
    (hE : ∀ e c' d' H', D.Rely H c c' → E e c' d' H') :
    D.wp A (lockProjection env subject period now >>= f) Q E c d H := by
  unfold lockProjection
  rw [Prog.bind_assoc]
  exact wp_ensureProjection_bind hD h hE

theorem wp_updateProjectionLocked_bind (hD : KeepsQuota D) {debitDelta creditDelta : ℤ}
    {last : Option String} {f : Unit → Tx α} (h : ∀ c' d' (p : QuotaProjectionRow), D.Rely H c c' →
      Frame (.quotaProjection subject period) d d' →
      (∀ c'' : Db, (d' ∪ c'' : Db).get (.quotaProjection subject period) = some p) →
      p.used = usedOf (d ∪ c') subject period + debitDelta →
      p.extraGranted = grantedOf (d ∪ c') subject period + creditDelta →
      D.wp A (f ()) Q E c' d' (fun k => H k ∨ k = .quotaProjection subject period))
    (hE : ∀ e c' d' H', D.Rely H c c' → E e c' d' H') :
    D.wp A (updateProjectionLocked env subject period debitDelta creditDelta last now >>= f) Q E
      c d H := by
  unfold updateProjectionLocked
  simp only [Prog.bind_assoc]
  refine wp_lockProjection_bind hD (fun c₁ d₁ p hr₁ hframe hget hused hgranted => ?_) hE
  refine wp_updateWhere_bind (fun c₂ hr₂ hmiss => ?_)
    fun c₂ (q : QuotaProjectionRow) hr₂ hq _ => ?_
  · have := hmiss p ((hr₂.view d₁ (.inr rfl)).trans hget)
    cases this
  · cases ((hr₂.view d₁ (.inr rfl)).trans hget).symm.trans hq
    rw [locked_twice]
    have hview : (d ∪ c₂ : Db).get (.quotaProjection subject period)
        = (d ∪ c₁ : Db).get (.quotaProjection subject period) := hr₂.view d (.inr rfl)
    refine h c₂ _ (p.add env debitDelta creditDelta last now)
      (hr₁.trans (hr₂.mono fun _ hk => .inl hk)) (hframe.set _) (fun c'' => by simp) ?_ ?_
    · show p.used + debitDelta = _
      rw [hused]
      unfold usedOf
      rw [hview]
    · show p.extraGranted + creditDelta = _
      rw [hgranted]
      unfold grantedOf
      rw [hview]

/-! ### Entries -/

theorem wp_existingEntry_bind {fingerprint : String} {f : Option String → Tx α}
    (hnone : ∀ c', D.Rely H c c' → D.wp A (f none) Q E c' d H)
    (hsome : ∀ c' id, D.Rely H c c' → (d ∪ c' : Db).get (.quotaIndex u) = some id →
      D.wp A (f (some id)) Q E c' d H) (hE : ∀ e c' d' H', D.Rely H c c' → E e c' d' H') :
    D.wp A (existingEntry u fingerprint >>= f) Q E c d H := by
  unfold existingEntry
  simp only [Prog.bind_assoc]
  refine wp_select_bind fun c₁ hr₁ => ?_
  cases hentry : entryByIndex (d ∪ c₁) u with
  | none => exact hnone c₁ hr₁
  | some x =>
    obtain ⟨id, r⟩ := x
    have hindex : (d ∪ c₁ : Db).get (.quotaIndex u) = some id := by
      unfold entryByIndex at hentry
      split at hentry
      · cases hentry
      · next id' hid =>
        rw [map_eq_some_iff] at hentry
        obtain ⟨_, _, heq⟩ := hentry
        cases heq
        exact hid
    dsimp only
    simp only [Prog.bind_assoc]
    exact wp_raiseIf_bind (fun _ => hsome c₁ id hr₁ hindex)
      fun _ c₂ hr₂ => hE _ c₂ d H (hr₁.trans hr₂)

theorem wp_insertEntry_bind {f : String × Bool → Tx α}
    (hsame : ∀ c' id', D.Rely H c c' → (d ∪ c' : Db).get (.quotaIndex u) = some id' →
      D.wp A (f (id', false)) Q E c' d H)
    (hnew : ∀ c', D.Rely H c c' → (d ∪ c' : Db).get (.quotaIndex u) = none →
      (d ∪ c' : Db).get (.quotaDebit id) = none →
      D.wp A (f (id, true)) Q E c'
        ((d.set (.quotaDebit id) (some row)).set (.quotaIndex u) (some id))
        (fun k => H k ∨ k = .quotaDebit id ∨ k = .quotaIndex u))
    (hE : ∀ e c' d' H', D.Rely H c c' → E e c' d' H') :
    D.wp A (insertEntry u id row >>= f) Q E c d H := by
  unfold insertEntry
  simp only [Prog.bind_assoc]
  refine wp_existingEntry_bind (fun c₁ hr₁ => ?_) (fun c₁ id' hr₁ hget => hsame c₁ id' hr₁ hget) hE
  dsimp only
  simp only [Prog.bind_assoc]
  refine wp_insertOrSkip_bind (fun c₂ hr₂ _ => ?_)
    (fun _ c₃ hr₂ _ hr₃ => hE _ c₃ d H ((hr₁.trans hr₂).trans hr₃)) fun c₂ hr₂ hfree hother => ?_
  · simp only [if_neg Bool.false_ne_true, Prog.bind_assoc]
    have hE₂ : ∀ e c' d' H', D.Rely H c₂ c' → E e c' d' H' := fun e c' d' H' hr' =>
      hE e c' d' H' ((hr₁.trans hr₂).trans hr')
    refine wp_existingEntry_bind (fun c₃ hr₃ => ?_) (fun c₃ id' hr₃ hget => ?_) hE₂
    · exact fun c₄ hr₄ => hE₂ _ c₄ d H (hr₃.trans hr₄)
    · exact hsame c₃ id' ((hr₁.trans hr₂).trans hr₃) hget
  · have hH : writing H ([⟨.quotaDebit id, some row⟩, ⟨.quotaIndex u, some id⟩] :
        List (Write Row)) = fun k => H k ∨ k = .quotaDebit id ∨ k = .quotaIndex u := by
      funext k
      simp [writing]
    rw [hH]
    refine hnew c₂ (hr₁.trans hr₂) hfree ?_
    simpa [taken] using hother

/-- A transaction has written no row of the ledger; where it has created the projection row
of the subject and the period, that row counts as none. -/
structure Unwritten (D : Discipline Row) (H : Key → Prop) (c d : Db) (subject period : String) :
    Prop where
  others : ∀ k : Key, k.isQuota = true → k ≠ .quotaProjection subject period → ∀ c' : Db,
    (d ∪ c' : Db).get k = c'.get k
  used : ∀ c', D.Rely H c c' → usedOf (d ∪ c') subject period = usedOf c' subject period
  granted : ∀ c', D.Rely H c c' → grantedOf (d ∪ c') subject period = grantedOf c' subject period
  projection : ∀ c' : Db, (c'.get (.quotaProjection subject period)).isSome = true →
    ((d ∪ c' : Db).get (.quotaProjection subject period)).isSome = true

theorem Unwritten.rely (h : Unwritten D H c d subject period) {H' : Key → Prop} {c' : Db}
    (hr : D.Rely H c c') (hH : ∀ k, H k → H' k) : Unwritten D H' c' d subject period :=
  ⟨h.others, fun c'' hr' => h.used c'' (hr.trans (hr'.mono hH)),
    fun c'' hr' => h.granted c'' (hr.trans (hr'.mono hH)), h.projection⟩

/-- The pending writes are none of the ledger and its projection. -/
def QuotaFree (d : Db) : Prop :=
  ∀ k : Key, k.isQuota = true → ∀ c' : Db, (d ∪ c' : Db).get k = c'.get k

theorem quotaFree_empty : QuotaFree ∅ := fun _ _ _ => by rw [AList.empty_union]

theorem QuotaFree.unwritten (h : QuotaFree d) : Unwritten D H c d subject period where
  others k hk _ := h k hk
  used c' _ := by
    unfold usedOf
    rw [h _ rfl]
  granted c' _ := by
    unfold grantedOf
    rw [h _ rfl]
  projection c' hc' := by
    rw [h _ rfl]
    exact hc'

theorem QuotaFree.locked (h : QuotaFree d) {d' : Db} {p : QuotaProjectionRow}
    (hframe : Frame (.quotaProjection subject period) d d')
    (hget : (d' ∪ c : Db).get (.quotaProjection subject period) = some p)
    (hused : p.used = usedOf (d ∪ c) subject period)
    (hgranted : p.extraGranted = grantedOf (d ∪ c) subject period)
    (hlock : H (.quotaProjection subject period)) : Unwritten D H c d' subject period where
  others k hk hne c' := (hframe k hne c').trans (h k hk c')
  used c' hr := by
    unfold usedOf at hused ⊢
    rw [h _ rfl] at hused
    rw [hr.view d' hlock, hget, hr.rows _ hlock]
    exact hused
  granted c' hr := by
    unfold grantedOf at hgranted ⊢
    rw [h _ rfl] at hgranted
    rw [hr.view d' hlock, hget, hr.rows _ hlock]
    exact hgranted
  projection c' hc' := by
    by_cases hmem : Key.quotaProjection subject period ∈ d'
    · rw [get_union_of_mem hmem] at hget ⊢
      rw [hget]
      rfl
    · rwa [get_union_of_notMem hmem]

variable {f : String → Tx α}

/-- **The rule of the last steps of an append.** -/
theorem wp_appendEntry_bind (hD : KeepsQuota D) {debitDelta creditDelta : ℤ} {isLastDebit : Bool}
    (hd : Unwritten D H c d row.quotaSubjectUserId row.quotaPeriod) (hindexes : row.indexes = [u])
    (hsigned : row.signed)
    (hdebit : usedDelta row.quotaSubjectUserId row.quotaPeriod (.quotaDebit id) row = debitDelta)
    (hcredit : grantedDelta row.quotaSubjectUserId row.quotaPeriod (.quotaDebit id) row
      = creditDelta) (href : row.entryKind = .reversal → ∀ c', D.Rely H c c' → MayReverse H c' row)
    (hsame : ∀ c' id', D.Rely H c c' → c'.get (.quotaIndex u) = some id' →
      D.wp A (f id') Q E c' d H) (happ : ∀ c' d' H', D.Rely H c c' → (∀ k, H k → H' k) →
      (∀ k : Key, k.isQuota = false → ∀ c'' : Db, (d' ∪ c'' : Db).get k = (d ∪ c'' : Db).get k) →
      (∀ c'', D.Rely H' c' c'' → Appends H' c'' (d' ∪ c'') u id row) →
      D.wp A (f id) Q E c' d' H') (hE : ∀ e c' d' H', D.Rely H c c' → E e c' d' H') :
    D.wp A (appendEntry env u id row debitDelta creditDelta isLastDebit now >>= f) Q E c d H := by
  unfold appendEntry
  simp only [Prog.bind_assoc]
  refine wp_insertEntry_bind (fun c₁ id' hr₁ hget => ?_) (fun c₁ hr₁ hfree hfresh => ?_) hE
  · rw [hd.others _ rfl (by simp)] at hget
    exact hsame c₁ id' hr₁ hget
  · rw [hd.others _ rfl (by simp)] at hfree hfresh
    simp only [if_true, Prog.bind_assoc]
    refine wp_updateProjectionLocked_bind hD (fun c₂ d₂ p hr₂ hframe hp hused hgranted => ?_)
      fun e c' d' H' hr' => hE e c' d' H' (hr₁.trans (hr'.mono fun _ hk => .inl hk))
    have hr₂' : D.Rely H c₁ c₂ := hr₂.mono fun _ hk => .inl hk
    -- the entry and its index do not touch the projection
    have hproj : ∀ c', ((d.set (.quotaDebit id) (some row)).set (.quotaIndex u) (some id) ∪ c' :
        Db).get (.quotaProjection row.quotaSubjectUserId row.quotaPeriod)
        = (d ∪ c' : Db).get (.quotaProjection row.quotaSubjectUserId row.quotaPeriod) := by
      intro c'
      rw [set_union, get_set_of_ne (by simp), set_union, get_set_of_ne (by simp)]
    refine happ c₂ d₂ _ (hr₁.trans hr₂') (fun k hk => .inl (.inl hk)) (fun k hk c'' => ?_)
      fun c₃ hr₃ => ?_
    · have hne : ∀ k' : Key, k'.isQuota = true → k ≠ k' := by
        rintro k' hk' rfl
        rw [hk] at hk'
        cases hk'
      rw [hframe k (hne _ rfl), set_union, get_set_of_ne (hne _ rfl), set_union,
        get_set_of_ne (hne _ rfl)]
    · have hr : D.Rely H c c₃ :=
        (hr₁.trans hr₂').trans (hr₃.mono fun _ hk => .inl (.inl hk))
      have hheld : ∀ k, k = .quotaDebit id ∨ k = .quotaIndex u → c₃.get k = c₁.get k :=
        fun k hk => (hr₃.rows k (.inl (.inr hk))).trans (hr₂.rows k (.inr hk))
      have hrow : c₃.get (.quotaProjection row.quotaSubjectUserId row.quotaPeriod)
          = c₂.get (.quotaProjection row.quotaSubjectUserId row.quotaPeriod) :=
        hr₃.rows _ (.inr rfl)
      exact {
        fresh := (hheld _ (.inl rfl)).trans hfresh
        free := (hheld _ (.inr rfl)).trans hfree
        entry := by
          rw [hframe _ (by simp), set_union, get_set_of_ne (by simp), set_union, get_set_self]
        index := by rw [hframe _ (by simp), set_union, get_set_self]
        indexes := hindexes
        signed := hsigned
        reference := fun hkind => by
          obtain ⟨ref, q, hrev, hle, hlock⟩ := href hkind c₃ hr
          exact ⟨ref, q, hrev, hle, .inl (.inl hlock)⟩
        used := by
          have hu := hd.used c₂ (hr₁.trans hr₂')
          unfold usedOf at hused hu ⊢
          rw [hproj] at hused
          rw [hp c₃, hdebit, hrow, ← hu]
          exact hused
        granted := by
          have hu := hd.granted c₂ (hr₁.trans hr₂')
          unfold grantedOf at hgranted hu ⊢
          rw [hproj] at hgranted
          rw [hp c₃, hcredit, hrow, ← hu]
          exact hgranted
        locked := .inr rfl
        projected := by
          rw [hp c₃]
          rfl
        others := fun k hk hid hu hpr => by
          rw [hframe k hpr, set_union, get_set_of_ne hu, set_union, get_set_of_ne hid]
          exact hd.others k hk hpr c₃ }

/-! ### The transactions -/

/-- The writes of a transaction keep the discipline of the ledger, whatever the others do
until it commits. -/
def Kept (D : Discipline Row) (H : Key → Prop) (c d : Db) : Prop :=
  ∀ c', D.Rely H c c' → QuotaInv (d ∪ c') ∧ QuotaGuar H c' (d ∪ c')

theorem Kept.of_appends (hD : KeepsQuota D)
    (h : ∀ c', D.Rely H c c' → Appends H c' (d ∪ c') u id row) : Kept D H c d := fun c' hr =>
  ⟨(h c' hr).inv (hD.inv _ hr.inv), (h c' hr).guar⟩

theorem Kept.of_same (hD : KeepsQuota D) (h : ∀ c', D.Rely H c c' → SameLedger c' (d ∪ c')) :
    Kept D H c d := fun c' hr => ⟨(h c' hr).inv (hD.inv _ hr.inv), (h c' hr).guar H⟩

theorem Unwritten.same (h : Unwritten D H c d subject period) {c' : Db} (hr : D.Rely H c c') :
    SameLedger c' (d ∪ c') where
  entry id := h.others _ rfl (by simp) c'
  index u := h.others _ rfl (by simp) c'
  used subject' period' := by
    by_cases heq : Key.quotaProjection subject' period' = .quotaProjection subject period
    · obtain ⟨rfl, rfl⟩ := Key.quotaProjection.inj heq
      exact h.used c' hr
    · unfold usedOf
      rw [h.others _ rfl heq]
  granted subject' period' := by
    by_cases heq : Key.quotaProjection subject' period' = .quotaProjection subject period
    · obtain ⟨rfl, rfl⟩ := Key.quotaProjection.inj heq
      exact h.granted c' hr
    · unfold grantedOf
      rw [h.others _ rfl heq]
  projection subject' period' hsome := by
    by_cases heq : Key.quotaProjection subject' period' = .quotaProjection subject period
    · obtain ⟨rfl, rfl⟩ := Key.quotaProjection.inj heq
      exact h.projection c' hsome
    · rwa [h.others _ rfl heq]

theorem QuotaFree.kept (hD : KeepsQuota D) (h : QuotaFree d) : Kept D H c d :=
  .of_same hD fun _ _ => .of_quota fun k hk => h k hk _

theorem debitRow_indexes (a : DebitArgs) :
    (debitRow env a).indexes = [.operation a.quotaOperationId] := rfl

theorem adjustmentRow_indexes (kind : EntryKind) (n : ℤ) (a : AdjustmentArgs)
    (ref : QuotaDebitRow) : (adjustmentRow env kind n a ref).indexes
      = [.adjustment kind a.adjustmentSourceNamespace a.adjustmentSourceId] := rfl

theorem creditRow_indexes (a : CreditArgs) : (creditRow env a).indexes
    = [.adjustment .credit a.adjustmentSourceNamespace a.adjustmentSourceId] := rfl

/-- The rule of `append_debit`. -/
theorem wp_appendDebit_bind (hD : KeepsQuota D) (hd : QuotaFree d) {a : DebitArgs}
    {f : Option String → Tx α}
    (h : ∀ o c' d' H', D.Rely H c c' → Kept D H' c' d' → D.wp A (f o) Q E c' d' H')
    (hE : ∀ e c' d' H', D.Rely H c c' → E e c' d' H') (hc : D.Inv c) :
    D.wp A (appendDebit env a >>= f) Q E c d H := by
  unfold appendDebit
  rw [Prog.bind_assoc]
  refine wp_check_bind (fun a' hv => ?_) fun e _ c' hr => hE e c' d H hr
  have hpages := validateDebit_pages hv
  by_cases hexempt : a'.quotaExemptReason.isSome ∨ unlimitedRole a'.role = true ∨
      0 < a'.replayGeneration
  · rw [if_pos hexempt]
    exact h none c d H (.refl hc) (hd.kept hD)
  rw [if_neg hexempt]
  simp only [Prog.bind_assoc]
  refine wp_existingEntry_bind (fun c₁ hr₁ => ?_)
    (fun c₁ id hr₁ _ => h _ c₁ d H hr₁ (hd.kept hD)) hE
  dsimp only
  simp only [Prog.bind_assoc]
  have hE₁ : ∀ e c' d' H', D.Rely H c₁ c' → E e c' d' H' :=
    fun e c' d' H' hr => hE e c' d' H' (hr₁.trans hr)
  refine wp_lockProjection_bind hD (fun c₂ d₂ p hr₂ hframe hget hused hgranted => ?_) hE₁
  have hun : ∀ {c₃}, D.Rely (fun k => H k ∨ k = .quotaProjection (debitRow env a').quotaSubjectUserId
      (debitRow env a').quotaPeriod) c₂ c₃ → Unwritten D _ c₃ d₂ _ _ := fun hr =>
    (hd.locked hframe hget hused hgranted (.inr rfl)).rely hr fun _ hk => hk
  have hr : ∀ {c₃}, D.Rely (fun k => H k ∨ k = .quotaProjection (debitRow env a').quotaSubjectUserId
      (debitRow env a').quotaPeriod) c₂ c₃ → D.Rely H c c₃ := fun hr₃ =>
    (hr₁.trans hr₂).trans (hr₃.mono fun _ hk => .inl hk)
  refine wp_existingEntry_bind (fun c₃ hr₃ => ?_) (fun c₃ id hr₃ _ => ?_)
    fun e c' d' H' hr' => hE e c' d' H' (hr hr')
  · dsimp only
    simp only [Prog.bind_assoc]
    refine wp_appendEntry_bind hD (hun hr₃) (debitRow_indexes a') hpages (if_pos ⟨rfl, rfl, (by intro h; cases h)⟩)
      (if_neg (by rintro ⟨_, _, h⟩; cases h)) (by intro h; cases h) (fun c₄ id hr₄ _ => ?_) (fun c₄ d₄ H₄ hr₄ _ _ happ => ?_)
      fun e c' d' H' hr' => hE e c' d' H' (hr (hr₃.trans hr'))
    · exact h _ c₄ d₂ _ (hr (hr₃.trans hr₄)) (.of_same hD fun _ hr₅ =>
        (hun (hr₃.trans hr₄)).same hr₅)
    · exact h _ c₄ d₄ H₄ (hr (hr₃.trans hr₄)) (.of_appends hD happ)
  · exact h _ c₃ d₂ _ (hr hr₃) (.of_same hD fun _ hr₄ => (hun hr₃).same hr₄)

theorem QuotaFree.total (h : QuotaFree d) (hg : OnEntries g) (c : Db) :
    total g (d ∪ c : Db) = total g c :=
  hg.total_congr fun id => by rw [h _ rfl]

/-- The rule of `requireReferencedDebit`. -/
theorem wp_requireReferencedDebit_bind (hd : QuotaFree d) {ref : String} {lock : Bool}
    {f : QuotaDebitRow → Tx α}
    (h : ∀ c' H' (q : QuotaDebitRow), D.Rely H c c' → (∀ k, H k → H' k) →
      (lock = true → H' (.quotaDebit ref)) → c'.get (.quotaDebit ref) = some q →
      q.entryKind = .debit → D.wp A (f q) Q E c' d H')
    (hE : ∀ e c' d' H', D.Rely H c c' → E e c' d' H') :
    D.wp A (requireReferencedDebit ref lock >>= f) Q E c d H := by
  have hfound : ∀ c₁ H₁ (q : QuotaDebitRow) (e : Err), D.Rely H c c₁ → (∀ k, H k → H₁ k) →
      (lock = true → H₁ (.quotaDebit ref)) → c₁.get (.quotaDebit ref) = some q →
      D.wp A (raiseIf (q.entryKind ≠ .debit) e >>= fun _ => f q) Q E c₁ d H₁ :=
    fun c₁ H₁ q e hr₁ hH hlock hget => wp_raiseIf_bind
      (fun hk => h c₁ H₁ q hr₁ hH hlock hget (not_not.mp hk))
      fun _ c₂ hr₂ => hE _ c₂ d H₁ (hr₁.trans (hr₂.mono hH))
  unfold requireReferencedDebit
  cases lock with
  | true =>
    simp only [if_true, Prog.bind_assoc]
    refine wp_lockRow_bind (fun c₁ hr₁ _ => ?_) fun c₁ (q : QuotaDebitRow) hr₁ hget => ?_
    · exact fun c₂ hr₂ => hE _ c₂ d H (hr₁.trans hr₂)
    · rw [hd _ rfl] at hget
      exact hfound c₁ _ q _ hr₁ (fun k hk => .inl hk) (fun _ => .inr rfl) hget
  | false =>
    simp only [if_neg Bool.false_ne_true, Prog.bind_assoc]
    refine wp_readRow_bind fun c₁ hr₁ => ?_
    rw [hd _ rfl]
    cases hget : (c₁.get (.quotaDebit ref) : Option QuotaDebitRow) with
    | none => exact fun c₂ hr₂ => hE _ c₂ d H (hr₁.trans hr₂)
    | some q => exact hfound c₁ H q _ hr₁ (fun k hk => hk) (by simp) hget

/-- The rule of `append_reversal`. -/
theorem wp_appendReversal_bind (hD : KeepsQuota D) (hd : QuotaFree d)
    (h : ∀ id c' d' H', D.Rely H c c' → Kept D H' c' d' → D.wp A (f id) Q E c' d' H')
    (hE : ∀ e c' d' H', D.Rely H c c' → E e c' d' H') :
    D.wp A (appendReversal env a >>= f) Q E c d H := by
  unfold appendReversal
  rw [Prog.bind_assoc]
  refine wp_check_bind (fun a' hv => ?_) fun e _ c' hr => hE e c' d H hr
  have hpages := validateAdjustment_pages hv
  simp only [Prog.bind_assoc]
  refine wp_existingEntry_bind (fun c₁ hr₁ => ?_)
    (fun c₁ id hr₁ _ => h _ c₁ d H hr₁ (hd.kept hD)) hE
  dsimp only
  simp only [Prog.bind_assoc]
  refine wp_requireReferencedDebit_bind hd (fun c₂ H₂ q hr₂ hH hlocked hq hkind => ?_)
    fun e c' d' H' hr' => hE e c' d' H' (hr₁.trans hr')
  -- from here on the debit is locked
  have hlock := hlocked rfl
  have hr : ∀ {c₃}, D.Rely H₂ c₂ c₃ → D.Rely H c c₃ := fun hr₃ =>
    (hr₁.trans hr₂).trans (hr₃.mono hH)
  refine wp_existingEntry_bind (fun c₃ hr₃ => ?_)
    (fun c₃ id hr₃ _ => h _ c₃ d _ (hr hr₃) (hd.kept hD))
    fun e c' d' H' hr' => hE e c' d' H' (hr hr')
  dsimp only
  simp only [Prog.bind_assoc]
  refine wp_check_bind (fun _ _ => ?_) fun e _ c' hr' => hE e c' d _ (hr (hr₃.trans hr'))
  refine wp_select_bind fun c₄ hr₄ => wp_raiseIf_bind (fun hle => ?_)
    fun _ c' hr' => hE _ c' d _ (hr ((hr₃.trans hr₄).trans hr'))
  rw [reversedTotal, hd.total (onEntries_reversedDelta _)] at hle
  have hr₃₄ := hr₃.trans hr₄
  refine wp_appendEntry_bind hD hd.unwritten (adjustmentRow_indexes _ _ _ _) ?_
    (if_pos ⟨rfl, rfl, (by intro h; cases h)⟩) (if_neg (by rintro ⟨_, _, h⟩; cases h)) (fun _ c₅ hr₅ => ?_)
    (fun c₅ id hr₅ _ => h id c₅ d _ (hr (hr₃₄.trans hr₅)) (hd.kept hD))
    (fun c₅ d₅ H₅ hr₅ _ _ happ => h _ c₅ d₅ H₅ (hr (hr₃₄.trans hr₅)) (.of_appends hD happ))
    fun e c' d' H' hr' => hE e c' d' H' (hr (hr₃₄.trans hr'))
  · show -a'.pages < 0
    omega
  · have htotal := hD.reversedTotal hr₅ hlock
    refine ⟨a'.referencedDebitId, q, ⟨rfl, ?_, hkind, rfl, rfl⟩, ?_, hlock⟩
    · exact ((hr₃₄.trans hr₅).rows _ hlock).trans hq
    · show -reversedTotal c₅ a'.referencedDebitId - -a'.pages ≤ q.pageDelta
      rw [htotal]
      unfold reversedTotal
      omega

/-- The rule of `append_supplement`. -/
theorem wp_appendSupplement_bind (hD : KeepsQuota D) (hd : QuotaFree d)
    (h : ∀ id c' d' H', D.Rely H c c' → Kept D H' c' d' → D.wp A (f id) Q E c' d' H')
    (hE : ∀ e c' d' H', D.Rely H c c' → E e c' d' H') :
    D.wp A (appendSupplement env a >>= f) Q E c d H := by
  unfold appendSupplement
  rw [Prog.bind_assoc]
  refine wp_check_bind (fun a' hv => ?_) fun e _ c' hr => hE e c' d H hr
  have hpages := validateAdjustment_pages hv
  simp only [Prog.bind_assoc]
  refine wp_existingEntry_bind (fun c₁ hr₁ => ?_)
    (fun c₁ id hr₁ _ => h _ c₁ d H hr₁ (hd.kept hD)) hE
  dsimp only
  simp only [Prog.bind_assoc]
  refine wp_requireReferencedDebit_bind hd (fun c₂ H₂ q hr₂ hH _ _ _ => ?_)
    fun e c' d' H' hr' => hE e c' d' H' (hr₁.trans hr')
  have hr : ∀ {c₃}, D.Rely H₂ c₂ c₃ → D.Rely H c c₃ := fun hr₃ =>
    (hr₁.trans hr₂).trans (hr₃.mono hH)
  refine wp_check_bind (fun _ _ => ?_) fun e _ c' hr' => hE e c' d _ (hr hr')
  exact wp_appendEntry_bind hD hd.unwritten (adjustmentRow_indexes _ _ _ _) hpages
    (if_pos ⟨rfl, rfl, (by intro h; cases h)⟩) (if_neg (by rintro ⟨_, _, h⟩; cases h)) (by intro h; cases h)
    (fun c₃ id hr₃ _ => h id c₃ d _ (hr hr₃) (hd.kept hD))
    (fun c₃ d₃ H₃ hr₃ _ _ happ => h _ c₃ d₃ H₃ (hr hr₃) (.of_appends hD happ))
    fun e c' d' H' hr' => hE e c' d' H' (hr hr')

/-- The rule of `append_credit`. -/
theorem wp_appendCredit_bind (hD : KeepsQuota D) (hd : QuotaFree d) {a : CreditArgs}
    (hsame : ∀ a' c' id, validateCredit env a = .ok a' → D.Rely H c c' →
      c'.get (.quotaIndex (.adjustment .credit a'.adjustmentSourceNamespace
        a'.adjustmentSourceId)) = some id → D.wp A (f id) Q E c' d H)
    (happ : ∀ a' c' d' H' id, validateCredit env a = .ok a' →
      a'.quotaPeriod = env.periodFor a.calendarLock.timezone a.now →
      D.Rely H c c' → (∀ k, H k → H' k) →
      (∀ k : Key, k.isQuota = false → ∀ c'' : Db, (d' ∪ c'' : Db).get k = (d ∪ c'' : Db).get k) →
      (∀ c'', D.Rely H' c' c'' → Appends H' c'' (d' ∪ c'')
        (.adjustment .credit a'.adjustmentSourceNamespace a'.adjustmentSourceId) id
        (creditRow env a')) → D.wp A (f id) Q E c' d' H')
    (hE : ∀ e c' d' H', D.Rely H c c' → E e c' d' H') :
    D.wp A (appendCredit env a >>= f) Q E c d H := by
  unfold appendCredit
  rw [Prog.bind_assoc]
  refine wp_check_bind (fun a' hv => ?_) fun e _ c' hr => hE e c' d H hr
  obtain ⟨-, hpages, -, -, -, -, hlock, hnow⟩ := validateCredit_ok hv
  simp only [Prog.bind_assoc]
  refine wp_existingEntry_bind (fun c₁ hr₁ => ?_) (fun c₁ id hr₁ hget => ?_) hE
  · dsimp only
    simp only [Prog.bind_assoc]
    refine wp_raiseIf_bind (fun hperiod => ?_) fun _ c' hr' => hE _ c' d H (hr₁.trans hr')
    refine wp_appendEntry_bind hD hd.unwritten (creditRow_indexes a') ?_ (if_neg fun hu => hu.2.2 rfl)
      ((if_pos ⟨rfl, rfl, rfl⟩).trans ?_) (by intro h; cases h)
      (fun c₂ id hr₂ hget => hsame a' c₂ id hv (hr₁.trans hr₂) hget)
      (fun c₂ d₂ H₂ hr₂ hH hframe hA => happ a' c₂ d₂ H₂ _ hv
        ((not_not.mp hperiod).trans (by rw [hlock, hnow])) (hr₁.trans hr₂) hH hframe hA)
      fun e c' d' H' hr' => hE e c' d' H' (hr₁.trans hr')
    · show -a'.pages < 0
      omega
    · show ((-a'.pages).natAbs : ℤ) = a'.pages
      omega
  · rw [hd _ rfl] at hget
    exact hsame a' c₁ id hv hr₁ hget

/-! ### Rebuilding the projection -/

theorem replay_foldl (l : List (String × QuotaDebitRow)) (acc : Replay) (subject period : String)
    (h : ∀ e ∈ l, e.2.quotaSubjectUserId = subject ∧ e.2.quotaPeriod = period) :
    (l.foldl Replay.next acc).used
        = acc.used + (l.map fun e => usedDelta subject period (.quotaDebit e.1) e.2).sum ∧
      (l.foldl Replay.next acc).extra
        = acc.extra + (l.map fun e => grantedDelta subject period (.quotaDebit e.1) e.2).sum := by
  induction l generalizing acc with
  | nil => simp
  | cons e l ih =>
    obtain ⟨hs, hp⟩ := h e mem_cons_self
    obtain ⟨hused, hextra⟩ := ih (acc.next e) fun x hx => h x (mem_cons_of_mem _ hx)
    rw [foldl_cons, hused, hextra]
    simp only [map_cons, sum_cons, ← add_assoc]
    constructor <;> congr 1 <;> unfold Replay.next <;>
      cases hkind : e.2.entryKind <;> simp [usedDelta, grantedDelta, hs, hp, hkind]

theorem OnEntries.sum_quotaDebits (hg : OnEntries g) (v : Db) :
    ((quotaDebits v).map fun e => g (.quotaDebit e.1) e.2).sum = total g v := by
  unfold quotaDebits table total
  induction v.rows with
  | nil => rfl
  | cons e l ih =>
    obtain ⟨k, r⟩ := e
    cases k with
    | quotaDebit id => exact congrArg (g (.quotaDebit id) r + ·) ih
    | _ =>
      rw [map_cons, sum_cons, hg _ r (by simp), zero_add]
      exact ih

theorem sum_map_filter {β : Type} {g : β → ℤ} {q : β → Bool} (l : List β)
    (h : ∀ e, q e = false → g e = 0) : ((l.filter q).map g).sum = (l.map g).sum := by
  induction l with
  | nil => rfl
  | cons e l ih =>
    cases hq : q e with
    | true => rw [filter_cons_of_pos hq, map_cons, sum_cons, ih, map_cons,
        sum_cons]
    | false => rw [filter_cons_of_neg (by simp [hq]), ih, map_cons, sum_cons, h e hq,
        zero_add]

theorem replay_eq (v : Db) (subject period : String) :
    ((replayedEntries v subject period).foldl Replay.next {}).used
        = total (usedDelta subject period) v ∧
      ((replayedEntries v subject period).foldl Replay.next {}).extra
        = total (grantedDelta subject period) v := by
  have hperm := perm_insertionSort entryBefore ((quotaDebits v).filter fun e =>
    e.2.quotaSubjectUserId = subject ∧ e.2.quotaPeriod = period)
  have hall : ∀ e ∈ replayedEntries v subject period,
      e.2.quotaSubjectUserId = subject ∧ e.2.quotaPeriod = period := by
    intro e he
    simpa using (mem_filter.mp (hperm.mem_iff.mp he)).2
  obtain ⟨hused, hextra⟩ := replay_foldl _ {} subject period hall
  have hsum : ∀ g : (k : Key) → Row k → ℤ, OnEntries g →
      (∀ id (r : QuotaDebitRow), ¬ (r.quotaSubjectUserId = subject ∧ r.quotaPeriod = period) →
        g (.quotaDebit id) r = 0) →
      ((replayedEntries v subject period).map fun e => g (.quotaDebit e.1) e.2).sum = total g v := by
    intro g hg hzero
    unfold replayedEntries
    rw [(hperm.map _).sum_eq, sum_map_filter _ fun e he => hzero e.1 e.2 (by simpa using he),
      hg.sum_quotaDebits]
  constructor
  · rw [hused, hsum _ (onEntries_usedDelta _ _) fun id r h => if_neg fun hu => h ⟨hu.1, hu.2.1⟩]
    exact zero_add _
  · rw [hextra, hsum _ (onEntries_grantedDelta _ _) fun id r h => if_neg fun hu => h ⟨hu.1, hu.2.1⟩]
    exact zero_add _

/-- The rule of `rebuild_projection`: what the projection says stays. -/
theorem wp_rebuildProjection_bind (hD : KeepsQuota D) (hd : QuotaFree d) {subject period : String}
    {f : Unit → Tx α}
    (h : ∀ c' d' H', D.Rely H c c' → (∀ c'', D.Rely H' c' c'' → SameLedger c'' (d' ∪ c'')) →
      D.wp A (f ()) Q E c' d' H') (hE : ∀ e c' d' H', D.Rely H c c' → E e c' d' H') :
    D.wp A (rebuildProjection env subject period now >>= f) Q E c d H := by
  unfold rebuildProjection
  simp only [Prog.bind_assoc]
  refine wp_check_bind (fun subject _ => ?_) fun e _ c' hr => hE e c' d H hr
  refine wp_check_bind (fun period _ => ?_) fun e _ c' hr => hE e c' d H hr
  refine wp_ensureProjection_bind hD (fun c₁ d₁ p hr₁ hframe hget hused hgranted => ?_) hE
  have hun := hd.locked (D := D) (c := c₁)
    (H := fun k => H k ∨ k = .quotaProjection subject period) hframe hget hused hgranted (.inr rfl)
  refine wp_select_bind fun c₂ hr₂ => ?_
  obtain ⟨hreplayed, hextra⟩ := replay_eq (d₁ ∪ c₂) subject period
  have htotal : ∀ {g : (k : Key) → Row k → ℤ}, OnEntries g → total g (d₁ ∪ c₂ : Db) = total g c₂ :=
    fun hg => hg.total_congr fun id => by rw [hun.others _ rfl (by simp)]
  rw [htotal (onEntries_usedDelta _ _)] at hreplayed
  rw [htotal (onEntries_grantedDelta _ _)] at hextra
  have hnonneg := (hD.inv _ hr₂.inv).total_used_nonneg subject period
  refine wp_updateWhere_bind (fun c₃ hr₃ hmiss => ?_) fun c₃ q hr₃ _ _ => ?_
  · have := hmiss p (((hr₂.trans hr₃).view d₁ (.inr rfl)).trans hget)
    cases this
  · rw [locked_twice]
    refine h c₃ _ _ (hr₁.trans ((hr₂.trans hr₃).mono fun _ hk => .inl hk)) fun c₄ hr₄ => ?_
    have hlock : (fun k => H k ∨ k = .quotaProjection subject period)
        (.quotaProjection subject period) := .inr rfl
    have hr := hr₃.trans hr₄
    have hinv := hD.inv _ hr₄.inv
    -- the row written says what the ledger says, under the lock of the row
    refine sameLedger_of_projection (fun k hk hne => ?_) (by rw [set_union, get_set_self]) ?_ ?_
    · rw [set_union, get_set_of_ne hne, hun.others k hk hne]
    · show max 0 (foldl Replay.next {} _).used = _
      rw [hreplayed, max_eq_right hnonneg, ← hD.total_used hr hlock, hinv.used]
    · show (foldl Replay.next {} _).extra = _
      rw [hextra, ← hD.total_granted hr hlock, hinv.granted]

end Rules

end RagQs.Usage
