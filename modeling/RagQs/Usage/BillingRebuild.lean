import RagQs.Usage.BillingFacts

/-!
# The rebuilt projection of costs

The projection is rebuilt from the facts alone: a usage event with the bill of its request
and the cost adjustment by that bill, a linked bill with its months or, without any, as not
allocated.  A request with two bills has two rows before and one after, and a bill that was
first left unallocated and then allocated loses the row that said so.

## Main definitions

* `Matches` — the rebuilt rows against those the reconciliations left.
* `Rebuildable` — what the facts have to be for that.

## Main results

* `rebuildCostProjection_ok` — the projection after a rebuild has exactly the rebuilt rows.
* `rebuilt_projection_matches` — they match exactly when the facts are rebuildable.
* `two_bills_not_rebuilt` — a request with two bills.
-/

namespace RagQs.Usage.Billing

open Txn List Option Store

variable {env : BillingEnv} {s s' : BillingDb} {at_ : Moment}
variable {source : SourceRow} {r : AdjustmentRow} {key : ProjectionKey} {usage : UsageEventRow}
  {row' : ProjectionRow}

variable {l : LinkRow} {x : ProjectionKey × ProjectionRow} {adjustment : UsageEventRow} {row :
  ProjectionRow}

/-! ### The rows a rebuild inserts -/

/-- Two rows with different keys. -/
def KeysDiffer (x y : ProjectionKey × ProjectionRow) : Prop := x.1 ≠ y.1

theorem mem_links : l ∈ links s ↔ ∃ S G, s.get (.link S G) = some l := by
  unfold links
  rw [mem_table]
  constructor
  · rintro ⟨k, r, hget, hpick⟩
    cases k <;> cases hpick
    exact ⟨_, _, hget⟩
  · rintro ⟨S, G, hget⟩
    exact ⟨.link S G, l, hget, rfl⟩

theorem mem_sources : source ∈ sources s ↔ ∃ id, s.get (.source id) = some source := by
  unfold sources
  rw [mem_table]
  constructor
  · rintro ⟨k, r, hget, hpick⟩
    cases k <;> cases hpick
    exact ⟨_, hget⟩
  · rintro ⟨id, hget⟩
    exact ⟨.source id, source, hget, rfl⟩

theorem mem_groupAdjustments :
    r ∈ groupAdjustments s ↔ ∃ S p, s.get (.adjustment S p) = some r := by
  unfold groupAdjustments
  rw [mem_table]
  constructor
  · rintro ⟨k, r, hget, hpick⟩
    cases k <;> cases hpick
    exact ⟨_, _, hget⟩
  · rintro ⟨S, p, hget⟩
    exact ⟨.adjustment S p, r, hget, rfl⟩

theorem mem_projectionKeys : key ∈ projectionKeys s ↔ (s.get (.projection key)).isSome = true := by
  unfold projectionKeys
  rw [mem_table, isSome_iff_exists]
  constructor
  · rintro ⟨k, r, hget, hpick⟩
    cases k <;> cases hpick
    exact ⟨r, hget⟩
  · rintro ⟨r, hget⟩
    exact ⟨.projection key, r, hget, rfl⟩

theorem BillingInv.get_source (h : BillingInv env s) (hmem : source ∈ sources s) :
    s.get (.source source.providerBillingSourceRecordId) = some source := by
  obtain ⟨id, hget⟩ := mem_sources.mp hmem
  obtain ⟨rfl, _⟩ := h _ _ hget
  exact hget

theorem BillingInv.get_event (h : BillingInv env s) {e : UsageEventRow}
    (hmem : e ∈ usageEvents s) : s.get (.event e.usageEventId) = some e := by
  obtain ⟨id, hget⟩ := mem_usageEvents.mp hmem
  obtain ⟨rfl, _⟩ := h _ _ hget
  exact hget

theorem BillingInv.get_link (h : BillingInv env s) (hmem : l ∈ links s) :
    s.get (.link l.providerBillingSourceRecordId l.providerBillingReconciliationGroupId)
      = some l := by
  obtain ⟨S, G, hget⟩ := mem_links.mp hmem
  obtain ⟨rfl, _⟩ := h _ _ hget
  exact hget

theorem BillingInv.get_month (h : BillingInv env s) {S p : String}
    (hget : s.get (.adjustment S p) = some r) :
    s.get (.adjustment S r.effectivePeriod) = some r := by
  obtain ⟨_, hperiod, _⟩ := h _ _ hget
  rw [hperiod]
  exact hget

theorem BillingInv.mem_months (h : BillingInv env s) {sourceId : String} :
    r ∈ (groupAdjustments s).filter (·.adjustmentSourceId = sourceId) ↔
      s.get (.adjustment sourceId r.effectivePeriod) = some r := by
  rw [mem_filter, mem_groupAdjustments, decide_eq_true_eq]
  constructor
  · rintro ⟨⟨S, p, hget⟩, hsource⟩
    obtain ⟨rfl, rfl, _⟩ := h _ _ hget
    rwa [hsource] at hget
  · intro hget
    obtain ⟨hsource, _, _⟩ := h _ _ hget
    exact ⟨⟨_, _, hget⟩, hsource⟩

theorem BillingInv.mem_rebuiltLink (h : BillingInv env s) {S G : String}
    (hlink : s.get (.link S G) = some ⟨S, G⟩) :
    x ∈ rebuiltLink env s at_ ⟨S, G⟩ ↔ ∃ source,
      s.get (.source S) = some source ∧ source.providerBillingSourceRecordId = S ∧
      ((∃ r, s.get (.adjustment S r.effectivePeriod) = some r ∧
          x = rebuiltMonth env at_ source G r) ∨
        (∀ p, s.get (.adjustment S p) = none) ∧ x = rebuiltUnallocated env at_ source G) := by
  obtain ⟨_, source, hsource, hrequest, hkey⟩ := h _ _ hlink
  obtain ⟨hid, _, _⟩ := h _ _ hsource
  obtain ⟨group, hgroup⟩ := isSome_iff_exists.mp (h _ _ hkey)
  have hgroupId : group.providerBillingReconciliationGroupId = G := h _ _ hgroup
  have hmonths : ∀ r : AdjustmentRow, r ∈ (groupAdjustments s).filter (·.adjustmentSourceId = S) ↔
      s.get (.adjustment S r.effectivePeriod) = some r := fun r => h.mem_months
  unfold rebuiltLink
  simp only [hsource, hgroup, hrequest, isSome_none, if_neg Bool.false_ne_true, hid,
    hgroupId]
  constructor
  · intro hx
    refine ⟨source, rfl, hid, ?_⟩
    cases hfilter : (groupAdjustments s).filter (·.adjustmentSourceId = S) with
    | nil =>
      right
      rw [hfilter] at hx hmonths
      refine ⟨fun p => ?_, mem_singleton.mp hx⟩
      cases hget : s.get (.adjustment S p) with
      | none => rfl
      | some r =>
        exact absurd ((hmonths r).mpr (h.get_month hget)) not_mem_nil
    | cons r rs =>
      left
      rw [hfilter] at hx hmonths
      obtain ⟨r', hr', rfl⟩ := List.mem_map.mp hx
      exact ⟨r', (hmonths r').mp hr', rfl⟩
  · rintro ⟨_, heq, _, hx⟩
    cases heq
    cases hfilter : (groupAdjustments s).filter (·.adjustmentSourceId = S) with
    | nil =>
      rw [hfilter] at hmonths
      rcases hx with ⟨r, hr, _⟩ | ⟨_, rfl⟩
      · exact absurd ((hmonths r).mpr hr) not_mem_nil
      · exact mem_singleton_self _
    | cons r rs =>
      rw [hfilter] at hmonths
      rcases hx with ⟨r', hr', rfl⟩ | ⟨hnone, _⟩
      · exact List.mem_map.mpr ⟨r', (hmonths r').mpr hr', rfl⟩
      · have hr := (hmonths r).mp mem_cons_self
        rw [hnone] at hr
        cases hr

/-! ### Their keys differ -/

theorem table_pairwise {β : Type} {pick : (k : BillingKey) → BillingRow k → Option β}
    {R : β → β → Prop}
    (h : ∀ k r b k' r' b', k ≠ k' → s.get k = some r → pick k r = some b → s.get k' = some r' →
      pick k' r' = some b' → R b b') : (table s pick).Pairwise R := by
  unfold table
  rw [pairwise_filterMap]
  have hrows : s.rows.Pairwise fun e e' => e.1 ≠ e'.1 := by
    unfold Store.rows
    rw [pairwise_filterMap]
    apply (nodupKeys_iff_pairwise.mp s.nodupKeys).imp
    rintro ⟨k, o⟩ ⟨k', o'⟩ hne ⟨_, _⟩ hb ⟨_, _⟩ hb'
    cases o <;> cases hb
    cases o' <;> cases hb'
    exact hne
  apply hrows.imp_of_mem
  rintro ⟨k, r⟩ ⟨k', r'⟩ hmem hmem' hne b hb b' hb'
  exact h k r b k' r' b' hne (mem_rows.mp hmem) hb (mem_rows.mp hmem') hb'

theorem BillingInv.pairwise_events (h : BillingInv env s) :
    (usageEvents s).Pairwise fun e e' => e.usageEventId ≠ e'.usageEventId := by
  apply table_pairwise
  intro k r b k' r' b' hne hget hb hget' hb'
  cases k <;> cases hb
  cases k' <;> cases hb'
  obtain ⟨hid, _⟩ := h _ _ hget
  obtain ⟨hid', _⟩ := h _ _ hget'
  intro heq
  exact hne (by rw [← hid, ← hid', heq])

theorem BillingInv.pairwise_links (h : BillingInv env s) :
    (links s).Pairwise fun l l' => l ≠ l' := by
  apply table_pairwise
  intro k r b k' r' b' hne hget hb hget' hb'
  cases k <;> cases hb
  cases k' <;> cases hb'
  obtain ⟨rfl, _⟩ := h _ _ hget
  obtain ⟨rfl, _⟩ := h _ _ hget'
  intro heq
  cases heq
  exact hne rfl

theorem BillingInv.pairwise_months (h : BillingInv env s) :
    (groupAdjustments s).Pairwise fun r r' =>
      r.adjustmentSourceId = r'.adjustmentSourceId → r.effectivePeriod ≠ r'.effectivePeriod := by
  apply table_pairwise
  intro k r b k' r' b' hne hget hb hget' hb'
  cases k <;> cases hb
  cases k' <;> cases hb'
  obtain ⟨hsource, hperiod, _⟩ := h _ _ hget
  obtain ⟨hsource', hperiod', _⟩ := h _ _ hget'
  intro heqSource heqPeriod
  exact hne (by rw [← hsource, ← hsource', ← hperiod, ← hperiod', heqSource, heqPeriod])

theorem BillingInv.key_of_link (h : BillingInv env s) (hl : l ∈ links s)
    (hx : x ∈ rebuiltLink env s at_ l) :
    x.1.targetKind = .reconciliationGroup ∧
      x.1.targetId = l.providerBillingReconciliationGroupId ∧
      x.1.providerBillingSourceRecordId = some l.providerBillingSourceRecordId := by
  have hget := h.get_link hl
  obtain ⟨source, _, hid, hcases⟩ := (h.mem_rebuiltLink hget).mp hx
  rcases hcases with ⟨r, _, rfl⟩ | ⟨_, rfl⟩
  · exact ⟨rfl, rfl, congrArg some hid⟩
  · exact ⟨rfl, rfl, congrArg some hid⟩

/-- **No two rebuilt rows have the same key.** -/
theorem BillingInv.pairwise_rebuiltRows (h : BillingInv env s) :
    (rebuiltRows env s at_).Pairwise KeysDiffer := by
  unfold rebuiltRows
  rw [pairwise_append]
  refine ⟨?_, ?_, ?_⟩
  · rw [pairwise_map]
    apply (h.pairwise_events.filter _).imp
    intro e e' hne heq
    exact hne (congrArg ProjectionKey.targetId heq)
  · rw [pairwise_flatMap]
    constructor
    · intro l hl
      unfold rebuiltLink
      split
      · next source group _ _ =>
        split
        · exact List.Pairwise.nil
        · dsimp only
          split
          · exact pairwise_singleton _ _
          · rw [pairwise_map]
            have hpairs := h.pairwise_months.filter
              (·.adjustmentSourceId = source.providerBillingSourceRecordId)
            apply hpairs.imp_of_mem
            intro r r' hr hr' hne heq
            have hsource := of_decide_eq_true (mem_filter.mp hr).2
            have hsource' := of_decide_eq_true (mem_filter.mp hr').2
            exact hne (hsource.trans hsource'.symm)
              (congrArg ProjectionKey.effectivePeriod heq)
      · exact List.Pairwise.nil
    · apply h.pairwise_links.imp_of_mem
      intro l l' hl hl' hne x hx y hy heq
      obtain ⟨_, hgroup, hsource⟩ := h.key_of_link hl hx
      obtain ⟨_, hgroup', hsource'⟩ := h.key_of_link hl' hy
      apply hne
      rw [heq, hgroup'] at hgroup
      rw [heq, hsource'] at hsource
      cases l
      cases l'
      simp_all
  · intro x hx y hy heq
    obtain ⟨e, _, rfl⟩ := List.mem_map.mp hx
    obtain ⟨l, hl, hy⟩ := mem_flatMap.mp hy
    obtain ⟨hkind, _, _⟩ := h.key_of_link hl hy
    rw [← heq] at hkind
    unfold rebuiltEvent at hkind
    simp only at hkind
    split at hkind <;> cases hkind

/-! ### The rebuild -/

theorem exec_insertProjections (rows : List (ProjectionKey × ProjectionRow)) :
    ∀ {c : BillingDb}, rows.Pairwise KeysDiffer →
      (∀ x ∈ rows, c.get (.projection x.1) = none) →
      (insertProjections rows).exec c
        = .ok ((), c.applyAll (rows.map fun x => ⟨.projection x.1, some x.2⟩)) := by
  induction rows with
  | nil => exact fun _ _ => rfl
  | cons x rest ih =>
    intro c hpairs hfree
    obtain ⟨key, row⟩ := x
    obtain ⟨hhead, htail⟩ := pairwise_cons.mp hpairs
    have hnew : taken c [.projection key] = false := by
      simp [taken, hfree (key, row) mem_cons_self]
    unfold insertProjections
    rw [Prog.exec_bind, exec_insert, hnew, if_neg Bool.false_ne_true]
    apply ih htail
    intro y hy
    rw [applyAll_cons, applyAll_nil, get_set_of_ne ?_]
    · exact hfree y (mem_cons_of_mem _ hy)
    · intro heq
      exact hhead y hy (BillingKey.projection.inj heq).symm

theorem get_insertProjections {rows : List (ProjectionKey × ProjectionRow)} :
    ∀ {c : BillingDb}, rows.Pairwise KeysDiffer → ∀ {x}, x ∈ rows →
      (c.applyAll (rows.map fun x => ⟨.projection x.1, some x.2⟩)).get (.projection x.1)
        = some x.2 := by
  induction rows with
  | nil => exact fun _ x hx => absurd hx not_mem_nil
  | cons y rest ih =>
    intro c hpairs x hx
    obtain ⟨hhead, htail⟩ := pairwise_cons.mp hpairs
    rw [map_cons, applyAll_cons]
    rcases mem_cons.mp hx with rfl | hx
    · rw [get_applyAll_of_notMem, get_set_self]
      intro hmem
      rw [List.map_map] at hmem
      obtain ⟨z, hz, heq⟩ := List.mem_map.mp hmem
      exact hhead z hz (BillingKey.projection.inj heq).symm
    · exact ih htail hx

/-- **The projection after a rebuild has exactly the rebuilt rows**, and the facts are as
before. -/
theorem rebuildCostProjection_ok (h : BillingInv env s) (at_ : Moment) :
    ∃ s', (rebuildCostProjection env at_).exec s = .ok ((rebuiltRows env s at_).length, s') ∧
      (∀ key row, s'.get (.projection key) = some row ↔ (key, row) ∈ rebuiltRows env s at_) ∧
      ∀ k, (∀ key, k ≠ .projection key) → s'.get k = s.get k := by
  have hpairs : (rebuiltRows env s at_).Pairwise KeysDiffer := h.pairwise_rebuiltRows
  let emptied := s.applyAll ((projectionKeys s).map fun key => ⟨.projection key, none⟩)
  have hempty : ∀ key, emptied.get (.projection key) = none := by
    intro key
    have hmap : (projectionKeys s).map (fun key => (⟨.projection key, none⟩ : Write BillingRow))
        = ((projectionKeys s).map BillingKey.projection).map fun k => ⟨k, none⟩ := by
      rw [List.map_map]
      rfl
    simp only [emptied, hmap, get_applyAll_delete]
    split
    · rfl
    · next hnot =>
      cases hget : s.get (.projection key) with
      | none => rfl
      | some row =>
        refine absurd (List.mem_map.mpr ⟨key, mem_projectionKeys.mpr ?_, rfl⟩) hnot
        rw [hget]
        rfl
  refine ⟨emptied.applyAll ((rebuiltRows env s at_).map fun x => ⟨.projection x.1, some x.2⟩),
    ?_, ?_, ?_⟩
  · unfold rebuildCostProjection
    rw [Prog.exec_bind, Prog.exec_select]
    show ((Prog.update (fun v : BillingDb =>
      (projectionKeys v).map fun key => ⟨.projection key, none⟩) fun _ => ()) >>= fun _ =>
        insertProjections (rebuiltRows env s at_) >>= fun _ => _).exec s = _
    rw [Prog.exec_bind, Prog.exec_update]
    show (insertProjections (rebuiltRows env s at_) >>= fun _ => _).exec emptied = _
    rw [Prog.exec_bind, exec_insertProjections _ hpairs fun x _ => hempty x.1]
    rfl
  · intro key row
    constructor
    · intro hget
      rcases get_applyAll_cases hget with hmem | hold
      · obtain ⟨x, hx, heq⟩ := List.mem_map.mp hmem
        cases heq
        exact hx
      · rw [hempty] at hold
        cases hold
    · exact get_insertProjections hpairs
  · intro k hk
    rw [get_applyAll_of_notMem, get_applyAll_of_notMem]
    · intro hmem
      rw [List.map_map] at hmem
      obtain ⟨key, _, heq⟩ := List.mem_map.mp hmem
      exact hk key heq.symm
    · intro hmem
      rw [List.map_map] at hmem
      obtain ⟨x, _, heq⟩ := List.mem_map.mp hmem
      exact hk x.1 heq.symm

/-! ### The rebuilt rows against those of the reconciliations -/

/-- Every row of the projection has a rebuilt one with the same amounts and status, and no
other rebuilt row is reconciled. -/
structure Matches (s s' : BillingDb) : Prop where
  rebuilt : ∀ key row, s.get (.projection key) = some row →
    ∃ row', s'.get (.projection key) = some row' ∧
      row'.adjustmentAmount = row.adjustmentAmount ∧
      row'.projectedAmount = row.projectedAmount ∧ row'.costStatus = row.costStatus
  noOther : ∀ key row', s'.get (.projection key) = some row' → row'.costStatus = .reconciled →
    ∃ row, s.get (.projection key) = some row ∧ row.costStatus = .reconciled

/-- The bills of the provider and request of a bill. -/
def sameRequest (s : BillingDb) (source : SourceRow) : List SourceRow :=
  (sources s).filter fun t =>
    t.provider = source.provider ∧ t.providerRequestId = source.providerRequestId

/-- A reconciled bill is the last of those of its request; a bill that was left unallocated
has no months, and the rebuild puts it in the period it was left in. -/
structure Rebuildable (env : BillingEnv) (at_ : Moment) (s : BillingDb) : Prop where
  request : ∀ source usage,
    s.get (.source source.providerBillingSourceRecordId) = some source →
    s.get (.event usage.usageEventId) = some usage →
    (s.get (.projection (requestKey usage source))).isSome = true →
    (sameRequest s source).getLast? = some source
  unallocated : ∀ source groupId period row,
    s.get (.source source.providerBillingSourceRecordId) = some source →
    s.get (.projection (groupProjectionKey source groupId period)) = some row →
    row.costStatus = .billingPeriodUnallocated →
    (∀ p, s.get (.adjustment source.providerBillingSourceRecordId p) = none) ∧
      period = source.serviceMonth.getD (at_.recordedPeriod env)

theorem sourceByRequest_eq (hprovider : usage.provider = some source.provider)
    (hrequest : source.providerRequestId ≠ none)
    (hsame : usage.providerRequestId = source.providerRequestId) :
    sourceByRequest (sources s) usage.provider usage.providerRequestId
      = (sameRequest s source).getLast? := by
  unfold sourceByRequest sameRequest
  refine congrArg List.getLast? (filter_congr fun t _ => ?_)
  rw [hprovider, hsame]
  refine decide_eq_decide.mpr ⟨fun ⟨_, hp, hr⟩ => ⟨some.inj hp, hr⟩, fun ⟨hp, hr⟩ => ?_⟩
  refine ⟨?_, congrArg some hp, hr⟩
  rw [hr]
  exact isSome_iff_ne_none.mpr hrequest

theorem CostAdjusted.adjustmentByReference (h : BillingInv env s)
    (hadjusted : CostAdjusted s source usage adjustment) :
    Billing.adjustmentByReference (usageEvents s) usage.usageEventId
      source.providerBillingSourceRecordId = some adjustment := by
  unfold Billing.adjustmentByReference
  have hfound : adjustment ∈ (usageEvents s).filter fun e => e.eventKind = .costAdjustment ∧
      e.referencedUsageEventId = some usage.usageEventId ∧
      e.adjustmentSourceId = some source.providerBillingSourceRecordId :=
    mem_filter.mpr ⟨mem_usageEvents.mpr ⟨_, hadjusted.recorded⟩,
      decide_eq_true ⟨hadjusted.kind, hadjusted.referenced, hadjusted.sourceId⟩⟩
  obtain ⟨last, hlast⟩ := isSome_iff_exists.mp
    (List.getLast?_isSome.mpr (ne_nil_of_mem hfound))
  rw [hlast]
  -- The last one found has the entry of the bill in the index as well.
  obtain ⟨hmem, hdecide⟩ := mem_filter.mp (List.mem_of_getLast? hlast)
  obtain ⟨hkind, _, hsource⟩ := of_decide_eq_true hdecide
  have hget := h.get_event hmem
  obtain ⟨_, _, hcost⟩ := h _ _ hget
  obtain ⟨source', usage', hadjusted', _⟩ := hcost hkind
  have hid := hadjusted'.sourceId
  rw [hsource, some.injEq] at hid
  have hindex := hadjusted'.index
  rw [← hid, hadjusted.index, some.injEq] at hindex
  rw [← hindex, hadjusted.recorded] at hget
  exact hget.symm

theorem CostAdjusted.rebuiltEvent (h : BillingInv env s)
    (hadjusted : CostAdjusted s source usage adjustment)
    (hlast : (sameRequest s source).getLast? = some source) :
    (Billing.rebuiltEvent env s at_ usage).1 = requestKey usage source ∧
      (Billing.rebuiltEvent env s at_ usage).2.adjustmentAmount
        = adjustment.estimatedCostAmount ∧
      (Billing.rebuiltEvent env s at_ usage).2.projectedAmount = some source.amount ∧
      (Billing.rebuiltEvent env s at_ usage).2.costStatus = .reconciled := by
  have hsource := sourceByRequest_eq (s := s) hadjusted.provider.2 hadjusted.request.1
    hadjusted.request.2
  rw [hlast] at hsource
  have hfound := hadjusted.adjustmentByReference h
  unfold Billing.rebuiltEvent
  simp [hsource, hfound, hadjusted.provider.1, requestKey]

theorem Rebuildable.rebuilt (h : BillingInv env s) (hok : Rebuildable env at_ s)
    (hrow : s.get (.projection key) = some row) :
    ∃ row', (key, row') ∈ rebuiltRows env s at_ ∧
      row'.adjustmentAmount = row.adjustmentAmount ∧
      row'.projectedAmount = row.projectedAmount ∧ row'.costStatus = row.costStatus := by
  have hprojected : Projected s key row := h _ _ hrow
  unfold rebuiltRows
  simp only [mem_append, List.mem_map, mem_flatMap]
  cases hprojected with
  | request source usage adjustment adjusted target delta cost status =>
    subst target
    have hlast := hok.request source usage adjusted.billed adjusted.used (by rw [hrow]; rfl)
    obtain ⟨hkey, hdelta, hcost, hstatus⟩ : (Billing.rebuiltEvent env s at_ usage).1 = _ ∧ _ :=
      adjusted.rebuiltEvent h hlast
    refine ⟨(rebuiltEvent env s at_ usage).2, .inl ⟨usage, ?_, ?_⟩, ?_, ?_, ?_⟩
    · exact mem_filter.mpr ⟨mem_usageEvents.mpr ⟨_, adjusted.used⟩,
        decide_eq_true (.inl adjusted.provider.1)⟩
    · rw [← hkey]
    · rw [hdelta, delta]
    · rw [hcost, cost]
    · rw [hstatus, status]
  | month source groupId adjustment named linked stored target delta cost status =>
    subst target
    refine ⟨(rebuiltMonth env at_ source groupId adjustment).2, .inr ⟨_,
      mem_links.mpr ⟨_, _, linked⟩, ?_⟩, delta.symm, cost.symm, status.symm⟩
    exact (h.mem_rebuiltLink linked).mpr ⟨source, named, rfl, .inl ⟨adjustment, stored, rfl⟩⟩
  | unallocated source groupId period named linked target delta cost status =>
    subst target
    obtain ⟨hnone, hperiod⟩ := hok.unallocated source groupId period row named hrow status
    refine ⟨(rebuiltUnallocated env at_ source groupId).2, .inr ⟨_,
      mem_links.mpr ⟨_, _, linked⟩, ?_⟩, delta.symm, cost.symm, status.symm⟩
    refine (h.mem_rebuiltLink linked).mpr ⟨source, named, rfl, .inr ⟨hnone, ?_⟩⟩
    rw [hperiod]
    rfl

theorem BillingInv.reconciled_row (h : BillingInv env s) (hrow : s.get (.projection key) = some row)
    (hstatus : row.costStatus ≠ .billingPeriodUnallocated) : row.costStatus = .reconciled := by
  have hprojected : Projected s _ row := h _ _ hrow
  cases hprojected with
  | request source usage adjustment adjusted target delta cost status => exact status
  | month source groupId adjustment named linked stored target delta cost status => exact status
  | unallocated source groupId period named linked target delta cost status =>
    exact absurd status hstatus

theorem Rebuildable.noOther (h : BillingInv env s) (hok : Rebuildable env at_ s)
    (hmem : (key, row') ∈ rebuiltRows env s at_) (hstatus : row'.costStatus = .reconciled) :
    ∃ row, s.get (.projection key) = some row ∧ row.costStatus = .reconciled := by
  unfold rebuiltRows at hmem
  rcases mem_append.mp hmem with hevent | hlink
  · -- The row of a usage event, with the adjustment by the bill of its request.
    obtain ⟨e, he, heq⟩ := List.mem_map.mp hevent
    have hused := h.get_event (mem_filter.mp he).1
    unfold rebuiltEvent at heq
    obtain ⟨hkey, hrow⟩ := Prod.mk.inj heq
    subst hrow
    simp only at hstatus
    cases hsource : sourceByRequest (sources s) e.provider e.providerRequestId with
    | none =>
      rw [hsource] at hstatus
      cases hstatus
    | some source =>
      rw [hsource] at hstatus hkey
      cases hadjustment : adjustmentByReference (usageEvents s) e.usageEventId
          source.providerBillingSourceRecordId with
      | none =>
        rw [bind_some, hadjustment] at hstatus
        cases hstatus
      | some adjustment =>
        obtain ⟨hfound, hdecide⟩ := mem_filter.mp (List.mem_of_getLast? hadjustment)
        obtain ⟨hkind, href, hid⟩ := of_decide_eq_true hdecide
        obtain ⟨_, _, hcost⟩ := h _ _ (h.get_event hfound)
        obtain ⟨source', usage', hadjusted, hthere⟩ := hcost hkind
        have hreferenced := hadjusted.referenced
        rw [href, some.injEq] at hreferenced
        have husage := hadjusted.used
        rw [← hreferenced, hused, some.injEq] at husage
        subst husage
        have hsourceId := hadjusted.sourceId
        rw [hid, some.injEq] at hsourceId
        have hkey' : key = requestKey e source' := by
          rw [← hkey]
          simp [requestKey, hadjusted.provider.1, hsourceId]
        obtain ⟨row, hrow⟩ := isSome_iff_exists.mp hthere
        rw [hkey']
        refine ⟨row, hrow, ?_⟩
        have hprojected : Projected s _ row := h _ _ hrow
        cases hprojected with
        | request _ _ _ _ _ _ _ status => exact status
        | month _ _ _ _ _ _ target _ _ _ => cases congrArg ProjectionKey.targetKind target
        | unallocated _ _ _ _ _ target _ _ _ => cases congrArg ProjectionKey.targetKind target
  · -- The row of a month.
    obtain ⟨l, hl, hx⟩ := mem_flatMap.mp hlink
    have hlinked := h.get_link hl
    obtain ⟨source, hsource, hid, ⟨r, hr, heq⟩ | ⟨_, heq⟩⟩ := (h.mem_rebuiltLink hlinked).mp hx
    · obtain ⟨hkey, _⟩ := Prod.mk.inj heq
      obtain ⟨_, _, groupId, hlinked', hthere⟩ := h _ _ hr
      -- A source has one group.
      obtain ⟨_, source₁, hsource₁, _, hgroup₁⟩ := h _ _ hlinked
      obtain ⟨_, source₂, hsource₂, _, hgroup₂⟩ := h _ _ hlinked'
      rw [hsource] at hsource₁ hsource₂
      cases hsource₁
      cases hsource₂
      rw [hgroup₁] at hgroup₂
      cases hgroup₂
      rw [← hid] at hthere hr hsource
      obtain ⟨row, hrow⟩ := isSome_iff_exists.mp hthere
      have hrow : s.get (.projection (groupProjectionKey source
          l.providerBillingReconciliationGroupId r.effectivePeriod)) = some row := hrow
      rw [hkey]
      refine ⟨row, hrow, h.reconciled_row hrow fun hunallocated => ?_⟩
      have hnone := (hok.unallocated source _ _ row hsource hrow hunallocated).1
        r.effectivePeriod
      rw [hr] at hnone
      cases hnone
    · obtain ⟨_, hrow⟩ := Prod.mk.inj heq
      rw [hrow] at hstatus
      cases hstatus

theorem BillingInv.request_of_mem (h : BillingInv env s)
    (hsource : s.get (.source source.providerBillingSourceRecordId) = some source)
    (husage : s.get (.event usage.usageEventId) = some usage)
    (hmem : (requestKey usage source, row') ∈ rebuiltRows env s at_) :
    (sameRequest s source).getLast? = some source := by
  unfold rebuiltRows at hmem
  rcases mem_append.mp hmem with hevent | hlink
  · obtain ⟨e, he, heq⟩ := List.mem_map.mp hevent
    have hused := h.get_event (mem_filter.mp he).1
    unfold rebuiltEvent at heq
    obtain ⟨hkey, _⟩ := Prod.mk.inj heq
    have hid : e.usageEventId = usage.usageEventId := congrArg ProjectionKey.targetId hkey
    rw [hid, husage, some.injEq] at hused
    subst hused
    have hbill := congrArg ProjectionKey.providerBillingSourceRecordId hkey
    simp only [requestKey] at hbill
    obtain ⟨found, hfound, hsame⟩ := map_eq_some_iff.mp hbill
    obtain ⟨hmem, hdecide⟩ := mem_filter.mp (List.mem_of_getLast? hfound)
    obtain ⟨hsome, hprovider, hrequest⟩ := of_decide_eq_true hdecide
    have hget := h.get_source hmem
    rw [hsame, hsource, some.injEq] at hget
    subst hget
    rw [sourceByRequest_eq hprovider.symm (isSome_iff_ne_none.mp hsome) hrequest.symm]
      at hfound
    exact hfound
  · obtain ⟨l, hl, hx⟩ := mem_flatMap.mp hlink
    obtain ⟨hkind, _, _⟩ := h.key_of_link hl hx
    cases hkind

theorem BillingInv.unallocated_of_mem (h : BillingInv env s) {groupId period : String}
    (hsource : s.get (.source source.providerBillingSourceRecordId) = some source)
    (hmem : (groupProjectionKey source groupId period, row') ∈ rebuiltRows env s at_)
    (hstatus : row'.costStatus = .billingPeriodUnallocated) :
    (∀ p, s.get (.adjustment source.providerBillingSourceRecordId p) = none) ∧
      period = source.serviceMonth.getD (at_.recordedPeriod env) := by
  unfold rebuiltRows at hmem
  rcases mem_append.mp hmem with hevent | hlink
  · obtain ⟨e, _, heq⟩ := List.mem_map.mp hevent
    unfold rebuiltEvent at heq
    obtain ⟨hkey, _⟩ := Prod.mk.inj heq
    have hkind := congrArg ProjectionKey.targetKind hkey
    simp only [groupProjectionKey] at hkind
    split at hkind <;> cases hkind
  · obtain ⟨l, hl, hx⟩ := mem_flatMap.mp hlink
    obtain ⟨source', hsource', hid, ⟨r, _, heq⟩ | ⟨hnone, heq⟩⟩ :=
      (h.mem_rebuiltLink (h.get_link hl)).mp hx
    · obtain ⟨_, hrow⟩ := Prod.mk.inj heq
      rw [hrow] at hstatus
      cases hstatus
    · obtain ⟨hkey, _⟩ := Prod.mk.inj heq
      have hbill : some source.providerBillingSourceRecordId
          = some source'.providerBillingSourceRecordId :=
        congrArg ProjectionKey.providerBillingSourceRecordId hkey
      rw [some.injEq] at hbill
      rw [← hid, ← hbill] at hsource' hnone
      rw [hsource, some.injEq] at hsource'
      subst hsource'
      exact ⟨hnone, congrArg ProjectionKey.effectivePeriod hkey⟩

/-- **When the rebuilt projection is the one the reconciliations left.**  After every run a
rebuild succeeds, and its rows match those of the run exactly when every reconciled bill is
the last of its request and every bill left unallocated still is, in the same period. -/
theorem rebuilt_projection_matches (env : BillingEnv) (ops : List BillingOp) (at_ : Moment) :
    ∃ n s', (rebuildCostProjection env at_).exec (execAll (billingBody env) ∅ ops)
        = .ok (n, s') ∧
      (Matches (execAll (billingBody env) ∅ ops) s' ↔
        Rebuildable env at_ (execAll (billingBody env) ∅ ops)) := by
  have h := BillingInv.run env ops
  obtain ⟨s', hexec, hrows, _⟩ := rebuildCostProjection_ok h at_
  refine ⟨_, s', hexec, fun hmatches => ?_, fun hok => ?_⟩
  · constructor
    · intro source usage hsource husage hthere
      obtain ⟨row, hrow⟩ := Option.isSome_iff_exists.mp hthere
      obtain ⟨row', hrow', _⟩ := hmatches.rebuilt _ row hrow
      exact h.request_of_mem hsource husage ((hrows _ _).mp hrow')
    · intro source groupId period row hsource hrow hstatus
      obtain ⟨row', hrow', _, _, hsame⟩ := hmatches.rebuilt _ row hrow
      exact h.unallocated_of_mem hsource ((hrows _ _).mp hrow') (hsame.trans hstatus)
  · constructor
    · intro key row hrow
      obtain ⟨row', hmem, hsame⟩ := hok.rebuilt h hrow
      exact ⟨row', (hrows key row').mpr hmem, hsame⟩
    · intro key row' hrow' hstatus
      exact hok.noOther h ((hrows key row').mp hrow') hstatus

/-! ### A request with two bills -/

/-- The usage of a request, estimated at `0.10`. -/
def sampleUsage : UsageArgs where
  token := ⟨"u", by decide⟩
  isProvider := true
  provider := some "p"
  providerRequestId := some "r"
  currencyCode := some "EUR"
  estimatedCostAmount := some 1000000000
  estimatedCostStatus := some .complete
  effectiveCalendarVersionId := "cal"
  effectiveAtUtc := 0
  effectivePeriod := "1970-01"

/-- The bill of an account for the request. -/
def sampleRequestBill (account : String) : BillingSourceRecord :=
  { sampleBill with
    providerAccountId := account
    providerRequestId := some "r" }

/-- The reconciliation of a bill for the request. -/
def sampleRequestReconcile (sourceRecordId : String) (token : Token) : ReconcileArgs where
  sourceRecordId := sourceRecordId
  ownership := sampleOwnership
  allocations := none
  at_ := sampleMoment
  token := token
  tokens := []

/-- Two accounts are billed for the request, and both bills are reconciled. -/
def sampleTwoBills : List BillingOp :=
  [.recordUsage sampleUsage,
   .importRecord (sampleRequestBill "a") ⟨"1", urlsafe_one⟩,
   .importRecord (sampleRequestBill "b") ⟨"2", urlsafe_two⟩,
   .reconcile (sampleRequestReconcile "pbs_1" ⟨"3", by decide⟩),
   .reconcile (sampleRequestReconcile "pbs_2" ⟨"4", by decide⟩)]

/-- The projected cost of the request by the second bill. -/
def secondBillKey : ProjectionKey := ⟨.providerEvent, "ue_u", "1970-01", some "pbs_2"⟩

/-- The row of the second bill before and after a rebuild is there. -/
def secondBillRebuilt : Option (Bool × Bool) :=
  let s := execAll (billingBody sampleBillingEnv) ∅ sampleTwoBills
  match (rebuildCostProjection sampleBillingEnv sampleMoment).exec s with
  | .ok x => some ((s.get (.projection secondBillKey)).isSome,
      (x.2.get (.projection secondBillKey)).isSome)
  | .error _ => none

theorem two_bills_not_rebuilt :
    ∃ n s', (rebuildCostProjection sampleBillingEnv sampleMoment).exec
        (execAll (billingBody sampleBillingEnv) ∅ sampleTwoBills) = .ok (n, s') ∧
      ¬ Matches (execAll (billingBody sampleBillingEnv) ∅ sampleTwoBills) s' := by
  have hrebuilt : secondBillRebuilt = some (true, false) := by decide +kernel
  unfold secondBillRebuilt at hrebuilt
  simp only at hrebuilt
  cases hexec : (rebuildCostProjection sampleBillingEnv sampleMoment).exec
      (execAll (billingBody sampleBillingEnv) ∅ sampleTwoBills) with
  | error e =>
    rw [hexec] at hrebuilt
    cases hrebuilt
  | ok x =>
    rw [hexec] at hrebuilt
    obtain ⟨hbefore, hafter⟩ := Prod.mk.inj (Option.some.inj hrebuilt)
    refine ⟨x.1, x.2, rfl, fun hmatches => ?_⟩
    obtain ⟨row, hrow⟩ := Option.isSome_iff_exists.mp hbefore
    obtain ⟨row', hrow', _⟩ := hmatches.rebuilt secondBillKey row hrow
    rw [hrow'] at hafter
    cases hafter

end RagQs.Usage.Billing
