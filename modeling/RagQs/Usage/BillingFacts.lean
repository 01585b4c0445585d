import RagQs.Usage.BillingGroup

/-!
# What the rows of the billing tables say of each other

Sources, usage events, groups, links and adjustments are written once.  A row of the
projection is written over and over, always from rows that are there.

## Main definitions

* `CostAdjusted` — the cost adjustment of a usage event by a billed request.
* `Projected` — what a row of the projection was made from.
* `RowOk`, `BillingInv` — what is true of one row, and of all of them.

## Main results

* `BillingInv.write` — the rows that are there stay right when new ones are written.
* `BillingInv.run` — the rows are right after every run.
-/

namespace RagQs.Usage.Billing

open Txn List Store

variable {source : SourceRow} {usage : UsageEventRow} {groupId : String}
variable {k : BillingKey} {key : ProjectionKey} {row : ProjectionRow} {at_ : Moment} {ownership :
  OwnershipSnapshot}

/-! ### Rows that stay -/

/-- A key whose row may be written again: the projection, and two indexes that no row
refers to. -/
def Rewritable : BillingKey → Prop
  | .sourceIdentity _ _ _ => True
  | .adjustmentId _ => True
  | .projection _ => True
  | _ => False

/-- The rows of a state stay in a later one; those that may be written again are still
there. -/
structure Grows (s s' : BillingDb) : Prop where
  kept : ∀ k r, ¬ Rewritable k → s.get k = some r → s'.get k = some r
  there : ∀ k, (s.get k).isSome = true → (s'.get k).isSome = true

/-- A write to a free key or to one that may be written again. -/
def Fresh (s : BillingDb) (w : Write BillingRow) : Prop :=
  w.2.isSome = true ∧ (s.get w.1 = none ∨ Rewritable w.1)

variable {env : BillingEnv} {s s' : BillingDb} {ws : List (Write BillingRow)}

theorem get_applyAll_cases {r : BillingRow k} :
    ∀ {ws : List (Write BillingRow)} {s : BillingDb}, (s.applyAll ws).get k = some r →
      ⟨k, some r⟩ ∈ ws ∨ s.get k = some r := by
  intro ws
  induction ws with
  | nil =>
    intro s h
    exact .inr h
  | cons w ws ih =>
    intro s h
    obtain ⟨k', r'⟩ := w
    rcases ih h with hmem | hget
    · exact .inl (mem_cons_of_mem _ hmem)
    · by_cases hk : k = k'
      · subst hk
        rw [get_set_self] at hget
        subst hget
        exact .inl mem_cons_self
      · rw [get_set_of_ne hk] at hget
        exact .inr hget

theorem isSome_applyAll :
    ∀ {ws : List (Write BillingRow)} {s : BillingDb}, (∀ w ∈ ws, w.2.isSome = true) →
      (s.get k).isSome = true → ((s.applyAll ws).get k).isSome = true := by
  intro ws
  induction ws with
  | nil => exact fun _ h => h
  | cons w ws ih =>
    intro s hws h
    obtain ⟨k', r'⟩ := w
    apply ih fun w hw => hws w (mem_cons_of_mem _ hw)
    by_cases hk : k = k'
    · subst hk
      rw [get_set_self]
      exact hws _ mem_cons_self
    · rwa [get_set_of_ne hk]

theorem Grows.applyAll (ws : List (Write BillingRow)) (h : ∀ w ∈ ws, Fresh s w) : Grows s (s.applyAll ws) where
  kept k r hk hget := by
    rw [get_applyAll_of_notMem, hget]
    intro hmem
    obtain ⟨w, hw, rfl⟩ := mem_map.mp hmem
    rcases (h w hw).2 with hnone | hre
    · rw [hnone] at hget
      cases hget
    · exact hk hre
  there k hk := isSome_applyAll (fun w hw => (h w hw).1) hk

/-! ### What a row says -/

/-- The cost adjustment of a usage event by a billed request. -/
structure CostAdjusted (s : BillingDb) (source : SourceRow) (usage adjustment : UsageEventRow) :
    Prop where
  billed : s.get (.source source.providerBillingSourceRecordId) = some source
  used : s.get (.event usage.usageEventId) = some usage
  recorded : s.get (.event adjustment.usageEventId) = some adjustment
  index : s.get (.eventSource "provider_billing" source.providerBillingSourceRecordId "request")
    = some adjustment.usageEventId
  kind : adjustment.eventKind = .costAdjustment
  sourceId : adjustment.adjustmentSourceId = some source.providerBillingSourceRecordId
  referenced : adjustment.referencedUsageEventId = some usage.usageEventId
  provider : usage.eventKind = .providerUsage ∧ usage.provider = some source.provider
  request : source.providerRequestId ≠ none ∧
    usage.providerRequestId = source.providerRequestId
  amount : ∃ estimated, usage.estimatedCostAmount = some estimated ∧
    adjustment.estimatedCostAmount
      = some (columnUnits (costDelta source.amount estimated).toRat)

theorem CostAdjusted.grow {adjustment : UsageEventRow} (h : CostAdjusted s source usage adjustment)
    (hg : Grows s s') : CostAdjusted s' source usage adjustment :=
  { h with
    billed := hg.kept _ _ nofun h.billed
    used := hg.kept _ _ nofun h.used
    recorded := hg.kept _ _ nofun h.recorded
    index := hg.kept _ _ nofun h.index }

/-- What a row of the projection was made from. -/
inductive Projected (s : BillingDb) (key : ProjectionKey) (row : ProjectionRow) : Prop
  | request (source : SourceRow) (usage adjustment : UsageEventRow)
    (adjusted : CostAdjusted s source usage adjustment) (target : key = requestKey usage source)
    (delta : row.adjustmentAmount = adjustment.estimatedCostAmount)
    (cost : row.projectedAmount = some source.amount) (status : row.costStatus = .reconciled)
  | month (source : SourceRow) (groupId : String) (adjustment : AdjustmentRow)
    (named : s.get (.source source.providerBillingSourceRecordId) = some source)
    (linked : s.get (.link source.providerBillingSourceRecordId groupId)
      = some ⟨source.providerBillingSourceRecordId, groupId⟩)
    (stored : s.get (.adjustment source.providerBillingSourceRecordId adjustment.effectivePeriod)
      = some adjustment)
    (target : key = groupProjectionKey source groupId adjustment.effectivePeriod)
    (delta : row.adjustmentAmount = some adjustment.amountDelta)
    (cost : row.projectedAmount = some adjustment.amountDelta)
    (status : row.costStatus = .reconciled)
  | unallocated (source : SourceRow) (groupId period : String)
    (named : s.get (.source source.providerBillingSourceRecordId) = some source)
    (linked : s.get (.link source.providerBillingSourceRecordId groupId)
      = some ⟨source.providerBillingSourceRecordId, groupId⟩)
    (target : key = groupProjectionKey source groupId period)
    (delta : row.adjustmentAmount = none) (cost : row.projectedAmount = none)
    (status : row.costStatus = .billingPeriodUnallocated)

theorem Projected.grow (h : Projected s key row) (hg : Grows s s') : Projected s' key row := by
  cases h with
  | request source usage adjustment adjusted target delta cost status =>
    exact .request source usage adjustment (adjusted.grow hg) target delta cost status
  | month source groupId adjustment named linked stored target delta cost status =>
    exact .month source groupId adjustment (hg.kept _ _ nofun named) (hg.kept _ _ nofun linked)
      (hg.kept _ _ nofun stored) target delta cost status
  | unallocated source groupId period named linked target delta cost status =>
    exact .unallocated source groupId period (hg.kept _ _ nofun named)
      (hg.kept _ _ nofun linked) target delta cost status

/-- What is true of one row. -/
def RowOk (env : BillingEnv) (s : BillingDb) : (k : BillingKey) → BillingRow k → Prop
  | .source id, r => r.providerBillingSourceRecordId = id ∧ strip id = id ∧
      r.providerRequestId ≠ some ""
  | .sourceIdentity _ _ _, _ => True
  | .group id, r => r.providerBillingReconciliationGroupId = id
  | .groupKey _, groupId => (s.get (.group groupId)).isSome = true
  | .link sourceId groupId, r => r = ⟨sourceId, groupId⟩ ∧
      ∃ source, s.get (.source sourceId) = some source ∧ source.providerRequestId = none ∧
        s.get (.groupKey (groupKeyOf env source)) = some groupId
  | .adjustment sourceId period, r => r.adjustmentSourceId = sourceId ∧
      r.effectivePeriod = period ∧ ∃ groupId,
        s.get (.link sourceId groupId) = some ⟨sourceId, groupId⟩ ∧
        (s.get (.projection ⟨.reconciliationGroup, groupId, period, some sourceId⟩)).isSome = true
  | .adjustmentId _, _ => True
  | .event id, r => r.usageEventId = id ∧ strip id = id ∧
      (r.eventKind = .costAdjustment → ∃ source usage, CostAdjusted s source usage r ∧
        (s.get (.projection (requestKey usage source))).isSome = true)
  | .eventSource _ sourceId _, id => ∃ source usage adjustment,
      CostAdjusted s source usage adjustment ∧ source.providerBillingSourceRecordId = sourceId ∧
        adjustment.usageEventId = id
  | .projection key, row => Projected s key row

theorem RowOk.grow {r : BillingRow k} (h : RowOk env s k r) (hg : Grows s s') :
    RowOk env s' k r := by
  cases k with
  | source id => exact h
  | sourceIdentity provider account id => trivial
  | group id => exact h
  | groupKey key => exact hg.there _ h
  | link sourceId groupId =>
    obtain ⟨hr, source, hsource, hrequest, hkey⟩ := h
    exact ⟨hr, source, hg.kept _ _ nofun hsource, hrequest, hg.kept _ _ nofun hkey⟩
  | adjustment sourceId period =>
    obtain ⟨hsource, hperiod, groupId, hlink, hprojection⟩ := h
    exact ⟨hsource, hperiod, groupId, hg.kept _ _ nofun hlink, hg.there _ hprojection⟩
  | adjustmentId id => trivial
  | event id =>
    obtain ⟨hid, hstrip, hcost⟩ := h
    refine ⟨hid, hstrip, fun hkind => ?_⟩
    obtain ⟨source, usage, hadjusted, hprojection⟩ := hcost hkind
    exact ⟨source, usage, hadjusted.grow hg, hg.there _ hprojection⟩
  | eventSource namespace_ sourceId key =>
    obtain ⟨source, usage, adjustment, hadjusted, hsource, hid⟩ := h
    exact ⟨source, usage, adjustment, hadjusted.grow hg, hsource, hid⟩
  | projection key => exact .grow h hg

/-- Every row is right. -/
def BillingInv (env : BillingEnv) (s : BillingDb) : Prop :=
  ∀ k r, s.get k = some r → RowOk env s k r

/-- **Rows that are there stay right when new ones are written.** -/
theorem BillingInv.write (ws : List (Write BillingRow)) (h : BillingInv env s)
    (hfresh : ∀ w ∈ ws, Fresh s w)
    (hws : ∀ k r, ⟨k, some r⟩ ∈ ws → RowOk env (s.applyAll ws) k r) :
    BillingInv env (s.applyAll ws) := by
  intro k r hget
  rcases get_applyAll_cases hget with hmem | hold
  · exact hws k r hmem
  · exact (h k r hold).grow (.applyAll _ hfresh)

/-! ### Usage events, bills -/

theorem toNat_urlsafe {c : Char} (h : (c.isAlphanum || c == '-' || c == '_') = true) :
    33 ≤ c.toNat ∧ c.toNat ≤ 126 := by
  simp only [Char.isAlphanum, Char.isAlpha, Char.isUpper, Char.isLower, Char.isDigit,
    Bool.or_eq_true, Bool.and_eq_true, decide_eq_true_eq, beq_iff_eq] at h
  rcases h with (((⟨h, h'⟩ | ⟨h, h'⟩) | ⟨h, h'⟩) | rfl) | rfl
  · have h : 65 ≤ c.toNat := h
    have h' : c.toNat ≤ 90 := h'
    omega
  · have h : 97 ≤ c.toNat := h
    have h' : c.toNat ≤ 122 := h'
    omega
  · have h : 48 ≤ c.toNat := h
    have h' : c.toNat ≤ 57 := h'
    omega
  · decide
  · decide

theorem isSpace_urlsafe {c : Char} (h : (c.isAlphanum || c == '-' || c == '_') = true) :
    isSpace c = false := by
  obtain ⟨hlow, hhigh⟩ := toNat_urlsafe h
  unfold isSpace
  simp only [Bool.or_eq_false_iff, Bool.and_eq_false_iff, decide_eq_false_iff_not,
    beq_eq_false_iff_ne]
  omega

theorem strip_eq_self {s : String} (h : ∀ c ∈ s.toList, isSpace c = false) : strip s = s := by
  have hdrop : ∀ l : List Char, (∀ c ∈ l, isSpace c = false) → l.dropWhile isSpace = l := by
    intro l hl
    cases l with
    | nil => rfl
    | cons c l => rw [dropWhile_cons_of_neg (by simp [hl c mem_cons_self])]
  unfold strip
  rw [hdrop _ h, hdrop _ fun c hc => h c (mem_reverse.mp hc), reverse_reverse,
    String.ofList_toList]

theorem strip_token {tag : String} {token : Token}
    (h : (tag.toList.all fun c => !isSpace c) = true) :
    strip (tag ++ token.text) = tag ++ token.text := by
  apply strip_eq_self
  intro c hc
  rw [String.toList_append, mem_append] at hc
  rcases hc with hc | hc
  · simpa using all_eq_true.mp h c hc
  · exact isSpace_urlsafe (all_eq_true.mp token.urlsafe c hc)

theorem BillingInv.recordUsage {a : UsageArgs} {u : Unit} (h : BillingInv env s)
    (hexec : (recordUsage a).exec s = .ok (u, s')) : BillingInv env s' := by
  obtain ⟨hfree, rfl⟩ := recordUsage_ok hexec
  apply BillingInv.write [⟨.event (usageRow a).usageEventId, some (usageRow a)⟩] h
  · intro w hw
    obtain rfl := mem_singleton.mp hw
    exact ⟨rfl, .inl hfree⟩
  · intro k r hmem
    cases mem_singleton.mp hmem
    refine ⟨rfl, strip_token (by decide), fun hkind => ?_⟩
    unfold usageRow at hkind
    simp only at hkind
    split at hkind <;> cases hkind

theorem BillingInv.importRecord {record : BillingSourceRecord} {token : Token} {r : String}
    (h : BillingInv env s)
    (hexec : (Billing.importRecord env record token).exec s = .ok (r, s')) :
    BillingInv env s' := by
  rcases importRecord_ok hexec with rfl | ⟨values, himported⟩
  · exact h
  · obtain ⟨hid, hrequest⟩ := recordValues_ok himported.recorded
    rw [himported.store]
    apply BillingInv.write [⟨.sourceIdentity values.provider values.providerAccountId
      values.billingSourceRecordId, some values.providerBillingSourceRecordId⟩,
      ⟨.source values.providerBillingSourceRecordId, some values⟩] h
    · intro w hw
      simp only [mem_cons, not_mem_nil, or_false] at hw
      rcases hw with rfl | rfl
      · exact ⟨rfl, .inr trivial⟩
      · exact ⟨rfl, .inl himported.new⟩
    · intro k r hmem
      simp only [mem_cons, not_mem_nil, or_false] at hmem
      rcases hmem with heq | heq
      · cases heq
        trivial
      · cases heq
        refine ⟨rfl, ?_, fun hempty => hrequest _ hempty rfl⟩
        rw [hid]
        exact strip_token (by decide)

/-! ### Reconciliations of a group -/

theorem Ensured.linked {new : Bool} (h : BillingInv env s)
    (hsource : s.get (.source source.providerBillingSourceRecordId) = some source)
    (hrequest : source.providerRequestId = none) (hensured : Ensured env source s s' groupId new) :
    BillingInv env s' ∧ Grows s s' ∧
      s'.get (.link source.providerBillingSourceRecordId groupId)
        = some ⟨source.providerBillingSourceRecordId, groupId⟩ := by
  obtain ⟨d, hgrouped, hlink⟩ := hensured.grouped
  -- The group is there, or it is made.
  have hgroup : BillingInv env d ∧ Grows s d ∧
      d.get (.groupKey (groupKeyOf env source)) = some groupId := by
    cases new with
    | false =>
      obtain ⟨hkey, rfl⟩ := hgrouped.old rfl
      exact ⟨h, ⟨fun _ _ _ h => h, fun _ h => h⟩, hkey⟩
    | true =>
      obtain ⟨hkey, hid, rfl⟩ := hgrouped.made rfl
      have hfresh : ∀ w ∈ ([⟨.groupKey (groupKeyOf env source), some groupId⟩,
          ⟨.group groupId, some ⟨groupId, groupKeyOf env source⟩⟩] : List (Write BillingRow)),
          Fresh s w := by
        intro w hw
        simp only [mem_cons, not_mem_nil, or_false] at hw
        rcases hw with rfl | rfl
        · exact ⟨rfl, .inl hkey⟩
        · exact ⟨rfl, .inl hid⟩
      refine ⟨?_, Grows.applyAll _ hfresh, ?_⟩
      · apply BillingInv.write _ h hfresh
        intro k r hmem
        simp only [mem_cons, not_mem_nil, or_false] at hmem
        rcases hmem with heq | heq
        · cases heq
          simp [RowOk]
        · cases heq
          rfl
      · rw [get_set_of_ne (by simp), get_set_self]
  obtain ⟨hd, hgrows, hkey⟩ := hgroup
  rcases hlink with ⟨rfl, hthere⟩ | ⟨hfree, rfl⟩
  · obtain ⟨row, hrow⟩ := Option.ne_none_iff_exists'.mp hthere
    obtain ⟨rfl, _⟩ := hd _ _ hrow
    exact ⟨hd, hgrows, hrow⟩
  · have hfresh : ∀ w ∈ ([⟨.link source.providerBillingSourceRecordId groupId,
        some ⟨source.providerBillingSourceRecordId, groupId⟩⟩] : List (Write BillingRow)),
        Fresh d w := by
      intro w hw
      obtain rfl := mem_singleton.mp hw
      exact ⟨rfl, .inl hfree⟩
    have hlinked := Grows.applyAll _ hfresh
    refine ⟨?_, ⟨fun k r hk hget => hlinked.kept k r hk (hgrows.kept k r hk hget),
      fun k hk => hlinked.there k (hgrows.there k hk)⟩, get_set_self _ _ _⟩
    apply BillingInv.write _ hd hfresh
    intro k r hmem
    cases mem_singleton.mp hmem
    exact ⟨rfl, source, hlinked.kept _ _ (by intro h; cases h) (hgrows.kept _ _ (by intro h; cases h) hsource), hrequest,
      hlinked.kept _ _ (by intro h; cases h) hkey⟩

theorem BillingInv.project (h : BillingInv env s) (hrow : Projected s key row) :
    BillingInv env (s.set (.projection key) (some row)) := by
  have hfresh : ∀ w ∈ ([⟨.projection key, some row⟩] : List (Write BillingRow)), Fresh s w := by
    intro w hw
    obtain rfl := mem_singleton.mp hw
    exact ⟨rfl, .inr trivial⟩
  apply BillingInv.write [⟨.projection key, some row⟩] h hfresh
  intro k r hmem
  cases mem_singleton.mp hmem
  exact hrow.grow (.applyAll _ hfresh)

theorem BillingInv.month {period : String} {amount : Money} (effectiveAt : Time) (at_ : Moment)
    (h : BillingInv env s)
    (hsource : s.get (.source source.providerBillingSourceRecordId) = some source)
    (hlinked : s.get (.link source.providerBillingSourceRecordId groupId)
      = some ⟨source.providerBillingSourceRecordId, groupId⟩)
    (hadjusted : Adjusted source period amount s s') :
    BillingInv env (s'.set (.projection (groupProjectionKey source groupId period))
        (some (groupProjectionRow env source (some amount) effectiveAt at_))) ∧
      Grows s (s'.set (.projection (groupProjectionKey source groupId period))
        (some (groupProjectionRow env source (some amount) effectiveAt at_))) := by
  rcases hadjusted.store with rfl | ⟨r, id, hamount, hid, hperiod, hfree, rfl⟩
  · obtain ⟨r, hr, hamount⟩ := hadjusted.row
    obtain ⟨_, hperiod, _⟩ := h _ _ hr
    subst hperiod
    constructor
    · apply h.project
      exact .month source groupId r hsource hlinked hr rfl (by simp [groupProjectionRow, hamount])
        (by simp [groupProjectionRow, hamount]) rfl
    · apply Grows.applyAll [⟨.projection _, some _⟩]
      intro w hw
      obtain rfl := mem_singleton.mp hw
      exact ⟨rfl, .inr trivial⟩
  · subst hperiod
    have hfresh : ∀ w ∈ ([⟨.adjustment source.providerBillingSourceRecordId r.effectivePeriod,
        some r⟩, ⟨.adjustmentId id, some ()⟩,
        ⟨.projection (groupProjectionKey source groupId r.effectivePeriod),
          some (groupProjectionRow env source (some amount) effectiveAt at_)⟩] :
          List (Write BillingRow)), Fresh s w := by
      intro w hw
      simp only [mem_cons, not_mem_nil, or_false] at hw
      rcases hw with rfl | rfl | rfl
      · exact ⟨rfl, .inl hfree⟩
      · exact ⟨rfl, .inr trivial⟩
      · exact ⟨rfl, .inr trivial⟩
    have hgrows := Grows.applyAll _ hfresh
    refine ⟨?_, hgrows⟩
    apply BillingInv.write _ h hfresh
    intro k row hmem
    simp only [mem_cons, not_mem_nil, or_false] at hmem
    rcases hmem with heq | heq | heq
    · cases heq
      refine ⟨hid, rfl, groupId, hgrows.kept _ _ (by intro h; cases h) hlinked, ?_⟩
      simp [groupProjectionKey]
    · cases heq
      trivial
    · cases heq
      refine .month source groupId r (hgrows.kept _ _ (by intro h; cases h) hsource)
        (hgrows.kept _ _ (by intro h; cases h) hlinked) ?_ rfl (by simp [groupProjectionRow, hamount])
        (by simp [groupProjectionRow, hamount]) rfl
      simp [get_set_of_ne]

theorem BillingInv.allocateMonths (list : List (String × Money)) :
    ∀ {s : BillingDb} {tokens : List Token} {months : List ReconciledMonth}, BillingInv env s →
      s.get (.source source.providerBillingSourceRecordId) = some source →
      s.get (.link source.providerBillingSourceRecordId groupId)
        = some ⟨source.providerBillingSourceRecordId, groupId⟩ →
      (Billing.allocateMonths env source groupId at_ list tokens).exec s = .ok (months, s') →
      BillingInv env s' := by
  induction list with
  | nil =>
    intro s tokens months hs _ _ h
    cases tokens <;> cases h <;> exact hs
  | cons entry rest ih =>
    obtain ⟨period, amount⟩ := entry
    intro s tokens months hs hsource hlinked h
    obtain ⟨d, effectiveAt, months', tokens', hadjusted, hrest⟩ := allocateMonths_cons h
    obtain ⟨hmonth, hgrows⟩ := BillingInv.month effectiveAt at_ hs hsource hlinked hadjusted
    exact ih hmonth (hgrows.kept _ _ nofun hsource) (hgrows.kept _ _ nofun hlinked) hrest

/-! ### Reconciliations of a request -/

theorem mem_usageEvents {e : UsageEventRow} :
    e ∈ usageEvents s ↔ ∃ id, s.get (.event id) = some e := by
  unfold usageEvents
  rw [mem_table]
  constructor
  · rintro ⟨k, r, hget, hpick⟩
    cases k <;> cases hpick
    exact ⟨_, hget⟩
  · rintro ⟨id, hget⟩
    exact ⟨.event id, e, hget, rfl⟩

theorem RequestReconciled.projected {e : UsageEventRow} {estimated : Money} {c d : BillingDb}
    (h : RequestReconciled env source ownership at_ c s' usage estimated d)
    (hadjusted : CostAdjusted s source usage e) :
    Projected s (requestKey usage source) (requestRow env usage source estimated
      (columnUnits (costDelta source.amount estimated).toRat) at_) := by
  obtain ⟨estimated', hestimated, hamount⟩ := hadjusted.amount
  have hsame := hestimated.symm.trans h.cost
  cases hsame
  exact .request source usage e hadjusted rfl hamount.symm rfl rfl

theorem BillingInv.request {estimated : Money} {d : BillingDb} (h : BillingInv env s)
    (hsource : s.get (.source source.providerBillingSourceRecordId) = some source)
    (hrequest : source.providerRequestId ≠ none)
    (hexec : RequestReconciled env source ownership at_ s s' usage estimated d) :
    BillingInv env s' := by
  have hmem : usage ∈ (usageEvents s).filter (fun e => e.eventKind = .providerUsage ∧
      e.provider = some source.provider ∧ e.providerRequestId = source.providerRequestId) := by
    rw [hexec.found]
    exact mem_singleton_self _
  obtain ⟨husage, hfound⟩ := mem_filter.mp hmem
  obtain ⟨hkind, hprovider, hrequestId⟩ := of_decide_eq_true hfound
  obtain ⟨id, hused⟩ := mem_usageEvents.mp husage
  obtain ⟨hid, hstrip, _⟩ := h _ _ hused
  subst hid
  obtain ⟨_, hstripSource, _⟩ := h _ _ hsource
  rw [hexec.store]
  cases hexec.appended with
  | old id existing index event store =>
    rw [store]
    rw [hstripSource] at index
    obtain ⟨source', usage', adjustment, hadjusted, hsame, _⟩ := h _ _ index
    have hbilled := hadjusted.billed
    rw [hsame, hsource] at hbilled
    cases hbilled
    -- The usage of the request is the one that was adjusted.
    have hmem' : usage' ∈ (usageEvents s).filter (fun e => e.eventKind = .providerUsage ∧
        e.provider = some source.provider ∧
        e.providerRequestId = source.providerRequestId) := by
      rw [mem_filter]
      exact ⟨mem_usageEvents.mpr ⟨_, hadjusted.used⟩, decide_eq_true
        ⟨hadjusted.provider.1, hadjusted.provider.2, hadjusted.request.2⟩⟩
    rw [hexec.found] at hmem'
    obtain rfl := mem_singleton.mp hmem'
    exact h.project (hexec.projected hadjusted)
  | new ref token referenced free index store =>
    rw [store, hstripSource]
    rw [hstripSource] at index
    -- The index has no entry without its event.
    have hindex : s.get (.eventSource "provider_billing" source.providerBillingSourceRecordId
        "request") = none := by
      rcases index with hnone | ⟨id, hsome, hnone⟩
      · exact hnone
      · obtain ⟨_, _, adjustment, hadjusted, _, rfl⟩ := h _ _ hsome
        have hrecorded := hadjusted.recorded
        rw [hnone] at hrecorded
        cases hrecorded
    let row := adjustmentEvent env usage ref source ownership (costDelta source.amount estimated)
      (columnUnits (costDelta source.amount estimated).toRat) token
    have hfresh : ∀ w ∈ ([⟨.eventSource "provider_billing" source.providerBillingSourceRecordId
        "request", some ("ue_" ++ token.text)⟩, ⟨.event ("ue_" ++ token.text), some row⟩,
        ⟨.projection (requestKey usage source), some (requestRow env usage source estimated
          (columnUnits (costDelta source.amount estimated).toRat) at_)⟩] :
          List (Write BillingRow)), Fresh s w := by
      intro w hw
      simp only [mem_cons, not_mem_nil, or_false] at hw
      rcases hw with rfl | rfl | rfl
      · exact ⟨rfl, .inl hindex⟩
      · exact ⟨rfl, .inl free⟩
      · exact ⟨rfl, .inr trivial⟩
    have hgrows := Grows.applyAll _ hfresh
    have hadjusted : CostAdjusted (s.applyAll [⟨.eventSource "provider_billing"
        source.providerBillingSourceRecordId "request", some ("ue_" ++ token.text)⟩,
        ⟨.event ("ue_" ++ token.text), some row⟩, ⟨.projection (requestKey usage source),
          some (requestRow env usage source estimated
            (columnUnits (costDelta source.amount estimated).toRat) at_)⟩])
        source usage row :=
      { billed := hgrows.kept _ _ nofun hsource
        used := hgrows.kept _ _ nofun hused
        recorded := by
          rw [applyAll_cons, applyAll_cons, applyAll_cons, applyAll_nil,
            get_set_of_ne (by simp)]
          exact get_set_self _ _ _
        index := by
          rw [applyAll_cons, applyAll_cons, applyAll_cons, applyAll_nil,
            get_set_of_ne (by simp), get_set_of_ne (by simp)]
          exact get_set_self _ _ _
        kind := rfl
        sourceId := by simp only [row, adjustmentEvent, hstripSource]
        referenced := by simp only [row, adjustmentEvent, hstrip]
        provider := ⟨hkind, hprovider⟩
        request := ⟨hrequest, hrequestId⟩
        amount := ⟨estimated, hexec.cost, rfl⟩ }
    apply BillingInv.write _ h hfresh
    intro k r hmem
    simp only [mem_cons, not_mem_nil, or_false] at hmem
    rcases hmem with heq | heq | heq
    · cases heq
      exact ⟨source, usage, row, hadjusted, rfl, rfl⟩
    · cases heq
      refine ⟨rfl, strip_token (by decide), fun _ => ⟨source, usage, hadjusted, ?_⟩⟩
      rw [applyAll_cons, applyAll_cons, applyAll_cons, applyAll_nil,
        get_set_self]
      rfl
    · cases heq
      exact hexec.projected hadjusted

/-! ### Runs -/

theorem BillingInv.reconcile {a : ReconcileArgs} {result : ReconciliationResult}
    (h : BillingInv env s) (hexec : (Billing.reconcile env a).exec s = .ok (result, s')) :
    BillingInv env s' := by
  obtain ⟨source, hsource, hcases⟩ := reconcile_ok hexec
  obtain ⟨hid, _, hempty⟩ := h _ _ hsource
  rw [← hid] at hsource
  rcases hcases with ⟨⟨id, hrequest, _⟩, usage, estimated, d, hreconciled⟩ | ⟨hno, hgroup⟩
  · exact h.request hsource (by simp [hrequest]) hreconciled
  · have hrequest : source.providerRequestId = none := by
      cases hid : source.providerRequestId with
      | none => rfl
      | some id =>
        rw [hno id hid] at hid
        exact absurd hid hempty
    cases hgroup with
    | unallocated groupId new d effectiveAt empty ensured status store =>
      obtain ⟨hd, hgrows, hlinked⟩ := ensured.linked h hsource hrequest
      rw [store]
      apply hd.project
      exact .unallocated source groupId _ (hgrows.kept _ _ nofun hsource) hlinked rfl rfl rfl rfl
    | allocated groupId new d list months tokens ensured normalized total status store =>
      obtain ⟨hd, hgrows, hlinked⟩ := ensured.linked h hsource hrequest
      exact hd.allocateMonths list (hgrows.kept _ _ nofun hsource) hlinked store

/-- **Every operation keeps the rows right.** -/
theorem BillingInv.body {op : BillingOp} {u : Unit} (h : BillingInv env s)
    (hexec : (billingBody env op).exec s = .ok (u, s')) : BillingInv env s' := by
  cases op with
  | recordUsage a => exact h.recordUsage hexec
  | importRecord record token =>
    obtain ⟨_, v, hp, hexec⟩ := Prog.exec_bind_ok hexec
    cases hexec
    exact h.importRecord hp
  | reconcile a =>
    obtain ⟨_, v, hp, hexec⟩ := Prog.exec_bind_ok hexec
    cases hexec
    exact h.reconcile hp

theorem BillingInv.run (env : BillingEnv) (ops : List BillingOp) :
    BillingInv env (execAll (billingBody env) ∅ ops) := by
  apply execAll_induction (P := BillingInv env)
  · intro op s u s' hs h
    exact hs.body h
  · intro k r hget
    simp at hget

end RagQs.Usage.Billing
