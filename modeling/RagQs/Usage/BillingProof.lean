import RagQs.Txn.StatementExec
import RagQs.Usage.Billing

/-!
# What the billing transactions do

For each part of a billing transaction that did not fail, the store it leaves.

## Main results

* `importRecord_ok`, `ensureGroup_ok`, `insertGroupAdjustment_ok`, `appendCostAdjustment_ok`,
  `upsertCostProjection_ok` — the parts.
* `reconcile_ok` — a reconciliation is one of a request, one without allocations, or one of
  the months of a list.
-/

namespace RagQs.Usage.Billing

open Txn

variable {env : BillingEnv} {c c' : BillingDb}
variable {token : Token} {α : Type} {source : SourceRow} {f : String → BillingTx α} {result :
  ReconciliationResult}

variable {record : BillingSourceRecord} {at_ : Moment} {tokens : List Token} {ownership :
  OwnershipSnapshot}

theorem get_of_taken {k : BillingKey} (h : taken c [k] = false) : c.get k = none := by
  simpa [taken] using h

/-! ### Import, usage events -/

/-- A new source was imported. -/
structure Imported (env : BillingEnv) (record : BillingSourceRecord) (token : Token)
    (c c' : BillingDb) (values : SourceRow) : Prop where
  recorded : recordValues env record token = .ok values
  new : c.get (.source values.providerBillingSourceRecordId) = none
  store : c' = (c.set (.sourceIdentity values.provider values.providerAccountId
      values.billingSourceRecordId) (some values.providerBillingSourceRecordId)).set
    (.source values.providerBillingSourceRecordId) (some values)

theorem importRecord_ok {r : String} (h : (importRecord env record token).exec c = .ok (r, c')) :
    c' = c ∨ ∃ values, Imported env record token c c' values := by
  unfold importRecord at h
  obtain ⟨_, h⟩ := exec_raiseIf_bind h
  obtain ⟨values, hvalues, h⟩ := exec_check_bind h
  have h := exec_select_bind h
  split at h
  · obtain ⟨_, h⟩ := exec_raiseIf_bind h
    cases h
    exact .inl rfl
  · rcases exec_insertOrSkip_bind h with ⟨_, h⟩ | ⟨_, hother, h⟩
    · rw [if_neg Bool.false_ne_true] at h
      have h := exec_select_bind h
      obtain ⟨_, _, h⟩ := exec_orRaise_bind h
      obtain ⟨_, h⟩ := exec_raiseIf_bind h
      cases h
      exact .inl rfl
    · cases h
      exact .inr ⟨values, hvalues, get_of_taken hother, rfl⟩

theorem recordValues_ok {values : SourceRow} (h : recordValues env record token = .ok values) :
    values.providerBillingSourceRecordId = "pbs_" ++ token.text ∧
      ∀ id, values.providerRequestId = some id → id ≠ "" := by
  unfold recordValues at h
  obtain ⟨provider, _, h⟩ := exists_of_bind_ok h
  obtain ⟨account, _, h⟩ := exists_of_bind_ok h
  obtain ⟨sourceId, _, h⟩ := exists_of_bind_ok h
  obtain ⟨model, _, h⟩ := exists_of_bind_ok h
  obtain ⟨operation, _, h⟩ := exists_of_bind_ok h
  obtain ⟨requestId, hrequest, h⟩ := exists_of_bind_ok h
  obtain ⟨_, _, h⟩ := exists_of_bind_ok h
  obtain ⟨currency, _, h⟩ := exists_of_bind_ok h
  obtain ⟨amount, _, h⟩ := exists_of_bind_ok h
  obtain ⟨_, _, h⟩ := exists_of_bind_ok h
  obtain ⟨_, _, h⟩ := exists_of_bind_ok h
  obtain ⟨_, _, h⟩ := exists_of_bind_ok h
  obtain ⟨_, _, h⟩ := exists_of_bind_ok h
  cases h
  refine ⟨rfl, ?_⟩
  intro id hid
  simp only at hid
  subst hid
  cases hprovider : record.providerRequestId with
  | none =>
    rw [hprovider] at hrequest
    cases hrequest
  | some value =>
    rw [hprovider] at hrequest
    simp only [optionalText, requireText] at hrequest
    split at hrequest
    · cases hrequest
    · next hne =>
      split at hrequest
      · cases hrequest
      · simp only [Except.map, Except.ok.injEq, Option.some.injEq] at hrequest
        rwa [hrequest] at hne

theorem recordUsage_ok {a : UsageArgs} {u : Unit} (h : (recordUsage a).exec c = .ok (u, c')) :
    c.get (.event (usageRow a).usageEventId) = none ∧
      c' = c.set (.event (usageRow a).usageEventId) (some (usageRow a)) := by
  unfold recordUsage at h
  rw [exec_insert] at h
  split at h
  · cases h
  · next htaken =>
    cases h
    exact ⟨get_of_taken (Bool.eq_false_iff.mpr htaken), rfl⟩

/-! ### The projection -/

variable {b : α}

theorem exec_upsertCostProjection_bind {key : ProjectionKey} {row : ProjectionRow}
    {f : Unit → BillingTx α} (h : (upsertCostProjection key row >>= f).exec c = .ok (b, c')) :
    (f ()).exec (c.set (.projection key) (some row)) = .ok (b, c') := by
  unfold upsertCostProjection at h
  rw [Prog.bind_assoc] at h
  have h := exec_readRow_bind h
  cases hget : c.get (.projection key) with
  | some old =>
    rw [hget] at h
    simp only [Prog.bind_assoc] at h
    exact exec_updateWhere_bind hget rfl h
  | none =>
    rw [hget] at h
    exact (exec_insert_bind h).2

/-! ### Groups -/

/-- The group of a source after it was looked up or made. -/
structure Grouped (env : BillingEnv) (source : SourceRow) (c c' : BillingDb) (groupId : String)
    (new : Bool) : Prop where
  old : new = false → c.get (.groupKey (groupKeyOf env source)) = some groupId ∧ c' = c
  made : new = true → c.get (.groupKey (groupKeyOf env source)) = none ∧
    c.get (.group groupId) = none ∧
    c' = (c.set (.groupKey (groupKeyOf env source)) (some groupId)).set (.group groupId)
      (some ⟨groupId, groupKeyOf env source⟩)

theorem exec_findGroup_bind (h : (findGroup env source token >>= f).exec c = .ok (b, c')) :
    ∃ groupId new d, Grouped env source c d groupId new ∧ (f groupId).exec d = .ok (b, c') := by
  unfold findGroup at h
  rw [Prog.bind_assoc] at h
  have h := exec_lockRow_bind h
  cases hget : c.get (.groupKey (groupKeyOf env source)) with
  | some groupId =>
    rw [hget] at h
    exact ⟨groupId, false, c, ⟨fun _ => ⟨hget, rfl⟩, (by simp)⟩, h⟩
  | none =>
    rw [hget] at h
    simp only [Prog.bind_assoc] at h
    rcases exec_insertOrSkip_bind h with ⟨htaken, _⟩ | ⟨_, hother, h⟩
    · simp [taken, hget] at htaken
    · exact ⟨_, true, _, ⟨(by simp), fun _ => ⟨hget, get_of_taken hother, rfl⟩⟩, h⟩

/-- The source is linked to its group, and nothing else of the group's store changes. -/
structure Ensured (env : BillingEnv) (source : SourceRow) (c c' : BillingDb) (groupId : String)
    (new : Bool) : Prop where
  grouped : ∃ d, Grouped env source c d groupId new ∧
    (c' = d ∧ d.get (.link source.providerBillingSourceRecordId groupId) ≠ none ∨
      d.get (.link source.providerBillingSourceRecordId groupId) = none ∧
      c' = d.set (.link source.providerBillingSourceRecordId groupId)
        (some ⟨source.providerBillingSourceRecordId, groupId⟩))

theorem exec_ensureGroup_bind (h : (ensureGroup env source token >>= f).exec c = .ok (b, c')) :
    ∃ groupId new d, Ensured env source c d groupId new ∧ (f groupId).exec d = .ok (b, c') := by
  unfold ensureGroup at h
  rw [Prog.bind_assoc] at h
  obtain ⟨groupId, new, d, hgrouped, h⟩ := exec_findGroup_bind h
  rw [Prog.bind_assoc] at h
  rcases exec_insertOrSkip_bind h with ⟨htaken, h⟩ | ⟨hfree, _, h⟩
  · refine ⟨groupId, new, d, ⟨d, hgrouped, .inl ⟨rfl, ?_⟩⟩, h⟩
    intro hnone
    simp [taken, hnone] at htaken
  · exact ⟨groupId, new, _, ⟨d, hgrouped, .inr ⟨get_of_taken hfree, rfl⟩⟩, h⟩

/-! ### Adjustments of a group -/

/-- A month of a source was there with the amount, or is now. -/
structure Adjusted (source : SourceRow) (period : String) (amount : Money) (c c' : BillingDb) :
    Prop where
  row : ∃ r : AdjustmentRow, c'.get (.adjustment source.providerBillingSourceRecordId period)
    = some r ∧ r.amountDelta = amount
  store : c' = c ∨ ∃ (r : AdjustmentRow) (id : String), r.amountDelta = amount ∧
    r.adjustmentSourceId = source.providerBillingSourceRecordId ∧ r.effectivePeriod = period ∧
    c.get (.adjustment source.providerBillingSourceRecordId period) = none ∧
    c' = (c.set (.adjustment source.providerBillingSourceRecordId period) (some r)).set
      (.adjustmentId id) (some ())

theorem exec_insertGroupAdjustment_bind {groupId period : String} {amount : Money}
    {lock : CalendarLock}
    (h : (insertGroupAdjustment env source groupId period amount lock token >>= f).exec c
      = .ok (b, c')) : ∃ id d, Adjusted source period amount c d ∧ (f id).exec d = .ok (b, c') := by
  unfold insertGroupAdjustment at h
  rw [Prog.bind_assoc] at h
  have h := exec_readRow_bind h
  cases hget : c.get (.adjustment source.providerBillingSourceRecordId period) with
  | some existing =>
    rw [hget] at h
    simp only [Prog.bind_assoc] at h
    obtain ⟨hamount, h⟩ := exec_raiseIf_bind h
    exact ⟨_, c, ⟨⟨existing, hget, not_not.mp hamount⟩, .inl rfl⟩, h⟩
  | none =>
    rw [hget] at h
    simp only [Prog.bind_assoc] at h
    obtain ⟨effectiveAt, _, h⟩ := exec_check_bind h
    rcases exec_insertOrSkip_bind h with ⟨htaken, _⟩ | ⟨_, _, h⟩
    · simp [taken, hget] at htaken
    · let row := adjustmentRow source groupId period amount lock effectiveAt token
      refine ⟨_, _, ⟨⟨row, ?_, rfl⟩, .inr ⟨row, _, rfl, rfl, rfl, hget, rfl⟩⟩, h⟩
      rw [Store.get_set_of_ne (by simp), Store.get_set_self]

theorem allocateMonths_cons {groupId period : String} {amount : Money}
    {rest : List (String × Money)} {months : List ReconciledMonth}
    (h : (allocateMonths env source groupId at_ ((period, amount) :: rest) tokens).exec c
      = .ok (months, c')) :
    ∃ d effectiveAt months' tokens', Adjusted source period amount c d ∧
      (allocateMonths env source groupId at_ rest tokens').exec
        (d.set (.projection (groupProjectionKey source groupId period))
          (some (groupProjectionRow env source (some amount) effectiveAt at_)))
        = .ok (months', c') := by
  cases tokens with
  | nil =>
    unfold allocateMonths at h
    cases h
  | cons token tokens =>
    unfold allocateMonths at h
    obtain ⟨id, d, hadjusted, h⟩ := exec_insertGroupAdjustment_bind h
    obtain ⟨effectiveAt, _, h⟩ := exec_check_bind h
    have h := exec_upsertCostProjection_bind h
    obtain ⟨months', u, hrest, h⟩ := Prog.exec_bind_ok h
    cases h
    exact ⟨d, effectiveAt, months', tokens, hadjusted, hrest⟩

/-- A group was reconciled with no allocation, or with those of a list. -/
inductive GroupReconciled (env : BillingEnv) (source : SourceRow) (allocations : List Allocation)
    (at_ : Moment) (c c' : BillingDb) (result : ReconciliationResult) : Prop
  | unallocated (groupId : String) (new : Bool) (d : BillingDb) (effectiveAt : Time)
    (empty : allocations = []) (ensured : Ensured env source c d groupId new)
    (status : result.status = .billingPeriodUnallocated)
    (store : c' = d.set (.projection (groupProjectionKey source groupId
        (source.serviceMonth.getD (at_.recordedPeriod env))))
      (some (groupProjectionRow env source none effectiveAt at_)))
  | allocated (groupId : String) (new : Bool) (d : BillingDb) (list : List (String × Money))
    (months : List ReconciledMonth) (tokens : List Token)
    (ensured : Ensured env source c d groupId new)
    (normalized : allocations.mapM normalizeAllocation = .ok list)
    (total : contextTotal (list.map Prod.snd) = amountValue source.amount)
    (status : result.status = .reconciled)
    (store : (allocateMonths env source groupId at_ list tokens).exec d = .ok (months, c'))

theorem reconcileGroup_ok {allocations : List Allocation}
    (h : (reconcileGroup env source allocations at_ token tokens).exec c = .ok (result, c')) :
    GroupReconciled env source allocations at_ c c' result := by
  unfold reconcileGroup at h
  obtain ⟨groupId, new, d, hensured, h⟩ := exec_ensureGroup_bind h
  split at h
  · next hempty =>
    have h := exec_upsertCostProjection_bind h
    cases h
    exact .unallocated groupId new d _ hempty hensured rfl rfl
  · obtain ⟨list, hlist, h⟩ := exec_check_bind h
    obtain ⟨htotal, h⟩ := exec_raiseIf_bind h
    obtain ⟨months, u, hmonths, h⟩ := Prog.exec_bind_ok h
    cases h
    exact .allocated groupId new d list months tokens hensured hlist (not_not.mp htotal) rfl hmonths

/-! ### Requests -/

/-- The cost adjustment of a request was there with its fingerprint, or is now. -/
inductive Appended (env : BillingEnv) (usage : UsageEventRow) (source : SourceRow)
    (ownership : OwnershipSnapshot) (delta : Decimal) (c c' : BillingDb) : Prop
  | old (id : String) (existing : UsageEventRow)
    (index : c.get (.eventSource "provider_billing"
      (strip source.providerBillingSourceRecordId) "request") = some id)
    (event : c.get (.event id) = some existing) (store : c' = c)
  | new (ref : UsageEventRow) (token : Token)
    (referenced : c.get (.event (strip usage.usageEventId)) = some ref)
    (free : c.get (.event ("ue_" ++ token.text)) = none)
    (index : c.get (.eventSource "provider_billing"
      (strip source.providerBillingSourceRecordId) "request") = none ∨
      ∃ id, c.get (.eventSource "provider_billing"
        (strip source.providerBillingSourceRecordId) "request") = some id ∧
        c.get (.event id) = none)
    (store : c' = (c.set (.eventSource "provider_billing"
        (strip source.providerBillingSourceRecordId) "request") (some ("ue_" ++ token.text))).set
      (.event ("ue_" ++ token.text)) (some (adjustmentEvent env usage ref source ownership delta
        (columnUnits delta.toRat) token)))

theorem exec_appendCostAdjustment_bind {usage : UsageEventRow} {delta : Decimal}
    (h : (appendCostAdjustment env usage source ownership delta token >>= f).exec c = .ok (b, c')) :
    ∃ id d, Appended env usage source ownership delta c d ∧ (f id).exec d = .ok (b, c') := by
  unfold appendCostAdjustment at h
  rw [Prog.bind_assoc] at h
  obtain ⟨referencedId, hreferenced, h⟩ := exec_check_bind h
  obtain rfl := requireText_ok hreferenced
  rw [Prog.bind_assoc] at h
  obtain ⟨sourceId, hsource, h⟩ := exec_check_bind h
  obtain rfl := requireText_ok hsource
  simp only [Prog.bind_assoc] at h
  have h := exec_select_bind h
  split at h
  · next existing hexisting =>
    obtain ⟨id, hindex, hevent⟩ := Option.bind_eq_some_iff.mp hexisting
    simp only [Prog.bind_assoc] at h
    obtain ⟨_, h⟩ := exec_raiseIf_bind h
    exact ⟨_, c, .old id existing hindex hevent rfl, h⟩
  · next hnone =>
    simp only [Prog.bind_assoc] at h
    have h := exec_readRow_bind h
    obtain ⟨ref, href, h⟩ := exec_orRaise_bind h
    obtain ⟨_, h⟩ := exec_raiseIf_bind h
    obtain ⟨_, h⟩ := exec_raiseIf_bind h
    obtain ⟨amount, hamount, h⟩ := exec_check_bind h
    obtain rfl := amountColumn_ok hamount
    rcases exec_insertOrSkip_bind h with ⟨_, h⟩ | ⟨_, hother, h⟩
    · obtain ⟨hfalse, _⟩ := exec_raiseIf_bind h
      exact absurd rfl hfalse
    · obtain ⟨_, h⟩ := exec_raiseIf_bind h
      refine ⟨_, _, .new ref token href (get_of_taken hother) ?_ rfl, h⟩
      cases hindex : c.get (.eventSource "provider_billing"
          (strip source.providerBillingSourceRecordId) "request") with
      | none => exact .inl rfl
      | some id =>
        rw [hindex] at hnone
        exact .inr ⟨id, rfl, hnone⟩

theorem exec_usageOfRequest_bind {f : UsageEventRow → BillingTx α}
    (h : (usageOfRequest source >>= f).exec c = .ok (b, c')) :
    ∃ usage, (usageEvents c).filter (fun e => e.eventKind = .providerUsage ∧
        e.provider = some source.provider ∧ e.providerRequestId = source.providerRequestId)
        = [usage] ∧ (f usage).exec c = .ok (b, c') := by
  unfold usageOfRequest at h
  rw [Prog.bind_assoc] at h
  have h := exec_select_bind h
  split at h
  · next usage husage => exact ⟨usage, husage, h⟩
  · cases h
  · cases h

/-- A request was reconciled. -/
structure RequestReconciled (env : BillingEnv) (source : SourceRow)
    (ownership : OwnershipSnapshot) (at_ : Moment) (c c' : BillingDb) (usage : UsageEventRow)
    (estimated : Money) (d : BillingDb) : Prop where
  found : (usageEvents c).filter (fun e => e.eventKind = .providerUsage ∧
    e.provider = some source.provider ∧ e.providerRequestId = source.providerRequestId) = [usage]
  cost : usage.estimatedCostAmount = some estimated
  appended : Appended env usage source ownership (costDelta source.amount estimated) c d
  store : c' = d.set (.projection (requestKey usage source)) (some (requestRow env usage source
    estimated (columnUnits (costDelta source.amount estimated).toRat) at_))

theorem reconcileRequestLinked_ok
    (h : (reconcileRequestLinked env source ownership at_ token).exec c = .ok (result, c')) :
    ∃ usage estimated d, RequestReconciled env source ownership at_ c c' usage estimated d := by
  unfold reconcileRequestLinked at h
  obtain ⟨usage, husage, h⟩ := exec_usageOfRequest_bind h
  obtain ⟨_, h⟩ := exec_raiseIf_bind h
  obtain ⟨estimated, hestimated, h⟩ := exec_orRaise_bind h
  obtain ⟨id, d, happended, h⟩ := exec_appendCostAdjustment_bind h
  obtain ⟨adjustment, hadjustment, h⟩ := exec_check_bind h
  obtain rfl := amountColumn_ok hadjustment
  have h := exec_upsertCostProjection_bind h
  cases h
  exact ⟨usage, estimated, d, husage, hestimated, happended, rfl⟩

/-- **A reconciliation is one of a request or one of a group.** -/
theorem reconcile_ok {a : ReconcileArgs} (h : (reconcile env a).exec c = .ok (result, c')) :
    ∃ source, c.get (.source a.sourceRecordId) = some source ∧
      ((∃ id, source.providerRequestId = some id ∧ id ≠ "") ∧
          (∃ usage estimated d,
            RequestReconciled env source a.ownership a.at_ c c' usage estimated d) ∨
        (∀ id, source.providerRequestId = some id → id = "") ∧
          GroupReconciled env source (effectiveAllocations source a.allocations) a.at_ c c'
            result) := by
  unfold reconcile at h
  obtain ⟨_, _, h⟩ := exec_check_bind h
  have h := exec_readRow_bind h
  obtain ⟨source, hsource, h⟩ := exec_orRaise_bind h
  refine ⟨source, hsource, ?_⟩
  split at h
  · next hrequest =>
    left
    obtain ⟨id, hid, hne⟩ := (Option.any_eq_true _ _).mp hrequest
    exact ⟨⟨id, hid, by simpa using hne⟩, reconcileRequestLinked_ok h⟩
  · next hrequest =>
    right
    refine ⟨fun id hid => ?_, reconcileGroup_ok h⟩
    by_contra hne
    exact hrequest (by simp [hid, hne])

end RagQs.Usage.Billing
