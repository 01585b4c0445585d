import RagQs.Usage.BillingProof

/-!
# What the months of a bill sum to

The allocations of a bill are checked against its amount as a list, and stored under their
months: a month that is there with the same amount is not stored again, in the list of one
call as well as over several calls.

## Main definitions

* `adjustmentSum`, `outsideSum` — the stored months of a source, and those outside a list.
* `repeatedSum` — the entries of a list whose month comes again.
* `CoversBill` — the stored months outside the list weigh as much as its repeated entries.

## Main results

* `group_bill_conserved` — the stored months sum to the bill exactly when they do.
* `repeated_month_not_conserved` — a list that has a month twice.
-/

namespace RagQs.Usage.Billing

open Txn List Store

variable {source : SourceRow} {groupId : String}

/-! ### The stored months of a source -/

/-- What a row adds to the sum of the months of a source outside `periods`. -/
def monthShare (sourceId : String) (periods : List String) :
    (k : BillingKey) → BillingRow k → ℤ
  | .adjustment s p, r => if s = sourceId ∧ p ∉ periods then r.amountDelta else 0
  | .source _, _ => 0
  | .sourceIdentity _ _ _, _ => 0
  | .group _, _ => 0
  | .groupKey _, _ => 0
  | .link _ _, _ => 0
  | .adjustmentId _, _ => 0
  | .event _, _ => 0
  | .eventSource _ _ _, _ => 0
  | .projection _, _ => 0

/-- The stored months of a source outside `periods`. -/
def outsideSum (s : BillingDb) (sourceId : String) (periods : List String) : Money :=
  s.total (monthShare sourceId periods)

/-- The stored months of a source: its rows of `provider_billing_cost_adjustment`. -/
def adjustmentSum (s : BillingDb) (sourceId : String) : Money := outsideSum s sourceId []

/-- The entries of a list whose month comes again later in it. -/
def repeatedSum : List (String × Money) → Money
  | [] => 0
  | (period, amount) :: rest =>
    (if period ∈ rest.map Prod.fst then amount else 0) + repeatedSum rest

variable {env : BillingEnv} {s s' : BillingDb} {sourceId : String} {periods : List String}

/-- A key that is no stored month. -/
def NotMonth (k : BillingKey) : Prop := ∀ sourceId period, k ≠ .adjustment sourceId period

theorem monthShare_eq_zero {k : BillingKey} (h : NotMonth k) (r : BillingRow k) :
    monthShare sourceId periods k r = 0 := by
  cases k with
  | adjustment s p => exact absurd rfl (h s p)
  | source id => rfl
  | sourceIdentity provider account id => rfl
  | group id => rfl
  | groupKey key => rfl
  | link s g => rfl
  | adjustmentId id => rfl
  | event id => rfl
  | eventSource n s k => rfl
  | projection key => rfl

theorem outsideSum_set_other {k : BillingKey} (hk : NotMonth k) (r : Option (BillingRow k)) :
    outsideSum (s.set k r) sourceId periods = outsideSum s sourceId periods := by
  apply total_set_zero
  · cases s.get k with
    | none => rfl
    | some r' => exact monthShare_eq_zero hk r'
  · cases r with
    | none => rfl
    | some r' => exact monthShare_eq_zero hk r'

theorem outsideSum_cons {period : String} {r : AdjustmentRow}
    (h : s.get (.adjustment sourceId period) = some r) :
    outsideSum s sourceId periods = outsideSum s sourceId (period :: periods)
      + if period ∈ periods then 0 else r.amountDelta := by
  -- Without the month both sums are the same.
  have hwith := total_set (monthShare sourceId periods) s (.adjustment sourceId period) none
  have hwithout := total_set (monthShare sourceId (period :: periods)) s
    (.adjustment sourceId period) none
  have hsame : (s.set (.adjustment sourceId period) none).total (monthShare sourceId periods)
      = (s.set (.adjustment sourceId period) none).total
          (monthShare sourceId (period :: periods)) := by
    unfold Store.total
    refine congrArg List.sum (map_congr_left fun e he => ?_)
    obtain ⟨k, row⟩ := e
    have hget := mem_rows.mp he
    cases k with
    | adjustment s' p =>
      show (if s' = sourceId ∧ p ∉ periods then row.amountDelta else 0)
        = if s' = sourceId ∧ p ∉ period :: periods then row.amountDelta else 0
      by_cases hs : s' = sourceId
      · by_cases hp : p = period
        · subst hs hp
          rw [get_set_self] at hget
          cases hget
        · simp [hp]
      · simp [hs]
    | source id => rfl
    | sourceIdentity provider account id => rfl
    | group id => rfl
    | groupKey key => rfl
    | link s g => rfl
    | adjustmentId id => rfl
    | event id => rfl
    | eventSource n s k => rfl
    | projection key => rfl
  rw [h] at hwith hwithout
  simp only [weight_some, weight_none, add_zero, monthShare] at hwith hwithout
  rw [if_neg (by simp), add_zero] at hwithout
  unfold outsideSum
  rw [← hwithout, ← hsame, ← hwith]
  by_cases hp : period ∈ periods
  · simp [hp]
  · simp [hp]

theorem outsideSum_set_listed {period : String} (hp : period ∈ periods)
    (r : Option AdjustmentRow) :
    outsideSum (s.set (.adjustment sourceId period) r) sourceId periods
      = outsideSum s sourceId periods := by
  apply total_set_zero
  · cases s.get (.adjustment sourceId period) with
    | none => rfl
    | some r' =>
      show (if sourceId = sourceId ∧ period ∉ periods then r'.amountDelta else 0) = 0
      simp [hp]
  · cases r with
    | none => rfl
    | some r' =>
      show (if sourceId = sourceId ∧ period ∉ periods then r'.amountDelta else 0) = 0
      simp [hp]

/-! ### The months of one call -/

/-- **What the months of a list leave**: the stored months outside the list, and the months
of the list, each once. -/
theorem adjustmentSum_allocateMonths {at_ : Moment} (list : List (String × Money)) :
    ∀ {s : BillingDb} {tokens : List Token} {months : List ReconciledMonth},
      (allocateMonths env source groupId at_ list tokens).exec s = .ok (months, s') →
      adjustmentSum s' source.providerBillingSourceRecordId
        = outsideSum s source.providerBillingSourceRecordId (list.map Prod.fst)
          + (list.map Prod.snd).sum - repeatedSum list := by
  induction list with
  | nil =>
    intro s tokens months h
    cases tokens <;> cases h <;> simp [adjustmentSum, repeatedSum]
  | cons entry rest ih =>
    obtain ⟨period, amount⟩ := entry
    intro s tokens months h
    obtain ⟨d, effectiveAt, months', tokens', hadjusted, hrest⟩ := allocateMonths_cons h
    obtain ⟨r, hr, hamount⟩ := hadjusted.row
    have hd := ih hrest
    rw [outsideSum_set_other (by nofun), outsideSum_cons hr, hamount] at hd
    -- The month of this entry weighs neither before nor after it was stored.
    have hsame : outsideSum d source.providerBillingSourceRecordId (period :: rest.map Prod.fst)
        = outsideSum s source.providerBillingSourceRecordId (period :: rest.map Prod.fst) := by
      rcases hadjusted.store with rfl | ⟨r', id, _, _, _, _, rfl⟩
      · rfl
      · rw [outsideSum_set_other (by nofun), outsideSum_set_listed (by simp)]
    rw [hsame] at hd
    rw [hd]
    simp only [map_cons, sum_cons, repeatedSum]
    split <;> ring

/-- The stored months outside the list weigh as much as its repeated entries, up to what
rounding the partial sums of the list to 28 digits changes. -/
def CoversBill (s : BillingDb) (sourceId : String) (list : List (String × Money)) : Prop :=
  amountValue (outsideSum s sourceId (list.map Prod.fst) + (list.map Prod.snd).sum
    - repeatedSum list) = contextTotal (list.map Prod.snd)

theorem outsideSum_ensured {new : Bool} (h : Ensured env source s s' groupId new) :
    outsideSum s' sourceId periods = outsideSum s sourceId periods := by
  obtain ⟨d, hgrouped, hlink⟩ := h.grouped
  have hd : outsideSum d sourceId periods = outsideSum s sourceId periods := by
    cases new with
    | false =>
      obtain ⟨_, rfl⟩ := hgrouped.old rfl
      rfl
    | true =>
      obtain ⟨_, _, rfl⟩ := hgrouped.made rfl
      rw [outsideSum_set_other (by nofun), outsideSum_set_other (by nofun)]
  rcases hlink with ⟨rfl, _⟩ | ⟨_, rfl⟩
  · exact hd
  · rw [outsideSum_set_other (by nofun)]
    exact hd

theorem amountValue_inj {m n : ℤ} : amountValue m = amountValue n ↔ m = n := by
  constructor
  · intro h
    have hle := amountValue_le.mp h.le
    have hge := amountValue_le.mp h.ge
    omega
  · rintro rfl
    rfl

/-! ### Runs -/

/-- The identifier of a source is its key. -/
def SourcesNamed (s : BillingDb) : Prop :=
  ∀ id source, s.get (.source id) = some source → source.providerBillingSourceRecordId = id

theorem SourcesNamed.set (h : SourcesNamed s) {k : BillingKey} (hk : ∀ id, k ≠ .source id)
    (r : Option (BillingRow k)) : SourcesNamed (s.set k r) := by
  intro id source hget
  rw [get_set_of_ne (hk id).symm] at hget
  exact h id source hget

theorem SourcesNamed.allocateMonths {at_ : Moment} (list : List (String × Money)) :
    ∀ {s : BillingDb} {tokens : List Token} {months : List ReconciledMonth}, SourcesNamed s →
      (Billing.allocateMonths env source groupId at_ list tokens).exec s = .ok (months, s') →
      SourcesNamed s' := by
  induction list with
  | nil =>
    intro s tokens months hs h
    cases tokens <;> cases h <;> exact hs
  | cons entry rest ih =>
    obtain ⟨period, amount⟩ := entry
    intro s tokens months hs h
    obtain ⟨d, effectiveAt, months', tokens', hadjusted, hrest⟩ := allocateMonths_cons h
    refine ih (.set ?_ (by nofun) _) hrest
    rcases hadjusted.store with rfl | ⟨r', id, _, _, _, _, rfl⟩
    · exact hs
    · exact (hs.set (by nofun) _).set (by nofun) _

theorem SourcesNamed.ensured {new : Bool} (hs : SourcesNamed s)
    (h : Ensured env source s s' groupId new) : SourcesNamed s' := by
  obtain ⟨d, hgrouped, hlink⟩ := h.grouped
  have hd : SourcesNamed d := by
    cases new with
    | false =>
      obtain ⟨_, rfl⟩ := hgrouped.old rfl
      exact hs
    | true =>
      obtain ⟨_, _, rfl⟩ := hgrouped.made rfl
      exact (hs.set (by nofun) _).set (by nofun) _
  rcases hlink with ⟨rfl, _⟩ | ⟨_, rfl⟩
  · exact hd
  · exact hd.set (by nofun) _

theorem SourcesNamed.body {op : BillingOp} {u : Unit} (hs : SourcesNamed s)
    (h : (billingBody env op).exec s = .ok (u, s')) : SourcesNamed s' := by
  cases op with
  | recordUsage a =>
    obtain ⟨_, rfl⟩ := recordUsage_ok h
    exact hs.set (by nofun) _
  | importRecord record token =>
    obtain ⟨_, v, hp, h⟩ := Prog.exec_bind_ok h
    cases h
    rcases importRecord_ok hp with rfl | ⟨values, himported⟩
    · exact hs
    · rw [himported.store]
      intro id source hget
      by_cases hid : BillingKey.source id = .source values.providerBillingSourceRecordId
      · cases hid
        rw [get_set_self] at hget
        cases hget
        rfl
      · rw [get_set_of_ne hid] at hget
        exact (hs.set (by nofun) _) id source hget
  | reconcile a =>
    obtain ⟨_, v, hp, h⟩ := Prog.exec_bind_ok h
    cases h
    obtain ⟨source, hsource, ⟨_, usage, estimated, d, hrequest⟩ | ⟨_, hgroup⟩⟩ := reconcile_ok hp
    · rw [hrequest.store]
      apply SourcesNamed.set _ (by nofun)
      cases hrequest.appended with
      | old id existing index event store =>
        rw [store]
        exact hs
      | new ref token referenced free index store =>
        rw [store]
        exact (hs.set (by nofun) _).set (by nofun) _
    · cases hgroup with
      | unallocated groupId new d effectiveAt empty ensured status store =>
        rw [store]
        exact (hs.ensured ensured).set (by nofun) _
      | allocated groupId new d list months tokens ensured normalized total status store =>
        exact .allocateMonths list (hs.ensured ensured) store

theorem SourcesNamed.run (env : BillingEnv) (ops : List BillingOp) :
    SourcesNamed (execAll (billingBody env) ∅ ops) := by
  apply execAll_induction (P := SourcesNamed)
  · intro op s u s' hs h
    exact hs.body h
  · intro id source hget
    simp at hget

/-- **When the months of a bill sum to it.**  After any run, a reconciliation of a bill
without a request id that ends as reconciled leaves months that sum to the billed amount
exactly when the months stored before outside its list weigh as much as the entries the list
repeats. -/
theorem group_bill_conserved (env : BillingEnv) (ops : List BillingOp) (a : ReconcileArgs)
    {source : SourceRow} {result : ReconciliationResult} {s' : BillingDb}
    (hsource : (execAll (billingBody env) ∅ ops).get (.source a.sourceRecordId) = some source)
    (hgroup : source.providerRequestId = none)
    (h : (reconcile env a).exec (execAll (billingBody env) ∅ ops) = .ok (result, s'))
    (hstatus : result.status = .reconciled) :
    ∃ list, (effectiveAllocations source a.allocations).mapM normalizeAllocation = .ok list ∧
      (adjustmentSum s' a.sourceRecordId = source.amount ↔
        CoversBill (execAll (billingBody env) ∅ ops) a.sourceRecordId list) := by
  have hname := SourcesNamed.run env ops _ _ hsource
  obtain ⟨source', hsource', hcases⟩ := reconcile_ok h
  rw [hsource] at hsource'
  cases hsource'
  rcases hcases with ⟨⟨id, hid, _⟩, _⟩ | ⟨_, hreconciled⟩
  · rw [hgroup] at hid
    cases hid
  · cases hreconciled with
    | unallocated groupId new d effectiveAt empty ensured status store =>
      rw [hstatus] at status
      cases status
    | allocated groupId new d list months tokens ensured normalized total status store =>
      refine ⟨list, normalized, ?_⟩
      have hsum := adjustmentSum_allocateMonths list store
      rw [outsideSum_ensured ensured, hname] at hsum
      rw [hsum]
      unfold CoversBill
      rw [total, amountValue_inj]

/-! ### A bill of two months -/

/-- The library functions of the sample runs. -/
def sampleBillingEnv : BillingEnv where
  toEnv := sampleEnv
  isoformat _ := "start"
  casefold := id
  monthStartUtc _ year month := some (12 * year + month)

/-- A token of one letter. -/
def sampleToken : Token := ⟨"b", by decide⟩

/-- What the calendar and the clock are. -/
def sampleMoment : Moment := ⟨⟨"cal", "UTC", 0⟩, 5⟩

/-- A bill of `0.30` without a request id. -/
def sampleBill : BillingSourceRecord where
  provider := "p"
  providerAccountId := "a"
  billingSourceRecordId := "bill"
  model := "m"
  operation := "o"
  providerRequestId := none
  serviceStartUtc := some 0
  serviceEndUtc := none
  serviceMonth := none
  measurements := []
  amount := .finite ⟨false, 30, -2⟩
  currencyCode := "EUR"
  sourceStatus := "final"
  sourceMetadata := []

/-- A reconciliation of the bill with `0.15` in each of two months. -/
def sampleReconcile (first second : String) : ReconcileArgs where
  sourceRecordId := "pbs_b"
  ownership := sampleOwnership
  allocations := some [⟨some first, some (.finite ⟨false, 15, -2⟩)⟩,
    ⟨some second, some (.finite ⟨false, 15, -2⟩)⟩]
  at_ := sampleMoment
  token := ⟨"g", by decide⟩
  tokens := [⟨"1", by decide⟩, ⟨"2", by decide⟩]

/-- The store once the bill has been imported. -/
def sampleImported : BillingDb :=
  execAll (billingBody sampleBillingEnv) ∅ [.importRecord sampleBill sampleToken]

/-- The imported bill. -/
def sampleSource : SourceRow where
  providerBillingSourceRecordId := "pbs_b"
  provider := "p"
  providerAccountId := "a"
  billingSourceRecordId := "bill"
  model := "m"
  operation := "o"
  providerRequestId := none
  serviceStartUtc := some 0
  serviceEndUtc := none
  serviceMonth := none
  amount := 3000000000
  currencyCode := "EUR"
  contentFingerprint := "fingerprint"

theorem get_sampleImported : sampleImported.get (.source "pbs_b") = some sampleSource := by
  decide +kernel

/-- The status of a reconciliation and the months it leaves. -/
def reconciledSum (a : ReconcileArgs) : Option (ReconciliationStatus × Money) :=
  match (reconcile sampleBillingEnv a).exec sampleImported with
  | .ok x => some (x.1.status, adjustmentSum x.2 a.sourceRecordId)
  | .error _ => none

theorem exec_of_reconciledSum {a : ReconcileArgs} {status : ReconciliationStatus} {sum : Money}
    (h : reconciledSum a = some (status, sum)) :
    ∃ result s', (reconcile sampleBillingEnv a).exec sampleImported = .ok (result, s') ∧
      result.status = status ∧ adjustmentSum s' a.sourceRecordId = sum := by
  unfold reconciledSum at h
  cases hexec : (reconcile sampleBillingEnv a).exec sampleImported with
  | error e =>
    rw [hexec] at h
    cases h
  | ok x =>
    rw [hexec] at h
    cases h
    exact ⟨x.1, x.2, rfl, rfl, rfl⟩

/-- The bill of `0.30` is reconciled with `0.15` and `0.15` in the same month, which is stored
once. -/
theorem repeated_month_not_conserved :
    ∃ result s', (reconcile sampleBillingEnv (sampleReconcile "2026-07" "2026-07")).exec
        (execAll (billingBody sampleBillingEnv) ∅ [.importRecord sampleBill sampleToken])
        = .ok (result, s') ∧
      result.status = .reconciled ∧ sampleSource.providerRequestId = none ∧
      (execAll (billingBody sampleBillingEnv) ∅ [.importRecord sampleBill sampleToken]).get
        (.source "pbs_b") = some sampleSource ∧
      adjustmentSum s' "pbs_b" ≠ sampleSource.amount := by
  obtain ⟨result, s', hexec, hstatus, hsum⟩ := exec_of_reconciledSum
    (by decide +kernel : reconciledSum (sampleReconcile "2026-07" "2026-07")
      = some (.reconciled, 1500000000))
  refine ⟨result, s', hexec, hstatus, rfl, get_sampleImported, ?_⟩
  intro h
  have hne : (1500000000 : ℤ) = 3000000000 := hsum.symm.trans h
  omega

theorem group_bill_conserved_sample :
    ∃ result s' list, (reconcile sampleBillingEnv (sampleReconcile "2026-07" "2026-08")).exec
        sampleImported = .ok (result, s') ∧
      (adjustmentSum s' "pbs_b" = sampleSource.amount ↔
        CoversBill sampleImported "pbs_b" list) ∧
      adjustmentSum s' "pbs_b" = sampleSource.amount := by
  obtain ⟨result, s', hexec, hstatus, hsum⟩ := exec_of_reconciledSum
    (by decide +kernel : reconciledSum (sampleReconcile "2026-07" "2026-08")
      = some (.reconciled, 3000000000))
  obtain ⟨list, _, hiff⟩ := group_bill_conserved sampleBillingEnv
    [.importRecord sampleBill sampleToken] (sampleReconcile "2026-07" "2026-08")
    get_sampleImported rfl hexec hstatus
  exact ⟨result, s', list, hexec, hiff, hsum⟩

end RagQs.Usage.Billing
