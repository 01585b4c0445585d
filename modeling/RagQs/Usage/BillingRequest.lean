import RagQs.Platform.Context
import RagQs.Usage.BillingFacts
import RagQs.Usage.BillingScope

/-!
# What the bills of a request come to

A bill with a request id is reconciled by a cost adjustment of the usage event of that request:
the difference of the billed amount and the estimate, rounded to 28 digits.  Every bill of the
request is compared with the same estimate.

## Main definitions

* `FitsContext` — an amount has no digit beyond the 28th.
* `LinkedCall` — the first reconciliation of a bill with a usage event.
* `Corrected` — what it should leave.
* `costAdjustments`, `Settled` — the adjustments of a usage event, and that they settle its bills.

## Main results

* `request_bills` — when a reconciliation leaves what it should, and when the bills are settled.
* `request_bills_off` — a request without an estimate, and one with two bills.
-/

namespace RagQs.Usage.Billing

open Txn List Option Store

variable {a : ReconcileArgs} {source : SourceRow}

/-! ### Differences in 28 digits -/

/-- The number of digits of a natural number. -/
def digitsOf (n : ℕ) : ℕ := (Nat.toDigits 10 n).length

/-- An amount in units of `10⁻¹⁰` has no digit other than zero beyond its 28th. -/
def FitsContext (n : Money) : Prop := 10 ^ (digitsOf n.natAbs - 28) ∣ n.natAbs

/-- The sign of a number as a factor. -/
def signOf (n : ℤ) : ℤ := if n < 0 then -1 else 1

theorem signOf_mul_natAbs (n : ℤ) : signOf n * n.natAbs = n := by
  unfold signOf
  split <;> omega

/-- The units of the rounded difference: its first 28 digits, rounded. -/
def deltaUnits (n : Money) : Money :=
  let k := digitsOf n.natAbs - 28
  signOf n * ((roundHalfEven ((n.natAbs : ℚ) / 10 ^ k)).toNat * 10 ^ k : ℕ)

theorem toRat_units (n : Money) (coeff k : ℕ) :
    (⟨n < 0, coeff, (k : ℤ) - 10⟩ : Decimal).toRat
      = amountValue (signOf n * (coeff * 10 ^ k : ℕ)) := by
  have hpow : (10 : ℚ) ^ ((k : ℤ) - 10) = 10 ^ k / 10 ^ 10 := by
    rw [zpow_sub₀ (by norm_num), zpow_natCast]
    norm_cast
  unfold Decimal.toRat amountValue signOf
  rw [hpow]
  by_cases hn : n < 0
  · simp only [hn, decide_true, if_true]
    push_cast
    ring
  · simp only [hn, decide_false, if_false, Bool.false_eq_true]
    push_cast
    ring

theorem costDelta_toRat (billed estimated : Money) :
    (costDelta billed estimated).toRat = amountValue (deltaUnits (billed - estimated)) := by
  set n := billed - estimated with hn
  unfold costDelta deltaUnits digitsOf
  simp only [← hn]
  by_cases hdigits : (Nat.toDigits 10 n.natAbs).length ≤ 28
  · rw [if_pos hdigits, Nat.sub_eq_zero_of_le hdigits, pow_zero, div_one]
    have hround : roundHalfEven (n.natAbs : ℚ) = n.natAbs := by
      rw [← Int.cast_natCast n.natAbs]
      exact roundHalfEven_intCast _
    rw [hround, Int.toNat_natCast]
    exact toRat_units n n.natAbs 0
  · rw [if_neg hdigits]
    set k := (Nat.toDigits 10 n.natAbs).length - 28 with hk
    set coeff := (roundHalfEven ((n.natAbs : ℚ) / 10 ^ k)).toNat with hcoeff
    have hexp : ((Nat.toDigits 10 n.natAbs).length : ℤ) - 28 = k := by omega
    rw [hexp]
    split
    · next hcarry =>
      -- The rounding has carried into one more digit.
      rw [hcarry, show (k : ℤ) - 9 = ((k + 1 : ℕ) : ℤ) - 10 by push_cast; ring, toRat_units]
      congr 3
      ring
    · exact toRat_units n coeff k

theorem deltaUnits_eq_iff (n : Money) : deltaUnits n = n ↔ FitsContext n := by
  unfold deltaUnits FitsContext
  simp only
  set k := digitsOf n.natAbs - 28
  have hsign : signOf n ≠ 0 := by
    unfold signOf
    split <;> omega
  constructor
  · intro h
    have hunits := mul_left_cancel₀ hsign (h.trans (signOf_mul_natAbs n).symm)
    exact Dvd.intro_left _ (Int.natCast_inj.mp hunits)
  · rintro ⟨m, hm⟩
    have hquot : (n.natAbs : ℚ) / 10 ^ k = (m : ℤ) := by
      rw [hm]
      push_cast
      field_simp
    rw [hquot, roundHalfEven_intCast, Int.toNat_natCast, mul_comm m, ← hm]
    exact signOf_mul_natAbs n

theorem columnUnits_costDelta_iff (billed estimated : Money) :
    columnUnits (costDelta billed estimated).toRat + estimated = billed
      ↔ FitsContext (billed - estimated) := by
  rw [costDelta_toRat, columnUnits_amountValue, ← deltaUnits_eq_iff]
  constructor
  · intro h
    linarith
  · intro h
    linarith

/-! ### The adjustments of a usage event -/

/-- The cost adjustments of a usage event: those of the provider's bills. -/
def costAdjustments (s : BillingDb) (usage : UsageEventRow) : List UsageEventRow :=
  (usageEvents s).filter fun e =>
    e.eventKind = .costAdjustment ∧ e.referencedUsageEventId = some usage.usageEventId

/-- The amount of the bill an adjustment is for. -/
def billedAmount (s : BillingDb) (e : UsageEventRow) : Money :=
  ((e.adjustmentSourceId.bind fun id => s.get (.source id)).map SourceRow.amount).getD 0

/-- An amount that may be missing, which counts as zero. -/
def orZero (amount : Option Money) : Money := amount.getD 0

/-- The bills of a usage event are settled: every adjustment is the difference of its bill and the
estimate, and the estimate and all adjustments sum to the bills. -/
structure Settled (s : BillingDb) (usage : UsageEventRow) : Prop where
  each : ∀ e ∈ costAdjustments s usage, ∃ delta, e.estimatedCostAmount = some delta ∧
    delta + orZero usage.estimatedCostAmount = billedAmount s e
  sum : orZero usage.estimatedCostAmount
      + ((costAdjustments s usage).map fun e => orZero e.estimatedCostAmount).sum
    = ((costAdjustments s usage).map (billedAmount s)).sum

variable {env : BillingEnv} {s s' : BillingDb} {usage : UsageEventRow}

theorem BillingInv.costAdjustment (h : BillingInv env s)
    (hused : s.get (.event usage.usageEventId) = some usage) {e : UsageEventRow}
    (he : e ∈ costAdjustments s usage) :
    ∃ source, CostAdjusted s source usage e ∧ billedAmount s e = source.amount := by
  obtain ⟨hmem, hkind⟩ := mem_filter.mp he
  obtain ⟨hkind, hreferenced⟩ := of_decide_eq_true hkind
  obtain ⟨id, hget⟩ := mem_usageEvents.mp hmem
  obtain ⟨-, -, hcost⟩ := h _ _ hget
  obtain ⟨source, usage', hadjusted, -⟩ := hcost hkind
  have hid : usage'.usageEventId = usage.usageEventId := by
    have hsame := hadjusted.referenced.symm.trans hreferenced
    exact some.inj hsame
  have hused' := hadjusted.used
  rw [hid, hused] at hused'
  cases hused'
  refine ⟨source, hadjusted, ?_⟩
  unfold billedAmount
  rw [hadjusted.sourceId, bind_some, hadjusted.billed]
  rfl

theorem sum_difference {f g : UsageEventRow → Money} {x : Money} {es : List UsageEventRow}
    (h : ∀ e ∈ es, f e + x = g e) :
    (es.map f).sum + es.length * x = (es.map g).sum := by
  induction es with
  | nil => simp
  | cons e es ih =>
    have he := h e mem_cons_self
    have hes := ih fun e he => h e (mem_cons_of_mem _ he)
    simp only [map_cons, sum_cons, length_cons]
    push_cast
    linarith

/-- **When the bills of a usage event are settled**: the differences fit, and there is one bill or
nothing was estimated. -/
theorem BillingInv.settled_iff (h : BillingInv env s)
    (hused : s.get (.event usage.usageEventId) = some usage)
    (hbilled : costAdjustments s usage ≠ []) :
    Settled s usage ↔
      (∀ e ∈ costAdjustments s usage,
        FitsContext (billedAmount s e - orZero usage.estimatedCostAmount)) ∧
      ((costAdjustments s usage).length = 1 ∨ orZero usage.estimatedCostAmount = 0) := by
  -- Every adjustment is the rounded difference.
  have heach : ∀ e ∈ costAdjustments s usage,
      ∃ delta, e.estimatedCostAmount = some delta ∧
        (delta + orZero usage.estimatedCostAmount = billedAmount s e
          ↔ FitsContext (billedAmount s e - orZero usage.estimatedCostAmount)) := by
    intro e he
    obtain ⟨source, hadjusted, hamount⟩ := h.costAdjustment hused he
    obtain ⟨estimated, hestimated, hdelta⟩ := hadjusted.amount
    refine ⟨_, hdelta, ?_⟩
    rw [hamount, hestimated]
    exact columnUnits_costDelta_iff source.amount estimated
  have hlength : (costAdjustments s usage).length ≠ 0 := fun hzero =>
    hbilled (eq_nil_of_length_eq_zero hzero)
  -- The sum is off by the estimate for every bill but the first.
  have hsum : (∀ e ∈ costAdjustments s usage,
      orZero e.estimatedCostAmount + orZero usage.estimatedCostAmount = billedAmount s e) →
      (orZero usage.estimatedCostAmount
          + ((costAdjustments s usage).map fun e => orZero e.estimatedCostAmount).sum
        = ((costAdjustments s usage).map (billedAmount s)).sum ↔
      (costAdjustments s usage).length = 1 ∨ orZero usage.estimatedCostAmount = 0) := by
    intro hexact
    rw [← sum_difference hexact]
    constructor
    · intro hsum
      have hprod : (((costAdjustments s usage).length : ℤ) - 1)
          * orZero usage.estimatedCostAmount = 0 := by linarith
      rcases mul_eq_zero.mp hprod with hone | hzero
      · exact .inl (by omega)
      · exact .inr hzero
    · rintro (hone | hzero)
      · rw [hone]
        push_cast
        ring
      · rw [hzero]
        ring
  constructor
  · rintro ⟨hdelta, htotal⟩
    refine ⟨fun e he => ?_, (hsum fun e he => ?_).mp htotal⟩
    · obtain ⟨delta, hsome, hiff⟩ := heach e he
      obtain ⟨delta', hsome', hexact⟩ := hdelta e he
      rw [hsome] at hsome'
      cases hsome'
      exact hiff.mp hexact
    · obtain ⟨delta, hsome, hexact⟩ := hdelta e he
      rw [hsome]
      exact hexact
  · rintro ⟨hfits, hcount⟩
    have hexact : ∀ e ∈ costAdjustments s usage, ∃ delta, e.estimatedCostAmount = some delta ∧
        delta + orZero usage.estimatedCostAmount = billedAmount s e := by
      intro e he
      obtain ⟨delta, hsome, hiff⟩ := heach e he
      exact ⟨delta, hsome, hiff.mpr (hfits e he)⟩
    refine ⟨hexact, (hsum fun e he => ?_).mpr hcount⟩
    obtain ⟨delta, hsome, hdelta⟩ := hexact e he
    rw [hsome]
    exact hdelta

/-! ### One reconciliation -/

/-- The usage events of the request of a bill. -/
def requestUsage (s : BillingDb) (source : SourceRow) : List UsageEventRow :=
  (usageEvents s).filter fun e => e.eventKind = .providerUsage ∧
    e.provider = some source.provider ∧ e.providerRequestId = source.providerRequestId

/-- An amount that is not negative and fits its column. -/
def Storable (amount : Money) : Prop := 0 ≤ amount ∧ amount < 10 ^ 30

/-- The first reconciliation of a bill with the usage event of its request; the drawn token is
new. -/
structure LinkedCall (s : BillingDb) (a : ReconcileArgs) (source : SourceRow)
    (usage : UsageEventRow) : Prop where
  ownership : validateOwnership a.ownership = .ok ()
  billed : s.get (.source a.sourceRecordId) = some source
  used : s.get (.event usage.usageEventId) = some usage
  kind : usage.eventKind = .providerUsage
  provider : usage.provider = some source.provider
  request : source.providerRequestId ≠ none ∧ usage.providerRequestId = source.providerRequestId
  currency : usage.currencyCode = some source.currencyCode
  persisted : ∀ estimated, usage.estimatedCostAmount = some estimated → Storable estimated
  first : s.get (.eventSource "provider_billing" source.providerBillingSourceRecordId "request")
    = none
  unused : s.get (.event ("ue_" ++ a.token.text)) = none
  usageName : usage.usageEventId ≠ "" ∧ usage.usageEventId.length ≤ 64
  sourceName : a.sourceRecordId ≠ "" ∧ a.sourceRecordId.length ≤ 128

/-- A reconciliation has added one cost adjustment: the difference of the bill and the estimate,
a missing estimate counted as zero. -/
structure Corrected (s s' : BillingDb) (a : ReconcileArgs) (source : SourceRow)
    (usage : UsageEventRow) : Prop where
  others : ∀ id, id ≠ "ue_" ++ a.token.text → s'.get (.event id) = s.get (.event id)
  added : ∃ e delta, s'.get (.event ("ue_" ++ a.token.text)) = some e ∧
    e.eventKind = .costAdjustment ∧ e.referencedUsageEventId = some usage.usageEventId ∧
    e.adjustmentSourceId = some source.providerBillingSourceRecordId ∧
    e.estimatedCostAmount = some delta ∧
    delta + orZero usage.estimatedCostAmount = source.amount

/-- The reconciliation succeeds and leaves what it should. -/
def Reconciles (env : BillingEnv) (s : BillingDb) (a : ReconcileArgs) (source : SourceRow)
    (usage : UsageEventRow) : Prop :=
  ∃ result s', (reconcile env a).exec s = .ok (result, s') ∧ Corrected s s' a source usage

/-- The request has one usage event, with an estimate that differs from the bill by an amount
that fits. -/
structure Comparable (s : BillingDb) (source : SourceRow) (usage : UsageEventRow) : Prop where
  estimated : usage.estimatedCostAmount ≠ none
  only : ∀ e ∈ requestUsage s source, e = usage
  fits : FitsContext (source.amount - orZero usage.estimatedCostAmount)

theorem exec_bind_of_ok {α β : Type} {p : BillingTx β} {f : β → BillingTx α} {b : β}
    (h : p.exec s = .ok (b, s')) : (p >>= f).exec s = (f b).exec s' := by
  rw [Prog.exec_bind, h]
  rfl

theorem exec_raiseIf_pass {bad : Prop} [Decidable bad] {e : Err} (h : ¬ bad) :
    (raiseIf bad e : BillingTx Unit).exec s = .ok ((), s) := by
  rw [exec_raiseIf, if_neg h]

theorem LinkedCall.mem (h : LinkedCall s a source usage) : usage ∈ requestUsage s source :=
  mem_filter.mpr ⟨mem_usageEvents.mpr ⟨_, h.used⟩,
    decide_eq_true ⟨h.kind, h.provider, h.request.2⟩⟩

theorem LinkedCall.comparable (hinv : BillingInv env s) (h : LinkedCall s a source usage)
    (hreconciles : Reconciles env s a source usage) : Comparable s source usage := by
  obtain ⟨result, s', hexec, hcorrected⟩ := hreconciles
  obtain ⟨source', hsource', hcases⟩ := reconcile_ok hexec
  rw [h.billed] at hsource'
  cases hsource'
  obtain ⟨hid, hstrip, hempty⟩ := hinv _ _ h.billed
  rcases hcases with ⟨-, usage', estimated, d, hreconciled⟩ | ⟨hno, -⟩
  · have hmem := h.mem
    unfold requestUsage at hmem
    rw [hreconciled.found] at hmem
    obtain rfl := mem_singleton.mp hmem
    obtain ⟨e, delta, hget, -, -, -, hdelta, hexact⟩ := hcorrected.added
    have hestimated : orZero usage.estimatedCostAmount = estimated := by
      rw [hreconciled.cost]
      rfl
    refine ⟨by rw [hreconciled.cost]; nofun, fun e' he' => ?_, ?_⟩
    · unfold requestUsage at he'
      rw [hreconciled.found] at he'
      exact mem_singleton.mp he'
    · rw [hestimated] at hexact ⊢
      rw [← columnUnits_costDelta_iff]
      cases hreconciled.appended with
      | old id existing index event store =>
        rw [← hid] at hstrip
        rw [hstrip, h.first] at index
        cases index
      | new ref token referenced free index store =>
        have hadded : s'.get (.event ("ue_" ++ token.text)) = some (adjustmentEvent env usage ref
            source a.ownership (costDelta source.amount estimated)
            (columnUnits (costDelta source.amount estimated).toRat) token) := by
          rw [hreconciled.store, store, get_set_of_ne (by simp), get_set_self]
        -- The one event that was added is the one with the token of the call.
        have htoken : "ue_" ++ token.text = "ue_" ++ a.token.text := by
          by_contra hne
          rw [hcorrected.others _ hne, free] at hadded
          cases hadded
        rw [← htoken, hadded] at hget
        cases hget
        cases hdelta
        exact hexact
  · obtain ⟨requestId, hrequest⟩ := ne_none_iff_exists'.mp h.request.1
    rw [hno requestId hrequest] at hrequest
    exact absurd hrequest hempty

/-! ### A reconciliation that goes through -/

theorem BillingInv.nodup_usageEvents (h : BillingInv env s) : (usageEvents s).Nodup := by
  have hrows := pairwise_map.mp (nodup_rows s)
  refine pairwise_filterMap.mpr (hrows.imp_of_mem ?_)
  rintro ⟨k, r⟩ ⟨k', r'⟩ hx hy hne e he e' he' rfl
  cases k <;> cases he
  cases k' <;> cases he'
  have hid := (h _ _ (mem_rows.mp hx)).1
  have hid' := (h _ _ (mem_rows.mp hy)).1
  exact hne (congrArg BillingKey.event (hid.symm.trans hid'))

theorem LinkedCall.requestUsage_eq (hinv : BillingInv env s) (h : LinkedCall s a source usage)
    (honly : ∀ e ∈ requestUsage s source, e = usage) : requestUsage s source = [usage] := by
  have hreplicate := eq_replicate_of_mem honly
  have hnodup : (requestUsage s source).Nodup := hinv.nodup_usageEvents.filter _
  rw [hreplicate, nodup_replicate] at hnodup
  have hpos := length_pos_of_mem h.mem
  rw [hreplicate, show (requestUsage s source).length = 1 by omega]
  rfl

theorem requireText_self {text name : String} {maxLen : ℕ} (hstrip : strip text = text)
    (hne : text ≠ "") (hlen : text.length ≤ maxLen) : requireText text name maxLen = .ok text := by
  unfold requireText
  rw [hstrip]
  simp only
  rw [if_neg hne, if_neg (not_lt.mpr hlen)]

theorem exec_upsertCostProjection {key : ProjectionKey} {row : ProjectionRow} :
    (upsertCostProjection key row).exec s = .ok ((), s.set (.projection key) (some row)) := by
  unfold upsertCostProjection
  rw [exec_bind_of_ok (exec_readRow _)]
  cases hget : s.get (.projection key) with
  | some old =>
    simp only
    rw [exec_bind_of_ok (exec_updateWhere_hit hget rfl)]
    rfl
  | none =>
    simp only
    rw [exec_insert]
    simp [taken, hget]

theorem le_contextRound {x : ℚ} {k : ℤ} (h : (10 : ℚ) ^ k ≤ x) : (10 : ℚ) ^ k ≤ contextRound x := by
  have hx : 0 < x := lt_of_lt_of_le (zpow_pos (by norm_num) k) h
  have hlog : k ≤ Int.log 10 x := (Int.zpow_le_iff_le_log (by norm_num) hx).mp (by exact_mod_cast h)
  have hself : (10 : ℚ) ^ Int.log 10 x ≤ x := by
    exact_mod_cast Int.zpow_log_le_self (by norm_num : 1 < 10) hx
  have hplace : (0 : ℚ) < lastPlace x := zpow_pos (by norm_num) _
  have habs : |x| = x := abs_of_pos hx
  have hfloor : ∀ y : ℚ, ⌊y⌋ ≤ roundHalfEven y := by
    intro y
    unfold roundHalfEven
    split
    · exact le_refl _
    · split
      · omega
      · split <;> omega
  have hfirst : (10 : ℚ) ^ Int.log 10 x = 10 ^ (27 : ℕ) * lastPlace x := by
    unfold lastPlace
    rw [habs, ← zpow_natCast, ← zpow_add₀ (by norm_num)]
    congr 1
    omega
  have hdigits : (10 : ℤ) ^ 27 ≤ roundHalfEven (x / lastPlace x) := by
    refine le_trans (Int.le_floor.mpr ?_) (hfloor _)
    rw [le_div_iff₀ hplace]
    exact le_of_eq_of_le (by rw [hfirst]; norm_num) hself
  unfold contextRound
  rw [if_neg hx.ne']
  calc (10 : ℚ) ^ k ≤ 10 ^ Int.log 10 x := zpow_le_zpow_right₀ (by norm_num) hlog
    _ = 10 ^ (27 : ℕ) * lastPlace x := hfirst
    _ ≤ roundHalfEven (x / lastPlace x) * lastPlace x := by
      refine mul_le_mul_of_nonneg_right ?_ hplace.le
      exact_mod_cast hdigits

theorem money_lt {value : DecimalArg} {name : String} {m : Money} (h : money value name = .ok m) :
    m < 10 ^ 30 := by
  cases value with
  | special => cases h
  | finite d =>
    simp only [money] at h
    split at h
    · cases h
    · split at h
      · cases h
      · next hrange =>
        cases h
        by_contra hge
        refine hrange ?_
        have hvalue : (10 : ℚ) ^ (20 : ℤ) ≤ |amountValue (decimalUnits d)| := by
          have hle : amountValue (10 ^ 30) ≤ amountValue (decimalUnits d) :=
            amountValue_le.mpr (not_lt.mp hge)
          refine le_trans ?_ (le_trans hle (le_abs_self _))
          unfold amountValue
          norm_num
        refine le_trans ?_ (le_contextRound hvalue)
        unfold amountValue
        norm_num

theorem storable_of_recordValues {record : BillingSourceRecord} {token : Token}
    {values : SourceRow} (h : recordValues env record token = .ok values) :
    Storable values.amount := by
  unfold recordValues at h
  obtain ⟨provider, _, h⟩ := exists_of_bind_ok h
  obtain ⟨account, _, h⟩ := exists_of_bind_ok h
  obtain ⟨sourceId, _, h⟩ := exists_of_bind_ok h
  obtain ⟨model, _, h⟩ := exists_of_bind_ok h
  obtain ⟨operation, _, h⟩ := exists_of_bind_ok h
  obtain ⟨requestId, _, h⟩ := exists_of_bind_ok h
  obtain ⟨_, _, h⟩ := exists_of_bind_ok h
  obtain ⟨currency, _, h⟩ := exists_of_bind_ok h
  obtain ⟨amount, hamount, h⟩ := exists_of_bind_ok h
  obtain ⟨_, hnonneg, h⟩ := exists_of_bind_ok h
  obtain ⟨_, _, h⟩ := exists_of_bind_ok h
  obtain ⟨_, _, h⟩ := exists_of_bind_ok h
  obtain ⟨_, _, h⟩ := exists_of_bind_ok h
  cases h
  refine ⟨?_, money_lt hamount⟩
  unfold refuseIf at hnonneg
  split at hnonneg
  · cases hnonneg
  · next hge => exact not_lt.mp hge

theorem amountColumn_costDelta {billed estimated : Money} (hbilled : Storable billed)
    (hestimated : Storable estimated) (hfits : FitsContext (billed - estimated)) :
    amountColumn (costDelta billed estimated).toRat = .ok (billed - estimated) := by
  have hunits : columnUnits (costDelta billed estimated).toRat = billed - estimated := by
    have hexact := (columnUnits_costDelta_iff billed estimated).mpr hfits
    linarith
  have hlt : |billed - estimated| < 10 ^ 30 := by
    rw [abs_lt]
    constructor <;> linarith [hbilled.1, hbilled.2, hestimated.1, hestimated.2]
  unfold amountColumn
  rw [hunits, if_pos hlt]

/-- The rows of a new cost adjustment. -/
def withAdjustment (s : BillingDb) (source : SourceRow) (row : UsageEventRow) : BillingDb :=
  (s.set (.eventSource "provider_billing" source.providerBillingSourceRecordId "request")
    (some row.usageEventId)).set (.event row.usageEventId) (some row)

theorem LinkedCall.exec_append (hinv : BillingInv env s) (h : LinkedCall s a source usage)
    {delta : Decimal} {units : Money} (hcolumn : amountColumn delta.toRat = .ok units) :
    (appendCostAdjustment env usage source a.ownership delta a.token).exec s
      = .ok ("ue_" ++ a.token.text, withAdjustment s source
          (adjustmentEvent env usage usage source a.ownership delta units a.token)) := by
  obtain ⟨hid, hstrip, -⟩ := hinv _ _ h.billed
  obtain ⟨-, hstripUsage, -⟩ := hinv _ _ h.used
  have hsourceName : requireText source.providerBillingSourceRecordId "adjustment_source_id" 128
      = .ok source.providerBillingSourceRecordId := by
    rw [hid]
    exact requireText_self hstrip h.sourceName.1 h.sourceName.2
  have husageName : requireText usage.usageEventId "referenced_event_id" 64
      = .ok usage.usageEventId :=
    requireText_self hstripUsage h.usageName.1 h.usageName.2
  have hfirst := h.first
  unfold appendCostAdjustment
  rw [husageName, exec_bind_of_ok (exec_check_ok _), hsourceName,
    exec_bind_of_ok (exec_check_ok _), exec_bind_of_ok (Prog.exec_select _ _), hfirst,
    bind_none]
  simp only
  rw [exec_bind_of_ok (exec_readRow _), h.used, exec_bind_of_ok (exec_orRaise_some _ _),
    exec_bind_of_ok (exec_raiseIf_pass (not_not.mpr h.kind)),
    exec_bind_of_ok (exec_raiseIf_pass (not_not.mpr h.currency)), hcolumn,
    exec_bind_of_ok (exec_check_ok _)]
  set row := adjustmentEvent env usage usage source a.ownership delta units a.token
  have hunused : s.get (.event row.usageEventId) = none := h.unused
  have hinserted : (insertOrSkip Err.integrity
      (BillingKey.eventSource "provider_billing" source.providerBillingSourceRecordId "request")
      [.event row.usageEventId]
      [⟨.eventSource "provider_billing" source.providerBillingSourceRecordId "request",
        some row.usageEventId⟩, ⟨.event row.usageEventId, some row⟩]).exec s
      = .ok (true, withAdjustment s source row) := by
    rw [exec_insertOrSkip]
    simp only [taken, any_cons, any_nil, hfirst, hunused]
    rfl
  rw [exec_bind_of_ok hinserted, exec_bind_of_ok (exec_raiseIf_pass (by decide))]
  rfl

/-- **A comparable bill is reconciled** and leaves what it should. -/
theorem LinkedCall.reconciles (hinv : BillingInv env s) (h : LinkedCall s a source usage)
    (hbilled : Storable source.amount) (hcomparable : Comparable s source usage) :
    Reconciles env s a source usage := by
  obtain ⟨estimated, hestimated⟩ := ne_none_iff_exists'.mp hcomparable.estimated
  have hfits : FitsContext (source.amount - estimated) := by
    have hfits := hcomparable.fits
    rwa [hestimated] at hfits
  have hcolumn := amountColumn_costDelta hbilled (h.persisted _ hestimated) hfits
  obtain ⟨hid, hstrip, hempty⟩ := hinv _ _ h.billed
  obtain ⟨-, hstripUsage, -⟩ := hinv _ _ h.used
  obtain ⟨requestId, hrequest⟩ := ne_none_iff_exists'.mp h.request.1
  have hlinked : source.providerRequestId.any (· ≠ "") = true := by
    rw [hrequest, any_some]
    exact decide_eq_true fun hblank => hempty (hblank ▸ hrequest)
  have husage : (usageOfRequest source).exec s = .ok (usage, s) := by
    have hfound := h.requestUsage_eq hinv hcomparable.only
    unfold requestUsage at hfound
    unfold usageOfRequest
    rw [exec_bind_of_ok (Prog.exec_select _ _), hfound]
    rfl
  have happend := h.exec_append hinv hcolumn
  set row := adjustmentEvent env usage usage source a.ownership
    (costDelta source.amount estimated) (source.amount - estimated) a.token
  have hrow : row.usageEventId = "ue_" ++ a.token.text := rfl
  unfold Reconciles reconcile
  rw [h.ownership, exec_bind_of_ok (exec_check_ok _), exec_bind_of_ok (exec_readRow _), h.billed,
    exec_bind_of_ok (exec_orRaise_some _ _), if_pos hlinked]
  unfold reconcileRequestLinked
  rw [exec_bind_of_ok husage, exec_bind_of_ok (exec_raiseIf_pass (not_not.mpr h.currency)),
    hestimated, exec_bind_of_ok (exec_orRaise_some _ _)]
  simp only
  rw [exec_bind_of_ok happend, hcolumn, exec_bind_of_ok (exec_check_ok _),
    exec_bind_of_ok exec_upsertCostProjection]
  refine ⟨_, _, rfl, fun id hne => ?_, row, source.amount - estimated, ?_, rfl, ?_, ?_, rfl, ?_⟩
  · unfold withAdjustment
    rw [get_set_of_ne (by simp), get_set_of_ne (by simpa [hrow] using hne),
      get_set_of_ne (by simp)]
  · unfold withAdjustment
    rw [get_set_of_ne (by simp), ← hrow, get_set_self]
  · simp only [row, adjustmentEvent, hstripUsage]
  · simp only [row, adjustmentEvent]
    rw [hid, hstrip]
  · rw [hestimated]
    exact sub_add_cancel _ _

/-! ### Runs -/

/-- What is true of the bills of requests in a state: a first reconciliation leaves what it should
exactly when the bill is comparable, and the bills of a usage event are settled exactly when their
differences fit and there is one of them or nothing was estimated. -/
structure RequestBills (env : BillingEnv) (s : BillingDb) : Prop where
  reconciles : ∀ a source usage, LinkedCall s a source usage →
    (Reconciles env s a source usage ↔ Comparable s source usage)
  settled : ∀ usage, s.get (.event usage.usageEventId) = some usage →
    costAdjustments s usage ≠ [] →
    (Settled s usage ↔
      (∀ e ∈ costAdjustments s usage,
        FitsContext (billedAmount s e - orZero usage.estimatedCostAmount)) ∧
      ((costAdjustments s usage).length = 1 ∨ orZero usage.estimatedCostAmount = 0))

/-- **When the bills of requests are exact**, after every run. -/
theorem request_bills (env : BillingEnv) (ops : List BillingOp) :
    RequestBills env (execAll (billingBody env) ∅ ops) := by
  have hinv := BillingInv.run env ops
  refine ⟨fun a source usage hcall => ⟨hcall.comparable hinv, fun hcomparable => ?_⟩,
    fun usage hused hbilled => hinv.settled_iff hused hbilled⟩
  rcases source_of_run ops ∅ _ source hcall.billed with hget | ⟨record, token, -, hvalues⟩
  · simp at hget
  · exact hcall.reconciles hinv (storable_of_recordValues hvalues) hcomparable

/-! ### A request without an estimate, and one with two bills -/

/-- The usage event of the request `"req"`. -/
def requestUsageArgs (estimated : Option Money) (status : CostStatus) : UsageArgs where
  token := ⟨"u", urlsafe_u⟩
  isProvider := true
  provider := some "p"
  providerRequestId := some "req"
  currencyCode := some "EUR"
  estimatedCostAmount := estimated
  estimatedCostStatus := some status
  effectiveCalendarVersionId := "cal"
  effectiveAtUtc := 0
  effectivePeriod := "2026-01"

/-- A bill of `0.30` for the request `"req"`. -/
def requestBill (billId : String) : BillingSourceRecord :=
  { sampleBill with billingSourceRecordId := billId, providerRequestId := some "req" }

/-- The usage event is recorded without an estimate, and the bill imported. -/
def unavailableCalls : List BillingOp :=
  [.recordUsage (requestUsageArgs none .unavailable), .importRecord (requestBill "first") tokenOne]

/-- The usage event is recorded with an estimate of `0.10`, and two bills of the request are
imported and reconciled. -/
def twoBills : List BillingOp :=
  [.recordUsage (requestUsageArgs (some 1000000000) .complete),
   .importRecord (requestBill "first") tokenOne, .importRecord (requestBill "second") tokenTwo,
   .reconcile (reconcileMonth tokenOne tokenOne), .reconcile (reconcileMonth tokenTwo tokenTwo)]

/-- The imported bill. -/
def requestSource (billId : String) (token : Token) : SourceRow :=
  { sampleSource with
    providerBillingSourceRecordId := "pbs_" ++ token.text
    billingSourceRecordId := billId
    providerRequestId := some "req" }

/-- The error a transaction fails with when it is none of the application. -/
def internalError {α : Type} : Except Err α → Option String
  | .error (.internal what) => some what
  | _ => none

theorem linkedCall_unavailable :
    LinkedCall (execAll (billingBody sampleBillingEnv) ∅ unavailableCalls)
      (reconcileMonth tokenOne tokenOne) (requestSource "first" tokenOne)
      (usageRow (requestUsageArgs none .unavailable)) where
  ownership := by rfl
  billed := by decide +kernel
  used := by decide +kernel
  kind := rfl
  provider := rfl
  request := ⟨nofun, rfl⟩
  currency := rfl
  persisted := nofun
  first := by decide +kernel
  unused := by decide +kernel
  usageName := by decide +kernel
  sourceName := by decide +kernel

/-- **The bill of a request without an estimate cannot be reconciled**: the reconciliation fails,
and not with an error of the application.  And the bills of a request with two do not sum. -/
theorem request_bills_off :
    internalError ((reconcile sampleBillingEnv (reconcileMonth tokenOne tokenOne)).exec
        (execAll (billingBody sampleBillingEnv) ∅ unavailableCalls)) = some "InvalidOperation" ∧
      LinkedCall (execAll (billingBody sampleBillingEnv) ∅ unavailableCalls)
        (reconcileMonth tokenOne tokenOne) (requestSource "first" tokenOne)
        (usageRow (requestUsageArgs none .unavailable)) ∧
      ¬ Settled (execAll (billingBody sampleBillingEnv) ∅ twoBills)
        (usageRow (requestUsageArgs (some 1000000000) .complete)) := by
  refine ⟨by decide +kernel, linkedCall_unavailable, fun hsettled => ?_⟩
  have hsum := hsettled.sum
  revert hsum
  decide +kernel

end RagQs.Usage.Billing
