import RagQs.Usage.Quota
import Mathlib.Algebra.Order.BigOperators.Group.Finset

/-!
# The discipline of the quota ledger

What every committed quota ledger satisfies, and what a transaction may change with the
locks it holds: an entry is never changed, it is added under the lock of its projection
row, and a reversal also under the lock of the debit it reverses.

## Main definitions

* `usedDelta`, `grantedDelta` — what an entry adds to a projection.
* `QuotaInv` — the invariant; the projection is the sum of the ledger.
* `QuotaGuar`, `quotaDiscipline` — the guarantee.
* `Appends` — the change an append makes.

## Main results

* `QuotaInv.used_nonneg` — no subject has used less than nothing.
* `Appends.inv`, `Appends.guar` — an append keeps the discipline.
-/

namespace RagQs.Usage

open Txn Txn.Discipline Store List Option

variable {f : (k : Key) → Row k → ℤ}

/-! ### The sums of the ledger -/

/-- What the entry of one key adds to the pages a subject has used in a period. -/
def usedDelta (subject period : String) : (k : Key) → Row k → ℤ
  | .quotaDebit _, r =>
    if r.quotaSubjectUserId = subject ∧ r.quotaPeriod = period ∧ r.entryKind ≠ .credit then
      r.pageDelta
    else 0
  | _, _ => 0

/-- What the entry of one key adds to the pages a subject has been granted in a period. -/
def grantedDelta (subject period : String) : (k : Key) → Row k → ℤ
  | .quotaDebit _, r =>
    if r.quotaSubjectUserId = subject ∧ r.quotaPeriod = period ∧ r.entryKind = .credit then
      r.pageDelta.natAbs
    else 0
  | _, _ => 0

/-- The quantity is zero except on entries of the quota ledger. -/
def OnEntries (f : (k : Key) → Row k → ℤ) : Prop :=
  ∀ k r, (∀ id, k ≠ .quotaDebit id) → f k r = 0

theorem onEntries_usedDelta (subject period : String) : OnEntries (usedDelta subject period) := by
  intro k r h
  cases k <;> first | rfl | exact absurd rfl (h _)

theorem onEntries_grantedDelta (subject period : String) :
    OnEntries (grantedDelta subject period) := by
  intro k r h
  cases k <;> first | rfl | exact absurd rfl (h _)

theorem onEntries_reversedDelta (id : String) : OnEntries (reversedDelta id) := by
  intro k r h
  cases k <;> first | rfl | exact absurd rfl (h _)

theorem OnEntries.total_congr (hf : OnEntries f) {c c' : Db}
    (h : ∀ id, weight f (.quotaDebit id) (c'.get (.quotaDebit id))
      = weight f (.quotaDebit id) (c.get (.quotaDebit id))) : total f c' = total f c := by
  have hzero : ∀ k, (∀ id, k ≠ .quotaDebit id) → ∀ o : Option (Row k), weight f k o = 0 := by
    intro k hk o
    cases o with
    | none => rfl
    | some r => exact hf k r hk
  refine Store.total_congr fun k => ?_
  by_cases hk : ∃ id, k = .quotaDebit id
  · obtain ⟨id, rfl⟩ := hk
    exact h id
  · have hk' : ∀ id, k ≠ .quotaDebit id := fun id hid => hk ⟨id, hid⟩
    rw [hzero k hk', hzero k hk']

/-- What a subject has used in a period, by the projection. -/
def usedOf (c : Db) (subject period : String) : ℤ :=
  match (c.get (.quotaProjection subject period) : Option QuotaProjectionRow) with
  | none => 0
  | some p => p.used

/-- What a subject has been granted in a period, by the projection. -/
def grantedOf (c : Db) (subject period : String) : ℤ :=
  match (c.get (.quotaProjection subject period) : Option QuotaProjectionRow) with
  | none => 0
  | some p => p.extraGranted

/-! ### The invariant -/

/-- The values of the unique indexes an entry has. -/
def QuotaDebitRow.indexes (r : QuotaDebitRow) : List EntryIndex :=
  (r.quotaOperationId.map EntryIndex.operation).toList ++
    (match r.adjustmentSourceNamespace, r.adjustmentSourceId with
      | some n, some s => [.adjustment r.entryKind n s]
      | _, _ => [])

/-- The sign the check constraints ask of an entry. -/
def QuotaDebitRow.signed (r : QuotaDebitRow) : Prop :=
  match r.entryKind with
  | .debit | .supplement => 0 < r.pageDelta
  | .reversal | .credit => r.pageDelta < 0

/-- The entry a reversal refers to: a debit of the same subject and period. -/
def Reverses (c : Db) (r : QuotaDebitRow) (ref : String) (q : QuotaDebitRow) : Prop :=
  r.referencedDebitId = some ref ∧ c.get (.quotaDebit ref) = some q ∧ q.entryKind = .debit ∧
    q.quotaSubjectUserId = r.quotaSubjectUserId ∧ q.quotaPeriod = r.quotaPeriod

/-- The invariant of the quota ledger and its projection. -/
structure QuotaInv (c : Db) : Prop where
  index : ∀ u id, c.get (.quotaIndex u) = some id ↔
    ∃ r : QuotaDebitRow, c.get (.quotaDebit id) = some r ∧ u ∈ r.indexes
  signed : ∀ id (r : QuotaDebitRow), c.get (.quotaDebit id) = some r → r.signed
  reference : ∀ id (r : QuotaDebitRow), c.get (.quotaDebit id) = some r →
    r.entryKind = .reversal → ∃ ref q, Reverses c r ref q
  bound : ∀ id (r : QuotaDebitRow), c.get (.quotaDebit id) = some r → r.entryKind = .debit →
    -reversedTotal c id ≤ r.pageDelta
  used : ∀ subject period, usedOf c subject period = total (usedDelta subject period) c
  granted : ∀ subject period, grantedOf c subject period = total (grantedDelta subject period) c

theorem quotaInv_empty : QuotaInv (∅ : Db) where
  index u id := by simp
  signed id r h := by simp at h
  reference id r h := by simp at h
  bound id r h := by simp at h
  used subject period := by simp [usedOf]
  granted subject period := by simp [grantedOf]

/-! ### What is used is not negative -/

section Nonneg

variable {c : Db} {subject period : String}

/-- The debit of a key, when it is one of the subject and the period. -/
def isDebitOf (c : Db) (subject period : String) (k : Key) : Prop :=
  match k with
  | .quotaDebit id => ∃ q : QuotaDebitRow, c.get (.quotaDebit id) = some q ∧
      q.entryKind = .debit ∧ q.quotaSubjectUserId = subject ∧ q.quotaPeriod = period
  | _ => False

/-- What the entry of one key adds to the used pages besides taking pages back. -/
def addedDelta (subject period : String) : (k : Key) → Row k → ℤ
  | .quotaDebit _, r =>
    if r.quotaSubjectUserId = subject ∧ r.quotaPeriod = period ∧
      (r.entryKind = .debit ∨ r.entryKind = .supplement) then r.pageDelta
    else 0
  | _, _ => 0

theorem onEntries_addedDelta (subject period : String) :
    OnEntries (addedDelta subject period) := by
  intro k r h
  cases k <;> first | rfl | exact absurd rfl (h _)

theorem addedDelta_nonneg {r : QuotaDebitRow} (h : r.signed) (id : String) :
    0 ≤ addedDelta subject period (.quotaDebit id) r := by
  simp only [addedDelta]
  split
  · next hr =>
    unfold QuotaDebitRow.signed at h
    rcases hr.2.2 with hk | hk <;> rw [hk] at h <;> exact le_of_lt h
  · exact le_refl 0

/-- The sum of the reversals of the debit of a key. -/
def reversedOf (c : Db) (k : Key) : ℤ :=
  match k with
  | .quotaDebit id => reversedTotal c id
  | _ => 0

open Classical in
theorem QuotaInv.sum_reversals (h : QuotaInv c) {S : Finset Key}
    (hS : ∀ k (r : Row k), c.get k = some r → k ∈ S) :
    ∑ k ∈ S, weight (usedDelta subject period) k (c.get k)
      = ∑ k ∈ S, (weight (addedDelta subject period) k (c.get k)
          + if isDebitOf c subject period k then reversedOf c k else 0) := by
  -- the reversal `k'` as a summand of the debit `k` it refers to
  let share (k k' : Key) : ℤ :=
    match k with
    | .quotaDebit id => weight (reversedDelta id) k' (c.get k')
    | _ => 0
  have hdebit : ∀ k, (if isDebitOf c subject period k then reversedOf c k else 0)
      = ∑ k' ∈ S, if isDebitOf c subject period k then share k k' else 0 := by
    intro k
    by_cases hk : isDebitOf c subject period k
    · simp only [if_pos hk]
      cases k with
      | quotaDebit id => exact total_eq_sum (reversedDelta id) c hS
      | _ => exact hk.elim
    · simp [if_neg hk]
  have hreversal : ∀ k' ∈ S, (∑ k ∈ S, if isDebitOf c subject period k then share k k' else 0)
      = weight (usedDelta subject period) k' (c.get k')
        - weight (addedDelta subject period) k' (c.get k') := by
    intro k' _
    have hzero : (∀ ref, share (.quotaDebit ref) k' = 0) →
        (∑ k ∈ S, if isDebitOf c subject period k then share k k' else 0) = 0 := by
      intro hshare
      refine Finset.sum_eq_zero fun k _ => ?_
      cases k with
      | quotaDebit ref => simp [hshare]
      | _ => simp [isDebitOf]
    cases hget : c.get k' with
    | none => rw [hzero fun ref => by simp [share, hget], weight_none, weight_none, sub_zero]
    | some r =>
      by_cases hk : ∃ id, k' = .quotaDebit id
      · obtain ⟨id, rfl⟩ := hk
        change QuotaDebitRow at r
        by_cases hkind : r.entryKind = .reversal
        · obtain ⟨ref, q, href, hq, hqd, hqs, hqp⟩ := h.reference id r hget hkind
          have hone : ∀ k ∈ S, k ≠ .quotaDebit ref →
              (if isDebitOf c subject period k then share k (.quotaDebit id) else 0) = 0 := by
            intro k _ hk
            cases k with
            | quotaDebit ref' =>
              have hne : ref ≠ ref' := fun heq => hk (by rw [heq])
              simp [share, hget, reversedDelta, href, hne]
            | _ => simp [isDebitOf]
          have hadded : addedDelta subject period (.quotaDebit id) r = 0 := by
            simp [addedDelta, hkind]
          rw [Finset.sum_eq_single_of_mem _ (hS _ _ hq) hone, weight_some, weight_some, hadded,
            sub_zero]
          by_cases hsp : r.quotaSubjectUserId = subject ∧ r.quotaPeriod = period
          · have hd : isDebitOf c subject period (.quotaDebit ref) :=
              ⟨q, hq, hqd, hqs.trans hsp.1, hqp.trans hsp.2⟩
            rw [if_pos hd]
            simp [share, hget, reversedDelta, href, hkind, usedDelta, hsp.1, hsp.2]
          · have hd : ¬ isDebitOf c subject period (.quotaDebit ref) := by
              rintro ⟨q', hq', _, hs, hp⟩
              cases hq.symm.trans hq'
              exact hsp ⟨hqs.symm.trans hs, hqp.symm.trans hp⟩
            rw [if_neg hd]
            exact (if_neg fun hu => hsp ⟨hu.1, hu.2.1⟩).symm
        · rw [hzero fun ref => by simp [share, hget, reversedDelta, hkind]]
          cases hkind' : r.entryKind <;> simp_all [usedDelta, addedDelta]
      · have hk' : ∀ id, k' ≠ .quotaDebit id := fun id hid => hk ⟨id, hid⟩
        rw [hzero fun ref => by simp [share, hget, onEntries_reversedDelta ref k' r hk'],
          weight_some, weight_some, onEntries_usedDelta _ _ k' r hk',
          onEntries_addedDelta _ _ k' r hk', sub_zero]
  have hsum : (∑ k ∈ S, if isDebitOf c subject period k then reversedOf c k else 0)
      = ∑ k' ∈ S, (weight (usedDelta subject period) k' (c.get k')
          - weight (addedDelta subject period) k' (c.get k')) := by
    rw [Finset.sum_congr rfl fun k _ => hdebit k, Finset.sum_comm]
    exact Finset.sum_congr rfl hreversal
  rw [Finset.sum_add_distrib, hsum, ← Finset.sum_add_distrib]
  exact Finset.sum_congr rfl fun k _ => (add_sub_cancel _ _).symm

theorem QuotaInv.total_used_nonneg (h : QuotaInv c) (subject period : String) :
    0 ≤ total (usedDelta subject period) c := by
  have hS : ∀ k (r : Row k), c.get k = some r → k ∈ c.keys.toFinset := fun _ _ => mem_keys_of_get
  rw [total_eq_sum _ c hS, h.sum_reversals hS]
  refine Finset.sum_nonneg fun k _ => ?_
  by_cases hd : isDebitOf c subject period k
  · rw [if_pos hd]
    cases k with
    | quotaDebit id =>
      obtain ⟨q, hq, hkind, hs, hp⟩ := hd
      have hbound := h.bound id q hq hkind
      have hpart : weight (addedDelta subject period) (.quotaDebit id) (c.get (.quotaDebit id))
          = q.pageDelta := by
        simp [hq, hkind, addedDelta, hs, hp]
      rw [hpart]
      show 0 ≤ q.pageDelta + reversedTotal c id
      omega
    | _ => exact hd.elim
  · rw [if_neg hd, add_zero]
    cases hget : c.get k with
    | none => exact le_refl 0
    | some r =>
      by_cases hk : ∃ id, k = .quotaDebit id
      · obtain ⟨id, rfl⟩ := hk
        exact addedDelta_nonneg (h.signed id r hget) id
      · rw [weight_some, onEntries_addedDelta _ _ k r fun id hid => hk ⟨id, hid⟩]

theorem QuotaInv.used_nonneg (h : QuotaInv c) (subject period : String) :
    0 ≤ usedOf c subject period := by
  rw [h.used]
  exact h.total_used_nonneg subject period

end Nonneg

/-! ### The guarantee -/

/-- What a transaction may change of the ledger with the locks `W`. -/
structure QuotaGuar (W : Key → Prop) (c c' : Db) : Prop where
  /-- Entries are never changed. -/
  entry : ∀ id (r : QuotaDebitRow), c.get (.quotaDebit id) = some r →
    c'.get (.quotaDebit id) = some r
  /-- Entries are added under the lock of their projection row, and reversals under the lock
  of the debit too. -/
  added : ∀ id (r : QuotaDebitRow), c.get (.quotaDebit id) = none →
    c'.get (.quotaDebit id) = some r →
    W (.quotaProjection r.quotaSubjectUserId r.quotaPeriod) ∧
      ∀ ref, r.entryKind = .reversal → r.referencedDebitId = some ref → W (.quotaDebit ref)
  /-- Projection rows are never deleted. -/
  projection : ∀ subject period, (c.get (.quotaProjection subject period)).isSome = true →
    (c'.get (.quotaProjection subject period)).isSome = true

theorem QuotaGuar.refl (W : Key → Prop) (c : Db) : QuotaGuar W c c where
  entry _ _ h := h
  added _ _ h h' := by
    rw [h] at h'
    cases h'
  projection _ _ h := h

theorem QuotaGuar.trans {W : Key → Prop} {a b c : Db} (h₁ : QuotaGuar W a b)
    (h₂ : QuotaGuar W b c) : QuotaGuar W a c where
  entry id r h := h₂.entry id r (h₁.entry id r h)
  added id r ha hc := by
    cases hb : (b.get (.quotaDebit id) : Option QuotaDebitRow) with
    | none => exact h₂.added id r hb hc
    | some r' =>
      obtain rfl := some.inj ((h₂.entry id r' hb).symm.trans hc)
      exact h₁.added id r' ha hb
  projection subject period h := h₂.projection subject period (h₁.projection subject period h)

theorem QuotaGuar.mono {W W' : Key → Prop} {c c' : Db} (hW : ∀ k, W k → W' k)
    (h : QuotaGuar W c c') : QuotaGuar W' c c' where
  entry := h.entry
  added id r hc hc' :=
    ⟨hW _ (h.added id r hc hc').1, fun ref hk hr => hW _ ((h.added id r hc hc').2 ref hk hr)⟩
  projection := h.projection

/-- The discipline of the quota ledger. -/
def quotaDiscipline : Discipline Row where
  Inv := QuotaInv
  guar := QuotaGuar
  refl := QuotaGuar.refl
  trans := QuotaGuar.trans
  mono := QuotaGuar.mono

/-- A discipline that includes the one of the quota ledger. -/
structure KeepsQuota (D : Discipline Row) : Prop where
  inv : ∀ c, D.Inv c → QuotaInv c
  guar : ∀ W c c', D.guar W c c' → QuotaGuar W c c'

theorem keepsQuota_self : KeepsQuota quotaDiscipline := ⟨fun _ h => h, fun _ _ _ h => h⟩

theorem QuotaGuar.total {W : Key → Prop} {c c' : Db} (h : QuotaGuar W c c') (hf : OnEntries f)
    (hnew : ∀ id (r : QuotaDebitRow), c.get (.quotaDebit id) = none →
      c'.get (.quotaDebit id) = some r → f (.quotaDebit id) r = 0) : total f c' = total f c := by
  refine hf.total_congr fun id => ?_
  cases hc : (c.get (.quotaDebit id) : Option QuotaDebitRow) with
  | some r => rw [h.entry id r hc]
  | none =>
    cases hc' : (c'.get (.quotaDebit id) : Option QuotaDebitRow) with
    | none => rfl
    | some r => exact hnew id r hc hc'

section Rely

variable {D : Discipline Row} {H : Key → Prop} {c c' : Db}

theorem KeepsQuota.total_used (hD : KeepsQuota D) (hr : D.Rely H c c') {subject period : String}
    (hlock : H (.quotaProjection subject period)) :
    total (usedDelta subject period) c' = total (usedDelta subject period) c := by
  refine (hD.guar _ _ _ hr.guar).total (onEntries_usedDelta _ _) fun id r hc hc' => ?_
  refine if_neg fun hu => ((hD.guar _ _ _ hr.guar).added id r hc hc').1 ?_
  rw [hu.1, hu.2.1]
  exact hlock

theorem KeepsQuota.total_granted (hD : KeepsQuota D) (hr : D.Rely H c c')
    {subject period : String} (hlock : H (.quotaProjection subject period)) :
    total (grantedDelta subject period) c' = total (grantedDelta subject period) c := by
  refine (hD.guar _ _ _ hr.guar).total (onEntries_grantedDelta _ _) fun id r hc hc' => ?_
  refine if_neg fun hu => ((hD.guar _ _ _ hr.guar).added id r hc hc').1 ?_
  rw [hu.1, hu.2.1]
  exact hlock

theorem KeepsQuota.reversedTotal (hD : KeepsQuota D) (hr : D.Rely H c c') {ref : String}
    (hlock : H (.quotaDebit ref)) : reversedTotal c' ref = reversedTotal c ref := by
  refine (hD.guar _ _ _ hr.guar).total (onEntries_reversedDelta _) fun id r hc hc' => ?_
  exact if_neg fun hu => ((hD.guar _ _ _ hr.guar).added id r hc hc').2 ref hu.1 hu.2 hlock

end Rely

/-! ### Appends -/

/-- The keys of the quota ledger and its projection. -/
def Key.isQuota : Key → Bool
  | .quotaDebit _ | .quotaIndex _ | .quotaProjection _ _ => true
  | _ => false

/-- A reversal may be added: it refers to a debit that is locked and that it does not exceed. -/
def MayReverse (H : Key → Prop) (c : Db) (r : QuotaDebitRow) : Prop :=
  ∃ ref q, Reverses c r ref q ∧ -reversedTotal c ref - r.pageDelta ≤ q.pageDelta ∧
    H (.quotaDebit ref)

/-- From `c` to `c'` the entry `r` is appended under the locks `H`. -/
structure Appends (H : Key → Prop) (c c' : Db) (u : EntryIndex) (id : String)
    (r : QuotaDebitRow) : Prop where
  fresh : c.get (.quotaDebit id) = none
  free : c.get (.quotaIndex u) = none
  entry : c'.get (.quotaDebit id) = some r
  index : c'.get (.quotaIndex u) = some id
  indexes : r.indexes = [u]
  signed : r.signed
  reference : r.entryKind = .reversal → MayReverse H c r
  used : usedOf c' r.quotaSubjectUserId r.quotaPeriod
    = usedOf c r.quotaSubjectUserId r.quotaPeriod
      + usedDelta r.quotaSubjectUserId r.quotaPeriod (.quotaDebit id) r
  granted : grantedOf c' r.quotaSubjectUserId r.quotaPeriod
    = grantedOf c r.quotaSubjectUserId r.quotaPeriod
      + grantedDelta r.quotaSubjectUserId r.quotaPeriod (.quotaDebit id) r
  locked : H (.quotaProjection r.quotaSubjectUserId r.quotaPeriod)
  projected : (c'.get (.quotaProjection r.quotaSubjectUserId r.quotaPeriod)).isSome = true
  others : ∀ k : Key, k.isQuota = true → k ≠ .quotaDebit id → k ≠ .quotaIndex u →
    k ≠ .quotaProjection r.quotaSubjectUserId r.quotaPeriod → c'.get k = c.get k

section Appends

variable {H : Key → Prop} {c c' : Db} {u : EntryIndex} {id : String} {r : QuotaDebitRow}

theorem Appends.total (h : Appends H c c' u id r) (hf : OnEntries f) :
    total f c' = total f c + f (.quotaDebit id) r := by
  have hset := total_set_new f (some r : Option (Row (.quotaDebit id))) h.fresh
  rw [weight_some] at hset
  rw [← hset]
  refine hf.total_congr fun id' => ?_
  by_cases hid : id' = id
  · rw [hid, h.entry, get_set_self]
  · have hne : Key.quotaDebit id' ≠ .quotaDebit id := by simpa using hid
    rw [h.others _ rfl hne (by simp) (by simp), get_set_of_ne hne]

theorem Appends.get (h : Appends H c c' u id r) {id' : String} {r' : QuotaDebitRow}
    (h' : c'.get (.quotaDebit id') = some r') :
    id' = id ∧ r' = r ∨ id' ≠ id ∧ c.get (.quotaDebit id') = some r' := by
  by_cases hid : id' = id
  · subst hid
    exact .inl ⟨rfl, some.inj (h'.symm.trans h.entry)⟩
  · refine .inr ⟨hid, ?_⟩
    rwa [h.others _ rfl (by simpa using hid) (by simp) (by simp)] at h'

theorem Appends.old (h : Appends H c c' u id r) {id' : String} {r' : QuotaDebitRow}
    (h' : c.get (.quotaDebit id') = some r') : c'.get (.quotaDebit id') = some r' := by
  have hid : id' ≠ id := by
    rintro rfl
    rw [h.fresh] at h'
    cases h'
  rw [h.others _ rfl (by simpa using hid) (by simp) (by simp)]
  exact h'

/-- **An append keeps the invariant.** -/
theorem Appends.inv (h : Appends H c c' u id r) (hc : QuotaInv c) : QuotaInv c' where
  index u' id' := by
    by_cases hu : u' = u
    · subst hu
      rw [h.index]
      constructor
      · intro heq
        cases heq
        exact ⟨r, h.entry, by rw [h.indexes]; exact mem_singleton.mpr rfl⟩
      · rintro ⟨r', hr', hmem⟩
        rcases h.get hr' with ⟨rfl, rfl⟩ | ⟨-, hold⟩
        · rfl
        · have := (hc.index u' id').mpr ⟨r', hold, hmem⟩
          rw [h.free] at this
          cases this
    · rw [h.others _ rfl (by simp) (by simpa using hu) (by simp), hc.index]
      constructor
      · rintro ⟨r', hr', hmem⟩
        exact ⟨r', h.old hr', hmem⟩
      · rintro ⟨r', hr', hmem⟩
        rcases h.get hr' with ⟨rfl, rfl⟩ | ⟨-, hold⟩
        · rw [h.indexes, mem_singleton] at hmem
          exact absurd hmem hu
        · exact ⟨r', hold, hmem⟩
  signed id' r' hr' := by
    rcases h.get hr' with ⟨-, rfl⟩ | ⟨-, hold⟩
    · exact h.signed
    · exact hc.signed id' r' hold
  reference id' r' hr' hkind := by
    rcases h.get hr' with ⟨-, rfl⟩ | ⟨-, hold⟩
    · obtain ⟨ref, q, ⟨href, hq, hrest⟩, -, -⟩ := h.reference hkind
      exact ⟨ref, q, href, h.old hq, hrest⟩
    · obtain ⟨ref, q, href, hq, hrest⟩ := hc.reference id' r' hold hkind
      exact ⟨ref, q, href, h.old hq, hrest⟩
  bound id' r' hr' hkind := by
    unfold reversedTotal
    rw [h.total (onEntries_reversedDelta id')]
    show -(reversedTotal c id' + reversedDelta id' (.quotaDebit id) r) ≤ r'.pageDelta
    rcases h.get hr' with ⟨rfl, rfl⟩ | ⟨-, hold⟩
    · -- nothing refers to an entry that is new
      have hnone : reversedTotal c id' = 0 := by
        refine (total_eq_sum _ c fun _ _ => mem_keys_of_get).trans
          (Finset.sum_eq_zero fun k _ => ?_)
        cases hget : c.get k with
        | none => rfl
        | some x =>
          by_cases hk : ∃ n, k = .quotaDebit n
          · obtain ⟨n, rfl⟩ := hk
            refine if_neg fun hx => ?_
            obtain ⟨ref, q, href, hq, -⟩ := hc.reference n x hget hx.1
            cases hx.2.symm.trans href
            rw [h.fresh] at hq
            cases hq
          · exact onEntries_reversedDelta id' k x fun n hn => hk ⟨n, hn⟩
      have hself : reversedDelta id' (.quotaDebit id') r' = 0 := by
        simp [reversedDelta, hkind]
      have hsigned := h.signed
      unfold QuotaDebitRow.signed at hsigned
      rw [hkind] at hsigned
      rw [hnone, hself]
      show -(0 + 0) ≤ r'.pageDelta
      omega
    · have hbound := hc.bound id' r' hold hkind
      by_cases hrev : r.entryKind = .reversal ∧ r.referencedDebitId = some id'
      · obtain ⟨ref, q, ⟨href, hq, -⟩, hle, -⟩ := h.reference hrev.1
        cases hrev.2.symm.trans href
        cases hold.symm.trans hq
        have hdelta : reversedDelta id' (.quotaDebit id) r = r.pageDelta := if_pos hrev
        rw [hdelta]
        omega
      · have hdelta : reversedDelta id' (.quotaDebit id) r = 0 := if_neg hrev
        rw [hdelta]
        omega
  used subject period := by
    rw [h.total (onEntries_usedDelta subject period)]
    by_cases hsp : r.quotaSubjectUserId = subject ∧ r.quotaPeriod = period
    · obtain ⟨rfl, rfl⟩ := hsp
      rw [h.used, hc.used]
    · have hzero : usedDelta subject period (.quotaDebit id) r = 0 :=
        if_neg fun hu => hsp ⟨hu.1, hu.2.1⟩
      rw [hzero, add_zero, ← hc.used]
      unfold usedOf
      rw [h.others _ rfl (by simp) (by simp) fun heq => hsp ?_]
      simp only [Key.quotaProjection.injEq] at heq
      exact ⟨heq.1.symm, heq.2.symm⟩
  granted subject period := by
    rw [h.total (onEntries_grantedDelta subject period)]
    by_cases hsp : r.quotaSubjectUserId = subject ∧ r.quotaPeriod = period
    · obtain ⟨rfl, rfl⟩ := hsp
      rw [h.granted, hc.granted]
    · have hzero : grantedDelta subject period (.quotaDebit id) r = 0 :=
        if_neg fun hu => hsp ⟨hu.1, hu.2.1⟩
      rw [hzero, add_zero, ← hc.granted]
      unfold grantedOf
      rw [h.others _ rfl (by simp) (by simp) fun heq => hsp ?_]
      simp only [Key.quotaProjection.injEq] at heq
      exact ⟨heq.1.symm, heq.2.symm⟩

/-- **An append is allowed under its locks.** -/
theorem Appends.guar (h : Appends H c c' u id r) : QuotaGuar H c c' where
  entry _ _ h' := h.old h'
  added id' r' hc hc' := by
    rcases h.get hc' with ⟨-, rfl⟩ | ⟨-, hold⟩
    · refine ⟨h.locked, fun ref hkind href => ?_⟩
      obtain ⟨ref', q, ⟨href', -⟩, -, hlock⟩ := h.reference hkind
      cases href.symm.trans href'
      exact hlock
    · rw [hc] at hold
      cases hold
  projection subject period hc := by
    by_cases heq : Key.quotaProjection subject period
        = .quotaProjection r.quotaSubjectUserId r.quotaPeriod
    · rw [heq]
      exact h.projected
    · rw [h.others _ rfl (by simp) (by simp) heq]
      exact hc

end Appends

/-! ### Changes of the projection alone -/

/-- The entries have not changed, nor what the projection says. -/
structure SameLedger (c c' : Db) : Prop where
  entry : ∀ id, c'.get (.quotaDebit id) = c.get (.quotaDebit id)
  index : ∀ u, c'.get (.quotaIndex u) = c.get (.quotaIndex u)
  used : ∀ subject period, usedOf c' subject period = usedOf c subject period
  granted : ∀ subject period, grantedOf c' subject period = grantedOf c subject period
  projection : ∀ subject period, (c.get (.quotaProjection subject period)).isSome = true →
    (c'.get (.quotaProjection subject period)).isSome = true

theorem SameLedger.total {c c' : Db} (h : SameLedger c c') (hf : OnEntries f) :
    total f c' = total f c :=
  hf.total_congr fun id => by rw [h.entry]

theorem SameLedger.inv {c c' : Db} (h : SameLedger c c') (hc : QuotaInv c) : QuotaInv c' where
  index u id := by simp only [h.index, h.entry, hc.index]
  signed id r hr := hc.signed id r (h.entry id ▸ hr)
  reference id r hr hkind := by
    obtain ⟨ref, q, href, hq, hrest⟩ := hc.reference id r (h.entry id ▸ hr) hkind
    exact ⟨ref, q, href, (h.entry ref).trans hq, hrest⟩
  bound id r hr hkind := by
    unfold reversedTotal
    rw [h.total (onEntries_reversedDelta id)]
    exact hc.bound id r (h.entry id ▸ hr) hkind
  used subject period := by rw [h.used, h.total (onEntries_usedDelta _ _), hc.used]
  granted subject period := by rw [h.granted, h.total (onEntries_grantedDelta _ _), hc.granted]

theorem SameLedger.guar {c c' : Db} (h : SameLedger c c') (W : Key → Prop) : QuotaGuar W c c' where
  entry id r hr := (h.entry id).trans hr
  added id r hc hc' := by
    rw [h.entry, hc] at hc'
    cases hc'
  projection := h.projection

theorem SameLedger.of_quota {c c' : Db} (h : ∀ k : Key, k.isQuota = true → c'.get k = c.get k) :
    SameLedger c c' where
  entry id := h _ rfl
  index u := h _ rfl
  used subject period := by
    unfold usedOf
    rw [h _ rfl]
  granted subject period := by
    unfold grantedOf
    rw [h _ rfl]
  projection subject period hc := by
    rw [h _ rfl]
    exact hc

theorem sameLedger_of_projection {c c' : Db} {subject period : String} {p : QuotaProjectionRow}
    (hothers : ∀ k : Key, k.isQuota = true → k ≠ .quotaProjection subject period →
      c'.get k = c.get k)
    (hget : c'.get (.quotaProjection subject period) = some p)
    (hused : p.used = usedOf c subject period)
    (hgranted : p.extraGranted = grantedOf c subject period) : SameLedger c c' where
  entry id := hothers _ rfl (by simp)
  index u := hothers _ rfl (by simp)
  used subject' period' := by
    by_cases heq : Key.quotaProjection subject' period' = .quotaProjection subject period
    · obtain ⟨rfl, rfl⟩ := Key.quotaProjection.inj heq
      rw [← hused]
      unfold usedOf
      rw [hget]
    · unfold usedOf
      rw [hothers _ rfl heq]
  granted subject' period' := by
    by_cases heq : Key.quotaProjection subject' period' = .quotaProjection subject period
    · obtain ⟨rfl, rfl⟩ := Key.quotaProjection.inj heq
      rw [← hgranted]
      unfold grantedOf
      rw [hget]
    · unfold grantedOf
      rw [hothers _ rfl heq]
  projection subject' period' hsome := by
    by_cases heq : Key.quotaProjection subject' period' = .quotaProjection subject period
    · rw [heq, hget]
      rfl
    · rwa [hothers _ rfl heq]

end RagQs.Usage
