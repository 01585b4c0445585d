import RagQs.Usage.QuotaProof
import RagQs.Usage.Requests

/-!
# The discipline of quota requests

A request is pending at version 1 or has left that status at version 2 for good.  An approved
request and the credit of the quota ledger that names it as its source belong together, so
what a user has been granted in a month is the sum of the approved pages.

## Main definitions

* `CreditOf` — the credit of an approved request.
* `RequestInv` — the invariant.
* `Moves`, `RequestGuar` — what may change.
* `requestDiscipline` — with the discipline of the quota ledger.
* `Leaves`, `Creates` — the changes of the transactions.

## Main results

* `Leaves.inv`, `Leaves.approve`, `Creates.inv` — the changes keep the invariant.
-/

namespace RagQs.Usage.Requests

open Txn Txn.Discipline Store Option

variable {x : QuotaRequestRow}

/-! ### The invariant -/

/-- What the request of one key adds to the pages approved for a user in a month. -/
def approvedDelta (userId period : String) : (k : Key) → Row k → ℤ
  | .quotaRequest _, r =>
    if r.status = .approved ∧ r.applicantUserId = userId ∧ r.quotaPeriod = period then
      r.approvedPages.getD 0
    else 0
  | _, _ => 0

/-- The pages approved for a user in a month: the sum over the approved requests. -/
def approvedTotal (c : Db) (userId period : String) : ℤ := total (approvedDelta userId period) c

/-- The entry is the credit of the request. -/
structure CreditOf (rid : String) (r : QuotaRequestRow) (q : QuotaDebitRow) : Prop where
  kind : q.entryKind = .credit
  source : q.adjustmentSourceNamespace = some creditNamespace ∧ q.adjustmentSourceId = some rid
  subject : q.quotaSubjectUserId = r.applicantUserId
  period : q.quotaPeriod = r.quotaPeriod
  pages : r.approvedPages = some (-q.pageDelta)
  positive : 1 ≤ -q.pageDelta
  bound : -q.pageDelta ≤ r.requestedPages

/-- The invariant of the requests and the credits. -/
structure RequestInv (c : Db) : Prop where
  index : ∀ u p rid, c.get (.quotaRequestPending u p) = some rid ↔
    ∃ r : QuotaRequestRow, c.get (.quotaRequest rid) = some r ∧ r.status = .pending ∧
      r.applicantUserId = u ∧ r.quotaPeriod = p
  version : ∀ rid (r : QuotaRequestRow), c.get (.quotaRequest rid) = some r →
    r.version = if r.status = .pending then 1 else 2
  approved : ∀ rid (r : QuotaRequestRow), c.get (.quotaRequest rid) = some r →
    r.status = .approved → ∃ id q, r.creditEntryId = some id ∧ c.get (.quotaDebit id) = some q ∧
      CreditOf rid r q
  credit : ∀ id (q : QuotaDebitRow), c.get (.quotaDebit id) = some q →
    ∃ rid r, c.get (.quotaRequest rid) = some r ∧ r.status = .approved ∧ CreditOf rid r q
  granted : ∀ u p, grantedOf c u p = approvedTotal c u p

theorem requestInv_empty : RequestInv (∅ : Db) where
  index u p rid := by simp
  version rid r h := by simp at h
  approved rid r h := by simp at h
  credit id q h := by simp at h
  granted u p := by simp [grantedOf, approvedTotal]

/-- Every stored idempotency key has its response. -/
def Settled (c : Db) : Prop :=
  ∀ scope key (row : IdempotencyRow), c.get (.idempotency scope key) = some row →
    row.status = .completed

/-! ### The guarantee -/

/-- A request stays as it is, or leaves the status pending and counts its version up. -/
def Moves (r r' : QuotaRequestRow) : Prop :=
  r' = r ∨ r.status = .pending ∧ r'.status ≠ .pending ∧ r'.version = r.version + 1 ∧
    r'.toQuotaRequestFacts = r.toQuotaRequestFacts

theorem Moves.trans {r r' r'' : QuotaRequestRow} (h : Moves r r') (h' : Moves r' r'') :
    Moves r r'' := by
  rcases h with rfl | ⟨hp, hl, hrest⟩
  · exact h'
  · rcases h' with rfl | ⟨hp', -⟩
    · exact .inr ⟨hp, hl, hrest⟩
    · exact absurd hp' hl

/-- Requests are never deleted, and leave the status pending once. -/
def Moved (c c' : Db) : Prop :=
  ∀ rid (r : QuotaRequestRow), c.get (.quotaRequest rid) = some r →
    ∃ r', c'.get (.quotaRequest rid) = some r' ∧ Moves r r'

theorem Moved.refl (c : Db) : Moved c c := fun _ r h => ⟨r, h, .inl rfl⟩

theorem Moved.trans {a b c : Db} (h₁ : Moved a b) (h₂ : Moved b c) : Moved a c := by
  intro rid r h
  obtain ⟨r', hr', hm⟩ := h₁ rid r h
  obtain ⟨r'', hr'', hm'⟩ := h₂ rid r' hr'
  exact ⟨r'', hr'', hm.trans hm'⟩

/-- What a transaction may change of the requests and the idempotency keys. -/
structure RequestGuar (c c' : Db) : Prop where
  request : Moved c c'
  /-- What is stored under an idempotency key stays. -/
  idempotency : ∀ scope key (row : IdempotencyRow), c.get (.idempotency scope key) = some row →
    c'.get (.idempotency scope key) = some row

theorem RequestGuar.refl (c : Db) : RequestGuar c c where
  request := .refl c
  idempotency _ _ _ h := h

theorem RequestGuar.trans {a b c : Db} (h₁ : RequestGuar a b) (h₂ : RequestGuar b c) :
    RequestGuar a c where
  request := h₁.request.trans h₂.request
  idempotency scope key row h := h₂.idempotency scope key row (h₁.idempotency scope key row h)

/-- The discipline of the requests, with the one of the quota ledger. -/
def requestDiscipline : Discipline Row where
  Inv c := QuotaInv c ∧ RequestInv c ∧ Settled c
  guar W c c' := QuotaGuar W c c' ∧ RequestGuar c c'
  refl W c := ⟨.refl W c, .refl c⟩
  trans h₁ h₂ := ⟨h₁.1.trans h₂.1, h₁.2.trans h₂.2⟩
  mono hW h := ⟨h.1.mono hW, h.2⟩

theorem requestDiscipline_keepsQuota : KeepsQuota requestDiscipline :=
  ⟨fun _ h => h.1, fun _ _ _ h => h.1⟩

/-! ### Changes of other tables -/

/-- The keys of the requests and of the quota ledger. -/
def isRequest : Key → Bool
  | .quotaRequest _ | .quotaRequestPending _ _ => true
  | k => k.isQuota

variable {c c' : Db}

theorem approvedTotal_congr (h : ∀ rid, c'.get (.quotaRequest rid) = c.get (.quotaRequest rid))
    (u p : String) : approvedTotal c' u p = approvedTotal c u p := by
  refine Store.total_congr fun k => ?_
  cases k with
  | quotaRequest rid => rw [h]
  | _ => cases c'.get _ <;> cases c.get _ <;> rfl

theorem RequestInv.congr (hc : RequestInv c)
    (h : ∀ k : Key, isRequest k = true → c'.get k = c.get k) : RequestInv c' where
  index u p rid := by
    rw [h (.quotaRequestPending u p) rfl, h (.quotaRequest rid) rfl, hc.index]
  version rid r hr := hc.version rid r (h (.quotaRequest rid) rfl ▸ hr)
  approved rid r hr hs := by
    obtain ⟨id, q, hid, hq, hcredit⟩ := hc.approved rid r (h (.quotaRequest rid) rfl ▸ hr) hs
    exact ⟨id, q, hid, (h (.quotaDebit id) rfl).trans hq, hcredit⟩
  credit id q hq := by
    obtain ⟨rid, r, hr, hs, hcredit⟩ := hc.credit id q (h (.quotaDebit id) rfl ▸ hq)
    exact ⟨rid, r, (h (.quotaRequest rid) rfl).trans hr, hs, hcredit⟩
  granted u p := by
    rw [approvedTotal_congr (fun rid => h _ rfl), ← hc.granted]
    unfold grantedOf
    rw [h _ rfl]

/-! ### A request leaves the status pending -/

/-- From `c` to `c'` the request leaves the status pending; the other requests stay. -/
structure Leaves (c c' : Db) (rid : String) (r r' : QuotaRequestRow) : Prop where
  old : c.get (.quotaRequest rid) = some r
  pending : r.status = .pending
  row : c'.get (.quotaRequest rid) = some r'
  left : r'.status ≠ .pending
  version : r'.version = r.version + 1
  facts : r'.toQuotaRequestFacts = r.toQuotaRequestFacts
  index : c'.get (.quotaRequestPending r.applicantUserId r.quotaPeriod) = none
  requests : ∀ rid', rid' ≠ rid → c'.get (.quotaRequest rid') = c.get (.quotaRequest rid')
  pendings : ∀ u p, ¬ (u = r.applicantUserId ∧ p = r.quotaPeriod) →
    c'.get (.quotaRequestPending u p) = c.get (.quotaRequestPending u p)

section Leaves

variable {rid : String} {r r' : QuotaRequestRow}

theorem Leaves.moved (h : Leaves c c' rid r r') : Moved c c' := by
  intro rid' x hx
  by_cases hid : rid' = rid
  · subst hid
    cases h.old.symm.trans hx
    exact ⟨r', h.row, .inr ⟨h.pending, h.left, h.version, h.facts⟩⟩
  · exact ⟨x, (h.requests rid' hid).trans hx, .inl rfl⟩

theorem Leaves.get (h : Leaves c c' rid r r') {rid' : String}
    (hx : c'.get (.quotaRequest rid') = some x) :
    rid' = rid ∧ x = r' ∨ rid' ≠ rid ∧ c.get (.quotaRequest rid') = some x := by
  by_cases hid : rid' = rid
  · subst hid
    exact .inl ⟨rfl, some.inj (hx.symm.trans h.row)⟩
  · exact .inr ⟨hid, (h.requests rid' hid).symm.trans hx⟩

theorem Leaves.index_iff (h : Leaves c c' rid r r') (hc : RequestInv c) (u p rid' : String) :
    c'.get (.quotaRequestPending u p) = some rid' ↔
      ∃ x : QuotaRequestRow, c'.get (.quotaRequest rid') = some x ∧ x.status = .pending ∧
        x.applicantUserId = u ∧ x.quotaPeriod = p := by
  have hone : c.get (.quotaRequestPending r.applicantUserId r.quotaPeriod) = some rid :=
    (hc.index _ _ rid).mpr ⟨r, h.old, h.pending, rfl, rfl⟩
  by_cases hup : u = r.applicantUserId ∧ p = r.quotaPeriod
  · obtain ⟨rfl, rfl⟩ := hup
    rw [h.index]
    constructor
    · exact nofun
    · rintro ⟨x, hx, hp, hu, hq⟩
      rcases h.get hx with ⟨-, rfl⟩ | ⟨hne, hold⟩
      · exact absurd hp h.left
      · have := (hc.index _ _ rid').mpr ⟨x, hold, hp, hu, hq⟩
        exact absurd (some.inj (this.symm.trans hone)) hne
  · rw [h.pendings u p hup, hc.index]
    constructor
    · rintro ⟨x, hx, hp, hu, hq⟩
      have hne : rid' ≠ rid := by
        rintro rfl
        cases h.old.symm.trans hx
        exact hup ⟨hu.symm, hq.symm⟩
      exact ⟨x, (h.requests rid' hne).trans hx, hp, hu, hq⟩
    · rintro ⟨x, hx, hp, hu, hq⟩
      rcases h.get hx with ⟨-, rfl⟩ | ⟨-, hold⟩
      · exact absurd hp h.left
      · exact ⟨x, hold, hp, hu, hq⟩

theorem Leaves.version_eq (h : Leaves c c' rid r r') (hc : RequestInv c) (rid' : String)
    (x : QuotaRequestRow) (hx : c'.get (.quotaRequest rid') = some x) :
    x.version = if x.status = .pending then 1 else 2 := by
  rcases h.get hx with ⟨-, rfl⟩ | ⟨-, hold⟩
  · rw [if_neg h.left, h.version, hc.version rid r h.old, if_pos h.pending]
    rfl
  · exact hc.version rid' x hold

theorem Leaves.approvedTotal (h : Leaves c c' rid r r') (u p : String) :
    approvedTotal c' u p = approvedTotal c u p + approvedDelta u p (.quotaRequest rid) r' := by
  have hset := total_set (approvedDelta u p) c (.quotaRequest rid) (some r')
  have hold : approvedDelta u p (.quotaRequest rid) r = 0 := if_neg fun hs => by
    have := h.pending.symm.trans hs.1
    cases this
  rw [h.old, weight_some, weight_some, hold, add_zero] at hset
  refine Eq.trans ?_ hset
  refine approvedTotal_congr (fun rid' => ?_) u p
  by_cases hid : rid' = rid
  · rw [hid, h.row, get_set_self]
  · rw [h.requests rid' hid, get_set_of_ne (by simpa using hid)]

/-- **A rejection or a cancellation keeps the invariant.** -/
theorem Leaves.inv (h : Leaves c c' rid r r') (hc : RequestInv c)
    (hq : ∀ k : Key, k.isQuota = true → c'.get k = c.get k) (hs : r'.status ≠ .approved) :
    RequestInv c' where
  index := h.index_iff hc
  version := h.version_eq hc
  approved rid' x hx happ := by
    rcases h.get hx with ⟨-, rfl⟩ | ⟨-, hold⟩
    · exact absurd happ hs
    · obtain ⟨id, q, hid, hget, hcredit⟩ := hc.approved rid' x hold happ
      exact ⟨id, q, hid, (hq (.quotaDebit id) rfl).trans hget, hcredit⟩
  credit id q hget := by
    obtain ⟨rid', x, hx, happ, hcredit⟩ := hc.credit id q (hq (.quotaDebit id) rfl ▸ hget)
    have hne : rid' ≠ rid := by
      rintro rfl
      cases h.old.symm.trans hx
      have := h.pending.symm.trans happ
      cases this
    exact ⟨rid', x, (h.requests rid' hne).trans hx, happ, hcredit⟩
  granted u p := by
    have hzero : approvedDelta u p (.quotaRequest rid) r' = 0 := if_neg fun hu => hs hu.1
    rw [h.approvedTotal, hzero, add_zero, ← hc.granted]
    unfold grantedOf
    rw [hq _ rfl]

/-- **An approval keeps the invariant**: it comes with the credit of the request. -/
theorem Leaves.approve {H : Key → Prop} {u : EntryIndex} {id : String} {q : QuotaDebitRow}
    (h : Leaves c c' rid r r') (hc : RequestInv c) (happ : Appends H c c' u id q)
    (hs : r'.status = .approved) (hid : r'.creditEntryId = some id) (hq : CreditOf rid r' q) :
    RequestInv c' where
  index := h.index_iff hc
  version := h.version_eq hc
  approved rid' x hx hsx := by
    rcases h.get hx with ⟨rfl, rfl⟩ | ⟨-, hold⟩
    · exact ⟨id, q, hid, happ.entry, hq⟩
    · obtain ⟨id', q', hid', hget, hcredit⟩ := hc.approved rid' x hold hsx
      exact ⟨id', q', hid', happ.old hget, hcredit⟩
  credit id' q' hget := by
    rcases happ.get hget with ⟨-, rfl⟩ | ⟨-, hold⟩
    · exact ⟨rid, r', h.row, hs, hq⟩
    · obtain ⟨rid', x, hx, hsx, hcredit⟩ := hc.credit id' q' hold
      have hne : rid' ≠ rid := by
        rintro rfl
        cases h.old.symm.trans hx
        have := h.pending.symm.trans hsx
        cases this
      exact ⟨rid', x, (h.requests rid' hne).trans hx, hsx, hcredit⟩
  granted u' p' := by
    rw [h.approvedTotal, ← hc.granted]
    by_cases hup : q.quotaSubjectUserId = u' ∧ q.quotaPeriod = p'
    · have hdelta : approvedDelta u' p' (.quotaRequest rid) r' = -q.pageDelta := by
        have hcond : r'.status = .approved ∧ r'.applicantUserId = u' ∧ r'.quotaPeriod = p' :=
          ⟨hs, hq.subject.symm.trans hup.1, hq.period.symm.trans hup.2⟩
        rw [approvedDelta, if_pos hcond, hq.pages]
        rfl
      have hgrant := happ.granted
      have hcredit : grantedDelta q.quotaSubjectUserId q.quotaPeriod (.quotaDebit id) q
          = q.pageDelta.natAbs := if_pos ⟨rfl, rfl, hq.kind⟩
      rw [hcredit, hup.1, hup.2] at hgrant
      rw [hgrant, hdelta]
      have := hq.positive
      omega
    · have hdelta : approvedDelta u' p' (.quotaRequest rid) r' = 0 := if_neg fun hu =>
        hup ⟨hq.subject.trans hu.2.1, hq.period.trans hu.2.2⟩
      rw [hdelta, add_zero]
      unfold grantedOf
      rw [happ.others _ rfl (by simp) (by simp) fun heq => hup ?_]
      simp only [Key.quotaProjection.injEq] at heq
      exact ⟨heq.1.symm, heq.2.symm⟩

end Leaves

/-! ### A request is created -/

/-- From `c` to `c'` a pending request is added. -/
structure Creates (c c' : Db) (rid : String) (r : QuotaRequestRow) : Prop where
  fresh : c.get (.quotaRequest rid) = none
  free : c.get (.quotaRequestPending r.applicantUserId r.quotaPeriod) = none
  row : c'.get (.quotaRequest rid) = some r
  pending : r.status = .pending
  version : r.version = 1
  index : c'.get (.quotaRequestPending r.applicantUserId r.quotaPeriod) = some rid
  requests : ∀ rid', rid' ≠ rid → c'.get (.quotaRequest rid') = c.get (.quotaRequest rid')
  pendings : ∀ u p, ¬ (u = r.applicantUserId ∧ p = r.quotaPeriod) →
    c'.get (.quotaRequestPending u p) = c.get (.quotaRequestPending u p)
  quota : ∀ k : Key, k.isQuota = true → c'.get k = c.get k

section Creates

variable {rid : String} {r : QuotaRequestRow}

theorem Creates.old (h : Creates c c' rid r) {rid' : String}
    (hx : c.get (.quotaRequest rid') = some x) : c'.get (.quotaRequest rid') = some x := by
  have hne : rid' ≠ rid := by
    rintro rfl
    rw [h.fresh] at hx
    cases hx
  rw [h.requests rid' hne, hx]

theorem Creates.get (h : Creates c c' rid r) {rid' : String}
    (hx : c'.get (.quotaRequest rid') = some x) :
    rid' = rid ∧ x = r ∨ c.get (.quotaRequest rid') = some x := by
  by_cases hid : rid' = rid
  · subst hid
    exact .inl ⟨rfl, some.inj (hx.symm.trans h.row)⟩
  · exact .inr ((h.requests rid' hid).symm.trans hx)

theorem Creates.moved (h : Creates c c' rid r) : Moved c c' :=
  fun _ x hx => ⟨x, h.old hx, .inl rfl⟩

/-- **A creation keeps the invariant.** -/
theorem Creates.inv (h : Creates c c' rid r) (hc : RequestInv c) : RequestInv c' where
  index u p rid' := by
    by_cases hup : u = r.applicantUserId ∧ p = r.quotaPeriod
    · obtain ⟨rfl, rfl⟩ := hup
      rw [h.index]
      constructor
      · intro heq
        cases heq
        exact ⟨r, h.row, h.pending, rfl, rfl⟩
      · rintro ⟨x, hx, hrest⟩
        rcases h.get hx with ⟨rfl, -⟩ | hold
        · rfl
        · have := (hc.index _ _ rid').mpr ⟨x, hold, hrest⟩
          rw [h.free] at this
          cases this
    · rw [h.pendings u p hup, hc.index]
      constructor
      · rintro ⟨x, hx, hrest⟩
        exact ⟨x, h.old hx, hrest⟩
      · rintro ⟨x, hx, hp, hu, hq⟩
        rcases h.get hx with ⟨-, rfl⟩ | hold
        · exact absurd ⟨hu.symm, hq.symm⟩ hup
        · exact ⟨x, hold, hp, hu, hq⟩
  version rid' x hx := by
    rcases h.get hx with ⟨-, rfl⟩ | hold
    · rw [h.version, if_pos h.pending]
    · exact hc.version rid' x hold
  approved rid' x hx hs := by
    rcases h.get hx with ⟨-, rfl⟩ | hold
    · have := h.pending.symm.trans hs
      cases this
    · obtain ⟨id, q, hid, hget, hcredit⟩ := hc.approved rid' x hold hs
      exact ⟨id, q, hid, (h.quota (.quotaDebit id) rfl).trans hget, hcredit⟩
  credit id q hget := by
    obtain ⟨rid', x, hx, hs, hcredit⟩ := hc.credit id q (h.quota (.quotaDebit id) rfl ▸ hget)
    exact ⟨rid', x, h.old hx, hs, hcredit⟩
  granted u p := by
    have hset := total_set_new (approvedDelta u p) (some r : Option (Row (.quotaRequest rid)))
      h.fresh
    have hzero : approvedDelta u p (.quotaRequest rid) r = 0 := if_neg fun hs => by
      have := h.pending.symm.trans hs.1
      cases this
    rw [weight_some, hzero, add_zero] at hset
    have htotal : approvedTotal c' u p = total (approvedDelta u p) (c.set (.quotaRequest rid)
        (some r)) := by
      refine approvedTotal_congr (fun rid' => ?_) u p
      by_cases hid : rid' = rid
      · rw [hid, h.row, get_set_self]
      · rw [h.requests rid' hid, get_set_of_ne (by simpa using hid)]
    rw [htotal, hset]
    refine Eq.trans ?_ (hc.granted u p)
    unfold grantedOf
    rw [h.quota _ rfl]

end Creates

end RagQs.Usage.Requests
