import RagQs.Usage.RequestInvariant

/-!
# The transactions on quota requests under interference

The rule of each statement of a creation, a review and a cancellation, and what a
transaction has to show when it commits.

## Main definitions

* `Clean`, `Draft` — what the pending writes have done to the requests so far.
* `Reserved`, `Answered` — the idempotency key the transaction holds.

## Main results

* `wp_reserveIdempotency_bind`, `wp_commitIdempotency_bind` — the rules of a key.
* `wp_cancelTransition_bind`, `wp_cancelEach_bind` — the rules of the cancellations.
* `wp_create_bind`, `wp_review_bind` — the rules of the idempotent transactions.
-/

namespace RagQs.Usage.Requests

open Txn Txn.Discipline Store List Option AList

variable {now : Time} {rid : String} {r' : QuotaRequestRow} {r : Review}
variable {p : IdempotencyRow → Prop} {row : QuotaRequestRow} {a : ReviewArgs}

section Rules

variable {α : Type} {env : Env} {A : Tx α → Db → Prop} {Q : α → Assn Row} {E : Err → Assn Row}
  {c c' d d' : Db} {H H' : Key → Prop} {scope key hash : String} {result : Response}

/-! ### The pending writes -/

/-- The pending writes are none of the requests and of the quota ledger. -/
def Clean (d : Db) : Prop :=
  ∀ k : Key, isRequest k = true → ∀ s : Db, (d ∪ s : Db).get k = s.get k

theorem clean_empty : Clean ∅ := fun _ _ _ => by rw [empty_union]

theorem isRequest_of_isQuota {k : Key} (h : k.isQuota = true) : isRequest k = true := by
  cases k <;> first | rfl | exact h

theorem Clean.quotaFree (h : Clean d) : QuotaFree d :=
  fun k hk => h k (isRequest_of_isQuota hk)

/-- The pending writes keep the invariant of the requests and of the quota ledger, whatever
the others do until the transaction commits. -/
def Draft (c d : Db) (H : Key → Prop) : Prop :=
  ∀ c', requestDiscipline.Rely H c c' → QuotaInv (d ∪ c') ∧ QuotaGuar H c' (d ∪ c') ∧
    RequestInv (d ∪ c') ∧ Moved c' (d ∪ c')

theorem Draft.rely (h : Draft c d H) (hr : requestDiscipline.Rely H c c') : Draft c' d H :=
  fun _ hr' => h _ (hr.trans hr')

theorem Clean.draft (h : Clean d) : Draft c d H := by
  intro c' hr
  have hsame : SameLedger c' (d ∪ c') :=
    .of_quota fun k hk => h k (isRequest_of_isQuota hk) c'
  refine ⟨hsame.inv hr.inv.1, hsame.guar H, hr.inv.2.1.congr fun k hk => h k hk c', ?_⟩
  exact fun rid r hget => ⟨r, (h (.quotaRequest rid) rfl c').trans hget, .inl rfl⟩

theorem Draft.frame (h : Draft c d H) (hr : requestDiscipline.Rely H c c') (hH : ∀ k, H k → H' k)
    (hd : ∀ k : Key, isRequest k = true → ∀ s : Db, (d' ∪ s : Db).get k = (d ∪ s : Db).get k) :
    Draft c' d' H' := by
  intro c'' hr'
  obtain ⟨hinv, hguar, hreq, hmoved⟩ := h c'' (hr.trans (hr'.mono hH))
  have hsame : SameLedger (d ∪ c'') (d' ∪ c'') :=
    .of_quota fun k hk => hd k (isRequest_of_isQuota hk) c''
  refine ⟨hsame.inv hinv, (hguar.mono hH).trans (hsame.guar H'),
    hreq.congr fun k hk => hd k hk c'', fun rid r hget => ?_⟩
  rw [hd (.quotaRequest rid) rfl]
  exact hmoved rid r hget

/-- The idempotency keys are the same in both views. -/
def SameKeys (d d' : Db) : Prop :=
  ∀ scope key, ∀ s : Db, (d' ∪ s : Db).get (.idempotency scope key)
    = (d ∪ s : Db).get (.idempotency scope key)

theorem SameKeys.refl (d : Db) : SameKeys d d := fun _ _ _ => rfl

theorem SameKeys.trans {d'' : Db} (h : SameKeys d d') (h' : SameKeys d' d'') : SameKeys d d'' :=
  fun scope key s => (h' scope key s).trans (h scope key s)

/-- The transaction holds the idempotency key, which is new, with a row that meets `p`; it
has written no other key. -/
structure HoldsKey (scope key : String) (p : IdempotencyRow → Prop) (c d : Db) (H : Key → Prop) :
    Prop where
  locked : H (.idempotency scope key)
  fresh : c.get (.idempotency scope key) = none
  row : ∃ row, p row ∧ ∀ s : Db, (d ∪ s : Db).get (.idempotency scope key) = some row
  others : ∀ scope' key', ¬ (scope' = scope ∧ key' = key) → ∀ s : Db,
    (d ∪ s : Db).get (.idempotency scope' key') = s.get (.idempotency scope' key')

theorem HoldsKey.later (h : HoldsKey scope key p c d H) (hr : requestDiscipline.Rely H c c')
    (hH : ∀ k, H k → H' k) (hd : SameKeys d d') : HoldsKey scope key p c' d' H' := by
  obtain ⟨row, hp, hrow⟩ := h.row
  exact ⟨hH _ h.locked, (hr.rows _ h.locked).trans h.fresh,
    ⟨row, hp, fun s => (hd _ _ s).trans (hrow s)⟩,
    fun scope' key' hne s => (hd _ _ s).trans (h.others scope' key' hne s)⟩

/-- The key is reserved for a request with the hash. -/
def Reserved (scope key hash : String) : Db → Db → (Key → Prop) → Prop :=
  HoldsKey scope key fun row => row.requestHash = hash ∧ row.status = .reserved

/-- The row answers the request with the hash. -/
def IsAnswer (hash : String) (result : Response) (row : IdempotencyRow) : Prop :=
  row.requestHash = hash ∧ row.status = .completed ∧ row.responseJson = some result

/-- The response is stored under the key. -/
def Answered (scope key hash : String) (result : Response) : Db → Db → (Key → Prop) → Prop :=
  HoldsKey scope key (IsAnswer hash result)

/-- A stored response of the request. -/
def Stored (c : Db) (scope key hash : String) (result : Response) : Prop :=
  ∃ row : IdempotencyRow, c.get (.idempotency scope key) = some row ∧ IsAnswer hash result row

/-- **What a commit of a transaction with a key owes.** -/
theorem Draft.commit (h : Draft c d H) (hk : Answered scope key hash result c d H)
    (hc : requestDiscipline.Inv c) : requestDiscipline.Inv (d ∪ c) ∧
      requestDiscipline.guar H c (d ∪ c) ∧ Stored (d ∪ c) scope key hash result := by
  obtain ⟨hinv, hguar, hreq, hmoved⟩ := h c (.refl hc)
  obtain ⟨row, hans, hrow⟩ := hk.row
  refine ⟨⟨hinv, hreq, fun scope' key' row' hget => ?_⟩, ⟨hguar, hmoved, ?_⟩,
    row, hrow c, hans⟩
  · by_cases heq : scope' = scope ∧ key' = key
    · obtain ⟨rfl, rfl⟩ := heq
      cases (hrow c).symm.trans hget
      exact hans.2.1
    · rw [hk.others _ _ heq] at hget
      exact hc.2.2 _ _ _ hget
  · intro scope' key' row' hget
    by_cases heq : scope' = scope ∧ key' = key
    · obtain ⟨rfl, rfl⟩ := heq
      rw [hk.fresh] at hget
      cases hget
    · rw [hk.others _ _ heq, hget]

theorem Draft.commit_keyless (h : Draft c d H) (hd : SameKeys ∅ d)
    (hc : requestDiscipline.Inv c) :
    requestDiscipline.Inv (d ∪ c) ∧ requestDiscipline.guar H c (d ∪ c) := by
  obtain ⟨hinv, hguar, hreq, hmoved⟩ := h c (.refl hc)
  have hkeys : ∀ scope key, (d ∪ c : Db).get (.idempotency scope key)
      = c.get (.idempotency scope key) := fun scope key => by
    rw [hd, empty_union]
  refine ⟨⟨hinv, hreq, fun scope key row hget => ?_⟩, hguar, hmoved, fun scope key row hget => ?_⟩
  · rw [hkeys] at hget
    exact hc.2.2 _ _ _ hget
  · rw [hkeys, hget]

/-! ### The calendar -/

/-- The rule of `lock_or_verify`: only the row of the calendar may have been written. -/
theorem wp_lockCalendar_bind {token : String} {f : CalendarLock → Tx α}
    (h : ∀ c' d' H' lock, requestDiscipline.Rely H c c' → (∀ k, H k → H' k) →
      (∀ k, k ≠ .calendar → ∀ s : Db, (d' ∪ s : Db).get k = (d ∪ s : Db).get k) →
      requestDiscipline.wp A (f lock) Q E c' d' H')
    (hE : ∀ e c', requestDiscipline.Rely H c c' → E e c' d H) :
    requestDiscipline.wp A (lockOrVerify env now token >>= f) Q E c d H := by
  have hread : ∀ {c₁} {g : Option CalendarLock → Tx α},
      (∀ c₂ o, requestDiscipline.Rely H c₁ c₂ → requestDiscipline.wp A (g o) Q E c₂ d H) →
      (∀ e c₂, requestDiscipline.Rely H c₁ c₂ → E e c₂ d H) →
      requestDiscipline.wp A (readExistingLock env >>= g) Q E c₁ d H := by
    intro c₁ g hg herr
    unfold readExistingLock
    rw [Prog.bind_assoc]
    refine wp_readRow_bind fun c₂ hr₂ => ?_
    cases ((d ∪ c₂ : Db).get .calendar : Option CalendarRow) with
    | none => exact hg c₂ none hr₂
    | some r =>
      simp only [Prog.bind_assoc]
      exact wp_raiseIf_bind (fun _ => hg c₂ _ hr₂) fun _ c₃ hr₃ => herr _ c₃ (hr₂.trans hr₃)
  unfold lockOrVerify
  rw [Prog.bind_assoc]
  refine hread (fun c₁ o hr₁ => ?_) hE
  cases o with
  | some lock => exact h c₁ d H lock hr₁ (fun _ hk => hk) fun _ _ _ => rfl
  | none =>
    simp only [Prog.bind_assoc]
    refine wp_insertOrSkip_bind (fun c₂ hr₂ _ => ?_)
      (fun _ c₃ hr₂ _ hr₃ => hE _ c₃ ((hr₁.trans hr₂).trans hr₃)) fun c₂ hr₂ _ _ => ?_
    · simp only [if_neg Bool.false_ne_true, Prog.bind_assoc]
      have hr : ∀ {c₃}, requestDiscipline.Rely H c₂ c₃ → requestDiscipline.Rely H c c₃ :=
        fun hr₃ => (hr₁.trans hr₂).trans hr₃
      refine hread (fun c₃ o hr₃ => ?_) fun e c₃ hr₃ => hE e c₃ (hr hr₃)
      refine wp_orRaise_bind (fun lock _ => ?_) fun _ c₄ hr₄ => hE _ c₄ (hr (hr₃.trans hr₄))
      exact h c₃ d H lock (hr hr₃) (fun _ hk => hk) fun _ _ _ => rfl
    · refine h c₂ _ _ _ (hr₁.trans hr₂) (fun k hk => .inl hk) fun k hk s => ?_
      rw [applyAll_union, applyAll_cons, applyAll_nil, get_set_of_ne hk]

/-! ### Idempotency keys -/

/-- No response of the request is stored. -/
def Unanswered (c : Db) (scope key hash : String) : Prop :=
  ∀ result, ¬ Stored c scope key hash result

theorem HoldsKey.unanswered (h : HoldsKey scope key p c d H) (hr : requestDiscipline.Rely H c c') :
    Unanswered c' scope key hash := by
  rintro result ⟨row, hget, -⟩
  rw [hr.rows _ h.locked, h.fresh] at hget
  cases hget

/-- The rule of `reserve_idempotency`. -/
theorem wp_reserveIdempotency_bind {f : Option Response → Tx α}
    (hnew : ∀ c' d' H', requestDiscipline.Rely H c c' → (∀ k, H k → H' k) → Clean d' →
      Reserved scope key hash c' d' H' → requestDiscipline.wp A (f none) Q E c' d' H')
    (hold : ∀ c' result, requestDiscipline.Rely H c c' → Stored c' scope key hash result →
      requestDiscipline.wp A (f (some result)) Q E c' ∅ H)
    (hE : ∀ e c', requestDiscipline.Rely H c c' → Unanswered c' scope key hash → E e c' ∅ H) :
    requestDiscipline.wp A (reserveIdempotency scope key hash now >>= f) Q E c ∅ H := by
  unfold reserveIdempotency
  simp only [Prog.bind_assoc]
  refine wp_insertOrSkip_bind (fun c₁ hr₁ hsome => ?_) (fun _ _ _ ht => by cases ht)
    fun c₁ hr₁ hfree _ => ?_
  · -- the row is there for good: committed keys never change
    rw [empty_union] at hsome
    obtain ⟨row, hrow⟩ := isSome_iff_exists.mp hsome
    have hkept : ∀ {c₂}, requestDiscipline.Rely H c₁ c₂ →
        c₂.get (.idempotency scope key) = some row := fun hr => hr.guar.2.idempotency _ _ _ hrow
    have hun : ∀ {c₂}, requestDiscipline.Rely H c₁ c₂ →
        (∀ result, ¬ IsAnswer hash result row) → Unanswered c₂ scope key hash := by
      rintro c₂ hr hno result ⟨row', hget, hans⟩
      cases (hkept hr).symm.trans hget
      exact hno result hans
    simp only [if_neg Bool.false_ne_true, Prog.bind_assoc]
    refine wp_readRow_bind fun c₂ hr₂ => ?_
    rw [empty_union, hkept hr₂]
    refine wp_orRaise_bind (fun r hr => ?_) (by simp)
    cases hr
    refine wp_raiseIf_bind (fun hhash => ?_) fun hne c₃ hr₃ =>
      hE _ c₃ ((hr₁.trans hr₂).trans hr₃) (hun (hr₂.trans hr₃) fun _ hans => hne hans.1)
    have hdone := hr₂.inv.2.2 _ _ _ (hkept hr₂)
    rw [hdone]
    simp only [Prog.bind_assoc]
    refine wp_orRaise_bind (fun result hres => ?_) fun hnone c₃ hr₃ =>
      hE _ c₃ ((hr₁.trans hr₂).trans hr₃) (hun (hr₂.trans hr₃) fun _ hans => ?_)
    · exact hold c₂ result (hr₁.trans hr₂)
        ⟨row, hkept hr₂, not_not.mp hhash, hdone, hres⟩
    · have := hnone.symm.trans hans.2.2
      cases this
  · rw [empty_union] at hfree
    simp only [if_true]
    refine hnew c₁ _ _ hr₁ (fun k hk => .inl hk) (fun k hk s => ?_) ⟨.inr (by simp), hfree, ?_, ?_⟩
    · have hne : k ≠ .idempotency scope key := by
        rintro rfl
        cases hk
      rw [applyAll_union, applyAll_cons, applyAll_nil, get_set_of_ne hne, empty_union]
    · exact ⟨_, ⟨rfl, rfl⟩, fun s => by
        rw [applyAll_union, applyAll_cons, applyAll_nil, get_set_self]⟩
    · intro scope' key' hne s
      rw [applyAll_union, applyAll_cons, applyAll_nil, get_set_of_ne (by simpa using hne),
        empty_union]

/-- The rule of `commit_idempotency`: the key is still reserved. -/
theorem wp_commitIdempotency_bind {f : Unit → Tx α} (hk : Reserved scope key hash c d H)
    (hd : Draft c d H) (h : ∀ c' d' H', requestDiscipline.Rely H c c' → Draft c' d' H' →
      Answered scope key hash result c' d' H' → requestDiscipline.wp A (f ()) Q E c' d' H') :
    requestDiscipline.wp A (commitIdempotency scope key hash result now >>= f) Q E c d H := by
  unfold commitIdempotency
  simp only [Prog.bind_assoc]
  obtain ⟨row, ⟨hhash, hstatus⟩, hrow⟩ := hk.row
  refine wp_updateWhere_bind (fun c₁ hr₁ hmiss => ?_)
    fun c₁ (r : IdempotencyRow) hr₁ hget hcond => ?_
  · have := hmiss row (hrow c₁)
    simp [hhash, hstatus] at this
  · cases (hrow c₁).symm.trans hget
    refine wp_raiseIf_bind (fun _ => ?_) fun hne => absurd rfl hne
    have hk₁ := hk.later hr₁ (fun _ hk => hk) (.refl d)
    refine h c₁ _ _ hr₁ (hd.frame hr₁ (fun k hk => .inl hk) fun k hk s => ?_)
      ⟨.inl hk₁.locked, hk₁.fresh,
      ⟨{ row with
          status := .completed
          responseJson := some result
          completedAtUtc := some now }, ⟨hhash, rfl, rfl⟩, fun s => ?_⟩, fun scope' key' hne s => ?_⟩
    · have hne : k ≠ .idempotency scope key := by
        rintro rfl
        cases hk
      rw [set_union, get_set_of_ne hne]
    · rw [set_union, get_set_self]
    · rw [set_union, get_set_of_ne (by simpa using hne), hk.others scope' key' hne]

/-! ### Statements on requests -/

/-- From the first view to the second one the request has left the status pending as the
row `r'`; nothing else differs. -/
structure LeftAs (rid : String) (r r' : QuotaRequestRow) (d d' : Db) : Prop where
  row : ∀ s : Db, (d' ∪ s : Db).get (.quotaRequest rid) = some r'
  index : ∀ s : Db,
    (d' ∪ s : Db).get (.quotaRequestPending r.applicantUserId r.quotaPeriod) = none
  others : ∀ k, k ≠ .quotaRequest rid →
    k ≠ .quotaRequestPending r.applicantUserId r.quotaPeriod →
    ∀ s : Db, (d' ∪ s : Db).get k = (d ∪ s : Db).get k

theorem LeftAs.sameKeys {r : QuotaRequestRow} (h : LeftAs rid r r' d d') :
    SameKeys d d' := fun _ _ s => h.others _ (by simp) (by simp) s

theorem LeftAs.leaves {r : QuotaRequestRow} (h : LeftAs rid r r' d d') {s v : Db}
    (hold : v.get (.quotaRequest rid) = some r) (hp : r.status = .pending)
    (hl : r'.status ≠ .pending) (hv : r'.version = r.version + 1)
    (hf : r'.toQuotaRequestFacts = r.toQuotaRequestFacts)
    (hview : ∀ k : Key, isRequest k = true → k.isQuota = false → (d ∪ s : Db).get k = v.get k) :
    Leaves v (d' ∪ s) rid r r' where
  old := hold
  pending := hp
  row := h.row s
  left := hl
  version := hv
  facts := hf
  index := h.index s
  requests rid' hne := by
    rw [h.others _ (by simpa using hne) (by simp), hview _ rfl rfl]
  pendings u p hne := by
    rw [h.others _ (by simp) (by simpa using hne), hview _ rfl rfl]

variable {f : ℕ → Tx α}

theorem wp_updateRequest_bind {cond : QuotaRequestRow → Bool}
    {g : QuotaRequestRow → QuotaRequestRow} (hmiss : ∀ c', requestDiscipline.Rely H c c' →
      (∀ r : QuotaRequestRow, (d ∪ c' : Db).get (.quotaRequest rid) = some r → cond r = false) →
      requestDiscipline.wp A (f 0) Q E c' d H)
    (hleft : ∀ c' (r : QuotaRequestRow), requestDiscipline.Rely H c c' →
      (d ∪ c' : Db).get (.quotaRequest rid) = some r → cond r = true →
      r.status = .pending ∧ (g r).status ≠ .pending)
    (hhit : ∀ c' d' H' r, requestDiscipline.Rely H c c' → (∀ k, H k → H' k) →
      H' (.quotaRequest rid) → H' (.quotaRequestPending r.applicantUserId r.quotaPeriod) →
      (d ∪ c' : Db).get (.quotaRequest rid) = some r → cond r = true →
      LeftAs rid r (g r) d d' → requestDiscipline.wp A (f 1) Q E c' d' H') :
    requestDiscipline.wp A (updateRequest rid cond g >>= f) Q E c d H := by
  refine wp_statement_bind fun c₁ hr₁ => ?_
  cases hv : matching rid cond (d ∪ c₁) with
  | none =>
    rw [grow_nil rfl (by rw [hv]; rfl)]
    exact hmiss c₁ hr₁ fun r hget => by simpa [matching, hget] using hv
  | some r =>
    obtain ⟨hget, hcond⟩ := filter_eq_some_iff.mp hv
    obtain ⟨hp, hl⟩ := hleft c₁ r hr₁ hget hcond
    have hw : updateWrites rid g (some r) = [⟨.quotaRequest rid, some (g r)⟩,
        ⟨.quotaRequestPending r.applicantUserId r.quotaPeriod, none⟩] := by
      rw [updateWrites, if_pos ⟨hp, hl⟩]
    refine hhit c₁ _ _ r hr₁ (fun k hk => .inl hk) (.inr ?_) (.inr ?_) hget hcond ⟨fun s => ?_,
      fun s => ?_, fun k hk hk' s => ?_⟩
    · simp [needed, hv, hw]
    · simp [needed, hv, hw]
    · rw [hw, applyAll_union, applyAll_cons, applyAll_cons, applyAll_nil,
        get_set_of_ne (by simp), get_set_self]
    · rw [hw, applyAll_union, applyAll_cons, applyAll_cons, applyAll_nil, get_set_self]
    · rw [hw, applyAll_union, applyAll_cons, applyAll_cons, applyAll_nil, get_set_of_ne hk',
        get_set_of_ne hk]

theorem LeftAs.draft {r : QuotaRequestRow} (h : LeftAs rid r r' d d') (hd : Draft c d H)
    (hH : ∀ k, H k → H' k) (hlock : H' (.quotaRequest rid))
    (hold : (d ∪ c : Db).get (.quotaRequest rid) = some r) (hp : r.status = .pending)
    (hl : r'.status ≠ .pending) (hs : r'.status ≠ .approved) (hv : r'.version = r.version + 1)
    (hf : r'.toQuotaRequestFacts = r.toQuotaRequestFacts) : Draft c d' H' := by
  intro c' hr
  obtain ⟨hinv, hguar, hreq, hmoved⟩ := hd c' (hr.mono hH)
  have hleaves : Leaves (d ∪ c') (d' ∪ c') rid r r' :=
    h.leaves ((hr.view d hlock).trans hold) hp hl hv hf fun _ _ _ => rfl
  have hquota : ∀ k : Key, k.isQuota = true → (d' ∪ c' : Db).get k = (d ∪ c' : Db).get k := by
    intro k hk
    refine h.others k ?_ ?_ c' <;> rintro rfl <;> cases hk
  have hsame := SameLedger.of_quota hquota
  exact ⟨hsame.inv hinv, (hguar.mono hH).trans (hsame.guar H'), hleaves.inv hreq hquota hs,
    hmoved.trans hleaves.moved⟩

/-! ### The cancellations -/

/-- **The rule of `_cancel_transition`.** -/
theorem wp_cancelTransition_bind {reason : String} (hd : Draft c d H)
    (h : ∀ n c' d' H', requestDiscipline.Rely H c c' → (∀ k, H k → H' k) → Draft c' d' H' →
      SameKeys d d' → requestDiscipline.wp A (f n) Q E c' d' H') :
    requestDiscipline.wp A (cancelTransition rid reason now >>= f) Q E c d H := by
  unfold cancelTransition
  refine wp_updateRequest_bind (fun c₁ hr₁ _ => ?_) (fun _ r _ _ hcond => ?_)
    fun c₁ d₁ H₁ r hr₁ hH hlock _ hget hcond hleft => ?_
  · exact h 0 c₁ d H hr₁ (fun _ hk => hk) (hd.rely hr₁) (.refl d)
  · exact ⟨of_decide_eq_true hcond, nofun⟩
  · refine h 1 c₁ d₁ H₁ hr₁ hH ?_ hleft.sameKeys
    exact hleft.draft (hd.rely hr₁) hH hlock hget (of_decide_eq_true hcond) nofun nofun rfl rfl

/-- **The rule of the bulk cancellations.** -/
theorem wp_cancelEach_bind {reason : String} {ids : List String} (hd : Draft c d H)
    (hc : requestDiscipline.Inv c)
    (h : ∀ n c' d' H', requestDiscipline.Rely H c c' → (∀ k, H k → H' k) → Draft c' d' H' →
      SameKeys d d' → requestDiscipline.wp A (f n) Q E c' d' H') :
    requestDiscipline.wp A (cancelEach reason now ids >>= f) Q E c d H := by
  induction ids generalizing c d H f with
  | nil => exact h 0 c d H (.refl hc) (fun _ hk => hk) hd (.refl d)
  | cons id ids ih =>
    unfold cancelEach
    simp only [Prog.bind_assoc]
    refine wp_cancelTransition_bind hd fun n c₁ d₁ H₁ hr₁ hH₁ hd₁ hsame₁ => ?_
    refine ih hd₁ hr₁.inv fun m c₂ d₂ H₂ hr₂ hH₂ hd₂ hsame₂ => ?_
    exact h (n + m) c₂ d₂ H₂ (hr₁.trans (hr₂.mono hH₁)) (fun k hk => hH₂ k (hH₁ k hk)) hd₂
      (hsame₁.trans hsame₂)

theorem wp_cancelCandidates_bind {period : String} {rows : List (String × QuotaRequestRow)}
    {f : List (String × String) → Tx α} (hc : requestDiscipline.Inv c)
    (h : ∀ l c', requestDiscipline.Rely H c c' → requestDiscipline.wp A (f l) Q E c' d H) :
    requestDiscipline.wp A (cancelCandidates period rows >>= f) Q E c d H := by
  induction rows generalizing c f with
  | nil => exact h [] c (.refl hc)
  | cons e rows ih =>
    obtain ⟨id, row⟩ := e
    unfold cancelCandidates
    by_cases hlt : row.quotaPeriod < period
    · rw [if_pos hlt]
      simp only [Prog.bind_assoc]
      exact ih hc fun l c₁ hr₁ => h _ c₁ hr₁
    · rw [if_neg hlt]
      simp only [Prog.bind_assoc]
      refine wp_readRow_bind fun c₁ hr₁ => ?_
      refine ih hr₁.inv fun l c₂ hr₂ => ?_
      split
      · exact h _ c₂ (hr₁.trans hr₂)
      · exact h _ c₂ (hr₁.trans hr₂)

/-! ### Creations -/

theorem wp_insertRequest_bind {e : Err} {f : Unit → Tx α} (hd : Clean d)
    (hp : row.status = .pending) (hv : row.version = 1)
    (hE : ∀ c', requestDiscipline.Rely H c c' → E e c' d H)
    (h : ∀ c' d' H', requestDiscipline.Rely H c c' → (∀ k, H k → H' k) → Draft c' d' H' →
      SameKeys d d' → requestDiscipline.wp A (f ()) Q E c' d' H') :
    requestDiscipline.wp A (insert e
      [.quotaRequest rid, .quotaRequestPending row.applicantUserId row.quotaPeriod]
      (newRequestWrites rid row) >>= f) Q E c d H := by
  refine wp_insert_bind hE fun c₁ hr₁ htaken => ?_
  simp only [taken, any_cons, any_nil, Bool.or_false, Bool.or_eq_false_iff,
    isSome_eq_false_iff, isNone_iff_eq_none] at htaken
  rw [hd _ rfl, hd _ rfl] at htaken
  have hget : ∀ k : Key, k ≠ .quotaRequest rid →
      k ≠ .quotaRequestPending row.applicantUserId row.quotaPeriod → ∀ s : Db,
      (d.applyAll (newRequestWrites rid row) ∪ s : Db).get k = (d ∪ s : Db).get k := by
    intro k hk hk' s
    rw [applyAll_union, newRequestWrites, applyAll_cons, applyAll_cons, applyAll_nil,
      get_set_of_ne hk', get_set_of_ne hk]
  refine h c₁ _ _ hr₁ (fun k hk => .inl hk) (fun c₂ hr₂ => ?_)
    fun _ _ s => hget _ (by simp) (by simp) s
  have hquota : ∀ k : Key, k.isQuota = true →
      (d.applyAll (newRequestWrites rid row) ∪ c₂ : Db).get k = c₂.get k := by
    intro k hk
    rw [hget k (by rintro rfl; cases hk) (by rintro rfl; cases hk),
      hd k (isRequest_of_isQuota hk)]
  have hcreates : Creates c₂ (d.applyAll (newRequestWrites rid row) ∪ c₂) rid row := by
    refine ⟨?_, ?_, ?_, hp, hv, ?_, fun rid' hne => ?_, fun u p hne => ?_, hquota⟩
    · exact (hr₂.rows _ (.inr (by simp [newRequestWrites]))).trans htaken.1
    · exact (hr₂.rows _ (.inr (by simp [newRequestWrites]))).trans htaken.2
    · rw [applyAll_union, newRequestWrites, applyAll_cons, applyAll_cons, applyAll_nil,
        get_set_of_ne (by simp), get_set_self]
    · rw [applyAll_union, newRequestWrites, applyAll_cons, applyAll_cons, applyAll_nil,
        get_set_self]
    · rw [hget _ (by simpa using hne) (by simp), hd _ rfl]
    · rw [hget _ (by simp) (by simpa using hne), hd _ rfl]
  have hsame := SameLedger.of_quota hquota
  exact ⟨hsame.inv hr₂.inv.1, hsame.guar _, hcreates.inv hr₂.inv.2.1, hcreates.moved⟩

theorem Clean.calendar (h : Clean d)
    (hcal : ∀ k, k ≠ .calendar → ∀ s : Db, (d' ∪ s : Db).get k = (d ∪ s : Db).get k) :
    Clean d' := fun k hk s => by
  have hne : k ≠ .calendar := by
    rintro rfl
    cases hk
  rw [hcal k hne, h k hk]

/-- The rule of `create`, once its arguments have been checked. -/
theorem wp_create_bind {a : CreateArgs} {f : Response → Tx α}
    (hv : ∀ e, validateCreate a = .error e → ∀ c', requestDiscipline.Rely H c c' → E e c' ∅ H)
    (hnew : ∀ key pages c' d' H' result, validateCreate a = .ok (key, pages) →
      requestDiscipline.Rely H c c' → Draft c' d' H' →
      Answered (createScope a.actor) key (requestHash env a.actor pages) result c' d' H' →
      requestDiscipline.wp A (f result) Q E c' d' H')
    (hold : ∀ key pages c' result, validateCreate a = .ok (key, pages) →
      requestDiscipline.Rely H c c' →
      Stored c' (createScope a.actor) key (requestHash env a.actor pages) result →
      requestDiscipline.wp A (f result) Q E c' ∅ H)
    (hE : ∀ key pages e c' d' H', validateCreate a = .ok (key, pages) →
      requestDiscipline.Rely H c c' →
      Unanswered c' (createScope a.actor) key (requestHash env a.actor pages) → E e c' d' H') :
    requestDiscipline.wp A (create env a >>= f) Q E c ∅ H := by
  unfold create
  simp only [Prog.bind_assoc]
  refine wp_check_bind (fun x hx => ?_) hv
  obtain ⟨key, pages⟩ := x
  refine wp_reserveIdempotency_bind (fun c₁ d₁ H₁ hr₁ hH₁ hclean hres => ?_)
    (fun c₁ result hr₁ hs => hold key pages c₁ result hx hr₁ hs)
    fun e c₁ hr₁ hun => hE key pages e c₁ ∅ H hx hr₁ hun
  -- from here on an error finds the key new
  have hE₁ : ∀ {e c' d' H'}, requestDiscipline.Rely H₁ c₁ c' → E e c' d' H' := fun hr =>
    hE key pages _ _ _ _ hx (hr₁.trans (hr.mono hH₁)) (hres.unanswered hr)
  simp only [Prog.bind_assoc]
  refine wp_lockCalendar_bind (fun c₂ d₂ H₂ lock hr₂ hH₂ hcal => ?_) fun e c₂ hr₂ => hE₁ hr₂
  have hres₂ : Reserved _ _ _ c₂ d₂ H₂ := hres.later hr₂ hH₂ fun _ _ s => hcal _ (by simp) s
  refine wp_insertRequest_bind (hclean.calendar hcal) rfl rfl
    (fun c₃ hr₃ => hE₁ (hr₂.trans (hr₃.mono hH₂))) fun c₃ d₃ H₃ hr₃ hH₃ hd₃ hsame₃ => ?_
  refine wp_commitIdempotency_bind (hres₂.later hr₃ hH₃ hsame₃) hd₃ fun c₄ d₄ H₄ hr₄ hd₄ hans => ?_
  exact hnew key pages c₄ d₄ H₄ _ hx
    (hr₁.trans ((hr₂.trans ((hr₃.trans (hr₄.mono hH₃)).mono hH₂)).mono hH₁)) hd₄ hans

/-! ### Reviews -/

theorem validateReview_ok {action : String} {pages : Val}
    (h : validateReview action a pages = .ok r) : strip r.requestId = r.requestId := by
  unfold validateReview at h
  obtain ⟨_, _, h⟩ := exists_of_bind_ok h
  obtain ⟨rid, hrid, h⟩ := exists_of_bind_ok h
  obtain ⟨_, _, h⟩ := exists_of_bind_ok h
  obtain ⟨_, _, h⟩ := exists_of_bind_ok h
  obtain ⟨_, _, h⟩ := exists_of_bind_ok h
  cases h
  rw [requireText_ok hrid, strip_strip]

/-- The rule of `_require_approvable`: the request is locked and pending. -/
theorem wp_requireApprovable_bind {t : Readings}
    {f : QuotaRequestRow × CalendarLock × Option String → Tx α} (hd : Clean d)
    (hE : ∀ e c' H', requestDiscipline.Rely H c c' → E e c' d H')
    (h : ∀ c' d' H' row lock reason, requestDiscipline.Rely H c c' → (∀ k, H k → H' k) →
      Clean d' → SameKeys d d' → H' (.quotaRequest r.requestId) →
      c'.get (.quotaRequest r.requestId) = some row → row.status = .pending →
      (reason = none → env.periodFor lock.timezone t.now = row.quotaPeriod) →
      requestDiscipline.wp A (f (row, lock, reason)) Q E c' d' H') :
    requestDiscipline.wp A (requireApprovable env r t >>= f) Q E c d H := by
  unfold requireApprovable
  simp only [Prog.bind_assoc]
  refine wp_check_bind (fun _ _ => ?_) fun e _ c₁ hr₁ => hE e c₁ H hr₁
  refine wp_lockRow_bind (fun c₁ hr₁ _ => ?_) fun c₁ (row : QuotaRequestRow) hr₁ hget => ?_
  · exact fun c₂ hr₂ => hE _ c₂ H (hr₁.trans hr₂)
  have hr : ∀ {c₂}, requestDiscipline.Rely (fun k => H k ∨ k = .quotaRequest r.requestId) c₁ c₂ →
      requestDiscipline.Rely H c c₂ := fun hr₂ => hr₁.trans (hr₂.mono fun _ hk => .inl hk)
  rw [hd _ rfl] at hget
  refine wp_orRaise_bind (fun row' hrow => ?_) (by simp)
  cases hrow
  refine wp_raiseIf_bind (fun hp => ?_) fun _ c₂ hr₂ => hE _ c₂ _ (hr hr₂)
  refine wp_raiseIf_bind (fun _ => ?_) fun _ c₂ hr₂ => hE _ c₂ _ (hr hr₂)
  refine wp_lockCalendar_bind (fun c₂ d₂ H₂ lock hr₂ hH₂ hcal => ?_) fun e c₂ hr₂ =>
    hE e c₂ _ (hr hr₂)
  refine wp_readRow_bind fun c₃ hr₃ => ?_
  have hend : ∀ reason, (reason = none → env.periodFor lock.timezone t.now = row.quotaPeriod) →
      requestDiscipline.wp A (f (row, lock, reason)) Q E c₃ d₂ H₂ := fun reason hreason => by
    refine h c₃ d₂ H₂ row lock reason (hr (hr₂.trans (hr₃.mono hH₂))) (fun k hk => hH₂ k (.inl hk))
      (hd.calendar hcal) (fun _ _ s => hcal _ (by simp) s) (hH₂ _ (.inr rfl)) ?_ (not_not.mp hp)
      hreason
    rw [hr₃.rows _ (hH₂ _ (.inr rfl)), hr₂.rows _ (.inr rfl), hget]
  split
  · exact hend _ (by simp)
  · split
    · exact hend _ (by simp)
    · next hperiod => exact hend none fun _ => not_not.mp hperiod

/-- What a decision has to do for its review: end with a draft and a response that is
replayed as it is. -/
def Decides (env : Env) (A : Tx α → Db → Prop) (Q : α → Assn Row) (E : Err → Assn Row)
    (r : Review) (t : Readings) (decide : QuotaRequestRow → CalendarLock → Tx Response) : Prop :=
  ∀ (c d : Db) (H : Key → Prop) (row : QuotaRequestRow) (lock : CalendarLock)
    (k : Response → Tx α), Clean d → H (.quotaRequest r.requestId) →
    c.get (.quotaRequest r.requestId) = some row → row.status = .pending →
    env.periodFor lock.timezone t.now = row.quotaPeriod →
    (∀ response c' d' H', requestDiscipline.Rely H c c' → (∀ k, H k → H' k) → Draft c' d' H' →
      SameKeys d d' → replayedApproval response = .ok response →
      requestDiscipline.wp A (k response) Q E c' d' H') →
    (∀ e c' d' H', requestDiscipline.Rely H c c' → E e c' d' H') →
    requestDiscipline.wp A (decide row lock >>= k) Q E c d H

/-- **The rule of a review**, once its arguments have been checked: it ends with the answer
stored under its key. -/
theorem wp_review_bind {t : Readings} {decide : QuotaRequestRow → CalendarLock → Tx Response}
    {f : Except Err Response → Tx α} (hdecide : Decides env A Q E r t decide)
    (hnew : ∀ c' d' H' result, requestDiscipline.Rely H c c' → Draft c' d' H' →
      Answered (r.scope env) r.key (r.hash env) result c' d' H' →
      requestDiscipline.wp A (f (replayedApproval result)) Q E c' d' H')
    (hold : ∀ c' result response, requestDiscipline.Rely H c c' →
      Stored c' (r.scope env) r.key (r.hash env) result → replayedApproval result = .ok response →
      requestDiscipline.wp A (f (.ok response)) Q E c' ∅ H)
    (hE : ∀ e c' d' H', requestDiscipline.Rely H c c' →
      Unanswered c' (r.scope env) r.key (r.hash env) ∨
        (∃ result, Stored c' (r.scope env) r.key (r.hash env) result ∧
          replayedApproval result = .error e) → E e c' d' H') :
    requestDiscipline.wp A (review env r t decide >>= f) Q E c ∅ H := by
  unfold review
  simp only [Prog.bind_assoc]
  refine wp_reserveIdempotency_bind (fun c₁ d₁ H₁ hr₁ hH₁ hclean hres => ?_)
    (fun c₁ result hr₁ hs => ?_) fun e c₁ hr₁ hun => hE e c₁ ∅ H hr₁ (.inl hun)
  · have hr : ∀ {c'}, requestDiscipline.Rely H₁ c₁ c' → requestDiscipline.Rely H c c' :=
      fun hr => hr₁.trans (hr.mono hH₁)
    -- from here on an error finds the key new
    have hE₁ : ∀ {e c' d' H'}, requestDiscipline.Rely H₁ c₁ c' → E e c' d' H' := fun hr' =>
      hE _ _ _ _ (hr hr') (.inl (hres.unanswered hr'))
    simp only [Prog.bind_assoc]
    refine wp_requireApprovable_bind hclean (fun e c₂ H₂ hr₂ => hE₁ hr₂)
      fun c₂ d₂ H₂ row lock reason hr₂ hH₂ hclean₂ hsame₂ hlock hget hp hperiod => ?_
    have hres₂ : Reserved _ _ _ c₂ d₂ H₂ := hres.later hr₂ hH₂ hsame₂
    cases reason with
    | some reason =>
      simp only [Prog.bind_assoc]
      refine wp_cancelTransition_bind hclean₂.draft fun n c₃ d₃ H₃ hr₃ hH₃ hd₃ hsame₃ => ?_
      have hr₁₃ := hr₂.trans (hr₃.mono hH₂)
      refine wp_raiseIf_bind (fun _ => ?_) fun _ c₄ hr₄ =>
        hE₁ (hr₁₃.trans (hr₄.mono fun k hk => hH₃ k (hH₂ k hk)))
      refine wp_commitIdempotency_bind (hres₂.later hr₃ hH₃ hsame₃) hd₃
        fun c₄ d₄ H₄ hr₄ hd₄ hans => ?_
      exact hnew c₄ d₄ H₄ _ (hr (hr₁₃.trans (hr₄.mono fun k hk => hH₃ k (hH₂ k hk)))) hd₄ hans
    | none =>
      simp only [Prog.bind_assoc]
      refine hdecide c₂ d₂ H₂ row lock _ hclean₂ hlock hget hp (hperiod rfl)
        (fun response c₃ d₃ H₃ hr₃ hH₃ hd₃ hsame₃ hresponse => ?_)
        fun e c₃ d₃ H₃ hr₃ => hE₁ (hr₂.trans (hr₃.mono hH₂))
      have hr₁₃ := hr₂.trans (hr₃.mono hH₂)
      refine wp_commitIdempotency_bind (hres₂.later hr₃ hH₃ hsame₃) hd₃
        fun c₄ d₄ H₄ hr₄ hd₄ hans => ?_
      have hlast := hnew c₄ d₄ H₄ response
        (hr (hr₁₃.trans (hr₄.mono fun k hk => hH₃ k (hH₂ k hk)))) hd₄ hans
      rwa [hresponse] at hlast
  · simp only [Prog.bind_assoc]
    obtain ⟨row, hrow, hans⟩ := hs
    refine wp_check_bind (fun response hresponse => ?_) fun e he c₂ hr₂ => ?_
    · exact hold c₁ result response hr₁ ⟨row, hrow, hans⟩ hresponse
    · exact hE e c₂ ∅ H (hr₁.trans hr₂)
        (.inr ⟨result, ⟨row, hr₂.guar.2.idempotency _ _ _ hrow, hans⟩, he⟩)

theorem refuse_decides : Decides env A Q E r a.readings (fun row _ => refuse a r row) := by
  intro c d H row lock k hd hlock hget hp _ hk hE
  unfold refuse
  simp only [Prog.bind_assoc]
  have hview : ∀ {c' x}, requestDiscipline.Rely H c c' →
      (d ∪ c' : Db).get (.quotaRequest r.requestId) = some x → x = row := fun hr hx => by
    rw [hd _ rfl, hr.rows _ hlock, hget] at hx
    exact (some.inj hx).symm
  refine wp_updateRequest_bind (fun c₁ hr₁ hmiss => ?_) (fun c₁ x hr₁ hx _ => ?_)
    fun c₁ d₁ H₁ x hr₁ hH₁ hlock₁ _ hx _ hleft => ?_
  · have := hmiss row (by rw [hd _ rfl, hr₁.rows _ hlock, hget])
    cases this
  · obtain rfl := hview hr₁ hx
    exact ⟨hp, (by intro h; cases h)⟩
  · obtain rfl := hview hr₁ hx
    refine wp_check_bind (fun _ _ => ?_) fun e _ c₂ hr₂ => hE e c₂ d₁ H₁ (hr₁.trans (hr₂.mono hH₁))
    refine hk _ c₁ d₁ H₁ hr₁ hH₁ ?_ hleft.sameKeys rfl
    exact hleft.draft hd.draft hH₁ hlock₁ hx hp (by intro h; cases h) (by intro h; cases h) rfl rfl

theorem appends_congr {u : EntryIndex} {id : String} {q : QuotaDebitRow} {v : Db}
    (h : Appends H c c' u id q) (hH : ∀ k, H k → H' k)
    (hview : ∀ k : Key, k.isQuota = true → v.get k = c'.get k) : Appends H' c v u id q where
  fresh := h.fresh
  free := h.free
  entry := (hview _ rfl).trans h.entry
  index := (hview _ rfl).trans h.index
  indexes := h.indexes
  signed := h.signed
  reference hkind := by
    obtain ⟨ref, x, hrev, hle, hlock⟩ := h.reference hkind
    exact ⟨ref, x, hrev, hle, hH _ hlock⟩
  used := by
    rw [← h.used]
    unfold usedOf
    rw [hview _ rfl]
  granted := by
    rw [← h.granted]
    unfold grantedOf
    rw [hview _ rfl]
  locked := hH _ h.locked
  projected := by
    rw [hview _ rfl]
    exact h.projected
  others k hk hid hu hp := (hview k hk).trans (h.others k hk hid hu hp)

theorem RequestInv.no_credit (hc : RequestInv c) (hq : QuotaInv c) {id : String}
    (hget : c.get (.quotaRequest rid) = some row) (hp : row.status = .pending) :
    c.get (.quotaIndex (.adjustment .credit creditNamespace rid)) ≠ some id := by
  intro hid
  obtain ⟨q, hq, hmem⟩ := (hq.index _ id).mp hid
  obtain ⟨rid', r, hr, hs, hcredit⟩ := hc.credit id q hq
  have hsource : rid' = rid := by
    cases hop : q.quotaOperationId <;>
      simp [QuotaDebitRow.indexes, hop, hcredit.source.1, hcredit.source.2] at hmem
    all_goals exact hmem.2.symm
  subst hsource
  cases hget.symm.trans hr
  have := hp.symm.trans hs
  cases this

theorem grant_decides (hrid : strip r.requestId = r.requestId) :
    Decides env A Q E r a.readings (grant env a r) := by
  intro c d H row lock k hd hlock hget hp hperiod hk hE
  unfold grant
  simp only [Prog.bind_assoc]
  refine wp_raiseIf_bind (fun hpages => ?_) fun _ c₁ hr₁ => hE _ c₁ d H hr₁
  have hpages := not_not.mp hpages
  refine wp_appendCredit_bind requestDiscipline_keepsQuota hd.quotaFree
    (fun a' c₁ id hv hr₁ hindex => ?_)
    (fun a' c₁ d₁ H₁ id hv hcur hr₁ hH₁ hframe happ => ?_) hE
  · -- a pending request has no credit yet
    obtain ⟨-, -, hns, hsource, -⟩ := validateCredit_ok hv
    rw [hns, requireText_ok hsource] at hindex
    refine absurd hindex (hr₁.inv.2.1.no_credit hr₁.inv.1 ((hr₁.rows _ ?_).trans ?_) hp)
    · exact hrid.symm ▸ hlock
    · exact hrid.symm ▸ hget
  · obtain ⟨hpage, -, hns, hsource, -, hsubject, -⟩ := validateCredit_ok hv
    have hdelta : -(creditRow env a').pageDelta = r.approvedPages.getD row.requestedPages := by
      show - -a'.pages = _
      rw [neg_neg, hpage]
      rfl
    have hview : ∀ {c' x}, requestDiscipline.Rely H c c' →
        (d₁ ∪ c' : Db).get (.quotaRequest r.requestId) = some x → x = row := fun hr hx => by
      rw [hframe _ rfl, hd _ rfl, hr.rows _ hlock, hget] at hx
      exact (some.inj hx).symm
    have hr : ∀ {c'}, requestDiscipline.Rely H₁ c₁ c' → requestDiscipline.Rely H c c' :=
      fun hr => hr₁.trans (hr.mono hH₁)
    refine wp_updateRequest_bind (fun c₂ hr₂ hmiss => ?_) (fun c₂ x hr₂ hx _ => ?_)
      fun c₂ d₂ H₂ x hr₂ hH₂ hlock₂ _ hx _ hleft => ?_
    · have := hmiss row (by rw [hframe _ rfl, hd _ rfl, (hr hr₂).rows _ hlock, hget])
      cases this
    · obtain rfl := hview (hr hr₂) hx
      exact ⟨hp, (by intro h; cases h)⟩
    · obtain rfl := hview (hr hr₂) hx
      refine wp_check_bind (fun _ _ => ?_) fun e _ c₃ hr₃ =>
        hE e c₃ d₂ H₂ (hr (hr₂.trans (hr₃.mono hH₂)))
      refine hk _ c₂ d₂ H₂ (hr hr₂) (fun k hk => hH₂ k (hH₁ k hk)) (fun c₃ hr₃ => ?_)
        (fun scope key s => ?_) rfl
      · have hr₂₃ := hr₂.trans (hr₃.mono hH₂)
        have hleaves : Leaves c₃ (d₂ ∪ c₃) r.requestId x _ :=
          hleft.leaves ((((hr hr₂₃).rows _ hlock)).trans hget) hp (by intro h; cases h) rfl rfl
            fun k hreq hq => (hframe k hq c₃).trans (hd k hreq c₃)
        have happ₃ := appends_congr (v := d₂ ∪ c₃) (happ c₃ hr₂₃) hH₂ fun k hk => by
          refine hleft.others k ?_ ?_ c₃ <;> rintro rfl <;> cases hk
        have hcredit : CreditOf r.requestId (approvedRow r a.readings x
            (r.approvedPages.getD x.requestedPages) id x) (creditRow env a') := {
          kind := rfl
          source := ⟨congrArg some hns, congrArg some ((requireText_ok hsource).trans hrid)⟩
          subject := (some.inj hsubject).symm
          period := hcur.trans hperiod
          pages := congrArg some hdelta.symm
          positive := hdelta ▸ hpages.1
          bound := hdelta ▸ hpages.2 }
        exact ⟨happ₃.inv hr₃.inv.1, happ₃.guar,
          hleaves.approve hr₃.inv.2.1 happ₃ rfl rfl hcredit, hleaves.moved⟩
      · rw [hleft.sameKeys, hframe _ rfl]

end Rules

end RagQs.Usage.Requests
