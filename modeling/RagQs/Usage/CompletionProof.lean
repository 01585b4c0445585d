import RagQs.Usage.LedgerProof

/-!
# Completions keep the discipline of the ledger

A completion holds the call's lock from its first statement on, so between its
statements the call, its event and its amount-only facts stay; the version in force at
the send time stays in force, so pricing does not fail; and a call that was completed
with the same facts before is found completed with the same fingerprint.

## Main definitions

* `Checks`, `Replays` — the checks of a completion pass; the call is completed by a
  completion with these arguments.
* `PriceError` — the errors of pricing.
* `Completing` — where a completion is before it records the event.

## Main results

* `wp_complete_bind` — the rule of `completeProviderCall`.
-/

namespace RagQs.Usage

open Txn Txn.Discipline Option Store AList

variable {α : Type} {env : Env} {A : Tx α → Db → Prop} {Q : α → Assn Row} {G : Err → Prop}
  {c c' d d' : Db} {H H' : Key → Prop} {id : String}

variable {a : Completion} {s : Time} {r : CallRow} {keys : List Key} {n : String}
variable {price : PriceFacts} {e : EventRow}

/-! ### Errors -/

/-- The errors of a call without a price. -/
def PriceError (e : Err) : Prop :=
  e.code = some "price_not_found" ∨ e.code = some "price_interval_conflict"

theorem not_priceError_of_validates {β : Type} {x : Except Err β} {e : Err}
    (h : OnlyValidates x) (hx : x = .error e) : ¬ PriceError e := by
  unfold PriceError
  rw [h e hx]
  decide

theorem not_priceError_integrity : ¬ PriceError .integrity := by
  rintro (h | h) <;> cases h

theorem not_priceError_eventConflict : ¬ PriceError eventConflict := by
  simp [PriceError, eventConflict, ledgerConflict, Err.code]

theorem not_priceError_callNotFound : ¬ PriceError callNotFound := by
  simp [PriceError, callNotFound, Err.code]

theorem not_priceError_callStateConflict (m : String) : ¬ PriceError (callStateConflict m) := by
  simp [PriceError, callStateConflict, Err.code]

theorem onlyValidates_validateOwnership (o : OwnershipSnapshot) :
    OnlyValidates (validateOwnership o) := by
  refine (onlyValidates_requireText _ _ _).bind fun _ => ?_
  refine (onlyValidates_requireText _ _ _).bind fun _ => ?_
  refine (onlyValidates_optionalText _ _ _).bind fun _ => ?_
  refine (onlyValidates_requireText _ _ _).bind fun _ => ?_
  refine (onlyValidates_optionalText _ _ _).bind fun _ => ?_
  refine (onlyValidates_optionalText _ _ _).bind fun _ => ?_
  refine (onlyValidates_optionalText _ _ _).bind fun _ => ?_
  refine (onlyValidates_optionalText _ _ _).bind fun _ => ?_
  exact .ite (.error _) (.ok _)

theorem onlyValidates_validateProviderMeasurement (m : ProviderMeasurement) :
    OnlyValidates (validateProviderMeasurement m) := by
  refine .ite ?_ (.error _)
  unfold validateMeterValues
  split
  · exact .error _
  · exact .ok _

theorem onlyValidates_resolveStarted (call : CallRow) (s : Option Time) :
    OnlyValidates (resolveStarted call s) := by
  unfold resolveStarted
  split
  · exact .ite (fun e h => by cases h; rfl) (.ok _)
  · exact .ok _
  · exact .ok _
  · exact .error _

theorem onlyValidates_availability (m : ProviderMeasurement) : OnlyValidates (availability m) := by
  unfold availability
  split
  · exact .error _
  · exact .ite (.ok _) (.error _)

theorem onlyValidates_requireReplayGeneration (n : ℤ) :
    OnlyValidates (requireReplayGeneration n) := .ite (.error _) (.ok _)

theorem onlyValidates_lineStatus (l : List (String × CostStatus)) (line : PriceLine) :
    OnlyValidates (lineStatus l line) := by
  unfold lineStatus
  split
  · exact .error _
  · exact .ok _

theorem onlyValidates_lineQuantity (m : List (String × ℕ)) (l : List (String × CostStatus))
    (line : PriceLine) : OnlyValidates (lineQuantity m l line) := by
  refine (onlyValidates_lineStatus l line).bind fun status => .ite (.ok _) ?_
  split
  · exact .error _
  · exact .ite (.error _) (.ok _)

theorem estimateCost_error {m : List (String × ℕ)} {l : List (String × CostStatus)} {e : Err}
    (h : estimateCost price m l = .error e) : ¬ PriceError e := by
  unfold estimateCost at h
  cases h₁ : price.lines.mapM (lineStatus l) with
  | error e' =>
    rw [h₁] at h
    cases h
    exact not_priceError_of_validates (.mapM (onlyValidates_lineStatus l)) h₁
  | ok x =>
    cases h₂ : price.lines.mapM (lineQuantity m l) with
    | error e' =>
      rw [h₁, h₂] at h
      cases h
      exact not_priceError_of_validates (.mapM (onlyValidates_lineQuantity m l)) h₂
    | ok rows =>
      rw [h₁, h₂] at h
      change (if _ then _ else _) = _ at h
      split at h
      · cases h
      · split at h
        · cases h
          rintro (hcode | hcode) <;> exact absurd hcode (by simp [Err.code])
        · cases h

/-! ### Completions that repeat -/

/-- The checks of a completion pass. -/
structure Checks (a : Completion) (call : CallRow) (price : PriceFacts) (result : String)
    (started : Time) (statuses : List (String × CostStatus))
    (cost : Option Money × CostStatus) : Prop where
  resultOk : requireText a.result "result" 32 = .ok result
  ownershipOk : validateOwnership a.ownership = .ok ()
  measurementOk : validateProviderMeasurement a.measurement = .ok ()
  startedOk : resolveStarted call a.startedAtUtc = .ok started
  statusesOk : availability a.measurement = .ok statuses
  costOk : estimateCost price (measured a.measurement) statuses = .ok cost
  replayOk : requireReplayGeneration call.replayGeneration = .ok call.replayGeneration

/-- The fingerprint of a completion that passes its checks. -/
def usageFingerprint (env : Env) (id : String) (call : CallFacts) (a : Completion)
    (result : String) (started : Time) (priceId : String) (price : PriceFacts)
    (cost : Option Money × CostStatus) : String :=
  env.ledgerFingerprint "provider_usage"
    (usagePayload id call a result started (env.periodFor env.timezone started) priceId price cost)

/-- The call is completed, with the event a completion with these arguments records. -/
def Replays (env : Env) (c : Db) (id : String) (a : Completion) (eventId : String) : Prop :=
  ∃ (call : CallRow) (e : EventRow) (price : PriceRow) (result : String)
    (statuses : List (String × CostStatus)) (cost : Option Money × CostStatus),
    c.get (.call id) = some call ∧ call.status = .completed ∧
    c.get (.eventOfCall id) = some eventId ∧ c.get (.event eventId) = some e ∧
    c.get (.price e.priceVersionId) = some price ∧
    Checks a call price.toPriceFacts result e.startedAtUtc statuses cost ∧
    e.eventFingerprint = usageFingerprint env id call.toCallFacts a result e.startedAtUtc
      e.priceVersionId price.toPriceFacts cost

theorem Checks.congr {call call' : CallRow} {result : String} {started : Time}
    {statuses : List (String × CostStatus)} {cost : Option Money × CostStatus}
    (h : Checks a call price result started statuses cost)
    (hfacts : call'.toCallFacts = call.toCallFacts)
    (hstarted : call'.startedAtUtc = call.startedAtUtc) :
    Checks a call' price result started statuses cost := by
  refine ⟨h.resultOk, h.ownershipOk, h.measurementOk, ?_, h.statusesOk, h.costOk, ?_⟩
  · rw [← h.startedOk]
    unfold resolveStarted
    rw [hstarted]
  · rw [show call'.replayGeneration = call.replayGeneration from
      congrArg CallFacts.replayGeneration hfacts]
    exact h.replayOk

theorem Replays.guar {W : Key → Prop} {eventId : String} (h : Replays env c id a eventId)
    (hg : Guar W c c') (hc : LedgerInv env c) (hc' : LedgerInv env c') :
    Replays env c' id a eventId := by
  obtain ⟨call, e, price, result, statuses, cost, hcall, hst, hindex, he, hprice, hchecks, hfp⟩ := h
  obtain ⟨call', hcall', hstep⟩ := hg.step id call hcall
  obtain ⟨price', hprice', hpf⟩ := hg.facts _ price hprice
  have hst' : call'.status = .completed :=
    (CallStatus.eq_of_terminal hstep.leads (by rw [hst]; rfl)).trans hst
  have hstarted := hstep.started (by rw [hst]; rfl) (by rw [hst']; rfl)
  obtain ⟨x, hx, hxid⟩ := ((hc.call id).index eventId).mp hindex
  obtain rfl : e = x := some.inj (he.symm.trans hx)
  have he' := hg.event eventId e he
  refine ⟨call', e, price', result, statuses, cost, hcall', hst',
    ((hc'.call id).index eventId).mpr ⟨e, he', hxid⟩, he', hprice', ?_, ?_⟩
  · rw [hpf]
    exact hchecks.congr hstep.facts hstarted
  · rw [hpf, hstep.facts]
    exact hfp

theorem resolveStarted_eq {call : CallRow} {t : Time} {explicit : Option Time}
    (hs : call.startedAtUtc = some s) (h : resolveStarted call explicit = .ok t) : t = s := by
  unfold resolveStarted at h
  rw [hs] at h
  cases explicit with
  | none => exact (Except.ok.inj h).symm
  | some x =>
    dsimp only at h
    split at h
    · cases h
    · exact (Except.ok.inj h).symm

/-! ### The steps of a completion -/

/-- A completion that has deleted the amount-only facts of its call, and may have created
the calendar. -/
structure Completing (env : Env) (id : String) (r : CallRow) (s : Time) (keys : List Key)
    (c d : Db) (H : Key → Prop) : Prop where
  inv : LedgerInv env c
  lock : H (.call id)
  call : c.get (.call id) = some r
  sent : r.status.sent = true
  started : r.startedAtUtc = some s
  cleared : Cleared id keys c d H
  calendar : CalendarOk env c d H
  view : ∀ (s : Db) k, k ≠ .calendar → (∀ n, k ≠ .reconciliation n) →
    (d ∪ s : Db).get k = s.get k

theorem Completing.rely (h : Completing env id r s keys c d H)
    (hr : (ledgerDiscipline env).Rely H c c') (hH : ∀ k, H k → H' k) :
    Completing env id r s keys c' d H' := by
  have hcl := h.cleared.rely h.lock hr
  have hcal := h.calendar.rely hr
  refine ⟨hr.inv, hH _ h.lock, (hr.rows _ h.lock).trans h.call, h.sent, h.started,
    ⟨fun n hn => ⟨hH _ (hcl.held n hn).1, (hcl.held n hn).2⟩, hcl.all, hcl.view⟩, ?_, h.view⟩
  rcases hcal with hsame | ⟨hlock, hrest⟩
  · exact .inl hsame
  · exact .inr ⟨hH _ hlock, hrest⟩

theorem Completing.sentAt (h : Completing env id r s keys c d H) : SentAt c id r.scope s :=
  ⟨r, h.call, h.sent, h.started, rfl⟩

theorem Completing.eventByCall (h : Completing env id r s keys c d H)
    (hindex : c.get (.eventOfCall id) = some n) (he : c.get (.event n) = some e) :
    eventByCall (d ∪ c) id = some (n, e) := by
  unfold Usage.eventByCall
  rw [h.view c _ (by simp) (by simp), hindex]
  dsimp only
  rw [h.view c _ (by simp) (by simp), he]
  rfl

theorem Completing.event_of_replays (h : Completing env id r s keys c d H)
    (hrep : Replays env c id a n) :
    ∃ (e : EventRow) (price : PriceRow) (result : String)
      (statuses : List (String × CostStatus)) (cost : Option Money × CostStatus),
      c.get (.eventOfCall id) = some n ∧ c.get (.event n) = some e ∧
      Covers c e.priceVersionId r.scope s ∧ c.get (.price e.priceVersionId) = some price ∧
      Checks a r price.toPriceFacts result s statuses cost ∧
      e.eventFingerprint = usageFingerprint env id r.toCallFacts a result s e.priceVersionId
        price.toPriceFacts cost := by
  obtain ⟨call, e, price, result, statuses, cost, hcall, _, hindex, he, hprice, hchecks, hfp⟩ :=
    hrep
  obtain rfl : r = call := some.inj (h.call.symm.trans hcall)
  obtain ⟨x, hx, hxid⟩ := ((h.inv.call id).index n).mp hindex
  obtain rfl : e = x := some.inj (he.symm.trans hx)
  obtain ⟨_, hs, _, hcov⟩ := (h.inv.call id).event n e r he hxid h.call
  obtain rfl : s = e.startedAtUtc := some.inj (h.started.symm.trans hs)
  exact ⟨e, price, result, statuses, cost, hindex, he, hcov, hprice, hchecks, hfp⟩

theorem Completing.committable_replay (h : Completing env id r s keys c d H)
    (hst : r.status = .completed) (he : c.get (.event n) = some e)
    (hindex : c.get (.eventOfCall id) = some n) (hprice : H (.price e.priceVersionId)) :
    Committable env c d H := by
  intro c' hrely
  have h' := h.rely hrely fun _ hk => hk
  obtain ⟨x, hx, hxid⟩ := ((h.inv.call id).index n).mp hindex
  obtain rfl : e = x := some.inj (he.symm.trans hx)
  have hsame := sameCall_of_rely hrely h.lock
  have he' : c'.get (.event n) = some e := (hsame.event n e hxid).mpr he
  obtain ⟨hkind, hs, heff, hcov⟩ := (h'.inv.call id).event n e r he' hxid h'.call
  have hview := h'.view c'
  refine (CallChange.ofComplete h'.inv h.lock h'.call h.sent
    ((hview _ (by simp) (by simp)).trans h'.call) (.refl r)
    ((h'.inv.call id).check r h'.call) hst (fun k _ hcal hrec _ _ => hview k hcal hrec)
    h'.calendar.commit h'.cleared.other h'.cleared.gone
    ((hview _ (by simp) (by simp)).trans he')
    ((hview _ (by simp) (by simp)).trans (hsame.index.trans hindex)) (.inl he') hxid hkind hs heff
    hprice hcov).commit h'.inv

theorem Completing.committable_record {now : Time} (h : Completing env id r s keys c d H)
    (hst : r.completable = true) (hevent : H (.event n)) (hindex : H (.eventOfCall id))
    (hnoevent : c.get (.event n) = none) (hnoindex : c.get (.eventOfCall id) = none)
    (hid : e.providerCallId = some id) (hkind : e.eventKind = .providerUsage)
    (hs : e.startedAtUtc = s) (heff : e.effectiveAtUtc = s) (hprice : H (.price e.priceVersionId))
    (hcov : Covers c e.priceVersionId r.scope s) :
    Committable env c (((d.set (.event n) (some e)).set (.eventOfCall id) (some n)).set (.call id)
      (some (r.complete now))) H := by
  intro c' hrely
  have h' := h.rely hrely fun _ hk => hk
  have hview := h'.view c'
  obtain ⟨a, ha, has, hac⟩ := hcov
  rw [set_union, set_union, set_union]
  refine (CallChange.ofComplete h'.inv h.lock h'.call h.sent
    (show _ = some (r.complete now) from get_set_self _ _ _) (CallRow.step_complete now hst)
    (CallRow.check_complete now ((h'.inv.call id).check r h'.call) hst) rfl
    (fun k hcall hcal hrec hev hix => ?_) ?_ (fun m x hx => ?_) (fun m x hx => ?_) ?_ ?_
    (.inr ⟨(hrely.rows _ hevent).trans hnoevent, (hrely.rows _ hindex).trans hnoindex⟩) hid hkind
    (hs ▸ h.started) (heff.trans hs.symm) hprice
    ⟨a, (hrely.rows _ hprice).trans ha, has, hs ▸ hac⟩).commit h'.inv
  · rw [get_set_of_ne hcall, get_set_of_ne hix, get_set_of_ne hev]
    exact hview k hcal hrec
  · rw [get_set_of_ne (by simp), get_set_of_ne (by simp),
      get_set_of_ne (by simp)]
    exact h'.calendar.commit
  · rw [get_set_of_ne (by simp), get_set_of_ne (by simp),
      get_set_of_ne (by simp)]
    exact h'.cleared.other m x hx
  · rw [get_set_of_ne (by simp), get_set_of_ne (by simp),
      get_set_of_ne (by simp)] at hx
    exact h'.cleared.gone m x hx
  · rw [get_set_of_ne (by simp), get_set_of_ne (by simp),
      get_set_self]
  · rw [get_set_of_ne (by simp), get_set_self]

theorem wp_finish_bind {now : Time} {row : EventRow} {f : String → Tx α}
    (h : Completing env id r s keys c d H) (hid : row.providerCallId = some id)
    (hkind : row.eventKind = .providerUsage) (hs : row.startedAtUtc = s)
    (heff : row.effectiveAtUtc = s) (hprice : H (.price row.priceVersionId))
    (hcov : Covers c row.priceVersionId r.scope s)
    (hreplay : ∀ c' e m, (ledgerDiscipline env).Rely H c c' →
      c'.get (.eventOfCall id) = some m → c'.get (.event m) = some e → r.status = .completed →
      e.priceVersionId = row.priceVersionId → e.startedAtUtc = s →
      e.eventFingerprint = row.eventFingerprint → Committable env c' d H →
      (ledgerDiscipline env).wp A (f m) Q (raises G) c' d H)
    (hrecord : ∀ c' d' H', (ledgerDiscipline env).Rely H c c' → (∀ k, H k → H' k) →
      d' = ((d.set (.event n) (some row)).set (.eventOfCall id) (some n)).set (.call id)
        (some (r.complete now)) → Committable env c' d' H' →
      (ledgerDiscipline env).wp A (f n) Q (raises G) c' d' H')
    (herr : ∀ e c', (ledgerDiscipline env).Rely H c c' → ¬ PriceError e →
      (∀ m x, c'.get (.eventOfCall id) = some m → c'.get (.event m) = some x →
        x.eventFingerprint ≠ row.eventFingerprint) → G e) :
    (ledgerDiscipline env).wp A (insertUsageOnce id n row >>= fun eventId =>
      updateWhere (.call id) CallRow.completable (fun x => x.complete now) >>= fun updated =>
        confirmStatus id updated .completed >>= fun _ => f eventId) Q (raises G) c d H := by
  unfold insertUsageOnce
  rw [Prog.bind_assoc]
  refine wp_select_bind fun c₁ hr₁ => ?_
  have h₁ := h.rely hr₁ fun _ hk => hk
  have hcov₁ : Covers c₁ row.priceVersionId r.scope s := by
    obtain ⟨a, ha, hrest⟩ := hcov
    exact ⟨a, (hr₁.rows _ hprice).trans ha, hrest⟩
  cases hindex : (c₁.get (.eventOfCall id) : Option String) with
  | some m =>
    obtain ⟨e, he, heid⟩ := ((h₁.inv.call id).index m).mp hindex
    rw [h₁.eventByCall hindex he]
    simp only [Prog.bind_assoc]
    refine wp_raiseIf_bind (fun hfp => ?_) fun hfp c₂ hr₂ => ?_
    · -- the call is completed, so nothing is updated
      obtain ⟨y, hy, hst⟩ := (h₁.inv.call id).completed.mp ⟨m, hindex⟩
      obtain rfl : r = y := some.inj (h₁.call.symm.trans hy)
      obtain ⟨_, hse, _, hcove⟩ := (h₁.inv.call id).event m e r he heid h₁.call
      obtain rfl : s = e.startedAtUtc := some.inj (h₁.started.symm.trans hse)
      have hpv := h₁.inv.price.unique hcove hcov₁
      refine wp_updateWhere_bind (fun c₂ hr₂ _ => ?_) fun c₂ x hr₂ hget hcond => ?_
      · unfold confirmStatus
        rw [if_neg Nat.zero_ne_one, Prog.bind_assoc]
        refine wp_requireCall_bind (fun c₃ x hr₃ hget => ?_) fun c₃ hr₃ hnone => ?_
        · have h₃ := (h₁.rely hr₂ fun _ hk => hk).rely hr₃ fun _ hk => hk
          rw [h₃.view _ _ (by simp) (by simp)] at hget
          obtain rfl : r = x := some.inj (h₃.call.symm.trans hget)
          refine wp_raiseIf_bind (fun _ => ?_) fun hne => absurd hst hne
          have hsame := sameCall_of_rely (hr₂.trans hr₃) h₁.lock
          have he₃ : c₃.get (.event m) = some e := (hsame.event m e heid).mpr he
          have hi₃ : c₃.get (.eventOfCall id) = some m := hsame.index.trans hindex
          exact hreplay c₃ e m ((hr₁.trans hr₂).trans hr₃) hi₃ he₃ hst hpv rfl (by simpa using hfp)
            (h₃.committable_replay hst he₃ hi₃ (hpv ▸ hprice))
        · have h₃ := (h₁.rely hr₂ fun _ hk => hk).rely hr₃ fun _ hk => hk
          rw [h₃.view _ _ (by simp) (by simp), h₃.call] at hnone
          cases hnone
      · have h₂ := h₁.rely hr₂ fun _ hk => hk
        rw [h₂.view _ _ (by simp) (by simp)] at hget
        obtain rfl : r = x := some.inj (h₂.call.symm.trans hget)
        simp [CallRow.completable, hst] at hcond
    · refine herr _ c₂ (hr₁.trans hr₂) not_priceError_eventConflict fun m' x hm' hx => ?_
      have hsame := sameCall_of_rely hr₂ h₁.lock
      rw [hsame.index, hindex] at hm'
      cases hm'
      cases ((hsame.event m e heid).mpr he).symm.trans hx
      exact hfp
  | none =>
    have hnone : Usage.eventByCall (d ∪ c₁) id = none := by
      unfold Usage.eventByCall
      rw [h₁.view _ _ (by simp) (by simp), hindex]
    have hnot : ∀ c₂, (ledgerDiscipline env).Rely H c₁ c₂ → c₂.get (.eventOfCall id) = none :=
      fun c₂ hr₂ => (sameCall_of_rely hr₂ h₁.lock).index.trans hindex
    rw [hnone]
    simp only [Prog.bind_assoc]
    refine wp_insertOrSkip_bind (fun c₂ hr₂ hsome => ?_) (fun c₂ c₃ hr₂ _ hr₃ => ?_)
      fun c₂ hr₂ _ hfree => ?_
    · rw [h₁.view _ _ (by simp) (by simp), hnot c₂ hr₂] at hsome
      cases hsome
    · refine herr _ c₃ ((hr₁.trans hr₂).trans hr₃) not_priceError_integrity fun m x hm => ?_
      rw [hnot c₃ (hr₂.trans hr₃)] at hm
      cases hm
    · have hnoevent : c₂.get (.event n) = none := by
        have := h₁.view c₂ (.event n) (by simp) (by simp)
        rw [← this]
        simpa [taken] using hfree
      -- the event just inserted is read back
      have hH : ∀ k, H k → writing H ([⟨.event n, some row⟩, ⟨.eventOfCall id, some n⟩] :
          List (Write Row)) k :=
        fun k hk => Or.inl hk
      have h₂ := h₁.rely hr₂ hH
      have hread : ∀ c₃ : Db, Usage.eventByCall
          (d.applyAll [⟨.event n, some row⟩, ⟨.eventOfCall id, some n⟩] ∪ c₃) id
            = some (n, row) := by
        intro c₃
        simp only [applyAll_cons, applyAll_nil, set_union]
        unfold Usage.eventByCall
        rw [get_set_self]
        dsimp only
        rw [get_set_of_ne (by simp), get_set_self]
        rfl
      have hcompletable : r.completable = true := by
        have hsent := h₁.sent
        unfold CallRow.completable
        cases hst : r.status with
        | completed =>
          obtain ⟨m, hm⟩ := (h₁.inv.call id).completed.mpr ⟨r, h₁.call, hst⟩
          rw [hindex] at hm
          cases hm
        | dispatching => rfl
        | unknown => rfl
        | prepared =>
          rw [hst] at hsent
          cases hsent
        | notSent =>
          rw [hst] at hsent
          cases hsent
      refine wp_select_bind fun c₃ hr₃ => ?_
      rw [hread c₃]
      refine wp_raiseIf_bind (fun _ => ?_) fun hfalse => by simp at hfalse
      have h₃ := h₂.rely hr₃ fun _ hk => hk
      have hview : ∀ c₄ : Db, (d.applyAll [⟨.event n, some row⟩, ⟨.eventOfCall id, some n⟩]
          ∪ c₄ : Db).get (.call id) = c₄.get (.call id) := by
        intro c₄
        simp only [applyAll_cons, applyAll_nil, set_union]
        rw [get_set_of_ne (by simp), get_set_of_ne (by simp),
          h₃.view _ _ (by simp) (by simp)]
      refine wp_updateWhere_bind (fun c₄ hr₄ hmiss => ?_) fun c₄ x hr₄ hget _ => ?_
      · have h₄ := h₃.rely hr₄ fun _ hk => hk
        have := hmiss r ((hview c₄).trans h₄.call)
        rw [hcompletable] at this
        cases this
      · have h₄ := h₃.rely hr₄ fun k hk =>
          (Or.inl hk : writing H ([⟨.event n, some row⟩, ⟨.eventOfCall id, some n⟩] :
            List (Write Row)) k ∨ k = .call id)
        rw [hview] at hget
        obtain rfl : r = x := some.inj (h₄.call.symm.trans hget)
        have hrel := hr₂.trans ((hr₃.trans hr₄).mono hH)
        obtain ⟨a, ha, has, hac⟩ := hcov₁
        refine hrecord c₄ _ _ (hr₁.trans hrel) (fun k hk => Or.inl (hH k hk)) rfl
          (h₄.committable_record hcompletable (Or.inl (Or.inr (by simp)))
            (Or.inl (Or.inr (by simp))) ?_ (hnot c₄ hrel) hid hkind hs heff
            (Or.inl (hH _ hprice)) ⟨a, (hrel.rows _ hprice).trans ha, has, hac⟩)
        exact ((hr₃.trans hr₄).rows _ (Or.inr (by simp))).trans hnoevent

/-- **The rule of a completion**: it never fails for a price, and not at all when the call
was completed with the same arguments before; when it ends, the call is completed with
these arguments. -/
theorem wp_complete_bind {src : Source} {f : String → Tx α}
    (h : ∀ m c' d' H', (ledgerDiscipline env).Rely (fun _ => False) c c' →
      Committable env c' d' H' →
      (∀ c'', (ledgerDiscipline env).Rely H' c' c'' → Replays env (d' ∪ c'') id a m) →
      (ledgerDiscipline env).wp A (f m) Q (raises G) c' d' H')
    (herr : ∀ e c', (ledgerDiscipline env).Rely (fun _ => False) c c' → ¬ PriceError e →
      (∀ m, ¬ Replays env c' id a m) → G e) :
    (ledgerDiscipline env).wp A (completeProviderCall env id a src >>= f) Q (raises G) c ∅
      (fun _ => False) := by
  unfold completeProviderCall
  rw [Prog.bind_assoc]
  refine wp_lockRow_bind (fun c₁ hr₁ hget => ?_) fun c₁ (r : CallRow) hr₁ hget => ?_
  · rw [Prog.bind_assoc]
    refine wp_orRaise_bind (fun x hx => ?_) fun _ _ _ => ?_
    · cases hx
    · refine herr _ c₁ hr₁ not_priceError_callNotFound fun m hrep => ?_
      obtain ⟨call, _, _, _, _, _, hcall, _⟩ := hrep
      rw [empty_union, hcall] at hget
      cases hget
  rw [empty_union] at hget
  rw [Prog.bind_assoc]
  refine wp_orRaise_bind (fun x hx => ?_) fun hnone => by cases hnone
  obtain rfl : r = x := some.inj hx
  rw [Prog.bind_assoc]
  have hrc : ∀ {c₂ : Db}, (ledgerDiscipline env).Rely (fun k => False ∨ k = .call id) c₁ c₂ →
      (ledgerDiscipline env).Rely (fun _ => False) c c₂ := fun hr₂ =>
    hr₁.trans (hr₂.mono fun _ hf => hf.elim)
  refine wp_raiseIf_bind (fun hsent => ?_) fun hsent c₂ hr₂ => ?_
  rotate_left
  · refine herr _ c₂ (hrc hr₂) (not_priceError_callStateConflict _) fun m hrep => ?_
    obtain ⟨call, _, _, _, _, _, hcall, hst, _⟩ := hrep
    rw [hr₂.rows _ (Or.inr rfl), hget] at hcall
    cases hcall
    rw [hst] at hsent
    cases hsent
  have hsent : r.status.sent = true := by simpa using hsent
  have hinv₁ : LedgerInv env c₁ := hr₁.inv
  obtain ⟨s, hs⟩ : ∃ s, r.startedAtUtc = some s := by
    have := CallRow.started_iff_sent ((hinv₁.call id).check r hget)
    rw [hsent] at this
    exact isSome_iff_exists.mp this
  rw [Prog.bind_assoc]
  refine wp_deleteAmountOnly_bind (fun s n => by rw [empty_union])
    fun c₂ d₂ H₂ keys hr₂ hH₂ hframe _ _ hcl => ?_
  have h₂ : Completing env id r s keys c₂ d₂ H₂ :=
    ⟨hr₂.inv, hH₂ _ (Or.inr rfl), (hr₂.rows _ (Or.inr rfl)).trans hget, hsent, hs, hcl,
      .inl fun t => by rw [hframe t _ (by simp), empty_union],
      fun t k _ hk => by rw [hframe t k hk, empty_union]⟩
  have hrc₂ := hrc hr₂
  -- a check that fails is one a completion with these arguments cannot have passed
  have hfail : ∀ {c' c'' d' : Db} {H' : Key → Prop}, Completing env id r s keys c' d' H' →
      (ledgerDiscipline env).Rely (fun _ => False) c c' → (ledgerDiscipline env).Rely H' c' c'' →
      ∀ e, ¬ PriceError e →
      (∀ price result statuses cost, ¬ Checks a r price result s statuses cost) → G e := by
    intro c' c'' d' H' h' hc' hr'' e hcode hno
    refine herr e c'' (hc'.trans (hr''.mono fun _ hf => hf.elim)) hcode fun m hrep => ?_
    obtain ⟨_, price, result, statuses, cost, _, _, _, _, hchecks, _⟩ :=
      (h'.rely hr'' fun _ hk => hk).event_of_replays hrep
    exact hno _ _ _ _ hchecks
  unfold completeUsage
  simp only [Prog.bind_assoc]
  refine wp_requireCall_bind (fun c₃ x hr₃ hgetx => ?_) fun c₃ hr₃ hnone => ?_
  rotate_left
  · rw [(h₂.rely hr₃ fun _ hk => hk).view _ _ (by simp) (by simp),
      (h₂.rely hr₃ fun _ hk => hk).call] at hnone
    cases hnone
  have h₃ := h₂.rely hr₃ fun _ hk => hk
  rw [h₃.view _ _ (by simp) (by simp)] at hgetx
  obtain rfl : r = x := some.inj (h₃.call.symm.trans hgetx)
  have hrc₃ := hrc₂.trans (hr₃.mono fun _ hf => hf.elim)
  refine wp_check_bind (fun result hresult => ?_) fun e he c₄ hr₄ =>
    hfail h₃ hrc₃ hr₄ e (not_priceError_of_validates (onlyValidates_requireText _ _ _) he)
      fun _ _ _ _ hk => by rw [hk.resultOk] at he; cases he
  refine wp_check_bind (fun _ hownership => ?_) fun e he c₄ hr₄ =>
    hfail h₃ hrc₃ hr₄ e (not_priceError_of_validates (onlyValidates_validateOwnership _) he)
      fun _ _ _ _ hk => by rw [hk.ownershipOk] at he; cases he
  refine wp_check_bind (fun _ hmeasurement => ?_) fun e he c₄ hr₄ =>
    hfail h₃ hrc₃ hr₄ e (not_priceError_of_validates (onlyValidates_validateProviderMeasurement _) he)
      fun _ _ _ _ hk => by rw [hk.measurementOk] at he; cases he
  refine wp_check_bind (fun started hstarted => ?_) fun e he c₄ hr₄ =>
    hfail h₃ hrc₃ hr₄ e (not_priceError_of_validates (onlyValidates_resolveStarted _ _) he)
      fun _ _ _ _ hk => by rw [hk.startedOk] at he; cases he
  obtain rfl := resolveStarted_eq hs hstarted
  refine wp_lockOrVerify_bind (fun t => ?_) fun c₄ d₄ H₄ lock hr₄ hH₄ hview₄ hcal₄ htz => ?_
  · rw [hframe t _ (by simp), empty_union]
  have h₄ : Completing env id r started keys c₄ d₄ H₄ := by
    have h' := h₃.rely hr₄ hH₄
    refine ⟨h'.inv, h'.lock, h'.call, h'.sent, h'.started, ⟨h'.cleared.held, h'.cleared.all,
      fun t n => ?_⟩, hcal₄, fun t k hk hk' => ?_⟩
    · rw [hview₄ t _ (by simp)]
      exact h'.cleared.view t n
    · rw [hview₄ t k hk]
      exact h'.view t k hk hk'
  have hrc₄ := hrc₃.trans (hr₄.mono fun _ hf => hf.elim)
  refine wp_check_bind (fun statuses hstatuses => ?_) fun e he c₅ hr₅ =>
    hfail h₄ hrc₄ hr₅ e (not_priceError_of_validates (onlyValidates_availability _) he)
      fun _ _ _ _ hk => by rw [hk.statusesOk] at he; cases he
  refine wp_lockedPrice_sent_bind (fun t p => h₄.view t _ (by simp) (by simp)) h₄.lock h₄.sentAt
    fun c₅ price H₅ hr₅ hH₅ hlock hprice hscope hcontains => ?_
  have h₅ := h₄.rely hr₅ hH₅
  have hrc₅ := hrc₄.trans (hr₅.mono fun _ hf => hf.elim)
  have hcov : Covers c₅ price.id r.scope started := ⟨price.toPriceRow, hprice, hscope, hcontains⟩
  -- a completion that was accepted before was priced with the same version
  have hpriced : ∀ {c' : Db}, (ledgerDiscipline env).Rely H₅ c₅ c' → ∀ m,
      Replays env c' id a m → ∃ (e : EventRow) (result' : String)
        (statuses' : List (String × CostStatus)) (cost' : Option Money × CostStatus),
        c'.get (.eventOfCall id) = some m ∧ c'.get (.event m) = some e ∧
        Checks a r price.toPriceFacts result' started statuses' cost' ∧
        e.eventFingerprint = usageFingerprint env id r.toCallFacts a result' started price.id
          price.toPriceFacts cost' := by
    intro c' hr' m hrep
    have h' := h₅.rely hr' fun _ hk => hk
    obtain ⟨e, price', result', statuses', cost', hi, he, hcov', hp', hchecks, hfp⟩ :=
      h'.event_of_replays hrep
    have hprice' : c'.get (.price price.id) = some price.toPriceRow :=
      (hr'.rows _ hlock).trans hprice
    have hpid := h'.inv.price.unique hcov' ⟨price.toPriceRow, hprice', hscope, hcontains⟩
    rw [hpid, hprice'] at hp'
    cases hp'
    exact ⟨e, result', statuses', cost', hi, he, hchecks, hpid ▸ hfp⟩
  have hfail₅ : ∀ {c' : Db}, (ledgerDiscipline env).Rely H₅ c₅ c' → ∀ e, ¬ PriceError e →
      (∀ result' statuses' cost',
        ¬ Checks a r price.toPriceFacts result' started statuses' cost') → G e := by
    intro c' hr' e hcode hno
    refine herr e c' (hrc₅.trans (hr'.mono fun _ hf => hf.elim)) hcode fun m hrep => ?_
    obtain ⟨_, _, _, _, _, _, hchecks, _⟩ := hpriced hr' m hrep
    exact hno _ _ _ hchecks
  refine wp_check_bind (fun cost hcost => ?_) fun e he c₆ hr₆ =>
    hfail₅ hr₆ e (estimateCost_error he) fun _ _ _ hk => ?_
  rotate_left
  · have := hk.costOk
    rw [← Except.ok.inj (hstatuses.symm.trans hk.statusesOk)] at this
    rw [this] at he
    cases he
  refine wp_check_bind (fun n hn => ?_) fun e he c₆ hr₆ =>
    hfail₅ hr₆ e (not_priceError_of_validates (onlyValidates_requireReplayGeneration _) he)
      fun _ _ _ hk => by rw [hk.replayOk] at he; cases he
  have hreplayOk : requireReplayGeneration r.replayGeneration = .ok r.replayGeneration := by
    unfold requireReplayGeneration at hn ⊢
    split at hn
    · cases hn
    · rw [if_neg ‹_›]
  have hchecks : Checks a r price.toPriceFacts result started statuses cost :=
    ⟨hresult, hownership, hmeasurement, hstarted, hstatuses, hcost, hreplayOk⟩
  have hrowfp : (usageRow env id r.toCallFacts a result started (src.clock 0) lock price.id
      price.toPriceFacts cost).eventFingerprint = usageFingerprint env id r.toCallFacts a result
        started price.id price.toPriceFacts cost := by
    unfold usageRow usageFingerprint
    rw [htz]
  refine wp_finish_bind h₅ rfl rfl rfl rfl hlock hcov
    (fun c₆ e m hr₆ hi he hst hpv hse hfp hcommit => ?_)
    (fun c₆ d₆ H₆ hr₆ hH₆ hd₆ hcommit => ?_) fun e c₆ hr₆ hcode hno => ?_
  · refine h m c₆ _ _ (hrc₅.trans (hr₆.mono fun _ hf => hf.elim)) hcommit fun c₇ hr₇ => ?_
    have h₆ := h₅.rely hr₆ fun _ hk => hk
    have h₇ := h₆.rely hr₇ fun _ hk => hk
    obtain ⟨hinv', hguar⟩ := hcommit c₇ hr₇
    have hsame := sameCall_of_rely hr₇ h₆.lock
    obtain ⟨x, hx, hxid⟩ := ((h₆.inv.call id).index m).mp hi
    obtain rfl : e = x := some.inj (he.symm.trans hx)
    have hprice₇ : c₇.get (.price e.priceVersionId) = some price.toPriceRow := by
      rw [show e.priceVersionId = price.id from hpv]
      exact ((hr₆.trans hr₇).rows _ hlock).trans hprice
    have hrep : Replays env c₇ id a m := ⟨r, e, price.toPriceRow, result, statuses, cost, h₇.call,
      hst, hsame.index.trans hi, (hsame.event m e hxid).mpr he, hprice₇, by rw [hse]; exact hchecks,
      by rw [hse, show e.priceVersionId = price.id from hpv]; exact hfp.trans hrowfp⟩
    exact hrep.guar hguar h₇.inv hinv'
  · refine h _ c₆ _ _ (hrc₅.trans (hr₆.mono fun _ hf => hf.elim)) hcommit fun c₇ hr₇ => ?_
    have hprice₇ : (d₆ ∪ c₇ : Db).get (.price price.id) = some price.toPriceRow := by
      rw [hd₆, set_union, set_union, set_union,
        get_set_of_ne (by simp), get_set_of_ne (by simp),
        get_set_of_ne (by simp), h₅.view _ _ (by simp) (by simp),
        hr₇.rows _ (hH₆ _ hlock)]
      exact (hr₆.rows _ hlock).trans hprice
    have hchecks' : Checks a (r.complete (src.clock 2)) price.toPriceFacts result started statuses
        cost := hchecks.congr rfl rfl
    refine ⟨r.complete (src.clock 2), _, price.toPriceRow, result, statuses, cost, ?_, rfl, ?_, ?_,
      hprice₇, hchecks', hrowfp⟩
    · rw [hd₆, set_union, get_set_self]
    · rw [hd₆, set_union, set_union, get_set_of_ne (by simp),
        get_set_self]
    · rw [hd₆, set_union, set_union, set_union,
        get_set_of_ne (by simp), get_set_of_ne (by simp), get_set_self]
  · refine herr e c₆ (hrc₅.trans (hr₆.mono fun _ hf => hf.elim)) hcode fun m hrep => ?_
    obtain ⟨x, result', statuses', cost', hi, he, hk, hfp⟩ := hpriced hr₆ m hrep
    refine hno m x hi he ?_
    obtain rfl := Except.ok.inj (hresult.symm.trans hk.resultOk)
    obtain rfl := Except.ok.inj (hstatuses.symm.trans hk.statusesOk)
    obtain rfl := Except.ok.inj (hcost.symm.trans hk.costOk)
    exact hfp.trans hrowfp.symm

end RagQs.Usage
