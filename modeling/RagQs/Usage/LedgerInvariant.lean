import RagQs.Usage.Reconcile

/-!
# The discipline of the ledger

What every committed ledger satisfies, and what a transaction may change with the locks
it holds.  A call, its usage event and its amount-only facts change under the lock of
the call's row only; the versions of a scope change under the lock of the scope's row
only; and no call is sent under a version, nor completed under it, without the lock of
the version's row.

## Main definitions

* `Covers` — a price version is in force for a scope at a time.
* `CallInv`, `PriceInv`, `LedgerInv` — the invariant.
* `SameCall`, `Guar`, `ledgerDiscipline` — the guarantee.

## Main results

* `CallChange.commit` — a transaction on one call keeps the discipline.
* `PriceChange.commit` — so does one on the versions of one scope.
-/

namespace RagQs.Usage

open Txn Txn.Discipline Option Store

variable {c c' : Db} {id : String} {W : Key → Prop} {r : CallRow} {env : Env}

/-! ### The invariant -/

/-- The version is in force for the scope at the time. -/
def Covers (c : Db) (p : String) (scope : Scope) (s : Time) : Prop :=
  ∃ a : PriceRow, c.get (.price p) = some a ∧ a.scope = scope ∧ a.contains s = true

/-- The event is the usage event of the call. -/
def Carries (c : Db) (eventId id : String) : Prop :=
  ∃ e : EventRow, c.get (.event eventId) = some e ∧ e.providerCallId = some id

/-- What holds of one call and the rows that refer to it. -/
structure CallInv (c : Db) (id : String) : Prop where
  check : ∀ r : CallRow, c.get (.call id) = some r → r.check = true
  index : ∀ eventId, c.get (.eventOfCall id) = some eventId ↔ Carries c eventId id
  completed : (∃ eventId, c.get (.eventOfCall id) = some eventId) ↔
    ∃ r : CallRow, c.get (.call id) = some r ∧ r.status = .completed
  amount : ∀ rid (x : ReconciliationRow), c.get (.reconciliation rid) = some x →
    x.providerCallId = some id → x.reconciliationKind = .amountOnly →
    ∃ r : CallRow, c.get (.call id) = some r ∧ r.status = .unknown
  covered : ∀ (r : CallRow) s, c.get (.call id) = some r → r.startedAtUtc = some s →
    ∃ p, Covers c p r.scope s
  event : ∀ eventId (e : EventRow) (r : CallRow), c.get (.event eventId) = some e →
    e.providerCallId = some id → c.get (.call id) = some r →
    e.eventKind = .providerUsage ∧ r.startedAtUtc = some e.startedAtUtc ∧
      e.effectiveAtUtc = e.startedAtUtc ∧ Covers c e.priceVersionId r.scope e.startedAtUtc

/-- What holds of the price catalogue: intervals are not empty, and those of a scope are
disjoint, in the order of their starts. -/
structure PriceInv (c : Db) : Prop where
  interval : ∀ p (a : PriceRow) t, c.get (.price p) = some a → a.effectiveToUtc = some t →
    a.effectiveFromUtc < t
  distinct : ∀ p q (a b : PriceRow), c.get (.price p) = some a → c.get (.price q) = some b →
    a.scope = b.scope → a.effectiveFromUtc = b.effectiveFromUtc → p = q
  disjoint : ∀ p q (a b : PriceRow), c.get (.price p) = some a → c.get (.price q) = some b →
    a.scope = b.scope → a.effectiveFromUtc < b.effectiveFromUtc →
    ∃ t, a.effectiveToUtc = some t ∧ t ≤ b.effectiveFromUtc

/-- The invariant of the ledger. -/
structure LedgerInv (env : Env) (c : Db) : Prop where
  calendar : ∀ r : CalendarRow, c.get .calendar = some r → r.timezone = env.timezone
  price : PriceInv c
  call : ∀ id, CallInv c id

theorem PriceInv.unique (h : PriceInv c) {p q : String} {scope : Scope} {s : Time}
    (hp : Covers c p scope s) (hq : Covers c q scope s) : p = q := by
  obtain ⟨a, ha, has, hac⟩ := hp
  obtain ⟨b, hb, hbs, hbc⟩ := hq
  rw [PriceRow.contains_iff] at hac hbc
  have hscope : a.scope = b.scope := has.trans hbs.symm
  rcases lt_trichotomy a.effectiveFromUtc b.effectiveFromUtc with hlt | heq | hlt
  · obtain ⟨t, ht, hle⟩ := h.disjoint p q a b ha hb hscope hlt
    exact absurd (lt_of_lt_of_le (hac.2 t ht) hle) (not_lt.mpr hbc.1)
  · exact h.distinct p q a b ha hb hscope heq
  · obtain ⟨t, ht, hle⟩ := h.disjoint q p b a hb ha hscope.symm hlt
    exact absurd (lt_of_lt_of_le (hbc.2 t ht) hle) (not_lt.mpr hac.1)

/-! ### The guarantee -/

/-- The statuses a call can reach from a status. -/
def CallStatus.leads : CallStatus → CallStatus → Bool
  | .prepared, _ => true
  | .dispatching, t => t ≠ .prepared
  | .unknown, t => t = .unknown || t.terminal
  | .completed, t => t = .completed
  | .notSent, t => t = .notSent

@[simp] theorem CallStatus.leads_refl (s : CallStatus) : s.leads s = true := by
  cases s <;> rfl

theorem CallStatus.leads_trans {a b c : CallStatus} (h₁ : a.leads b = true)
    (h₂ : b.leads c = true) : a.leads c = true := by
  revert h₁ h₂
  cases a <;> cases b <;> cases c <;> decide

theorem CallStatus.sent_between {a b c : CallStatus} (h₁ : a.leads b = true)
    (h₂ : b.leads c = true) (ha : a.sent = true) (hc : c.sent = true) : b.sent = true := by
  revert h₁ h₂ ha hc
  cases a <;> cases b <;> cases c <;> decide

theorem CallStatus.eq_of_terminal {a b : CallStatus} (h : a.leads b = true)
    (ha : a.terminal = true) : b = a := by
  revert h ha
  cases a <;> cases b <;> decide

/-- Nothing about the call has changed. -/
structure SameCall (id : String) (c c' : Db) : Prop where
  call : c'.get (.call id) = c.get (.call id)
  index : c'.get (.eventOfCall id) = c.get (.eventOfCall id)
  event : ∀ eventId (e : EventRow), e.providerCallId = some id →
    (c'.get (.event eventId) = some e ↔ c.get (.event eventId) = some e)
  amount : ∀ rid (x : ReconciliationRow), x.providerCallId = some id →
    (c'.get (.reconciliation rid) = some x ↔ c.get (.reconciliation rid) = some x)

theorem SameCall.refl (id : String) (c : Db) : SameCall id c c :=
  ⟨rfl, rfl, fun _ _ _ => Iff.rfl, fun _ _ _ => Iff.rfl⟩

theorem SameCall.trans {a b : Db} (h₁ : SameCall id a b) (h₂ : SameCall id b c) : SameCall id a c :=
  ⟨h₂.call.trans h₁.call, h₂.index.trans h₁.index,
    fun n e he => (h₂.event n e he).trans (h₁.event n e he),
    fun n x hx => (h₂.amount n x hx).trans (h₁.amount n x hx)⟩

/-- The call has left at `s` and may still need the price in force at that time. -/
def SentAt (c : Db) (id : String) (scope : Scope) (s : Time) : Prop :=
  ∃ r : CallRow, c.get (.call id) = some r ∧ r.status.sent = true ∧ r.startedAtUtc = some s ∧
    r.scope = scope

/-- The call is completed. -/
def Completed (c : Db) (id : String) : Prop :=
  ∃ r : CallRow, c.get (.call id) = some r ∧ r.status = .completed

/-- A call row may become another: the facts stay, the status moves on, and a call that
has left keeps its send time. -/
structure CallRow.Step (r r' : CallRow) : Prop where
  facts : r'.toCallFacts = r.toCallFacts
  leads : r.status.leads r'.status = true
  started : r.status.sent = true → r'.status.sent = true → r'.startedAtUtc = r.startedAtUtc

theorem CallRow.Step.refl (r : CallRow) : r.Step r := ⟨rfl, by simp, fun _ _ => rfl⟩

theorem CallRow.Step.trans {a b c : CallRow} (h₁ : a.Step b) (h₂ : b.Step c) : a.Step c := by
  refine ⟨h₂.facts.trans h₁.facts, CallStatus.leads_trans h₁.leads h₂.leads, fun ha hc => ?_⟩
  have hb := CallStatus.sent_between h₁.leads h₂.leads ha hc
  exact (h₂.started hb hc).trans (h₁.started ha hb)

/-- What a transaction may change with the locks `W`. -/
structure Guar (W : Key → Prop) (c c' : Db) : Prop where
  /-- A call changes under its lock. -/
  same : ∀ id, ¬ W (.call id) → SameCall id c c'
  /-- A call moves along its life. -/
  step : ∀ id (r : CallRow), c.get (.call id) = some r →
    ∃ r' : CallRow, c'.get (.call id) = some r' ∧ r.Step r'
  /-- Events are never changed. -/
  event : ∀ eventId (e : EventRow), c.get (.event eventId) = some e →
    c'.get (.event eventId) = some e
  calendar : ∀ r : CalendarRow, c.get .calendar = some r → c'.get .calendar = some r
  /-- Of a version only the end changes. -/
  facts : ∀ p (a : PriceRow), c.get (.price p) = some a →
    ∃ a' : PriceRow, c'.get (.price p) = some a' ∧ a'.toPriceFacts = a.toPriceFacts
  /-- A version changes under its lock. -/
  price : ∀ p, ¬ W (.price p) → c'.get (.price p) = c.get (.price p)
  /-- The row of a scope is never deleted. -/
  scopeRow : ∀ sc, (c.get (.priceScope sc)).isSome = true →
    (c'.get (.priceScope sc)).isSome = true
  /-- The versions of a scope change under its lock. -/
  scope : ∀ p (a : PriceRow), ¬ W (.priceScope a.scope) →
    (c'.get (.price p) = some a ↔ c.get (.price p) = some a)
  /-- The version a call was sent under stays in force for it. -/
  cover : ∀ id p scope s, SentAt c id scope s → SentAt c' id scope s → Covers c p scope s →
    Covers c' p scope s
  /-- A call is sent, and completed, under the lock of a version. -/
  sent : ∀ id p scope s, ¬ W (.price p) → Covers c' p scope s → SentAt c' id scope s →
    SentAt c id scope s ∧ (Completed c' id → Completed c id)

theorem Guar.refl (W : Key → Prop) (c : Db) : Guar W c c where
  same id _ := .refl id c
  step _ r h := ⟨r, h, .refl r⟩
  event _ _ h := h
  calendar _ h := h
  facts _ a h := ⟨a, h, rfl⟩
  price _ _ := rfl
  scopeRow _ h := h
  scope _ _ _ := Iff.rfl
  cover _ _ _ _ _ _ h := h
  sent _ _ _ _ _ _ h := ⟨h, id⟩

theorem Guar.mono {W' : Key → Prop} (hW : ∀ k, W k → W' k) (h : Guar W c c') : Guar W' c c' where
  same id hid := h.same id fun hw => hid (hW _ hw)
  step := h.step
  event := h.event
  calendar := h.calendar
  facts := h.facts
  price p hp := h.price p fun hw => hp (hW _ hw)
  scopeRow := h.scopeRow
  scope p a ha := h.scope p a fun hw => ha (hW _ hw)
  cover := h.cover
  sent id p scope s hp := h.sent id p scope s fun hw => hp (hW _ hw)

theorem Guar.sentAt_between {a b : Db} (h₁ : Guar W a b) (h₂ : Guar W b c) {scope : Scope}
    {s : Time} (ha : SentAt a id scope s) (hc : SentAt c id scope s) : SentAt b id scope s := by
  obtain ⟨ra, hra, hsa, hta, hfa⟩ := ha
  obtain ⟨rc, hrc, hsc, htc, hfc⟩ := hc
  obtain ⟨rb, hrb, hab⟩ := h₁.step id ra hra
  obtain ⟨rc', hrc', hbc⟩ := h₂.step id rb hrb
  obtain rfl : rc = rc' := some.inj (hrc.symm.trans hrc')
  have hsb := CallStatus.sent_between hab.leads hbc.leads hsa hsc
  exact ⟨rb, hrb, hsb, (hab.started hsa hsb).trans hta, (congrArg _ hab.facts).trans hfa⟩

theorem Guar.trans {a b : Db} (h₁ : Guar W a b) (h₂ : Guar W b c) : Guar W a c where
  same id hid := (h₁.same id hid).trans (h₂.same id hid)
  step id r hr := by
    obtain ⟨r', hr', h⟩ := h₁.step id r hr
    obtain ⟨r'', hr'', h'⟩ := h₂.step id r' hr'
    exact ⟨r'', hr'', h.trans h'⟩
  event n e h := h₂.event n e (h₁.event n e h)
  calendar r h := h₂.calendar r (h₁.calendar r h)
  facts p x hx := by
    obtain ⟨y, hy, hf⟩ := h₁.facts p x hx
    obtain ⟨z, hz, hf'⟩ := h₂.facts p y hy
    exact ⟨z, hz, hf'.trans hf⟩
  price p hp := (h₂.price p hp).trans (h₁.price p hp)
  scopeRow sc h := h₂.scopeRow sc (h₁.scopeRow sc h)
  scope p x hx := (h₂.scope p x hx).trans (h₁.scope p x hx)
  cover id p scope s ha hc hcov := by
    have hb := h₁.sentAt_between h₂ ha hc
    exact h₂.cover id p scope s hb hc (h₁.cover id p scope s ha hb hcov)
  sent id p scope s hp hcov hc := by
    obtain ⟨hb, hcb⟩ := h₂.sent id p scope s hp hcov hc
    have hcovb : Covers b p scope s := by
      obtain ⟨x, hx, hxs, hxc⟩ := hcov
      exact ⟨x, (h₂.price p hp).symm.trans hx, hxs, hxc⟩
    obtain ⟨ha, hba⟩ := h₁.sent id p scope s hp hcovb hb
    exact ⟨ha, fun h => hba (hcb h)⟩

/-- The discipline of the ledger. -/
def ledgerDiscipline (env : Env) : Discipline Row where
  Inv := LedgerInv env
  guar := Guar
  refl := Guar.refl
  trans := Guar.trans
  mono := Guar.mono

/-! ### Changes that keep the discipline -/

theorem CallInv.sentAt (h : CallInv c id) {s : Time} (hr : c.get (.call id) = some r)
    (hs : r.startedAtUtc = some s) : SentAt c id r.scope s := by
  refine ⟨r, hr, ?_, hs, rfl⟩
  have := CallRow.started_iff_sent (h.check r hr)
  rw [← this, hs]
  rfl

theorem CallInv.frame (h : CallInv c id) (hsame : SameCall id c c')
    (hcover : ∀ p scope s, SentAt c id scope s → Covers c p scope s → Covers c' p scope s) :
    CallInv c' id := by
  have hcarries : ∀ n, Carries c' n id ↔ Carries c n id := fun n =>
    ⟨fun ⟨e, he, hid⟩ => ⟨e, (hsame.event n e hid).mp he, hid⟩,
     fun ⟨e, he, hid⟩ => ⟨e, (hsame.event n e hid).mpr he, hid⟩⟩
  constructor
  · intro r hr
    exact h.check r (hsame.call ▸ hr)
  · intro n
    rw [hsame.index, hcarries]
    exact h.index n
  · rw [hsame.index, hsame.call]
    exact h.completed
  · intro n x hx hid hkind
    rw [hsame.call]
    exact h.amount n x ((hsame.amount n x hid).mp hx) hid hkind
  · intro r s hr hs
    rw [hsame.call] at hr
    obtain ⟨p, hp⟩ := h.covered r s hr hs
    exact ⟨p, hcover p r.scope s (h.sentAt hr hs) hp⟩
  · intro n e r he hid hr
    rw [hsame.call] at hr
    obtain ⟨hkind, hs, heff, hcov⟩ := h.event n e r ((hsame.event n e hid).mp he) hid hr
    exact ⟨hkind, hs, heff, hcover _ _ _ (h.sentAt hr hs) hcov⟩

/-- What a transaction on one call does to the committed store. -/
structure CallChange (env : Env) (W : Key → Prop) (id : String) (c c' : Db) : Prop where
  lock : W (.call id)
  other : ∀ id', id' ≠ id → SameCall id' c c'
  event : ∀ eventId (e : EventRow), c.get (.event eventId) = some e →
    c'.get (.event eventId) = some e
  calendar : c'.get .calendar = c.get .calendar ∨
    c.get .calendar = none ∧ ∃ r : CalendarRow, c'.get .calendar = some r ∧
      r.timezone = env.timezone
  price : ∀ p, c'.get (.price p) = c.get (.price p)
  scopeRow : ∀ sc, c'.get (.priceScope sc) = c.get (.priceScope sc)
  step : ∀ r : CallRow, c.get (.call id) = some r →
    ∃ r' : CallRow, c'.get (.call id) = some r' ∧ r.Step r'
  self : CallInv c' id
  sent : ∀ scope s, SentAt c' id scope s →
    SentAt c id scope s ∧ (Completed c' id → Completed c id) ∨
      ∃ p, W (.price p) ∧ Covers c p scope s

/-- **A transaction on one call keeps the discipline.** -/
theorem CallChange.commit (h : CallChange env W id c c') (hc : LedgerInv env c) :
    LedgerInv env c' ∧ Guar W c c' := by
  have hcover : ∀ p scope s, Covers c' p scope s ↔ Covers c p scope s := by
    intro p scope s
    unfold Covers
    rw [h.price p]
  have hsame : ∀ id', ¬ W (.call id') → SameCall id' c c' := fun id' hid' =>
    h.other id' fun heq => hid' (heq ▸ h.lock)
  constructor
  · refine ⟨?_, ⟨?_, ?_, ?_⟩, fun id' => ?_⟩
    · intro r hr
      rcases h.calendar with heq | ⟨_, r', hr', htz⟩
      · exact hc.calendar r (heq ▸ hr)
      · rw [hr'] at hr
        exact some.inj hr ▸ htz
    · intro p a t ha
      exact hc.price.interval p a t (h.price p ▸ ha)
    · intro p q a b ha hb
      exact hc.price.distinct p q a b (h.price p ▸ ha) (h.price q ▸ hb)
    · intro p q a b ha hb
      exact hc.price.disjoint p q a b (h.price p ▸ ha) (h.price q ▸ hb)
    · by_cases heq : id' = id
      · exact heq ▸ h.self
      · exact (hc.call id').frame (h.other id' heq) fun p scope s _ hp =>
          (hcover p scope s).mpr hp
  · constructor
    · exact hsame
    · intro id' r hr
      by_cases heq : id' = id
      · subst heq
        exact h.step r hr
      · exact ⟨r, (h.other id' heq).call.trans hr, .refl r⟩
    · exact h.event
    · intro r hr
      rcases h.calendar with heq | ⟨hnone, _⟩
      · exact heq.trans hr
      · rw [hnone] at hr
        cases hr
    · exact fun p a ha => ⟨a, (h.price p).trans ha, rfl⟩
    · exact fun p _ => h.price p
    · exact fun sc hsc => by rw [h.scopeRow sc]; exact hsc
    · exact fun p a _ => by rw [h.price p]
    · exact fun id' p scope s _ _ hp => (hcover p scope s).mpr hp
    · intro id' p scope s hp hcov hs
      by_cases heq : id' = id
      · subst heq
        rcases h.sent scope s hs with hold | ⟨q, hq, hcovq⟩
        · exact hold
        · -- the version in force is the one that is locked
          exact absurd (hc.price.unique ((hcover p scope s).mp hcov) hcovq ▸ hq) hp
      · have hcall := (h.other id' heq).call
        unfold SentAt Completed at *
        rw [hcall] at hs ⊢
        exact ⟨hs, fun hcompleted => hcompleted⟩

/-- A transition that records no usage and fixes no send time. -/
structure CallRow.Moves (r r' : CallRow) : Prop where
  step : r.Step r'
  check : r'.check = true
  completed : r'.status = .completed ↔ r.status = .completed
  started : ∀ s, r'.startedAtUtc = some s → r.startedAtUtc = some s

theorem CallRow.Moves.trans {a b c : CallRow} (h₁ : a.Moves b) (h₂ : b.Moves c) : a.Moves c :=
  ⟨h₁.step.trans h₂.step, h₂.check, h₂.completed.trans h₁.completed,
    fun s hs => h₁.started s (h₂.started s hs)⟩

theorem CallRow.moves_notSend (now : Time) (h : r.check = true) (hopen : r.open = true) :
    r.Moves (r.notSend now) := by
  unfold CallRow.open at hopen
  unfold CallRow.check at h
  cases hs : r.status <;> simp_all [CallStatus.terminal]
  all_goals
    refine ⟨⟨rfl, ?_, fun _ hsent => ?_⟩, ?_, ?_, fun s hs' => ?_⟩
    · simp [CallRow.notSend, hs, CallStatus.leads, CallStatus.terminal]
    · simp [CallRow.notSend, CallStatus.sent] at hsent
    · simp_all [CallRow.notSend, CallRow.check]
    · simp [CallRow.notSend, hs]
    · simp [CallRow.notSend] at hs'

theorem CallRow.moves_lose (now : Time) (h : r.check = true) (hs : r.status = .dispatching) :
    r.Moves (r.lose now) := by
  unfold CallRow.check at h
  rw [hs] at h
  refine ⟨⟨rfl, ?_, fun _ _ => rfl⟩, ?_, ?_, fun s hs' => hs'⟩
  · simp [CallRow.lose, hs, CallStatus.leads]
  · simp_all [CallRow.lose, CallRow.check]
  · simp [CallRow.lose, hs]

theorem CallRow.moves_touch (now : Time) (h : r.check = true) (hs : r.completable = true) :
    r.Moves (r.touch now) := by
  refine ⟨⟨rfl, by simp [CallRow.touch], fun _ _ => rfl⟩, ?_, Iff.rfl, fun s hs' => hs'⟩
  unfold CallRow.check at h
  unfold CallRow.completable at hs
  cases hst : r.status <;> simp_all [CallRow.touch, CallRow.check]

theorem CallRow.step_complete (now : Time) (h : r.completable = true) :
    r.Step (r.complete now) := by
  unfold CallRow.completable at h
  refine ⟨rfl, ?_, fun _ _ => rfl⟩
  cases hs : r.status <;>
    simp_all [CallRow.complete, CallStatus.leads, CallStatus.terminal]

theorem CallRow.check_complete (now : Time) (h : r.check = true) (hs : r.completable = true) :
    (r.complete now).check = true := by
  unfold CallRow.completable at hs
  unfold CallRow.check at h
  cases hst : r.status <;> simp_all [CallRow.complete, CallRow.check]

/-- What happened to the rows of a call besides its own: no event, and its amount-only
facts only while it is unknown. -/
structure Quiet (env : Env) (id : String) (status : CallStatus) (c c' : Db) : Prop where
  frame : ∀ k, k ≠ .call id → k ≠ .calendar → (∀ n, k ≠ .reconciliation n) → c'.get k = c.get k
  calendar : c'.get .calendar = c.get .calendar ∨
    c.get .calendar = none ∧ ∃ r : CalendarRow, c'.get .calendar = some r ∧
      r.timezone = env.timezone
  other : ∀ n (x : ReconciliationRow), x.providerCallId ≠ some id →
    (c'.get (.reconciliation n) = some x ↔ c.get (.reconciliation n) = some x)
  amount : ∀ n (x : ReconciliationRow), c'.get (.reconciliation n) = some x →
    x.providerCallId = some id → x.reconciliationKind = .amountOnly → status = .unknown

theorem Quiet.same {status : CallStatus} (h : Quiet env id status c c') {id' : String}
    (hne : id' ≠ id) : SameCall id' c c' where
  call := h.frame _ (by simpa using hne) (by simp) (by simp)
  index := h.frame _ (by simp) (by simp) (by simp)
  event n e _ := by rw [h.frame (.event n) (by simp) (by simp) (by simp)]
  amount n x hx := h.other n x (by rw [hx]; simpa using hne)

/-- A transition that records no event keeps the discipline: it moves the call along its
life without completing it, and a new send time is one a locked version is in force at. -/
theorem CallChange.ofQuiet {r' : CallRow} (hc : LedgerInv env c) (hq : Quiet env id r'.status c c')
    (hW : W (.call id)) (hr : c.get (.call id) = some r) (hr' : c'.get (.call id) = some r')
    (hstep : r.Step r') (hcheck : r'.check = true)
    (hcompleted : r'.status = .completed ↔ r.status = .completed)
    (hstarted : ∀ s, r'.startedAtUtc = some s → r.startedAtUtc = some s ∨
      ∃ p, W (.price p) ∧ Covers c p r.scope s) : CallChange env W id c c' := by
  have hevent : ∀ n, c'.get (.event n) = c.get (.event n) := fun n =>
    hq.frame _ (by simp) (by simp) (by simp)
  have hindex : c'.get (.eventOfCall id) = c.get (.eventOfCall id) :=
    hq.frame _ (by simp) (by simp) (by simp)
  have hprice : ∀ p, c'.get (.price p) = c.get (.price p) := fun p =>
    hq.frame _ (by simp) (by simp) (by simp)
  have hcover : ∀ p scope s, Covers c' p scope s ↔ Covers c p scope s := fun p scope s => by
    unfold Covers
    rw [hprice]
  have hscope : r'.scope = r.scope := congrArg CallFacts.scope hstep.facts
  have hold := hc.call id
  have hcompl : Completed c' id ↔ Completed c id := by
    unfold Completed
    rw [hr, hr']
    simpa using hcompleted
  refine ⟨hW, fun id' hne => hq.same hne, fun n e he => (hevent n).trans he, hq.calendar, hprice,
    fun sc => hq.frame _ (by simp) (by simp) (by simp), fun x hx => ?_, ⟨?_, ?_, ?_, ?_, ?_, ?_⟩, ?_⟩
  · obtain rfl : r = x := some.inj (hr.symm.trans hx)
    exact ⟨r', hr', hstep⟩
  · intro x hx
    obtain rfl : r' = x := some.inj (hr'.symm.trans hx)
    exact hcheck
  · intro n
    rw [hindex]
    unfold Carries
    rw [hevent]
    exact hold.index n
  · rw [hindex]
    exact hold.completed.trans hcompl.symm
  · intro n x hx hid hkind
    exact ⟨r', hr', hq.amount n x hx hid hkind⟩
  · intro x s hx hs
    obtain rfl : r' = x := some.inj (hr'.symm.trans hx)
    rw [hscope]
    rcases hstarted s hs with hs | ⟨p, _, hp⟩
    · obtain ⟨p, hp⟩ := hold.covered r s hr hs
      exact ⟨p, (hcover p _ s).mpr hp⟩
    · exact ⟨p, (hcover p _ s).mpr hp⟩
  · intro n e x he hid hx
    obtain rfl : r' = x := some.inj (hr'.symm.trans hx)
    rw [hevent] at he
    obtain ⟨hkind, hs, heff, hcov⟩ := hold.event n e r he hid hr
    -- a call with an event is completed, before and after, so its send time stays
    obtain ⟨y, hy, hycompleted⟩ := hold.completed.mp ⟨n, (hold.index n).mpr ⟨e, he, hid⟩⟩
    obtain rfl : r = y := some.inj (hr.symm.trans hy)
    have hs' := hstep.started (by rw [hycompleted]; rfl) (by rw [hcompleted.mpr hycompleted]; rfl)
    exact ⟨hkind, hs'.trans hs, heff, hscope ▸ (hcover _ _ _).mpr hcov⟩
  · rintro scope s ⟨x, hx, hsent, hs, hsc⟩
    obtain rfl : r' = x := some.inj (hr'.symm.trans hx)
    rcases hstarted s hs with hs | ⟨p, hp, hcov⟩
    · left
      exact ⟨hsc ▸ hscope ▸ hold.sentAt hr hs, hcompl.mp⟩
    · right
      exact ⟨p, hp, hsc ▸ hscope ▸ hcov⟩

/-- A call that is prepared for the first time. -/
theorem CallChange.ofPrepare {facts : CallFacts} {now : Time} (hc : LedgerInv env c)
    (hW : W (.call id)) (hnone : c.get (.call id) = none) :
    CallChange env W id c (c.set (.call id) (some (preparedRow facts now))) := by
  have hframe : ∀ k, k ≠ .call id →
      (c.set (.call id) (some (preparedRow facts now))).get k = c.get k := fun k hk =>
    get_set_of_ne hk
  have hself : (c.set (.call id) (some (preparedRow facts now))).get (.call id)
      = some (preparedRow facts now) := get_set_self _ _ _
  have hold := hc.call id
  have hnoevent : c.get (.eventOfCall id) = none := by
    cases hi : c.get (.eventOfCall id) with
    | none => rfl
    | some n =>
      obtain ⟨x, hx, _⟩ := hold.completed.mp ⟨n, hi⟩
      rw [hnone] at hx
      cases hx
  have hnocarry : ∀ n, ¬ Carries c n id := fun n hn => by
    have := (hold.index n).mpr hn
    rw [hnoevent] at this
    cases this
  refine ⟨hW, fun id' hne => ⟨hframe _ (by simpa using hne), hframe _ (by simp),
    fun n e _ => by rw [hframe _ (by simp)], fun n x _ => by rw [hframe _ (by simp)]⟩,
    fun n e he => (hframe _ (by simp)).trans he, .inl (hframe _ (by simp)),
    fun p => hframe _ (by simp), fun sc => hframe _ (by simp), fun x hx => ?_, ⟨?_, ?_, ?_, ?_, ?_, ?_⟩, ?_⟩
  · rw [hnone] at hx
    cases hx
  · intro x hx
    obtain rfl : _ = x := some.inj (hself.symm.trans hx)
    rfl
  · intro n
    rw [hframe _ (by simp)]
    unfold Carries
    rw [hframe _ (by simp)]
    exact hold.index n
  · rw [hframe _ (by simp), hnoevent, hself]
    simp [preparedRow]
  · intro n x hx hid hkind
    rw [hframe _ (by simp)] at hx
    obtain ⟨y, hy, _⟩ := hold.amount n x hx hid hkind
    rw [hnone] at hy
    cases hy
  · intro x s hx hs
    obtain rfl : _ = x := some.inj (hself.symm.trans hx)
    cases hs
  · intro n e x he hid _
    rw [hframe _ (by simp)] at he
    exact absurd ⟨e, he, hid⟩ (hnocarry n)
  · rintro scope s ⟨x, hx, hsent, _⟩
    obtain rfl : _ = x := some.inj (hself.symm.trans hx)
    cases hsent

/-- A completion keeps the discipline: under the lock of the version in force at the send
time it leaves the call completed, with one event and no amount-only fact. -/
theorem CallChange.ofComplete {r' : CallRow} {eventId : String} {e : EventRow}
    (hc : LedgerInv env c) (hW : W (.call id)) (hr : c.get (.call id) = some r)
    (hsent : r.status.sent = true) (hr' : c'.get (.call id) = some r') (hstep : r.Step r')
    (hcheck : r'.check = true) (hcompleted : r'.status = .completed)
    (hframe : ∀ k, k ≠ .call id → k ≠ .calendar → (∀ n, k ≠ .reconciliation n) →
      k ≠ .event eventId → k ≠ .eventOfCall id → c'.get k = c.get k)
    (hcal : c'.get .calendar = c.get .calendar ∨
      c.get .calendar = none ∧ ∃ r : CalendarRow, c'.get .calendar = some r ∧
        r.timezone = env.timezone)
    (hother : ∀ n (x : ReconciliationRow), x.providerCallId ≠ some id →
      (c'.get (.reconciliation n) = some x ↔ c.get (.reconciliation n) = some x))
    (hamount : ∀ n (x : ReconciliationRow), c'.get (.reconciliation n) = some x →
      x.providerCallId = some id → x.reconciliationKind ≠ .amountOnly)
    (hevent : c'.get (.event eventId) = some e) (hindex : c'.get (.eventOfCall id) = some eventId)
    (hnew : c.get (.event eventId) = some e ∨
      c.get (.event eventId) = none ∧ c.get (.eventOfCall id) = none)
    (hid : e.providerCallId = some id) (hkind : e.eventKind = .providerUsage)
    (hstarted : r.startedAtUtc = some e.startedAtUtc) (heff : e.effectiveAtUtc = e.startedAtUtc)
    (hprice : W (.price e.priceVersionId)) (hcov : Covers c e.priceVersionId r.scope e.startedAtUtc) :
    CallChange env W id c c' := by
  have hpr : ∀ p, c'.get (.price p) = c.get (.price p) := fun p =>
    hframe _ (by simp) (by simp) (by simp) (by simp) (by simp)
  have hcover : ∀ p scope s, Covers c p scope s → Covers c' p scope s := fun p scope s => by
    unfold Covers
    rw [hpr]
    exact fun h => h
  have hscope : r'.scope = r.scope := congrArg CallFacts.scope hstep.facts
  have hs' : r'.startedAtUtc = some e.startedAtUtc :=
    (hstep.started hsent (by rw [hcompleted]; rfl)).trans hstarted
  have hold := hc.call id
  have heventne : ∀ n, n ≠ eventId → c'.get (.event n) = c.get (.event n) := fun n hn =>
    hframe _ (by simp) (by simp) (by simp) (by simpa using hn) (by simp)
  -- an event of the call is the one just recorded
  have honly : ∀ n, Carries c' n id → n = eventId := by
    rintro n ⟨x, hx, hxid⟩
    by_contra hne
    rw [heventne n hne] at hx
    have hi := (hold.index n).mpr ⟨x, hx, hxid⟩
    rcases hnew with hsame | ⟨_, hnone⟩
    · have := (hold.index eventId).mpr ⟨e, hsame, hid⟩
      exact hne (some.inj (hi.symm.trans this))
    · rw [hnone] at hi
      cases hi
  -- and no other call's event is changed
  have heventother : ∀ n (x : EventRow), x.providerCallId ≠ some id →
      (c'.get (.event n) = some x ↔ c.get (.event n) = some x) := by
    intro n x hx
    by_cases hn : n = eventId
    · subst hn
      constructor
      · intro h
        cases hevent.symm.trans h
        exact absurd hid hx
      · intro h
        rcases hnew with hsame | ⟨hnone, _⟩
        · cases hsame.symm.trans h
          exact absurd hid hx
        · rw [hnone] at h
          cases h
    · rw [heventne n hn]
  refine ⟨hW, fun id' hne => ⟨?_, ?_, ?_, ?_⟩, ?_, hcal, hpr,
    fun sc => hframe _ (by simp) (by simp) (by simp) (by simp) (by simp), ?_, ⟨?_, ?_, ?_, ?_, ?_, ?_⟩, ?_⟩
  · exact hframe _ (by simpa using hne) (by simp) (by simp) (by simp) (by simp)
  · exact hframe _ (by simp) (by simp) (by simp) (by simp) (by simpa using hne)
  · exact fun n x hx => heventother n x (by rw [hx]; simpa using hne)
  · exact fun n x hx => hother n x (by rw [hx]; simpa using hne)
  · intro n x hx
    by_cases hn : n = eventId
    · subst hn
      rcases hnew with hsame | ⟨hnone, _⟩
      · rw [hevent, ← hsame]
        exact hx
      · rw [hnone] at hx
        cases hx
    · exact (heventne n hn).trans hx
  · intro x hx
    obtain rfl : r = x := some.inj (hr.symm.trans hx)
    exact ⟨r', hr', hstep⟩
  · intro x hx
    obtain rfl : r' = x := some.inj (hr'.symm.trans hx)
    exact hcheck
  · intro n
    rw [hindex]
    constructor
    · intro h
      cases h
      exact ⟨e, hevent, hid⟩
    · exact fun h => (honly n h) ▸ rfl
  · rw [hindex, hr']
    simp [hcompleted]
  · intro n x hx hxid hxkind
    exact absurd hxkind (hamount n x hx hxid)
  · intro x s hx hs
    obtain rfl : r' = x := some.inj (hr'.symm.trans hx)
    rw [hs', some.injEq] at hs
    exact ⟨e.priceVersionId, hcover _ _ _ (hscope ▸ hs ▸ hcov)⟩
  · intro n x y hx hxid hy
    obtain rfl : r' = y := some.inj (hr'.symm.trans hy)
    obtain rfl := honly n ⟨x, hx, hxid⟩
    obtain rfl : e = x := some.inj (hevent.symm.trans hx)
    exact ⟨hkind, hs', heff, hcover _ _ _ (hscope ▸ hcov)⟩
  · rintro scope s ⟨x, hx, _, hs, hsc⟩
    obtain rfl : r' = x := some.inj (hr'.symm.trans hx)
    rw [hs', some.injEq] at hs
    exact .inr ⟨e.priceVersionId, hprice, hsc ▸ hscope ▸ hs ▸ hcov⟩

/-- What a transaction on the versions of one scope does to the committed store. -/
structure PriceChange (W : Key → Prop) (scope : Scope) (c c' : Db) : Prop where
  lock : W (.priceScope scope)
  call : ∀ id, SameCall id c c'
  event : ∀ eventId, c'.get (.event eventId) = c.get (.event eventId)
  calendar : c'.get .calendar = c.get .calendar
  other : ∀ p (a : PriceRow), a.scope ≠ scope →
    (c'.get (.price p) = some a ↔ c.get (.price p) = some a)
  facts : ∀ p (a : PriceRow), c.get (.price p) = some a →
    ∃ a' : PriceRow, c'.get (.price p) = some a' ∧ a'.toPriceFacts = a.toPriceFacts
  price : ∀ p, ¬ W (.price p) → c'.get (.price p) = c.get (.price p)
  scopeRow : ∀ sc, (c.get (.priceScope sc)).isSome = true →
    (c'.get (.priceScope sc)).isSome = true
  inv : PriceInv c'
  cover : ∀ id p scope s, SentAt c id scope s → Covers c p scope s → Covers c' p scope s

/-- **A transaction on the versions of one scope keeps the discipline.** -/
theorem PriceChange.commit {scope : Scope} (h : PriceChange W scope c c') (hc : LedgerInv env c) :
    LedgerInv env c' ∧ Guar W c c' := by
  constructor
  · exact ⟨fun r hr => hc.calendar r (h.calendar ▸ hr), h.inv,
      fun id => (hc.call id).frame (h.call id) fun p sc s hs hp => h.cover id p sc s hs hp⟩
  · constructor
    · exact fun id _ => h.call id
    · exact fun id r hr => ⟨r, (h.call id).call.trans hr, .refl r⟩
    · exact fun n e he => (h.event n).trans he
    · exact fun r hr => h.calendar.trans hr
    · exact h.facts
    · exact h.price
    · exact h.scopeRow
    · exact fun p a ha => h.other p a fun heq => ha (heq ▸ h.lock)
    · exact fun id p sc s hs _ hp => h.cover id p sc s hs hp
    · intro id p sc s _ _ hs
      have hcall := (h.call id).call
      unfold SentAt Completed at *
      rw [hcall] at hs ⊢
      exact ⟨hs, fun hcompleted => hcompleted⟩

end RagQs.Usage
