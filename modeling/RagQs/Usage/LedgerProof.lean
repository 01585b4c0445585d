import RagQs.Usage.LedgerInvariant

/-!
# The transactions of the ledger keep its discipline

One rule for each statement group the transactions are built from, then one lemma for
each transaction.

## Main definitions

* `Cleared` — the amount-only facts of a call are deleted in the pending writes.
* `CalendarOk` — what the pending writes do to the calendar.

## Main results

* `wp_markNotSent`, `wp_complete`, … — one for each transaction of the ledger.
-/

namespace RagQs.Usage

open Txn Txn.Discipline Option Store AList

variable {α : Type} {env : Env} {A : Tx α → Db → Prop} {Q : α → Assn Row} {G : Err → Prop}
  {c c' d : Db} {H : Key → Prop} {id : String}

variable {now : Time} {keys : List Key} {r r' : CallRow} {scope : Scope}
variable {E : Err → Assn Row} {at_ : Time} {provider : StartedAtProvider}

/-- Where errors end: what they are is all that is said of them. -/
abbrev raises (G : Err → Prop) : Err → Assn Row := fun e _ _ _ => G e

theorem sameCall_of_rely (h : (ledgerDiscipline env).Rely H c c') (hH : H (.call id)) :
    SameCall id c c' :=
  h.guar.same id fun hn => hn hH

/-! ### Rules -/

theorem wp_requireCall_bind {f : CallRow → Tx α}
    (hok : ∀ c' (r : CallRow), (ledgerDiscipline env).Rely H c c' →
      (d ∪ c' : Db).get (.call id) = some r →
      (ledgerDiscipline env).wp A (f r) Q (raises G) c' d H)
    (herr : ∀ c', (ledgerDiscipline env).Rely H c c' → (d ∪ c' : Db).get (.call id) = none →
      G callNotFound) :
    (ledgerDiscipline env).wp A (requireCall id >>= f) Q (raises G) c d H := by
  unfold requireCall
  rw [Prog.bind_assoc]
  refine wp_readRow_bind fun c' hr => wp_orRaise_bind (fun r hget => hok c' r hr hget) ?_
  exact fun hnone _ _ => herr c' hr hnone

/-- What the pending writes of a transaction do to the calendar row: nothing, or they
create it while its lock is held. -/
def CalendarOk (env : Env) (c d : Db) (H : Key → Prop) : Prop :=
  (∀ s : Db, (d ∪ s : Db).get .calendar = s.get .calendar) ∨
    H .calendar ∧ c.get .calendar = none ∧
      ∃ r : CalendarRow, r.timezone = env.timezone ∧
        ∀ s : Db, (d ∪ s : Db).get .calendar = some r

theorem CalendarOk.rely (h : CalendarOk env c d H) (hr : (ledgerDiscipline env).Rely H c c') :
    CalendarOk env c' d H := by
  rcases h with h | ⟨hH, hnone, hnew⟩
  · exact .inl h
  · exact .inr ⟨hH, (hr.rows _ hH).trans hnone, hnew⟩

theorem CalendarOk.commit (h : CalendarOk env c d H) :
    (d ∪ c : Db).get .calendar = c.get .calendar ∨
      c.get .calendar = none ∧ ∃ r : CalendarRow, (d ∪ c : Db).get .calendar = some r ∧
        r.timezone = env.timezone := by
  rcases h with h | ⟨_, hnone, r, htz, hnew⟩
  · exact .inl (h c)
  · exact .inr ⟨hnone, r, hnew c, htz⟩

/-- `_read_existing_lock` reads the row, whose timezone is the configured one. -/
private theorem wp_readExistingLock_bind {f : Option CalendarLock → Tx α}
    (hd : ∀ s : Db, (d ∪ s : Db).get .calendar = s.get .calendar)
    (hsome : ∀ c' (r : CalendarRow), (ledgerDiscipline env).Rely H c c' →
      c'.get .calendar = some r → r.timezone = env.timezone →
      (ledgerDiscipline env).wp A (f (some ⟨r.versionId, r.timezone, r.effectiveFromUtc⟩)) Q
        (raises G) c' d H)
    (hnone : ∀ c', (ledgerDiscipline env).Rely H c c' → c'.get .calendar = none →
      (ledgerDiscipline env).wp A (f none) Q (raises G) c' d H) :
    (ledgerDiscipline env).wp A (readExistingLock env >>= f) Q (raises G) c d H := by
  unfold readExistingLock
  rw [Prog.bind_assoc]
  refine wp_readRow_bind fun c' hr => ?_
  have hinv : LedgerInv env c' := hr.inv
  rw [hd c']
  cases hcal : (c'.get .calendar : Option CalendarRow) with
  | none => exact hnone c' hr hcal
  | some r =>
    have htz := hinv.calendar r hcal
    simp only [Prog.bind_assoc]
    exact wp_raiseIf_bind (fun _ => hsome c' r hr hcal htz) fun hne => absurd htz hne

/-- `lock_or_verify` never fails: the row is there with the configured timezone or it is
created, and nobody deletes it. -/
theorem wp_lockOrVerify_bind {token : String} {f : CalendarLock → Tx α}
    (hd : ∀ s : Db, (d ∪ s : Db).get .calendar = s.get .calendar)
    (h : ∀ c' d' H' lock, (ledgerDiscipline env).Rely H c c' → (∀ k, H k → H' k) →
      (∀ (s : Db) k, k ≠ .calendar → (d' ∪ s : Db).get k = (d ∪ s : Db).get k) →
      CalendarOk env c' d' H' → lock.timezone = env.timezone →
      (ledgerDiscipline env).wp A (f lock) Q (raises G) c' d' H') :
    (ledgerDiscipline env).wp A (lockOrVerify env now token >>= f) Q (raises G) c d H := by
  unfold lockOrVerify
  rw [Prog.bind_assoc]
  refine wp_readExistingLock_bind hd (fun c₁ r hr₁ _ htz => ?_) fun c₁ hr₁ _ => ?_
  · exact h c₁ d H _ hr₁ (fun _ hk => hk) (fun _ _ _ => rfl) (.inl hd) htz
  · simp only [Prog.bind_assoc]
    refine wp_insertOrSkip_bind (fun c₂ hr₂ hsome => ?_) (fun _ _ _ ht => by cases ht)
      fun c₂ hr₂ hget _ => ?_
    · -- another transaction created it meanwhile, and it stays
      rw [hd c₂] at hsome
      obtain ⟨r, hr⟩ := isSome_iff_exists.mp hsome
      simp only [if_neg Bool.false_ne_true, Prog.bind_assoc]
      refine wp_readExistingLock_bind hd (fun c₃ r' hr₃ _ htz => ?_) fun c₃ hr₃ hnone => ?_
      · exact h c₃ d H _ ((hr₁.trans hr₂).trans hr₃) (fun _ hk => hk) (fun _ _ _ => rfl) (.inl hd)
          htz
      · have hg : Guar (fun k => ¬ H k) c₂ c₃ := hr₃.guar
        rw [hg.calendar r hr] at hnone
        cases hnone
    · rw [hd c₂] at hget
      refine h c₂ _ _ _ (hr₁.trans hr₂) (fun _ hk => Or.inl hk) (fun s k hk => ?_) (.inr
        ⟨Or.inr (by simp), hget, ⟨"cal_" ++ token, env.timezone, now, now⟩, rfl, fun s => ?_⟩) rfl
      · simp [get_set_of_ne hk]
      · simp

/-- The amount-only facts of the call are deleted in the pending writes. -/
structure Cleared (id : String) (keys : List Key) (c d : Db) (H : Key → Prop) : Prop where
  held : ∀ n, .reconciliation n ∈ keys → H (.reconciliation n) ∧
    ∃ x : ReconciliationRow, c.get (.reconciliation n) = some x ∧ x.providerCallId = some id
  all : ∀ n (x : ReconciliationRow), c.get (.reconciliation n) = some x →
    x.providerCallId = some id → x.reconciliationKind = .amountOnly → .reconciliation n ∈ keys
  view : ∀ (s : Db) n, (d ∪ s : Db).get (.reconciliation n)
    = if .reconciliation n ∈ keys then none else s.get (.reconciliation n)

theorem Cleared.rely (h : Cleared id keys c d H) (hH : H (.call id))
    (hr : (ledgerDiscipline env).Rely H c c') : Cleared id keys c' d H := by
  refine ⟨fun n hn => ?_, fun n x hx hid hkind => ?_, h.view⟩
  · obtain ⟨hlock, x, hx, hid⟩ := h.held n hn
    exact ⟨hlock, x, (hr.rows _ hlock).trans hx, hid⟩
  · exact h.all n x (((sameCall_of_rely hr hH).amount n x hid).mp hx) hid hkind

theorem Cleared.other (h : Cleared id keys c d H) (n : String) (x : ReconciliationRow)
    (hx : x.providerCallId ≠ some id) :
    (d ∪ c : Db).get (.reconciliation n) = some x ↔ c.get (.reconciliation n) = some x := by
  rw [h.view]
  by_cases hn : .reconciliation n ∈ keys
  · obtain ⟨_, y, hy, hyid⟩ := h.held n hn
    rw [if_pos hn]
    constructor
    · intro hnone
      cases hnone
    · intro hsome
      obtain rfl : y = x := some.inj (hy.symm.trans hsome)
      exact absurd hyid hx
  · rw [if_neg hn]

theorem Cleared.gone (h : Cleared id keys c d H) (n : String) (x : ReconciliationRow)
    (hx : (d ∪ c : Db).get (.reconciliation n) = some x) (hid : x.providerCallId = some id) :
    x.reconciliationKind ≠ .amountOnly := by
  intro hkind
  rw [h.view] at hx
  by_cases hn : .reconciliation n ∈ keys
  · rw [if_pos hn] at hx
    cases hx
  · rw [if_neg hn] at hx
    exact hn (h.all n x hx hid hkind)

variable {f : Unit → Tx α}

theorem wp_deleteAmountOnly_bind
    (hd : ∀ (s : Db) n, (d ∪ s : Db).get (.reconciliation n) = s.get (.reconciliation n))
    (h : ∀ c' d' H' keys, (ledgerDiscipline env).Rely H c c' → (∀ k, H k → H' k) →
      (∀ (s : Db) k, (∀ n, k ≠ .reconciliation n) → (d' ∪ s : Db).get k = (d ∪ s : Db).get k) →
      keys = amountOnlyKeys (d ∪ c') id → (keys = [] → d' = d) → Cleared id keys c' d' H' →
      (ledgerDiscipline env).wp A (f ()) Q (raises G) c' d' H') :
    (ledgerDiscipline env).wp A (deleteAmountOnly id >>= f) Q (raises G) c d H := by
  refine wp_statement_bind fun c' hr => ?_
  refine h c' _ _ _ hr (fun _ hk => Or.inl hk) (fun s k hk => ?_) rfl (fun hnil => ?_) ⟨fun n hn => ⟨Or.inr ?_, ?_⟩,
    fun n x hx hid hkind => ?_, fun s n => ?_⟩
  · rw [applyAll_union, get_applyAll_delete, if_neg]
    intro hmem
    obtain ⟨n, rfl⟩ := eq_reconciliation_of_mem hmem
    exact hk n rfl
  · simp [hnil]
  · simpa [needed] using hn
  · obtain ⟨x, hx, hid, _⟩ := mem_amountOnlyKeys.mp hn
    exact ⟨x, hd c' n ▸ hx, hid⟩
  · exact mem_amountOnlyKeys.mpr ⟨x, (hd c' n).trans hx, hid, hkind⟩
  · rw [applyAll_union, get_applyAll_delete, hd]

/-! ### Ends -/

/-- Whatever the others still do, the pending writes may be committed. -/
def Committable (env : Env) (c d : Db) (H : Key → Prop) : Prop :=
  ∀ c', (ledgerDiscipline env).Rely H c c' → LedgerInv env (d ∪ c') ∧ Guar H c' (d ∪ c')

theorem committable_empty : Committable env c ∅ H := by
  intro c' hr
  rw [empty_union]
  exact ⟨hr.inv, .refl H c'⟩

theorem committable_moved (hH : H (.call id)) (hr : c.get (.call id) = some r) (hm : r.Moves r')
    (hunknown : r.status = .unknown → r'.status = .unknown)
    (hcall : ∀ s : Db, (d ∪ s : Db).get (.call id) = some r')
    (hframe : ∀ (s : Db) k, k ≠ .call id → (d ∪ s : Db).get k = s.get k) :
    Committable env c d H := by
  intro c' hrely
  have hr' : c'.get (.call id) = some r := (hrely.rows _ hH).trans hr
  have hinv : LedgerInv env c' := hrely.inv
  refine (CallChange.ofQuiet hinv ⟨fun k hk _ _ => hframe c' k hk,
    .inl (hframe c' _ (by simp)), fun n x _ => by rw [hframe c' _ (by simp)],
    fun n x hx hid hkind => ?_⟩ hH hr' (hcall c') hm.step hm.check hm.completed
    fun s hs => .inl (hm.started s hs)).commit hinv
  rw [hframe c' _ (by simp)] at hx
  obtain ⟨y, hy, hyu⟩ := (hinv.call id).amount n x hx hid hkind
  obtain rfl : r = y := some.inj (hr'.symm.trans hy)
  exact hunknown hyu

theorem committable_set (hH : H (.call id)) (hr : c.get (.call id) = some r) (hm : r.Moves r')
    (hunknown : r.status = .unknown → r'.status = .unknown) :
    Committable env c ((∅ : Db).set (.call id) (some r')) H :=
  committable_moved hH hr hm hunknown (fun s => by rw [set_union, get_set_self])
    fun s k hk => by rw [set_union, empty_union, get_set_of_ne hk]

theorem committable_cleared (hH : H (.call id)) (hr : c.get (.call id) = some r) (hm : r.Moves r')
    (hcl : Cleared id keys c d H) (hcall : ∀ s : Db, (d ∪ s : Db).get (.call id) = some r')
    (hframe : ∀ (s : Db) k, k ≠ .call id → (∀ n, k ≠ .reconciliation n) →
      (d ∪ s : Db).get k = s.get k) : Committable env c d H := by
  intro c' hrely
  have hcl' := hcl.rely hH hrely
  have hinv : LedgerInv env c' := hrely.inv
  refine (CallChange.ofQuiet hinv ⟨fun k hk _ hk' => hframe c' k hk hk',
    .inl (hframe c' _ (by simp) (by simp)), hcl'.other, fun n x hx hid hkind => ?_⟩ hH
    ((hrely.rows _ hH).trans hr) (hcall c') hm.step hm.check hm.completed
    fun s hs => .inl (hm.started s hs)).commit hinv
  exact absurd hkind (hcl'.gone n x hx hid)

/-! ### Transitions of a call

Each is the first to write in its transaction. -/

theorem wp_transition_bind {cond : CallRow → Bool} {g : CallRow → CallRow} {f : ℕ → Tx α}
    (hmiss : ∀ c', (ledgerDiscipline env).Rely H c c' →
      (∀ r : CallRow, c'.get (.call id) = some r → cond r = false) →
      (ledgerDiscipline env).wp A (f 0) Q (raises G) c' ∅ H)
    (hhit : ∀ c' (r : CallRow), (ledgerDiscipline env).Rely H c c' →
      c'.get (.call id) = some r → r.check = true → cond r = true →
      (ledgerDiscipline env).wp A (f 1) Q (raises G) c' ((∅ : Db).set (.call id) (some (g r)))
        (fun k => H k ∨ k = .call id)) :
    (ledgerDiscipline env).wp A (updateWhere (.call id) cond g >>= f) Q (raises G) c ∅ H := by
  refine wp_updateWhere_bind (fun c' hr hn => ?_) fun c' r hr hget hcond => ?_
  · exact hmiss c' hr fun r hget => hn r (by rw [empty_union]; exact hget)
  · rw [empty_union] at hget
    have hinv : LedgerInv env c' := hr.inv
    exact hhit c' r hr hget ((hinv.call id).check r hget) hcond

/-- `confirmStatus` reads at most. -/
theorem wp_confirmStatus_bind {updated : ℕ} {status : CallStatus} (hG : ∀ e, G e)
    (hone : updated = 1 → (ledgerDiscipline env).wp A (f ()) Q (raises G) c d H)
    (hother : updated ≠ 1 → ∀ c' (r : CallRow), (ledgerDiscipline env).Rely H c c' →
      (d ∪ c' : Db).get (.call id) = some r → r.status = status →
      (ledgerDiscipline env).wp A (f ()) Q (raises G) c' d H) :
    (ledgerDiscipline env).wp A (confirmStatus id updated status >>= f) Q (raises G) c d H := by
  unfold confirmStatus
  by_cases h : updated = 1
  · rw [if_pos h]
    exact hone h
  · rw [if_neg h, Prog.bind_assoc]
    refine wp_requireCall_bind (fun c' r hr hget => ?_) fun _ _ _ => hG _
    exact wp_raiseIf_bind (fun hst => hother h c' r hr hget (by simpa using hst))
      fun _ _ _ => hG _

/-- The rest of a transaction that may be committed from here on. -/
abbrev WpRest (env : Env) (A : Tx α → Db → Prop) (Q : α → Assn Row) (G : Err → Prop) (c : Db)
    (p : Tx α) : Prop :=
  ∀ c' d' H', (ledgerDiscipline env).Rely (fun _ => False) c c' → Committable env c' d' H' →
    (ledgerDiscipline env).wp A p Q (raises G) c' d' H'

theorem rely_none (h : (ledgerDiscipline env).Rely H c c') :
    (ledgerDiscipline env).Rely (fun _ => False) c c' :=
  h.mono fun _ hf => hf.elim

theorem wp_markUnknown_bind {allowTerminal : Bool} {f : Bool → Tx α} (hG : ∀ e, G e)
    (h : ∀ b, WpRest env A Q G c (f b)) :
    (ledgerDiscipline env).wp A (markUnknown id allowTerminal now >>= f) Q (raises G) c ∅ H := by
  unfold markUnknown
  rw [Prog.bind_assoc]
  refine wp_transition_bind (fun c₁ hr₁ _ => ?_) fun c₁ r hr₁ hget hcheck hcond => ?_
  · rw [if_neg Nat.zero_ne_one, Prog.bind_assoc]
    refine wp_requireCall_bind (fun c₂ r hr₂ _ => ?_) fun _ _ _ => hG _
    rw [Prog.bind_assoc]
    refine wp_raiseIf_bind (fun _ => ?_) fun _ _ _ => hG _
    exact h false c₂ ∅ _ (rely_none (hr₁.trans hr₂)) committable_empty
  · refine h true c₁ _ _ (rely_none hr₁) (committable_set (Or.inr rfl) hget ?_ fun hu => ?_)
    · exact CallRow.moves_lose now hcheck (by simpa using hcond)
    · rfl

theorem wp_markExpired_bind {olderThanUtc currentUtc : Time} {f : Bool → Tx α} (hG : ∀ e, G e)
    (h : ∀ b, WpRest env A Q G c (f b)) :
    (ledgerDiscipline env).wp A
      (markExpiredDispatchingUnknown id olderThanUtc currentUtc now >>= f) Q (raises G) c ∅ H := by
  unfold markExpiredDispatchingUnknown
  rw [Prog.bind_assoc]
  refine wp_transition_bind (fun c₁ hr₁ _ => ?_) fun c₁ r hr₁ hget hcheck hcond => ?_
  · rw [if_neg Nat.zero_ne_one, Prog.bind_assoc]
    refine wp_requireCall_bind (fun c₂ r hr₂ _ => ?_) fun _ _ _ => hG _
    rw [Prog.bind_assoc]
    refine wp_raiseIf_bind (fun _ => ?_) fun _ _ _ => hG _
    exact h false c₂ ∅ _ (rely_none (hr₁.trans hr₂)) committable_empty
  · simp only [Bool.and_eq_true, decide_eq_true_eq] at hcond
    refine h true c₁ _ _ (rely_none hr₁) (committable_set (Or.inr rfl) hget ?_ fun hu => ?_)
    · exact CallRow.moves_lose now hcheck hcond.1.1
    · rfl

theorem wp_touch_bind (h : WpRest env A Q G c (f ())) :
    (ledgerDiscipline env).wp A (touchReconcileAttempt id now >>= f) Q (raises G) c ∅ H := by
  unfold touchReconcileAttempt
  rw [Prog.bind_assoc]
  refine wp_transition_bind (fun c₁ hr₁ _ => ?_) fun c₁ r hr₁ hget hcheck hcond => ?_
  · exact h c₁ ∅ _ (rely_none hr₁) committable_empty
  · refine h c₁ _ _ (rely_none hr₁) (committable_set (Or.inr rfl) hget ?_ fun hu => hu)
    exact CallRow.moves_touch now hcheck hcond

/-- What becomes of the call's row: nothing, or it was a row with `ok` and is locked. -/
def Retires (env : Env) (id : String) (ok : CallRow → Prop) (c d : Db) (H : Key → Prop) : Prop :=
  (∀ s : Db, (d ∪ s : Db).get (.call id) = s.get (.call id)) ∨
    ∃ r : CallRow, ok r ∧ ∀ c', (ledgerDiscipline env).Rely H c c' →
      c'.get (.call id) = some r

theorem wp_markNotSent_bind (hG : ∀ e, G e)
    (h : ∀ c' d' H', (ledgerDiscipline env).Rely (fun _ => False) c c' →
      Committable env c' d' H' → Retires env id (fun r => r.open = true ∧
        ∃ v : Db, v.get (.call id) = some r ∧ A (markNotSent id now >>= f) v) c' d' H' →
      (ledgerDiscipline env).wp A (f ()) Q (raises G) c' d' H') :
    (ledgerDiscipline env).wp A (markNotSent id now >>= f) Q (raises G) c ∅ H := by
  have hprog : markNotSent id now >>= f = updateWhere (.call id) CallRow.open
      (fun r => r.notSend now) >>= fun updated =>
        (do confirmStatus id updated .notSent; deleteAmountOnly id) >>= f := Prog.bind_assoc _ _ _
  rw [hprog]
  refine wp_updateWhere_allowed_bind (fun c₁ hr₁ _ => ?_)
    fun c₁ (r : CallRow) hr₁ hget hcond hA => ?_
  · rw [Prog.bind_assoc]
    refine wp_confirmStatus_bind hG (fun h01 => absurd h01 Nat.zero_ne_one)
      fun _ c₂ r hr₂ hget hst => ?_
    refine wp_deleteAmountOnly_bind (fun s n => by rw [empty_union])
      fun c₃ d' H' keys hr₃ _ _ hkeys hnil _ => ?_
    -- the call stays in `not_sent`, so it has no amount-only fact to delete
    rw [empty_union] at hget
    have hg : Guar (fun k => ¬ H k) c₂ c₃ := hr₃.guar
    obtain ⟨r', hget', hstep⟩ := hg.step id r hget
    have hst' : r'.status = .notSent := by
      have := CallStatus.eq_of_terminal hstep.leads (by rw [hst]; rfl)
      rw [this, hst]
    have hinv : LedgerInv env c₃ := hr₃.inv
    have hempty : keys = [] := by
      refine List.eq_nil_iff_forall_not_mem.mpr fun k hk => ?_
      rw [hkeys, empty_union] at hk
      obtain ⟨n, rfl⟩ := eq_reconciliation_of_mem hk
      obtain ⟨x, hx, hid, hkind⟩ := mem_amountOnlyKeys.mp hk
      obtain ⟨y, hy, hyu⟩ := (hinv.call id).amount n x hx hid hkind
      obtain rfl : r' = y := some.inj (hget'.symm.trans hy)
      rw [hst'] at hyu
      cases hyu
    obtain rfl := hnil hempty
    exact h c₃ ∅ H' (rely_none ((hr₁.trans hr₂).trans hr₃)) committable_empty
      (.inl fun s => by rw [empty_union])
  · rw [empty_union] at hget hA
    have hinv : LedgerInv env c₁ := hr₁.inv
    have hcheck := (hinv.call id).check r hget
    rw [Prog.bind_assoc]
    refine wp_confirmStatus_bind hG (fun _ => ?_) fun h11 => absurd rfl h11
    refine wp_deleteAmountOnly_bind
      (fun s n => by rw [set_union, empty_union, get_set_of_ne (by simp)])
      fun c₂ d' H' keys hr₂ hH hframe _ _ hcl => ?_
    have hlock : H' (.call id) := hH _ (Or.inr rfl)
    refine h c₂ d' H' ((rely_none hr₁).trans (rely_none hr₂)) (committable_cleared hlock
      ((hr₂.rows _ (Or.inr rfl)).trans hget) (CallRow.moves_notSend now hcheck hcond) hcl
      (fun s => ?_) fun s k hk hk' => ?_) (.inr ⟨r, ⟨hcond, c₁, hget, hprog ▸ hA⟩, fun c' hr' =>
        (hr'.rows _ hlock).trans ((hr₂.rows _ (Or.inr rfl)).trans hget)⟩)
    · rw [hframe s _ (by simp), set_union, get_set_self]
    · rw [hframe s k hk', set_union, empty_union, get_set_of_ne hk]

theorem wp_markNotSentIfPrepared_bind (hG : ∀ e, G e) (h : WpRest env A Q G c (f ())) :
    (ledgerDiscipline env).wp A (markNotSentIfPrepared id now >>= f) Q (raises G) c ∅ H := by
  unfold markNotSentIfPrepared
  rw [Prog.bind_assoc]
  refine wp_lockRow_bind (fun c₁ hr₁ _ => h c₁ ∅ _ (rely_none hr₁) committable_empty)
    fun c₁ (r : CallRow) hr₁ hget => ?_
  rw [empty_union] at hget
  by_cases hst : r.status = .prepared
  · have hall : ¬ (some r).all (fun r : CallRow => decide (r.status ≠ .prepared)) = true := by
      simp [hst]
    rw [if_neg hall, Prog.bind_assoc]
    refine wp_updateWhere_bind (fun c₂ hr₂ hn => ?_) fun c₂ r' hr₂ hget' _ => ?_
    · -- the row is locked, so the update finds it as it was read
      have := hn r (by rw [empty_union]; exact (hr₂.rows _ (Or.inr rfl)).trans hget)
      simp [hst] at this
    · rw [empty_union] at hget'
      obtain rfl : r = r' :=
        some.inj (((hr₂.rows _ (Or.inr rfl)).trans hget).symm.trans hget')
      have hinv : LedgerInv env c₂ := hr₂.inv
      refine wp_raiseIf_bind (fun _ => ?_) fun _ _ _ => hG _
      refine h c₂ _ _ ((rely_none hr₁).trans (rely_none hr₂)) (committable_set (Or.inr rfl) hget'
        (CallRow.moves_notSend now ((hinv.call id).check r hget') ?_) fun hu => ?_)
      · simp [CallRow.open, hst, CallStatus.terminal]
      · rw [hst] at hu
        cases hu
  · have hall : (some r).all (fun r : CallRow => decide (r.status ≠ .prepared)) = true := by
      simp [hst]
    rw [if_pos hall]
    exact h c₁ ∅ _ (rely_none hr₁) committable_empty

theorem wp_prepare_bind {a : PrepareArgs} {f : String × Bool → Tx α} (hG : ∀ e, G e)
    (h : ∀ x, WpRest env A Q G c (f x)) :
    (ledgerDiscipline env).wp A (prepareProviderCall a >>= f) Q (raises G) c ∅ H := by
  unfold prepareProviderCall
  rw [Prog.bind_assoc]
  refine wp_check_bind (fun ⟨requested, facts⟩ _ => ?_) fun _ _ _ _ => hG _
  simp only [Prog.bind_assoc]
  refine wp_insertOrSkip_bind (fun c₁ hr₁ _ => ?_) (fun _ _ _ _ _ => hG _)
    fun c₁ hr₁ hnone _ => ?_
  · simp only [if_neg Bool.false_ne_true, Prog.bind_assoc]
    refine wp_requireCall_bind (fun c₂ r hr₂ _ => ?_) fun _ _ _ => hG _
    refine wp_check_bind (fun _ _ => ?_) fun _ _ _ _ => hG _
    exact h _ c₂ ∅ _ (rely_none (hr₁.trans hr₂)) committable_empty
  · rw [empty_union] at hnone
    refine h _ c₁ _ _ (rely_none hr₁) fun c₂ hr₂ => ?_
    have hinv : LedgerInv env c₂ := hr₂.inv
    rw [applyAll_union, empty_union, applyAll_cons, applyAll_nil]
    have hlock : writing H ([⟨.call (requested.getD ("pc_" ++ a.token)),
        some (preparedRow facts a.now)⟩] : List (Write Row))
          (.call (requested.getD ("pc_" ++ a.token))) :=
      Or.inr (by simp)
    exact (CallChange.ofPrepare hinv hlock ((hr₂.rows _ hlock).trans hnone)).commit hinv

/-! ### Prices -/

/-- `select_for` returns a version of the view that is in force. -/
theorem wp_selectFor_bind {f : PriceVersion → Tx α}
    (hok : ∀ c' (a : PriceVersion), (ledgerDiscipline env).Rely H c c' →
      (d ∪ c' : Db).get (.price a.id) = some a.toPriceRow → a.scope = scope →
      a.contains at_ = true → (ledgerDiscipline env).wp A (f a) Q E c' d H)
    (herr : ∀ c' c'', (ledgerDiscipline env).Rely H c c' →
      (∀ p (a : PriceRow), (d ∪ c' : Db).get (.price p) = some a → a.scope = scope →
        a.contains at_ = false) → (ledgerDiscipline env).Rely H c' c'' →
      E (priceNotFound "No price version covers the scope at the given time") c'' d H) :
    (ledgerDiscipline env).wp A (selectFor scope at_ >>= f) Q E c d H := by
  unfold selectFor
  simp only [Prog.bind_assoc]
  refine wp_select_bind fun c' hr => wp_orRaise_bind (fun p hp => ?_) fun hnone c'' hr' => ?_
  · obtain ⟨hget, hscope, hcontains⟩ := covering_some hp
    exact hok c' { p.2 with id := p.1 } hr hget hscope hcontains
  · exact herr c' c'' hr (fun p a hget hscope => covering_none hnone hget hscope) hr'

/-- `lock_for_usage` returns the locked version when it is in force, and fails otherwise. -/
theorem wp_lockForUsage {A : Tx PriceVersion → Db → Prop} {Q : PriceVersion → Assn Row} {p : String}
    (hok : ∀ c' (a : PriceRow), (ledgerDiscipline env).Rely H c c' →
      (d ∪ c' : Db).get (.price p) = some a → a.contains at_ = true →
      ∀ c'', (ledgerDiscipline env).Rely (fun k => H k ∨ k = .price p) c' c'' →
        Q { a with id := p } c'' d (fun k => H k ∨ k = .price p))
    (herr : ∀ e c' c'' H', (ledgerDiscipline env).Rely H c c' →
      (∀ a : PriceRow, (d ∪ c' : Db).get (.price p) = some a → a.contains at_ = false) →
      (∀ k, H k → H' k) → (ledgerDiscipline env).Rely H' c' c'' → E e c'' d H') :
    (ledgerDiscipline env).wp A (lockForUsage p at_) Q E c d H := by
  unfold lockForUsage
  refine wp_lockRow_bind (fun c' hr hnone => ?_) fun c' (a : PriceRow) hr hget => ?_
  · refine wp_orRaise_bind (fun _ h => by cases h) fun _ c'' hr' => ?_
    refine herr _ c' c'' H hr (fun a ha => ?_) (fun _ hk => hk) hr'
    rw [hnone] at ha
    cases ha
  · refine wp_orRaise_bind (fun b hb => ?_) fun h => by cases h
    cases hb
    refine wp_raiseIf_bind (fun hcontains => ?_) fun hcontains c'' hr' => ?_
    · exact fun c'' hr' => hok c' a hr hget (by simpa using hcontains) c'' hr'
    · refine herr _ c' c'' _ hr (fun a' ha' => ?_) (fun _ hk => Or.inl hk) hr'
      cases hget.symm.trans ha'
      exact hcontains

/-- `_locked_price`: if it returns, the version is locked and in force. -/
theorem wp_lockedPrice_bind {f : PriceVersion → Tx α} (hc : LedgerInv env c)
    (hd : ∀ (s : Db) p, (d ∪ s : Db).get (.price p) = s.get (.price p)) (hG : ∀ e, G e)
    (hok : ∀ c' (a : PriceVersion) H', (ledgerDiscipline env).Rely H c c' → (∀ k, H k → H' k) →
      H' (.price a.id) → c'.get (.price a.id) = some a.toPriceRow → a.scope = scope →
      a.contains at_ = true → (ledgerDiscipline env).wp A (f a) Q (raises G) c' d H') :
    (ledgerDiscipline env).wp A (lockedPrice scope at_ >>= f) Q (raises G) c d H := by
  unfold lockedPrice
  -- `lock_for_usage` after `select_for`, with whatever follows a failure
  have hattempt : ∀ (A' : Tx PriceVersion → Db → Prop) (E' : Err → Assn Row) c₁ H₁ (a : PriceVersion),
      (ledgerDiscipline env).Rely H c c₁ → (∀ k, H k → H₁ k) →
      c₁.get (.price a.id) = some a.toPriceRow → a.scope = scope →
      (∀ e c₂ H₂, (ledgerDiscipline env).Rely H c c₂ → (∀ k, H k → H₂ k) → E' e c₂ d H₂) →
      (ledgerDiscipline env).wp A' (lockForUsage a.id at_)
        (fun b => (ledgerDiscipline env).wp A (f b) Q (raises G)) E' c₁ d H₁ := by
    intro A' E' c₁ H₁ a hr₁ hH₁ hget hscope herr
    refine wp_lockForUsage (fun c₂ b hr₂ hget' hcontains c₃ hr₃ => ?_) fun e c₂ c₃ H₃ hr₂ _ hH₃ hr₃ => ?_
    · rw [hd] at hget'
      have hg : Guar (fun k => ¬ H₁ k) c₁ c₂ := hr₂.guar
      obtain ⟨b', hb', hfacts⟩ := hg.facts a.id a.toPriceRow hget
      obtain rfl : b = b' := some.inj (hget'.symm.trans hb')
      refine wp_rely (hok c₂ { b with id := a.id } _ (hr₁.trans (hr₂.mono hH₁))
        (fun k hk => Or.inl (hH₁ k hk)) (Or.inr rfl) hget' ?_ hcontains) hr₃
      exact (congrArg PriceFacts.scope hfacts).trans hscope
    · exact herr e c₃ H₃ ((hr₁.trans (hr₂.mono hH₁)).trans (hr₃.mono fun k hk => hH₃ k (hH₁ k hk)))
        fun k hk => hH₃ k (hH₁ k hk)
  suffices hloop : ∀ n c₁ H₁, (ledgerDiscipline env).Rely H c c₁ → (∀ k, H k → H₁ k) →
      (ledgerDiscipline env).wp A (lockedPriceLoop scope at_ n >>= f) Q (raises G) c₁ d H₁ from
    hloop 2 c H (.refl hc) fun _ hk => hk
  intro n
  induction n with
  | zero =>
    intro c₁ H₁ hr₁ hH₁
    unfold lockedPriceLoop
    rw [Prog.bind_assoc]
    refine wp_selectFor_bind (fun c₂ a hr₂ hget hscope _ => ?_) fun _ _ _ _ _ => hG _
    rw [hd] at hget
    refine wp_bind (hattempt _ _ c₂ H₁ a (hr₁.trans (hr₂.mono hH₁)) hH₁ hget hscope
      fun e _ _ _ _ => hG e) hr₂.inv
  | succ n ih =>
    intro c₁ H₁ hr₁ hH₁
    unfold lockedPriceLoop
    rw [Prog.bind_assoc]
    refine wp_selectFor_bind (fun c₂ a hr₂ hget hscope _ => ?_) fun _ _ _ _ _ => hG _
    rw [hd] at hget
    refine wp_tryCatch_bind (hattempt _ _ c₂ H₁ a (hr₁.trans (hr₂.mono hH₁)) hH₁ hget hscope
      fun e c₃ H₃ hr₃ hH₃ => ?_) hr₂.inv
    by_cases he : e.code = some "price_interval_conflict"
    · rw [if_pos he]
      exact ih c₃ H₃ hr₃ hH₃
    · rw [if_neg he]
      exact fun _ _ => hG e

/-- For a call that has left `_locked_price` does not fail: the version in force at its
send time stays in force. -/
theorem wp_lockedPrice_sent_bind {s : Time} {f : PriceVersion → Tx α}
    (hd : ∀ (s : Db) p, (d ∪ s : Db).get (.price p) = s.get (.price p)) (hH : H (.call id))
    (hsent : SentAt c id scope s)
    (hok : ∀ c' (a : PriceVersion) H', (ledgerDiscipline env).Rely H c c' → (∀ k, H k → H' k) →
      H' (.price a.id) → c'.get (.price a.id) = some a.toPriceRow → a.scope = scope →
      a.contains s = true → (ledgerDiscipline env).wp A (f a) Q (raises G) c' d H') :
    (ledgerDiscipline env).wp A (lockedPrice scope s >>= f) Q (raises G) c d H := by
  have hstays : ∀ c₁, (ledgerDiscipline env).Rely H c c₁ → SentAt c₁ id scope s := by
    intro c₁ hr
    have hcall := (sameCall_of_rely hr hH).call
    unfold SentAt at hsent ⊢
    rwa [hcall]
  unfold lockedPrice lockedPriceLoop
  rw [Prog.bind_assoc]
  refine wp_selectFor_bind (fun c₁ a hr₁ hget hscope hcontains => ?_)
    fun c₁ c₂ hr₁ hnone _ => ?_
  · rw [hd] at hget
    refine wp_tryCatch_bind (wp_lockForUsage (fun c₂ b hr₂ hget' hcontains' c₃ hr₃ => ?_)
      fun e c₂ c₃ H' hr₂ hbad _ _ => ?_) hr₁.inv
    · rw [hd] at hget'
      have hg : Guar (fun k => ¬ H k) c₁ c₂ := hr₂.guar
      obtain ⟨b', hb', hfacts⟩ := hg.facts a.id a.toPriceRow hget
      obtain rfl : b = b' := some.inj (hget'.symm.trans hb')
      refine wp_rely (hok c₂ { b with id := a.id } _ (hr₁.trans hr₂)
        (fun k hk => Or.inl hk) (Or.inr rfl) hget' ?_ hcontains') hr₃
      exact (congrArg PriceFacts.scope hfacts).trans hscope
    · -- the selected version still covers the send time when it is locked
      have hg : Guar (fun k => ¬ H k) c₁ c₂ := hr₂.guar
      obtain ⟨b, hb, _, hbc⟩ := hg.cover id a.id scope s (hstays c₁ hr₁)
        (hstays c₂ (hr₁.trans hr₂)) ⟨a.toPriceRow, hget, hscope, hcontains⟩
      rw [hbad b (by rw [hd]; exact hb)] at hbc
      cases hbc
  · -- and one does when it is selected
    have hinv : LedgerInv env c₁ := hr₁.inv
    obtain ⟨r, hr, _, hs, hsc⟩ := hstays c₁ hr₁
    obtain ⟨p, a, ha, has, hac⟩ := (hinv.call id).covered r s hr hs
    rw [hnone p a (by rw [hd]; exact ha) (has.trans hsc)] at hac
    cases hac

/-! ### Dispatch -/

theorem wp_dispatch_bind {price : PriceVersion} {started : Time}
    {f : Option (PriceVersion × Time) → Tx α} (hG : ∀ e, G e) (hlock : H (.price price.id))
    (hcov : Covers c price.id scope started)
    (hfacts : ∀ c' (r : CallRow), (ledgerDiscipline env).Rely H c c' →
      c'.get (.call id) = some r → r.scope = scope)
    (h : ∀ c' (r : CallRow) d' H', (ledgerDiscipline env).Rely H c c' →
      Committable env c' d' H' → c'.get (.call id) = some r → r.status = .prepared →
      (∀ c'', (ledgerDiscipline env).Rely H' c' c'' →
        c''.get (.call id) = some r ∧
          (d' ∪ c'' : Db).get (.call id) = some (r.dispatch now started) ∧
          Covers (d' ∪ c'') price.id scope started) →
      (ledgerDiscipline env).wp A (f (some (price, started))) Q (raises G) c' d' H') :
    (ledgerDiscipline env).wp A (dispatch id price started now >>= f) Q (raises G) c ∅ H := by
  unfold dispatch
  simp only [Prog.bind_assoc]
  refine wp_updateWhere_bind (fun c₁ _ _ => ?_) fun c₁ (r : CallRow) hr₁ hget hcond => ?_
  · exact wp_raiseIf_bind (fun h0 => absurd Nat.zero_ne_one h0) fun _ _ _ => hG _
  · rw [empty_union] at hget
    have hst : r.status = .prepared := by simpa using hcond
    have hinv : LedgerInv env c₁ := hr₁.inv
    have hcheck := (hinv.call id).check r hget
    have hscope := hfacts c₁ r hr₁ hget
    obtain ⟨a, ha, has, hac⟩ := hcov
    refine wp_raiseIf_bind (fun _ => ?_) fun h11 => absurd rfl h11
    refine h c₁ r _ _ hr₁ (fun c₂ hr₂ => ?_) hget hst fun c₂ hr₂ => ?_
    · have hget₂ : c₂.get (.call id) = some r := (hr₂.rows _ (Or.inr rfl)).trans hget
      have hinv₂ : LedgerInv env c₂ := hr₂.inv
      have ha₂ : c₂.get (.price price.id) = some a :=
        (hr₂.rows _ (Or.inl hlock)).trans ((hr₁.rows _ hlock).trans ha)
      rw [set_union, empty_union]
      have hframe : ∀ k, k ≠ .call id →
          (c₂.set (.call id) (some (r.dispatch now started))).get k = c₂.get k := fun k hk =>
        get_set_of_ne hk
      refine (CallChange.ofQuiet hinv₂ ⟨fun k hk _ _ => hframe k hk, .inl (hframe _ (by simp)),
        fun n x _ => by rw [hframe _ (by simp)], fun n x hx hid hkind => ?_⟩ (Or.inr rfl) hget₂
        (get_set_self _ _ _) ⟨rfl, ?_, fun hsent => ?_⟩ ?_ ?_ fun s hs => ?_).commit hinv₂
      · rw [hframe _ (by simp)] at hx
        obtain ⟨y, hy, hyu⟩ := (hinv₂.call id).amount n x hx hid hkind
        obtain rfl : r = y := some.inj (hget₂.symm.trans hy)
        rw [hst] at hyu
        cases hyu
      · rw [hst]
        rfl
      · rw [hst] at hsent
        cases hsent
      · unfold CallRow.check at hcheck
        rw [hst] at hcheck
        simp_all [CallRow.dispatch, CallRow.check]
      · simp [CallRow.dispatch, hst]
      · obtain rfl : started = s := some.inj hs
        exact .inr ⟨price.id, Or.inl hlock, a, ha₂, has.trans hscope.symm, hac⟩
    · have ha₂ : c₂.get (.price price.id) = some a :=
        (hr₂.rows _ (Or.inl hlock)).trans ((hr₁.rows _ hlock).trans ha)
      rw [set_union, empty_union]
      refine ⟨(hr₂.rows _ (Or.inr rfl)).trans hget, get_set_self _ _ _, a, ?_, has, hac⟩
      rw [get_set_of_ne (by simp)]
      exact ha₂

/-- What `mark_dispatching` has done to the call when it returns `False`. -/
abbrev Expires (env : Env) (A : Tx α → Db → Prop) (id : String)
    (f : Option (PriceVersion × Time) → Tx α) : Db → Db → (Key → Prop) → Prop :=
  Retires env id fun r => r.open = true ∧
    ∃ now, ∃ v : Db, v.get (.call id) = some r ∧ A (expire id now >>= f) v

theorem wp_expire_bind {f : Option (PriceVersion × Time) → Tx α} (hG : ∀ e, G e)
    (h : ∀ c' d' H', (ledgerDiscipline env).Rely (fun _ => False) c c' →
      Committable env c' d' H' → Expires env A id f c' d' H' →
      (ledgerDiscipline env).wp A (f none) Q (raises G) c' d' H') :
    (ledgerDiscipline env).wp A (expire id now >>= f) Q (raises G) c ∅ H := by
  have hprog : expire id now >>= f = markNotSent id now >>= fun _ => f none :=
    Prog.bind_assoc _ _ _
  rw [hprog]
  refine wp_markNotSent_bind hG fun c' d' H' hr hcommit hret => h c' d' H' hr hcommit ?_
  rcases hret with hsame | ⟨r, ⟨hopen, v, hv, hA⟩, hlock⟩
  · exact .inl hsame
  · exact .inr ⟨r, ⟨hopen, now, v, hv, hprog ▸ hA⟩, hlock⟩

/-- What `mark_dispatching` has reached when it returns `True`. -/
def Dispatches (env : Env) (id : String) (price : PriceVersion) (s : Time) (c d : Db)
    (H : Key → Prop) : Prop :=
  ∃ r : CallRow, r.status = .prepared ∧ ∃ now, ∀ c', (ledgerDiscipline env).Rely H c c' →
    c'.get (.call id) = some r ∧ (d ∪ c' : Db).get (.call id) = some (r.dispatch now s) ∧
      Covers (d ∪ c') price.id r.scope s

theorem wp_dispatchLoop_bind {call : CallRow} {clock : ℕ → Time}
    {f : Option (PriceVersion × Time) → Tx α} (hG : ∀ e, G e)
    (hcall : ∃ r : CallRow, c.get (.call id) = some r ∧ r.scope = call.scope)
    (hnone : ∀ c' d' H', (ledgerDiscipline env).Rely (fun _ => False) c c' →
      Committable env c' d' H' → Expires env A id f c' d' H' →
      (ledgerDiscipline env).wp A (f none) Q (raises G) c' d' H')
    (hsome : ∀ price s c' d' H', (ledgerDiscipline env).Rely (fun _ => False) c c' →
      Committable env c' d' H' → Dispatches env id price s c' d' H' →
      (ledgerDiscipline env).wp A (f (some (price, s))) Q (raises G) c' d' H') :
    ∀ rounds n ready c₁ H₁, (ledgerDiscipline env).Rely (fun _ => False) c c₁ →
      (ledgerDiscipline env).wp A
        (dispatchLoop id call provider clock rounds n ready >>= f) Q (raises G) c₁ ∅ H₁ := by
  have hrest : ∀ c₁, (ledgerDiscipline env).Rely (fun _ => False) c c₁ → ∀ c' d' H',
      (ledgerDiscipline env).Rely (fun _ => False) c₁ c' → Committable env c' d' H' →
      Expires env A id f c' d' H' →
      (ledgerDiscipline env).wp A (f none) Q (raises G) c' d' H' :=
    fun c₁ hr₁ c' d' H' hr' => hnone c' d' H' (hr₁.trans hr')
  have hscope : ∀ c₁, (ledgerDiscipline env).Rely (fun _ => False) c c₁ →
      ∀ r : CallRow, c₁.get (.call id) = some r → r.scope = call.scope := by
    intro c₁ hr₁ r hget
    obtain ⟨r₀, hget₀, hs₀⟩ := hcall
    have hg : Guar (fun _ => ¬ False) c c₁ := hr₁.guar
    obtain ⟨r', hget', hstep⟩ := hg.step id r₀ hget₀
    obtain rfl : r = r' := some.inj (hget.symm.trans hget')
    exact (congrArg CallFacts.scope hstep.facts).trans hs₀
  -- a dispatch under the version that was locked for `call.scope`
  have hdispatch : ∀ c₁ H₁ (price : PriceVersion) s now,
      (ledgerDiscipline env).Rely (fun _ => False) c c₁ → H₁ (.price price.id) →
      c₁.get (.price price.id) = some price.toPriceRow → price.scope = call.scope →
      price.contains s = true →
      (ledgerDiscipline env).wp A (dispatch id price s now >>= f) Q (raises G) c₁ ∅ H₁ := by
    intro c₁ H₁ price s now hr₁ hlock hget hps hcontains
    refine wp_dispatch_bind hG hlock ⟨price.toPriceRow, hget, hps, hcontains⟩
      (fun c₂ r hr₂ => hscope c₂ (hr₁.trans (rely_none hr₂)) r)
      fun c₂ r d' H' hr₂ hcommit hgetr hst hlater => ?_
    have hrs := hscope c₂ (hr₁.trans (rely_none hr₂)) r hgetr
    exact hsome price s c₂ d' H' (hr₁.trans (rely_none hr₂)) hcommit
      ⟨r, hst, now, fun c₃ hr₃ => hrs ▸ hlater c₃ hr₃⟩
  intro rounds
  induction rounds with
  | zero => exact fun _ _ _ _ _ => fun _ _ => hG _
  | succ rounds ih =>
    intro n ready c₁ H₁ hr₁
    unfold dispatchLoop
    by_cases hready : call.deadlineUtc ≤ ready
    · rw [if_pos hready]
      exact wp_expire_bind hG (hrest c₁ hr₁)
    rw [if_neg hready, Prog.bind_assoc]
    have hinv₁ : LedgerInv env c₁ := hr₁.inv
    refine wp_lockedPrice_bind hinv₁ (fun s p => by rw [empty_union]) hG
      fun c₂ price H₂ hr₂ _ hlock hget hps hcontains => ?_
    have hr₂' := hr₁.trans (rely_none hr₂)
    by_cases hclock : call.deadlineUtc ≤ clock n
    · rw [if_pos hclock]
      exact wp_expire_bind hG (hrest c₂ hr₂')
    rw [if_neg hclock]
    cases provider with
    | fixed t => exact hdispatch c₂ H₂ price ready _ hr₂' hlock hget hps hcontains
    | sampled g =>
      simp only [Prog.bind_assoc]
      refine wp_check_bind (fun post _ => ?_) fun _ _ _ _ => hG _
      by_cases hpost : call.deadlineUtc ≤ post
      · rw [if_pos hpost]
        exact wp_expire_bind hG (hrest c₂ hr₂')
      rw [if_neg hpost]
      by_cases hin : price.contains post = true
      · rw [if_pos hin]
        exact hdispatch c₂ H₂ price post _ hr₂' hlock hget hps hin
      · rw [if_neg hin]
        exact ih (n + 1) post c₂ H₂ hr₂'

theorem wp_markDispatching_bind {clock : ℕ → Time} {f : Option (PriceVersion × Time) → Tx α}
    (hG : ∀ e, G e) (hnone : ∀ c' d' H', (ledgerDiscipline env).Rely (fun _ => False) c c' →
      Committable env c' d' H' → Expires env A id f c' d' H' →
      (ledgerDiscipline env).wp A (f none) Q (raises G) c' d' H')
    (hsome : ∀ price s c' d' H', (ledgerDiscipline env).Rely (fun _ => False) c c' →
      Committable env c' d' H' → Dispatches env id price s c' d' H' →
      (ledgerDiscipline env).wp A (f (some (price, s))) Q (raises G) c' d' H') :
    (ledgerDiscipline env).wp A (markDispatching id provider clock >>= f) Q (raises G) c ∅ H := by
  unfold markDispatching
  rw [Prog.bind_assoc]
  refine wp_check_bind (fun started _ => ?_) fun _ _ _ _ => hG _
  rw [Prog.bind_assoc]
  refine wp_requireCall_bind (fun c₁ r hr₁ hget => ?_) fun _ _ _ => hG _
  rw [Prog.bind_assoc]
  refine wp_raiseIf_bind (fun _ => ?_) fun _ _ _ => hG _
  rw [empty_union] at hget
  have hr₁' := rely_none hr₁
  exact wp_dispatchLoop_bind hG ⟨r, hget, rfl⟩
    (fun c' d' H' hr' => hnone c' d' H' (hr₁'.trans hr'))
    (fun price s c' d' H' hr' => hsome price s c' d' H' (hr₁'.trans hr')) 8 0 started c₁ H
    (.refl hr₁.inv)

/-! ### Amount-only facts -/

/-- The pending writes leave the reconciliation facts alone or add one of the call. -/
def AtMostOneFact (id : String) (c d : Db) (H : Key → Prop) : Prop :=
  (∀ (s : Db) n, (d ∪ s : Db).get (.reconciliation n) = s.get (.reconciliation n)) ∨
    ∃ n, ∃ x : ReconciliationRow, x.providerCallId = some id ∧ H (.reconciliation n) ∧
      c.get (.reconciliation n) = none ∧ ∀ (s : Db) m, (d ∪ s : Db).get (.reconciliation m)
        = (s.set (.reconciliation n) (some x)).get (.reconciliation m)

theorem committable_amount (hH : H (.call id)) (hr : c.get (.call id) = some r) (hm : r.Moves r')
    (hu : r'.status = .unknown) (hcal : CalendarOk env c d H)
    (hcall : ∀ s : Db, (d ∪ s : Db).get (.call id) = some r')
    (hframe : ∀ (s : Db) k, k ≠ .call id → k ≠ .calendar → (∀ n, k ≠ .reconciliation n) →
      (d ∪ s : Db).get k = s.get k) (hone : AtMostOneFact id c d H) : Committable env c d H := by
  intro c' hrely
  have hinv : LedgerInv env c' := hrely.inv
  refine (CallChange.ofQuiet hinv ⟨fun k => hframe c' k, (hcal.rely hrely).commit,
    fun n x hx => ?_, fun _ _ _ _ _ => hu⟩ hH ((hrely.rows _ hH).trans hr) (hcall c') hm.step
    hm.check hm.completed fun s hs => .inl (hm.started s hs)).commit hinv
  rcases hone with hsame | ⟨m, y, hy, hlock, hnone, hview⟩
  · rw [hsame]
  · rw [hview]
    by_cases hn : n = m
    · subst hn
      rw [get_set_self, (hrely.rows _ hlock).trans hnone]
      constructor
      · intro h
        cases h
        exact absurd hy hx
      · intro h
        cases h
    · rw [get_set_of_ne (by simpa using hn)]

/-- `_insert_reconciliation_once` adds at most the fact it is given. -/
theorem wp_insertReconciliationOnce_bind {n : String} {x : ReconciliationRow}
    {f : String × Bool → Tx α} (hG : ∀ e, G e) (hx : x.providerCallId = some id)
    (hd : ∀ (s : Db) m, (d ∪ s : Db).get (.reconciliation m) = s.get (.reconciliation m))
    (h : ∀ c' d' H' o, (ledgerDiscipline env).Rely H c c' → (∀ k, H k → H' k) →
      (∀ (s : Db) k, (∀ m, k ≠ .reconciliation m) → (d' ∪ s : Db).get k = (d ∪ s : Db).get k) →
      AtMostOneFact id c' d' H' → (ledgerDiscipline env).wp A (f o) Q (raises G) c' d' H') :
    (ledgerDiscipline env).wp A (insertReconciliationOnce n x >>= f) Q (raises G) c d H := by
  have hsame : ∀ c' o, (ledgerDiscipline env).Rely H c c' →
      (ledgerDiscipline env).wp A (f o) Q (raises G) c' d H := fun c' o hr =>
    h c' d H o hr (fun _ hk => hk) (fun _ _ _ => rfl) (.inl hd)
  unfold insertReconciliationOnce
  rw [Prog.bind_assoc]
  refine wp_readRow_bind fun c₁ hr₁ => ?_
  rw [hd]
  cases hget : (c₁.get (.reconciliation n) : Option ReconciliationRow) with
  | some y =>
    simp only [Prog.bind_assoc]
    exact wp_raiseIf_bind (fun _ => hsame c₁ _ hr₁) fun _ _ _ => hG _
  | none =>
    simp only [Prog.bind_assoc]
    refine wp_insertOrSkip_bind (fun c₂ hr₂ _ => ?_) (fun _ _ _ _ _ => hG _)
      fun c₂ hr₂ hnone _ => ?_
    · simp only [if_neg Bool.false_ne_true, Prog.bind_assoc]
      refine wp_readRow_bind fun c₃ hr₃ => ?_
      refine wp_orRaise_bind (fun y _ => ?_) fun _ _ _ => hG _
      exact wp_raiseIf_bind (fun _ => hsame c₃ _ ((hr₁.trans hr₂).trans hr₃)) fun _ _ _ => hG _
    · rw [hd] at hnone
      refine h c₂ _ _ _ (hr₁.trans hr₂) (fun _ hk => Or.inl hk) (fun s k hk => ?_)
        (.inr ⟨n, x, hx, Or.inr (by simp), hnone, fun s m => ?_⟩)
      · simp [get_set_of_ne (hk n)]
      · by_cases hm : m = n
        · subst hm
          simp
        · simp only [applyAll_cons, applyAll_nil, set_union]
          rw [get_set_of_ne (by simpa using hm),
            get_set_of_ne (by simpa using hm), hd]

theorem wp_record_bind {call : CallRow} {a : AmountOnly} {src : Source}
    {f : Option (String × Bool) → Tx α} (hG : ∀ e, G e) (h : ∀ o, WpRest env A Q G c (f o)) :
    (ledgerDiscipline env).wp A (recordReconciliationAmountOnly env id call a src >>= f) Q
      (raises G) c ∅ H := by
  unfold recordReconciliationAmountOnly
  rw [Prog.bind_assoc]
  refine wp_check_bind (fun money _ => ?_) fun _ _ _ _ => hG _
  rw [Prog.bind_assoc]
  refine wp_transition_bind (fun c₁ hr₁ _ => ?_) fun c₁ r hr₁ hget hcheck hcond => ?_
  · rw [if_pos Nat.zero_ne_one]
    exact h none c₁ ∅ _ (rely_none hr₁) committable_empty
  · rw [if_neg (by simp)]
    simp only [Prog.bind_assoc]
    have hst : r.status = .unknown := by simpa using hcond
    have hm : r.Moves (r.touch (src.clock 0)) :=
      CallRow.moves_touch _ hcheck (by simp [CallRow.completable, hst])
    refine wp_orRaise_bind (fun started _ => ?_) fun _ _ _ => hG _
    refine wp_lockOrVerify_bind
      (fun s => by rw [set_union, empty_union, get_set_of_ne (by simp)])
      fun c₂ d' H' lock hr₂ hH' hview hcal _ => ?_
    refine wp_insertReconciliationOnce_bind hG (show _ = some id from rfl) (fun s n => ?_)
      fun c₃ d'' H'' o hr₃ hH'' hview' hone => ?_
    · rw [hview s _ (by simp), set_union, empty_union,
        get_set_of_ne (by simp)]
    · have hlock : H' (.call id) := hH' _ (Or.inr rfl)
      refine h (some o) c₃ d'' H'' (((rely_none hr₁).trans (rely_none hr₂)).trans (rely_none hr₃))
        (committable_amount (hH'' _ hlock) (((hr₃.rows _ hlock).trans (hr₂.rows _ (Or.inr rfl))).trans
          hget) hm hst ?_ (fun s => ?_) (fun s k hk hk' hk'' => ?_) hone)
      · rcases hcal.rely hr₃ with hsame | ⟨hl, hnone, y, htz, hnew⟩
        · exact .inl fun s => (hview' s _ (by simp)).trans (hsame s)
        · exact .inr ⟨hH'' _ hl, hnone, y, htz, fun s => (hview' s _ (by simp)).trans (hnew s)⟩
      · rw [hview' s _ (by simp), hview s _ (by simp), set_union, get_set_self]
      · rw [hview' s k hk'', hview s k hk', set_union, empty_union,
          get_set_of_ne hk]

end RagQs.Usage
