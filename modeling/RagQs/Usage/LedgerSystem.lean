import RagQs.Usage.CatalogProof
import RagQs.Usage.CompletionProof

/-!
# Runs of the ledger and the price catalogue

The transactions of the ledger and the writers of the catalogue, interleaved statement by
statement, from an empty database.

## Main definitions

* `LedgerPost`, `LedgerFail` — what a commit and a reported error of each transaction say.
* `Owner` — a committed `mark_dispatching` that returned `True`.

## Main results

* `ledger_verified` — every transaction keeps the discipline and meets its specification.
* `ledger_run` — what holds after every run.
-/

namespace RagQs.Usage

open Txn Txn.Discipline Store AList

variable {env : Env} {A : LedgerOp → Tx LedgerResult → Db → Prop}

/-! ### Specifications -/

/-- What a commit says of the store just before it and just after. -/
def LedgerPost (env : Env) (A : LedgerOp → Tx LedgerResult → Db → Prop) :
    LedgerOp → Db → LedgerResult → Db → Db → Prop
  | .dispatch id provider clock, _, b, c, c' =>
    (∃ price s, ∃ r : CallRow, b = .dispatched (some (price, s)) ∧
      c.get (.call id) = some r ∧ r.status = .prepared ∧
      (∃ now, c'.get (.call id) = some (r.dispatch now s)) ∧ Covers c' price.id r.scope s) ∨
    b = .dispatched none ∧ (c'.get (.call id) = c.get (.call id) ∨
      ∃ r : CallRow, c.get (.call id) = some r ∧ r.open = true ∧ ∃ now f, ∃ v : Db,
        v.get (.call id) = some r ∧ A (.dispatch id provider clock) (expire id now >>= f) v)
  | .complete id a _, _, b, _, c' => ∃ m, b = .event m ∧ Replays env c' id a m
  | _, _, _, _, _ => True

/-- What a reported error says of the store the transaction was opened on. -/
def LedgerFail (env : Env) : LedgerOp → Db → Err → Db → Prop
  | .complete id a _, c₀, e, _ => ¬ PriceError e ∧ ∀ m, ¬ Replays env c₀ id a m
  | .decide _ (.confirmedUsage _) _, _, e, _ => ¬ PriceError e
  | _, _, _, _ => True

theorem wp_end (op : LedgerOp) (c₀ : Db) {a : LedgerResult} {c : Db} {G : Err → Prop}
    {A' : Tx LedgerResult → Db → Prop} (hpost : ∀ c c', LedgerPost env A op c₀ a c c') :
    WpRest env A' ((ledgerDiscipline env).Commit (LedgerPost env A op c₀)) G c (pure a) := by
  intro c' d' H' _ hcommit c'' hr
  obtain ⟨hinv, hguar⟩ := hcommit c'' hr
  exact ⟨hinv, hguar, hpost _ _⟩

theorem wp_advanceState_bind {α : Type} {A : Tx α → Db → Prop} {Q : α → Assn Row} {G : Err → Prop}
    {c : Db} {id : String} {status : CallStatus} {olderThanUtc currentUtc : Time} {src : Source}
    {f : Bool → Tx α} (hc : LedgerInv env c) (hG : ∀ e, G e) (h : ∀ b, WpRest env A Q G c (f b)) :
    (ledgerDiscipline env).wp A (advanceState id status olderThanUtc currentUtc src >>= f) Q
      (raises G) c ∅ (fun _ => False) := by
  have hrest : ∀ c₁, (ledgerDiscipline env).Rely (fun _ => False) c c₁ →
      ∀ b, WpRest env A Q G c₁ (f b) := fun c₁ hr₁ b c' d' H' hr' => h b c' d' H' (hr₁.trans hr')
  unfold advanceState
  by_cases hst : status = .unknown
  · rw [if_pos hst]
    exact h false c ∅ _ (.refl hc) committable_empty
  rw [if_neg hst, Prog.bind_assoc]
  refine wp_tryCatch_bind ?_ hc
  -- a refusal is raised before anything is written
  have hraise : ∀ c₁ e, (ledgerDiscipline env).Rely (fun _ => False) c c₁ →
      (ledgerDiscipline env).wp A ((if isStateConflict e = true then .done true else .fail e) >>=
        fun skip => (if skip = true then pure true else do
          touchReconcileAttempt id (src.clock 1)
          pure false) >>= f) Q (raises G) c₁ ∅ (fun _ => False) := by
    intro c₁ e hr₁
    by_cases he : isStateConflict e = true
    · rw [if_pos he]
      exact hrest c₁ hr₁ true c₁ ∅ _ (.refl hr₁.inv) committable_empty
    · rw [if_neg he]
      exact fun _ _ => hG e
  unfold markExpiredDispatchingUnknown
  simp only [Prog.bind_assoc]
  refine wp_updateWhere_bind (fun c₁ hr₁ _ => ?_) fun c₁ (r : CallRow) hr₁ hget hcond => ?_
  · rw [if_neg Nat.zero_ne_one]
    simp only [requireCall, Prog.bind_assoc]
    refine wp_readRow_bind fun c₂ hr₂ => wp_orRaise_bind (fun r _ => ?_) fun _ c₃ hr₃ =>
      hraise c₃ _ ((hr₁.trans hr₂).trans hr₃)
    refine wp_raiseIf_bind (fun _ c₃ hr₃ => ?_) fun _ c₃ hr₃ =>
      hraise c₃ _ ((hr₁.trans hr₂).trans hr₃)
    have hr' := (hr₁.trans hr₂).trans hr₃
    simp only [if_neg Bool.false_ne_true, Prog.bind_assoc]
    exact wp_touch_bind (hrest c₃ hr' false)
  · rw [empty_union] at hget
    simp only [Bool.and_eq_true, decide_eq_true_eq] at hcond
    have hinv : LedgerInv env c₁ := hr₁.inv
    have hmoves := CallRow.moves_lose (src.clock 0) ((hinv.call id).check r hget) hcond.1.1
    intro c₂ hr₂
    have hget₂ := (hr₂.rows _ (Or.inr rfl)).trans hget
    simp only [if_neg Bool.false_ne_true, touchReconcileAttempt, Prog.bind_assoc]
    refine wp_updateWhere_bind (fun c₃ hr₃ hmiss => ?_) fun c₃ (x : CallRow) hr₃ hx _ => ?_
    · have := hmiss (r.lose (src.clock 0)) (by rw [set_union, get_set_self])
      simp [CallRow.completable, CallRow.lose] at this
    · rw [set_union, get_set_self] at hx
      cases hx
      refine hrest c₁ hr₁ false c₃ _ _ ((rely_none hr₂).trans (rely_none hr₃))
        (committable_moved (Or.inr rfl) ((hr₃.rows _ (Or.inr rfl)).trans hget₂)
          (hmoves.trans (CallRow.moves_touch (src.clock 1) hmoves.check
            (by simp [CallRow.completable, CallRow.lose]))) (fun _ => rfl) (fun s => ?_)
          fun s k hk => ?_)
      · rw [set_union, get_set_self]
      · rw [set_union, get_set_of_ne hk, set_union, empty_union,
          get_set_of_ne hk]

theorem wp_applyDecision_bind {α : Type} {A : Tx α → Db → Prop} {Q : α → Assn Row}
    {G : Err → Prop} {c : Db} {id : String} {decision : Decision} {src : Source}
    {f : Bool → Tx α} (hG : ∀ e, (∀ a, decision = .confirmedUsage a → ¬ PriceError e) → G e)
    (h : ∀ b, WpRest env A Q G c (f b)) :
    (ledgerDiscipline env).wp A (applyDecision env id decision src >>= f) Q
      (raises G) c ∅ (fun _ => False) := by
  have hrest : ∀ c₁, (ledgerDiscipline env).Rely (fun _ => False) c c₁ →
      ∀ b, WpRest env A Q G c₁ (f b) := fun c₁ hr₁ b c' d' H' hr' => h b c' d' H' (hr₁.trans hr')
  unfold applyDecision
  rw [Prog.bind_assoc]
  refine wp_requireCall_bind (fun c₁ r hr₁ _ => ?_)
    fun _ _ _ => hG _ fun _ _ => not_priceError_callNotFound
  by_cases hst : r.status ≠ .unknown
  · rw [if_pos hst]
    exact hrest c₁ hr₁ false c₁ ∅ _ (.refl hr₁.inv) committable_empty
  · rw [if_neg hst]
    cases decision with
    | confirmedUsage a =>
      rw [Prog.bind_assoc]
      exact wp_complete_bind (fun m c' d' H' hr hcommit _ => hrest c₁ hr₁ true c' d' H' hr hcommit)
        fun e _ _ hne _ => hG e fun _ _ => hne
    | confirmedNotSent =>
      rw [Prog.bind_assoc]
      exact wp_markNotSent_bind (fun e => hG e fun _ ha => by cases ha) fun c' d' H' hr hcommit _ =>
        hrest c₁ hr₁ true c' d' H' hr hcommit
    | onlyAmount a =>
      rw [Prog.bind_assoc]
      exact wp_record_bind (fun e => hG e fun _ ha => by cases ha) fun o => hrest c₁ hr₁ _
    | stillUnknown =>
      rw [Prog.bind_assoc]
      exact wp_touch_bind (hrest c₁ hr₁ false)

/-- **Every transaction keeps the discipline.** -/
theorem ledger_verified (env : Env) (A : LedgerOp → Tx LedgerResult → Db → Prop) :
    Verified (ledgerDiscipline env) A (ledgerBody env) (LedgerPost env A) (LedgerFail env) where
  wp op c hc := by
    have hG : ∀ e : Err, (fun _ => True) e := fun _ => trivial
    cases op with
    | prepare a =>
      exact wp_prepare_bind hG fun _ => wp_end (.prepare a) c fun _ _ => trivial
    | dispatch id provider clock =>
      refine wp_markDispatching_bind hG (fun c' d' H' _ hcommit hexp => ?_)
        fun price s c' d' H' _ hcommit hdisp => ?_
      · intro c'' hr
        obtain ⟨hinv, hguar⟩ := hcommit c'' hr
        refine ⟨hinv, hguar, ?_⟩
        rcases hexp with hsame | ⟨r, ⟨hopen, now, v, hv, hA⟩, hlock⟩
        · exact .inr ⟨rfl, .inl (hsame c'')⟩
        · exact .inr ⟨rfl, .inr ⟨r, hlock c'' hr, hopen, now, _, v, hv, hA⟩⟩
      · intro c'' hr
        obtain ⟨hinv, hguar⟩ := hcommit c'' hr
        obtain ⟨r, hst, now, hlater⟩ := hdisp
        obtain ⟨hget, hget', hcov⟩ := hlater c'' hr
        exact ⟨hinv, hguar, .inl ⟨price, s, r, rfl, hget, hst, ⟨now, hget'⟩, hcov⟩⟩
    | complete id a src =>
      refine wp_complete_bind (fun m c' d' H' _ hcommit hrep c'' hr => ?_)
        fun e c' hr hne hnot => ⟨hne, fun m hrep => ?_⟩
      · obtain ⟨hinv, hguar⟩ := hcommit c'' hr
        exact ⟨hinv, hguar, m, rfl, hrep c'' hr⟩
      · have hg : Guar (fun _ => ¬ False) c c' := hr.guar
        exact hnot m (hrep.guar hg hc hr.inv)
    | notSent id now =>
      exact wp_markNotSent_bind hG fun c' d' H' hr hcommit _ =>
        wp_end (.notSent id now) c (fun _ _ => trivial) c' d' H' hr hcommit
    | notSentIfPrepared id now =>
      exact wp_markNotSentIfPrepared_bind hG
        (wp_end (.notSentIfPrepared id now) c fun _ _ => trivial)
    | unknown id allowTerminal now =>
      exact wp_markUnknown_bind hG fun _ =>
        wp_end (.unknown id allowTerminal now) c fun _ _ => trivial
    | expiredUnknown id olderThanUtc currentUtc now =>
      exact wp_markExpired_bind hG fun _ =>
        wp_end (.expiredUnknown id olderThanUtc currentUtc now) c fun _ _ => trivial
    | amountOnly id call a src =>
      exact wp_record_bind hG fun _ => wp_end (.amountOnly id call a src) c fun _ _ => trivial
    | advance id status olderThanUtc currentUtc src =>
      exact wp_advanceState_bind hc hG fun _ =>
        wp_end (.advance id status olderThanUtc currentUtc src) c fun _ _ => trivial
    | decide id decision src =>
      cases decision with
      | confirmedUsage a =>
        exact wp_applyDecision_bind (fun e he => he a rfl) fun _ =>
          wp_end (.decide id (.confirmedUsage a) src) c fun _ _ => trivial
      | confirmedNotSent =>
        exact wp_applyDecision_bind (fun _ _ => trivial) fun _ =>
          wp_end (.decide id .confirmedNotSent src) c fun _ _ => trivial
      | stillUnknown =>
        exact wp_applyDecision_bind (fun _ _ => trivial) fun _ =>
          wp_end (.decide id .stillUnknown src) c fun _ _ => trivial
      | onlyAmount a =>
        exact wp_applyDecision_bind (fun _ _ => trivial) fun _ =>
          wp_end (.decide id (.onlyAmount a) src) c fun _ _ => trivial
    | register a =>
      exact wp_register_bind hG fun _ => wp_end (.register a) c fun _ _ => trivial
    | close versionId effectiveToUtc now =>
      exact wp_closeVersion_bind hG
        (wp_end (.close versionId effectiveToUtc now) c fun _ _ => trivial)

end RagQs.Usage
