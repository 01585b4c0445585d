import RagQs.Usage.QuotaProof

/-!
# Runs of the quota ledger

The appends and the rebuild, interleaved statement by statement, from an empty database.

## Main definitions

* `QuotaOp`, `quotaBody` — the transactions.
* `QuotaAgrees` — the ledger and its projection agree.

## Main results

* `quota_verified` — every transaction keeps the discipline.
* `quota_ledger_projection` — what holds after every run.
-/

namespace RagQs.Usage

open Txn Txn.Discipline Store

/-- The transactions of the quota ledger. -/
inductive QuotaOp
  | debit (a : DebitArgs)
  | reversal (a : AdjustmentArgs)
  | supplement (a : AdjustmentArgs)
  | credit (a : CreditArgs)
  | rebuild (quotaSubjectUserId quotaPeriod : String) (now : Time)

/-- The program of each; the result is the id of the entry. -/
def quotaBody (env : Env) : QuotaOp → Tx (Option String)
  | .debit a => appendDebit env a
  | .reversal a => do return some (← appendReversal env a)
  | .supplement a => do return some (← appendSupplement env a)
  | .credit a => do return some (← appendCredit env a)
  | .rebuild subject period now => do
    rebuildProjection env subject period now
    return none

/-- What a commit says of the store just before it and just after. -/
def QuotaPost : QuotaOp → Db → Option String → Db → Db → Prop
  | .rebuild _ _ _, _, _, c, c' => SameLedger c c'
  | _, _, _, _, _ => True

/-- **Every transaction keeps the discipline.** -/
theorem quota_verified (env : Env) (A : QuotaOp → Tx (Option String) → Db → Prop) :
    Verified quotaDiscipline A (quotaBody env) QuotaPost (fun _ _ _ _ => True) where
  wp op c hc := by
    have hD := keepsQuota_self
    have hE : ∀ (e : Err) (c' : Db) (d' : Db) (H' : Key → Prop),
        quotaDiscipline.Rely (fun _ => False) c c' → True := fun _ _ _ _ _ => trivial
    cases op with
    | debit a =>
      have hw : quotaDiscipline.wp (A (.debit a)) (appendDebit env a >>= .done)
          (quotaDiscipline.Commit (QuotaPost (.debit a) c)) (fun _ _ _ _ => True) c ∅
          (fun _ => False) :=
        wp_appendDebit_bind hD quotaFree_empty
          (fun o c' d' H' _ hk c'' hr => ⟨(hk c'' hr).1, (hk c'' hr).2, trivial⟩) hE hc
      rwa [Prog.bind_done] at hw
    | reversal a =>
      exact wp_appendReversal_bind hD quotaFree_empty
        (fun id c' d' H' _ hk c'' hr => ⟨(hk c'' hr).1, (hk c'' hr).2, trivial⟩) hE
    | supplement a =>
      exact wp_appendSupplement_bind hD quotaFree_empty
        (fun id c' d' H' _ hk c'' hr => ⟨(hk c'' hr).1, (hk c'' hr).2, trivial⟩) hE
    | credit a =>
      refine wp_appendCredit_bind hD quotaFree_empty (fun _ c' id _ _ _ c'' hr => ?_)
        (fun _ c' d' H' id _ _ _ _ _ happ c'' hr => ?_) hE
      · obtain ⟨hinv, hguar⟩ := quotaFree_empty.kept hD c'' hr
        exact ⟨hinv, hguar, trivial⟩
      · obtain ⟨hinv, hguar⟩ := Kept.of_appends hD happ c'' hr
        exact ⟨hinv, hguar, trivial⟩
    | rebuild subject period now =>
      exact wp_rebuildProjection_bind hD quotaFree_empty (fun c' d' H' _ hsame c'' hr =>
        ⟨(hsame c'' hr).inv hr.inv, (hsame c'' hr).guar H', hsame c'' hr⟩) hE

/-! ### The ledger and the projection agree -/

theorem QuotaInv.unique {c : Db} (h : QuotaInv c) {u : EntryIndex} {id id' : String}
    {r r' : QuotaDebitRow} (hr : c.get (.quotaDebit id) = some r)
    (hr' : c.get (.quotaDebit id') = some r') (hu : u ∈ r.indexes) (hu' : u ∈ r'.indexes) :
    id = id' :=
  Option.some.inj (((h.index u id).mpr ⟨r, hr, hu⟩).symm.trans ((h.index u id').mpr ⟨r', hr', hu'⟩))

/-- The projection says what the ledger says, no debit is reversed beyond its pages, and no
operation and no source has two entries. -/
structure QuotaAgrees (c : Db) : Prop where
  used : ∀ subject period, usedOf c subject period = total (usedDelta subject period) c
  used_nonneg : ∀ subject period, 0 ≤ usedOf c subject period
  granted : ∀ subject period, grantedOf c subject period = total (grantedDelta subject period) c
  reversed : ∀ id (r : QuotaDebitRow), c.get (.quotaDebit id) = some r → r.entryKind = .debit →
    -reversedTotal c id ≤ r.pageDelta
  operation : ∀ id id' (r r' : QuotaDebitRow) op, c.get (.quotaDebit id) = some r →
    c.get (.quotaDebit id') = some r' → r.quotaOperationId = some op →
    r'.quotaOperationId = some op → id = id'
  adjustment : ∀ id id' (r r' : QuotaDebitRow) ns source, c.get (.quotaDebit id) = some r →
    c.get (.quotaDebit id') = some r' → r.entryKind = r'.entryKind →
    r.adjustmentSourceNamespace = some ns → r'.adjustmentSourceNamespace = some ns →
    r.adjustmentSourceId = some source → r'.adjustmentSourceId = some source → id = id'

theorem QuotaInv.agrees {c : Db} (h : QuotaInv c) : QuotaAgrees c where
  used := h.used
  used_nonneg := h.used_nonneg
  granted := h.granted
  reversed := h.bound
  operation id id' r r' op hr hr' hop hop' :=
    h.unique (u := .operation op) hr hr' (by simp [QuotaDebitRow.indexes, hop])
      (by simp [QuotaDebitRow.indexes, hop'])
  adjustment id id' r r' ns source hr hr' hkind hns hns' hs hs' :=
    h.unique (u := .adjustment r.entryKind ns source) hr hr'
      (by simp [QuotaDebitRow.indexes, hns, hs]) (by simp [QuotaDebitRow.indexes, hns', hs', hkind])

variable {env : Env} {ms : List (Move QuotaOp)} {s : Sys Row QuotaOp Err (Option String)}

/-- **The quota ledger and its projection agree** after every run, and no step of a
`rebuild_projection` changes what the projection says. -/
theorem quota_ledger_projection (hs : run (quotaBody env) (Sys.init ∅) ms = some s) :
    QuotaAgrees s.db ∧
      ∀ i x t subject period now, s.sessions i = some x → x.op = .rebuild subject period now →
        step (quotaBody env) s (.advance i) = some t → ∀ subject' period',
          usedOf t.db subject' period' = usedOf s.db subject' period' ∧
            grantedOf t.db subject' period' = grantedOf s.db subject' period' := by
  have hok := ((quota_verified env (fun _ _ _ => True)).run (Preserved.true)
    ms (allowsRun_true _ ms _) (SysOk.init quotaInv_empty trivial) hs).1
  refine ⟨QuotaInv.agrees hok.inv, fun i x t subject period now hx hop ht subject' period' => ?_⟩
  rcases step_advance_db hx ht with hdb | ⟨a, hprog, hdb⟩
  · rw [hdb]
    exact ⟨rfl, rfl⟩
  · obtain ⟨op, prog, d, n⟩ := x
    dsimp only at hop hprog hdb
    subst hop hprog
    obtain ⟨_, _, hsame⟩ := hok.committed hx
    have hsame : SameLedger s.db (d ∪ s.db) := hsame
    rw [hdb]
    exact ⟨hsame.used subject' period', hsame.granted subject' period'⟩

/-! ### A run of a few entries -/

/-- A debit of ten pages. -/
def sampleDebit : DebitArgs where
  quotaOperationId := "op"
  publicationId := "p"
  quotaSubjectUserId := "u"
  pages := 10
  ownership := sampleOwnership
  calendarLock := ⟨"cal", "UTC", 0⟩
  role := "user"
  effectiveAtUtc := 5
  now := 6
  token := "1"

/-- Four of the ten pages are taken back. -/
def sampleReversal : AdjustmentArgs where
  referencedDebitId := "qd_1"
  pages := 4
  adjustmentSourceNamespace := "refund"
  adjustmentSourceId := "r"
  ownership := sampleOwnership
  calendarLock := ⟨"cal", "UTC", 0⟩
  now := 7
  token := "2"

/-- A grant of five pages. -/
def sampleCredit : CreditArgs where
  quotaSubjectUserId := "u"
  quotaPeriod := "2026-01"
  pages := 5
  adjustmentSourceNamespace := "quota_request"
  adjustmentSourceId := "q"
  ownership := sampleOwnership
  calendarLock := ⟨"cal", "UTC", 0⟩
  now := 8
  token := "3"

/-- The reversal is under way while the pages are granted; then the projection is computed
again. -/
def sampleEntries : List (Move QuotaOp) :=
  alone 0 (.debit sampleDebit) 10 ++ alone 1 (.reversal sampleReversal) 4
    ++ alone 2 (.credit sampleCredit) 7 ++ List.replicate 6 (.advance 1)
    ++ alone 3 (.rebuild "u" "2026-01" 9) 5

/-- The pages used and granted after a run. -/
def pagesAfter (o : Option (Sys Row QuotaOp Err (Option String))) (subject period : String) :
    Option (ℤ × ℤ) :=
  o.map fun s => (usedOf s.db subject period, grantedOf s.db subject period)

theorem quota_ledger_projection_sample :
    ∃ s, run (quotaBody sampleEnv) (Sys.init ∅) sampleEntries = some s ∧ QuotaAgrees s.db ∧
      usedOf s.db "u" "2026-01" = 6 ∧ grantedOf s.db "u" "2026-01" = 5 := by
  have hpages : pagesAfter (run (quotaBody sampleEnv) (Sys.init ∅) sampleEntries) "u" "2026-01"
      = some (6, 5) := by decide +kernel
  cases hs : run (quotaBody sampleEnv) (Sys.init ∅) sampleEntries with
  | none =>
    rw [hs] at hpages
    cases hpages
  | some s =>
    rw [hs] at hpages
    obtain ⟨hused, hgranted⟩ := Prod.mk.inj (Option.some.inj hpages)
    exact ⟨s, rfl, (quota_ledger_projection hs).1, hused, hgranted⟩

end RagQs.Usage
