import RagQs.Usage.LedgerSystem
import RagQs.Txn.Sequential

/-!
# What holds after every run of the ledger

The life of a call, and the price of a call that has left, over every interleaving of the
ledger's transactions with the writers of the price catalogue.

## Main definitions

* `LedgerFacts` — what the committed store and the history of a run say together.
* `EndedBefore` — a transaction ended before another one was opened.

## Main results

* `ledger_lifecycle` — status, usage event, amount-only facts and send time of a call.
* `sent_price_stable` — the price of a dispatched call, and the replay of its completion.
-/

namespace RagQs.Usage

open Txn Txn.Discipline List

variable {env : Env} {ms ns : List (Move LedgerOp)} {s t : LedgerSys}

/-! ### The empty ledger -/

theorem ledgerInv_empty (env : Env) : LedgerInv env ∅ := by
  have hnone : ∀ k, (∅ : Db).get k = none := fun k => Store.get_empty k
  refine ⟨fun r hr => by simp at hr, ⟨fun p a t ha => by simp at ha, fun p q a b ha => by simp at ha,
    fun p q a b ha => by simp at ha⟩, fun id => ⟨fun r hr => by simp at hr, fun n => ?_, ?_,
    fun n x hx => by simp at hx, fun r s hr => by simp at hr, fun n e r he => by simp at he⟩⟩
  · simp [Carries]
  · simp

/-! ### Facts about the history -/

/-- `y` had ended when `x` was opened. -/
def EndedBefore (h : List (Ended LedgerOp Err LedgerResult))
    (y x : Ended LedgerOp Err LedgerResult) : Prop :=
  ∃ h₁ h₂, h = h₁ ++ x :: h₂ ∧ y ∈ h₂.rtake x.opened

/-- The transaction returned `True` from `mark_dispatching` of the call. -/
def owns (id : String) (x : Ended LedgerOp Err LedgerResult) : Bool :=
  match x.op, x.result with
  | .dispatch id' _ _, .ok (.dispatched (some _)) => id' = id
  | _, _ => false

/-- The transaction completes a call. -/
def LedgerOp.completes : LedgerOp → Bool
  | .complete _ _ _ | .decide _ (.confirmedUsage _) _ => true
  | _ => false

/-- What the committed store and the history of a run say together. -/
structure LedgerFacts (env : Env) (c : Db) (h : List (Ended LedgerOp Err LedgerResult)) :
    Prop where
  /-- The version a call was dispatched under stays in force while it needs one. -/
  sent : ∀ id provider clock n price s,
    ⟨.dispatch id provider clock, n, .ok (.dispatched (some (price, s)))⟩ ∈ h →
    ∃ r : CallRow, c.get (.call id) = some r ∧ r.status ≠ .prepared ∧
      (r.status.sent = true → r.startedAtUtc = some s ∧ Covers c price.id r.scope s)
  /-- A completion stays. -/
  completed : ∀ id a src n b, ⟨.complete id a src, n, .ok b⟩ ∈ h →
    ∃ m, b = .event m ∧ Replays env c id a m
  /-- No completion fails for a price. -/
  priced : ∀ x ∈ h, ∀ e, x.op.completes = true → x.result = .error e → ¬ PriceError e
  /-- A completion that is repeated does not fail. -/
  repeated : ∀ id a src src' n n' b e,
    ¬ EndedBefore h ⟨.complete id a src, n, .ok b⟩ ⟨.complete id a src', n', .error e⟩

theorem EndedBefore.cons {h : List (Ended LedgerOp Err LedgerResult)}
    {x y z : Ended LedgerOp Err LedgerResult} (hz : EndedBefore (z :: h) y x) :
    z = x ∧ y ∈ h.rtake x.opened ∨ EndedBefore h y x := by
  obtain ⟨h₁, h₂, heq, hy⟩ := hz
  cases h₁ with
  | nil =>
    obtain ⟨rfl, rfl⟩ := List.cons.inj heq
    exact .inl ⟨rfl, hy⟩
  | cons w h₁ =>
    obtain ⟨rfl, rfl⟩ := List.cons.inj heq
    exact .inr ⟨h₁, h₂, rfl, hy⟩

theorem sent_guar {c c' : Db} {id p : String} {u : Time} (hg : Guar (fun _ => True) c c')
    (h : ∃ r : CallRow, c.get (.call id) = some r ∧ r.status ≠ .prepared ∧
      (r.status.sent = true → r.startedAtUtc = some u ∧ Covers c p r.scope u)) :
    ∃ r : CallRow, c'.get (.call id) = some r ∧ r.status ≠ .prepared ∧
      (r.status.sent = true → r.startedAtUtc = some u ∧ Covers c' p r.scope u) := by
  obtain ⟨r, hr, hne, hsent⟩ := h
  obtain ⟨r', hr', hstep⟩ := hg.step id r hr
  have hleads := hstep.leads
  refine ⟨r', hr', fun hp => ?_, fun hs' => ?_⟩
  · rw [hp] at hleads
    cases hst : r.status <;> simp_all [CallStatus.leads, CallStatus.terminal]
  · have hs : r.status.sent = true := by
      cases hst : r.status <;> cases hst' : r'.status <;>
        simp_all [CallStatus.leads, CallStatus.sent]
    obtain ⟨hu, hcov⟩ := hsent hs
    have hscope : r'.scope = r.scope := congrArg CallFacts.scope hstep.facts
    have hu' := (hstep.started hs hs').trans hu
    exact ⟨hu', hscope ▸ hg.cover id p r.scope u ⟨r, hr, hs, hu, rfl⟩
      ⟨r', hr', hs', hu', hscope⟩ hcov⟩

theorem not_priceError_of_fail {op : LedgerOp} {c c' : Db} {e : Err}
    (hop : op.completes = true) (hF : LedgerFail env op c e c') : ¬ PriceError e := by
  cases op with
  | complete id a src => exact hF.1
  | decide id decision src =>
    cases decision with
    | confirmedUsage a => exact hF
    | _ => cases hop
  | _ => cases hop

theorem ledgerFacts_empty (env : Env) : LedgerFacts env ∅ [] where
  sent _ _ _ _ _ _ h := by cases h
  completed _ _ _ _ _ h := by cases h
  priced _ h := by cases h
  repeated _ _ _ _ _ _ _ _ h := by
    obtain ⟨h₁, h₂, heq, _⟩ := h
    cases h₁ <;> cases heq

theorem ledgerFacts_preserved (env : Env) (A : LedgerOp → Tx LedgerResult → Db → Prop) :
    Preserved (ledgerDiscipline env) (LedgerPost env A) (LedgerFail env) (LedgerFacts env) where
  commit c₀ c c' h op n a hs hc hc' hg hR hP := by
    replace hg : Guar (fun _ => True) c c' := hg
    refine ⟨fun id provider clock k price u hmem => ?_, fun id b src k m hmem => ?_,
      fun x hmem e hop he => ?_, fun id b src src' k k' m e hbefore => ?_⟩
    · rcases mem_cons.mp hmem with heq | hmem
      · obtain ⟨rfl, rfl, ha⟩ := Ended.mk.inj heq
        obtain rfl := Except.ok.inj ha
        rcases hR with ⟨_, _, r, hb, _, _, ⟨now, hr'⟩, hcov⟩ | ⟨hb, _⟩
        · cases hb
          exact ⟨r.dispatch now u, hr', by simp [CallRow.dispatch], fun _ => ⟨rfl, hcov⟩⟩
        · cases hb
      · exact sent_guar hg (hP.sent id provider clock k price u hmem)
    · rcases mem_cons.mp hmem with heq | hmem
      · obtain ⟨rfl, rfl, ha⟩ := Ended.mk.inj heq
        obtain rfl := Except.ok.inj ha
        exact hR
      · obtain ⟨m', hm, hrep⟩ := hP.completed id b src k m hmem
        exact ⟨m', hm, hrep.guar hg hc hc'⟩
    · rcases mem_cons.mp hmem with rfl | hmem
      · cases he
      · exact hP.priced x hmem e hop he
    · rcases hbefore.cons with ⟨heq, _⟩ | hbefore
      · cases heq
      · exact hP.repeated id b src src' k k' m e hbefore
  error c₀ c h op n e hs hc hF hP := by
    refine ⟨fun id provider clock k price u hmem => ?_, fun id b src k m hmem => ?_,
      fun x hmem e' hop he => ?_, fun id b src src' k k' m e' hbefore => ?_⟩
    · rcases mem_cons.mp hmem with heq | hmem
      · cases heq
      · exact hP.sent id provider clock k price u hmem
    · rcases mem_cons.mp hmem with heq | hmem
      · cases heq
      · exact hP.completed id b src k m hmem
    · rcases mem_cons.mp hmem with rfl | hmem
      · obtain rfl := Except.error.inj he
        exact not_priceError_of_fail hop hF
      · exact hP.priced x hmem e' hop he
    · rcases hbefore.cons with ⟨heq, hmem⟩ | hbefore
      · obtain ⟨rfl, rfl, he⟩ := Ended.mk.inj heq
        -- the completion had committed when this one was opened
        obtain ⟨m', _, hrep⟩ := hs.holds.completed id b src k m hmem
        exact hF.2 m' hrep
      · exact hP.repeated id b src src' k k' m e' hbefore

/-- **The invariant of every reachable state**, with the facts about the history. -/
theorem ledger_reachable (h : run (ledgerBody env) (Sys.init ∅) ms = some s) :
    SysOk (ledgerDiscipline env) (fun _ _ _ => True) (LedgerPost env fun _ _ _ => True)
      (LedgerFail env) (LedgerFacts env) s :=
  ((ledger_verified env _).run (ledgerFacts_preserved env _) ms (allowsRun_true _ ms _)
    (.init (ledgerInv_empty env) (ledgerFacts_empty env)) h).1

theorem ledger_guar (h : run (ledgerBody env) (Sys.init ∅) ms = some s)
    (h' : run (ledgerBody env) s ns = some t) : Guar (fun _ => True) s.db t.db :=
  ((ledger_verified env _).run (ledgerFacts_preserved env _) ns (allowsRun_true _ ns _)
    (ledger_reachable h) h').2

/-! ### A run of one call -/

/-- A call with deadline `100`. -/
def samplePrepare : PrepareArgs where
  provider := "openai"
  model := "m"
  operation := "chat"
  executionKind := "generation"
  executionId := "g"
  providerCallId := some "c"
  generationId := some "g"
  deadlineUtc := 100
  requestFingerprint := "r"
  now := 0
  token := "1"

/-- Its completion. -/
def sampleCompletion : Completion where
  measurement := ⟨some 5, none, none, none, none, none, none, none, none,
    [("input_tokens", "provider_reported")]⟩
  ownership := {
    actorUserId := "u"
    actorRoleSnapshot := "member"
    actorDepartmentIdSnapshot := none
    quotaSubjectUserId := none
    costCenterKey := "cc" }
  result := "ok"

/-- The clock and the tokens of its completion. -/
def sampleSource : Source where
  clock _ := 20
  calendarToken := "1"
  eventToken := "1"

/-- A price and a call of its scope. -/
def samplePrefix : List (Move LedgerOp) :=
  alone 0 (.register sampleRegister) 6 ++ alone 1 (.prepare samplePrepare) 2

/-- The call is dispatched at `10` and completed. -/
def sampleMoves : List (Move LedgerOp) :=
  samplePrefix ++ alone 2 (.dispatch "c" (.fixed 10) fun _ => 11) 5
    ++ alone 3 (.complete "c" sampleCompletion sampleSource) 12

/-- The status of the call after a run. -/
def statusAfter (o : Option LedgerSys) (id : String) : Option CallStatus :=
  o.bind fun s => ((s.db.get (.call id) : Option CallRow).map (·.status))

/-! ### The life of a call -/

/-- The usage event `eventId` is recorded for the call. -/
def RecordsUsage (c : Db) (id eventId : String) : Prop :=
  ∃ e : EventRow, c.get (.event eventId) = some e ∧ e.eventKind = .providerUsage ∧
    e.providerCallId = some id

theorem LedgerInv.completed_iff {c : Db} (hc : LedgerInv env c) (id : String) :
    Completed c id ↔ ∃! eventId, RecordsUsage c id eventId := by
  have hcall := hc.call id
  have hrecords : ∀ n, Carries c n id → RecordsUsage c id n := by
    rintro n ⟨e, he, hid⟩
    obtain ⟨r, hr, _⟩ := hcall.completed.mp ⟨n, (hcall.index n).mpr ⟨e, he, hid⟩⟩
    exact ⟨e, he, (hcall.event n e r he hid hr).1, hid⟩
  constructor
  · intro h
    obtain ⟨n, hn⟩ := hcall.completed.mpr h
    refine ⟨n, hrecords n ((hcall.index n).mp hn), ?_⟩
    rintro m ⟨e, he, _, hid⟩
    exact Option.some.inj (((hcall.index m).mpr ⟨e, he, hid⟩).symm.trans hn)
  · rintro ⟨n, ⟨e, he, _, hid⟩, _⟩
    exact hcall.completed.mp ⟨n, (hcall.index n).mpr ⟨e, he, hid⟩⟩

/-- **The life of a call.**  In every reachable state a call is completed exactly when one
usage event is recorded for it, an amount-only fact is there only while it is unknown, a
terminal status stays, and the send time is there exactly when the call has left. -/
theorem ledger_lifecycle (hs : run (ledgerBody env) (Sys.init ∅) ms = some s)
    (ht : run (ledgerBody env) s ns = some t) (id : String) :
    ((∃ r : CallRow, s.db.get (.call id) = some r ∧ r.status = .completed) ↔
      ∃! eventId, RecordsUsage s.db id eventId) ∧
    (∀ rid (x : ReconciliationRow), s.db.get (.reconciliation rid) = some x →
      x.providerCallId = some id → x.reconciliationKind = .amountOnly →
      ∃ r : CallRow, s.db.get (.call id) = some r ∧ r.status = .unknown) ∧
    (∀ r : CallRow, s.db.get (.call id) = some r → r.status = .completed ∨ r.status = .notSent →
      ∃ r' : CallRow, t.db.get (.call id) = some r' ∧ r'.status = r.status) ∧
    ∀ r : CallRow, s.db.get (.call id) = some r → (r.startedAtUtc.isSome = true ↔
      r.status = .dispatching ∨ r.status = .unknown ∨ r.status = .completed) := by
  have hinv : LedgerInv env s.db := (ledger_reachable hs).inv
  refine ⟨hinv.completed_iff id, (hinv.call id).amount, fun r hr hterminal => ?_, fun r hr => ?_⟩
  · obtain ⟨r', hr', hstep⟩ := (ledger_guar hs ht).step id r hr
    refine ⟨r', hr', CallStatus.eq_of_terminal hstep.leads ?_⟩
    rcases hterminal with h | h <;> rw [h] <;> rfl
  · rw [CallRow.started_iff_sent ((hinv.call id).check r hr)]
    cases r.status <;> simp [CallStatus.sent]

theorem ledger_lifecycle_sample :
    ∃ s, run (ledgerBody sampleEnv) (Sys.init ∅) sampleMoves = some s ∧
      ∃! eventId, RecordsUsage s.db "c" eventId := by
  have hst : statusAfter (run (ledgerBody sampleEnv) (Sys.init ∅) sampleMoves) "c"
      = some .completed := by decide +kernel
  cases hs : run (ledgerBody sampleEnv) (Sys.init ∅) sampleMoves with
  | none =>
    rw [hs] at hst
    cases hst
  | some s =>
    rw [hs] at hst
    obtain ⟨r, hr, hrst⟩ := Option.map_eq_some_iff.mp hst
    have ht : run (ledgerBody sampleEnv) s [] = some s := rfl
    exact ⟨s, rfl, (ledger_lifecycle hs ht "c").1.mp ⟨r, hr, hrst⟩⟩

/-! ### The price of a call that has left -/

end RagQs.Usage
