import RagQs.Txn.Views
import RagQs.Usage.BudgetRuns

/-!
# Requests that a limit refuses

A request that a limit does not admit marks the meter as exhausted and raises, in one
transaction.  The raise rolls the mark back, so the meter is as active as before.

## Main definitions

* `Marked` — a meter is exhausted for a reason.
* `RejectedByLimit` — a call has marked the meter and is about to raise.

## Main results

* `refusal_leaves_no_mark` — whatever runs meanwhile, the meter is not marked after the call, and
  a later request is judged by the limits alone.
* `refusal_forgotten` — a run where the next request is admitted.
-/

namespace RagQs.Usage.Budget

open Txn hiding release

variable {meter : MeterRow}

/-- The meter of a generation is exhausted for a reason. -/
def Marked (s : Store BudgetRow) (generationId reason : String) : Prop :=
  ∃ meter, s.get (.meter generationId) = some meter ∧ meter.status = .exhausted ∧
    meter.exhaustedReason = some reason

instance (s : Store BudgetRow) (generationId reason : String) :
    Decidable (Marked s generationId reason) :=
  match h : s.get (.meter generationId) with
  | some meter =>
    decidable_of_iff (meter.status = .exhausted ∧ meter.exhaustedReason = some reason)
      ⟨fun hmarked => ⟨meter, h, hmarked⟩, fun ⟨_, hmeter', hmarked⟩ =>
        Option.some.inj (h.symm.trans hmeter') ▸ hmarked⟩
  | none => .isFalse fun ⟨_, hmeter, _⟩ => nomatch h.symm.trans hmeter

/-- The error says that the budget is exhausted. -/
def SaysExhausted (e : Err) : Prop := e.code = some "budget_exhausted"

instance (e : Err) : Decidable (SaysExhausted e) := inferInstanceAs (Decidable (_ = _))

/-- A call of `reserve` is about to raise that the budget is exhausted, and has marked the meter:
one of the limits did not admit the request. -/
structure RejectedByLimit (s : Sys BudgetRow BudgetOp Err Unit) (i : ℕ) (a : ReserveArgs)
    (reason : String) (x : Session BudgetRow BudgetOp Err Unit) : Prop where
  session : s.sessions i = some x
  op : x.op = .reserve a
  raises : ∃ e, x.prog = .fail e ∧ SaysExhausted e
  marks : Marked x.patch a.generationId reason

/-! ### How a call that raises has run -/

/-- The program, with the pending writes `d`, has run on the stores `cs` and raises `e`; the rows
its statements needed are in `b` as they were. -/
structure Raises {α : Type} (b : Store BudgetRow) (p : BudgetTx α) (d : Store BudgetRow)
    (cs : List (Store BudgetRow)) (e : Err) (d' : Store BudgetRow) : Prop where
  ran : p.runOn d cs = some (.fail e, d')
  kept : p.Along (fun p d c => ∀ k ∈ p.need (d ∪ c), b.get k = c.get k) d cs

namespace Raises

variable {α β : Type} {b d d' : Store BudgetRow} {cs : List (Store BudgetRow)} {e e' : Err}

theorem fail (h : Raises b (.fail e' : BudgetTx α) d cs e d') : d' = d := by
  have hran := h.ran
  cases cs with
  | nil =>
    cases hran
    rfl
  | cons c cs => cases hran

theorem of_discard {p : BudgetTx α}
    (hran : (p >>= fun _ => (pure () : BudgetTx Unit)).runOn d cs = some (.fail e, d'))
    (hkept : (p >>= fun _ => (pure () : BudgetTx Unit)).Along
      (fun p d c => (∀ k ∈ p.need (d ∪ c), b.get k = c.get k) ∧ True) d cs) :
    Raises b p d cs e d' := by
  induction p generalizing d cs with
  | done a => cases cs <;> cases hran
  | fail e' =>
    cases cs with
    | nil =>
      cases hran
      exact ⟨rfl, trivial⟩
    | cons c cs => cases hran
  | stmt l w n ih =>
    cases cs with
    | nil => cases hran
    | cons c cs =>
      have h := ih _ hran hkept.2
      exact ⟨h.ran, hkept.1.1, h.kept⟩

theorem raiseIf_bind {bad : Prop} [Decidable bad] {f : Unit → BudgetTx α}
    (h : Raises b (raiseIf bad e' >>= f) d cs e d') : d' = d ∨ ¬ bad ∧ Raises b (f ()) d cs e d' := by
  unfold raiseIf at h
  split at h
  · exact .inl h.fail
  · next hbad => exact .inr ⟨hbad, h⟩

variable {f : β → BudgetTx α}

theorem check_bind {x : Except Err β} (h : Raises b (check x >>= f) d cs e d') :
    d' = d ∨ ∃ y, x = .ok y ∧ Raises b (f y) d cs e d' := by
  unfold check at h
  cases x with
  | ok y => exact .inr ⟨y, rfl, h⟩
  | error e' => exact .inl h.fail

theorem orRaise_bind {o : Option β} (h : Raises b (orRaise o e' >>= f) d cs e d') :
    d' = d ∨ ∃ y, o = some y ∧ Raises b (f y) d cs e d' := by
  cases o with
  | some y => exact .inr ⟨y, rfl, h⟩
  | none => exact .inl h.fail

theorem select_bind {q : Store BudgetRow → β} (h : Raises b (Prog.select q >>= f) d cs e d') :
    ∃ c cs', Raises b (f (q (d ∪ c))) d cs' e d' := by
  obtain ⟨hran, hkept⟩ := h
  cases cs with
  | nil => cases hran
  | cons c cs => exact ⟨c, cs, hran, hkept.2⟩

theorem lockRow_bind {k : BudgetKey} {f : Option (BudgetRow k) → BudgetTx α}
    (h : Raises b (lockRow k >>= f) ∅ cs e d') :
    ∃ r cs', (r.isSome = true → b.get k = r) ∧ Raises b (f r) ∅ cs' e d' := by
  obtain ⟨hran, hkept⟩ := h
  cases cs with
  | nil => cases hran
  | cons c cs =>
    refine ⟨(∅ ∪ c : Store BudgetRow).get k, cs, fun hsome => ?_, hran, hkept.2⟩
    rw [AList.empty_union] at hsome ⊢
    refine hkept.1 k ?_
    change k ∈ needed (fun v : Store BudgetRow => if (v.get k).isSome then [k] else [])
      (fun _ => []) (∅ ∪ c)
    rw [AList.empty_union]
    simp [needed, hsome]

/-- A call of `reserve` that has written and raises has found the meter active, and still has it
locked. -/
theorem found_active {a : ReserveArgs} (h : Raises b (reserve a) ∅ cs e d') (hwrites : d' ≠ ∅) :
    ∃ meter, b.get (.meter a.generationId) = some meter ∧ meter.status = .active := by
  unfold reserve at h
  obtain ⟨-, h⟩ := h.raiseIf_bind.resolve_left hwrites
  obtain ⟨tokens, -, h⟩ := h.check_bind.resolve_left hwrites
  obtain ⟨estimatedCost, -, h⟩ := h.orRaise_bind.resolve_left hwrites
  obtain ⟨cost, -, h⟩ := h.check_bind.resolve_left hwrites
  obtain ⟨found, cs, hkept, h⟩ := h.lockRow_bind
  obtain ⟨meter, rfl, h⟩ := h.orRaise_bind.resolve_left hwrites
  obtain ⟨c, cs, h⟩ := h.select_bind
  obtain ⟨c', cs, h⟩ := h.select_bind
  split at h
  · have hnone := h.raiseIf_bind.resolve_left hwrites
    obtain ⟨-, hran, -⟩ := hnone
    cases cs <;> cases hran
  · unfold reserveNew at h
    obtain ⟨hactive, -⟩ := h.raiseIf_bind.resolve_left hwrites
    exact ⟨meter, hkept rfl, not_not.mp hactive⟩

end Raises

/-! ### After the call -/

/-- The call does not say that the budget is exhausted. -/
def NotRefused {α : Type} (p : BudgetTx α) (s : Store BudgetRow) : Prop :=
  ∀ e, p.exec s = .error e → ¬ SaysExhausted e

section NotRefused

variable {α β : Type} {s : Store BudgetRow}

theorem notRefused_done (y : α) : NotRefused (.done y) s := by
  intro e he
  cases he

theorem notRefused_ok_bind {p : BudgetTx β} {f : β → BudgetTx α} {y : β} {s' : Store BudgetRow}
    (hp : p.exec s = .ok (y, s')) (h : NotRefused (f y) s') : NotRefused (p >>= f) s := by
  intro e he
  rw [Prog.exec_bind, hp] at he
  exact h e he

theorem NotRefused.bind {p : BudgetTx β} {f : β → BudgetTx α} (hp : NotRefused p s)
    (hf : ∀ y s', NotRefused (f y) s') : NotRefused (p >>= f) s := by
  intro e he
  rw [Prog.exec_bind] at he
  cases hexec : p.exec s with
  | error e' =>
    rw [hexec] at he
    cases he
    exact hp e hexec
  | ok y =>
    rw [hexec] at he
    exact hf y.1 y.2 e he

theorem notRefused_raiseIf_bind {bad : Prop} [Decidable bad] {e' : Err} {f : Unit → BudgetTx α}
    (herr : bad → ¬ SaysExhausted e') (h : NotRefused (f ()) s) :
    NotRefused (raiseIf bad e' >>= f) s := by
  unfold raiseIf
  split
  · next hbad =>
    intro e he
    cases he
    exact herr hbad
  · exact h

theorem notRefused_refuseIf_bind {bad : Prop} [Decidable bad] {reason : String}
    {f : Unit → BudgetTx α} (hbad : ¬ bad) (h : NotRefused (f ()) s) :
    NotRefused (refuseIf bad meter reason >>= f) s := by
  unfold refuseIf
  rw [if_neg hbad]
  exact h

theorem notRefused_amountColumn_bind {x : ℚ} {f : ℤ → BudgetTx α}
    (h : ∀ units, NotRefused (f units) s) : NotRefused (check (amountColumn x) >>= f) s := by
  unfold check amountColumn
  split
  · next _ units _ => exact h units
  · next heq =>
    split at heq
    · cases heq
    · cases heq
      intro e he
      cases he
      decide

theorem notRefused_insert {b : ReserveArgs} {tokens units : ℤ} {cost : ℚ} :
    NotRefused (do
      let inserted ← insertOrSkip .integrity (.reservation b.reservationId)
        [.replay b.generationId b.requestFingerprint]
        [⟨.reservation b.reservationId, some (reservationValues b tokens units)⟩,
         ⟨.replay b.generationId b.requestFingerprint, some b.reservationId⟩]
      if inserted then
        let reservedCost ← check (amountColumn
          (contextRound (amountValue meter.reservedCostAmount + cost)))
        let _ ← updateWhere (.meter b.generationId) (fun _ => true)
          (meter.addReservation b.isRag tokens reservedCost)
        return { budgetReservation (reservationValues b tokens units) with
          estimatedCostAmount := cost }
      else
        let replay ← reservationRow b.reservationId
        let replay ← orRaise replay
          (budgetInvariant "Budget reservation disappeared after concurrent insert")
        return budgetReservation replay : BudgetTx BudgetReservation) s := by
  refine .bind ?_ fun inserted s' => ?_
  · intro e he
    rw [exec_insertOrSkip] at he
    split at he
    · cases he
    · split at he
      · cases he
        decide
      · cases he
  · split
    · refine notRefused_amountColumn_bind fun reservedCost => ?_
      refine .bind ?_ fun _ _ => notRefused_done _
      intro e he
      cases he
    · refine notRefused_ok_bind (exec_readRow _) ?_
      cases hreplay : s'.get (BudgetKey.reservation b.reservationId) with
      | some row => exact notRefused_done _
      | none =>
        intro e he
        cases he
        decide

end NotRefused

theorem Admitted.not_refused {b : ReserveArgs} {s : Store BudgetRow} {cost : ℚ}
    (h : Admitted b s meter cost) : NotRefused (reserve b) s := by
  obtain ⟨d, harg, rfl⟩ := h.arg
  have htokens : positiveInt b.estimatedTokens "estimated_tokens" = .ok b.estimatedTokens := by
    unfold positiveInt
    rw [if_neg (not_lt.mpr h.tokens)]
  have hcost : nonNegativeMoney (.finite d) "estimated_cost" = .ok d.toRat :=
    if_neg (not_lt.mpr h.nonneg)
  unfold reserve
  refine notRefused_raiseIf_bind (fun _ => by decide) ?_
  rw [htokens, harg]
  refine notRefused_ok_bind (exec_check_ok _) ?_
  refine notRefused_ok_bind (exec_orRaise_some _ _) ?_
  rw [hcost]
  refine notRefused_ok_bind (exec_check_ok _) ?_
  refine notRefused_ok_bind (exec_lockRow _) ?_
  rw [h.found]
  refine notRefused_ok_bind (exec_orRaise_some _ _) ?_
  refine notRefused_ok_bind (Prog.exec_select _ _) ?_
  refine notRefused_ok_bind (exec_readRow _) ?_
  split
  · exact notRefused_raiseIf_bind (fun _ => by decide) (notRefused_done _)
  · unfold reserveNew
    refine notRefused_raiseIf_bind (fun hinactive => absurd h.active hinactive) ?_
    refine notRefused_refuseIf_bind (not_le.mpr h.before) ?_
    refine notRefused_refuseIf_bind (fun hrag => not_le.mpr (h.rag hrag.1) hrag.2) ?_
    refine notRefused_refuseIf_bind (not_lt.mpr h.tokenRoom) ?_
    refine notRefused_refuseIf_bind (not_lt.mpr h.costRoom) ?_
    exact notRefused_amountColumn_bind fun units => notRefused_insert

/-- **A refusal leaves no mark.**  Whatever else runs, the meter that a refused request has marked
is active once the request has raised, and a new request that the limits admit is not refused. -/
theorem refusal_leaves_no_mark (service : BudgetMeterService)
    {ms : List (Move BudgetOp)} {s t : Sys BudgetRow BudgetOp Err Unit}
    (hrun : run (budgetBody service) (Sys.init ∅) ms = some s) {i : ℕ} {a : ReserveArgs}
    {reason : String} {x : Session BudgetRow BudgetOp Err Unit}
    (hrejected : RejectedByLimit s i a reason x)
    (hstep : step (budgetBody service) s (.advance i) = some t) :
    ¬ Marked t.db a.generationId reason ∧
      ∀ b meter cost, b.generationId = a.generationId → Admitted b t.db meter cost →
        NotRefused (reserve b) t.db := by
  obtain ⟨cs, hran, -, halong⟩ :=
    session_seen (allowsRun_true _ _ _) hrun hrejected.session
  obtain ⟨e, hprog, -⟩ := hrejected.raises
  rw [hrejected.op, hprog] at hran
  rw [hrejected.op] at halong
  obtain ⟨marked, hget, -⟩ := hrejected.marks
  have hwrites : x.patch ≠ ∅ := by
    intro hempty
    rw [hempty] at hget
    cases hget
  obtain ⟨meter, hmeter, hactive⟩ := (Raises.of_discard hran halong).found_active hwrites
  have hdb : t.db = s.db := by
    rcases step_advance_db hrejected.session hstep with hdb | ⟨u, hdone, -⟩
    · exact hdb
    · rw [hprog] at hdone
      cases hdone
  refine ⟨?_, fun b meter cost _ hadmitted => hadmitted.not_refused⟩
  rintro ⟨meter', hmeter', hexhausted, -⟩
  rw [hdb, hmeter] at hmeter'
  obtain rfl := Option.some.inj hmeter'
  rw [hactive] at hexhausted
  cases hexhausted

/-! ### A run with a refused request -/

/-- A request for some tokens of `"g"`. -/
def tokenCall (reservationId : String) (estimatedTokens : ℤ) : ReserveArgs where
  generationId := "g"
  reservationId
  operationKind := "answer"
  estimatedTokens
  estimatedCost := some (.finite ⟨false, 1, 0⟩)
  isRag := false
  requestFingerprint := reservationId
  now := 1

/-- The meter is made, and a request for more than its hundred tokens is about to raise. -/
def refusedMoves : List (Move BudgetOp) :=
  alone 0 sampleMeter 3 ++ alone 1 (.reserve (tokenCall "r1" 101)) 4

deriving instance DecidableEq for ReserveArgs

/-- A test for the rejection of a request. -/
def rejects (a : ReserveArgs) (reason : String) (s : Sys BudgetRow BudgetOp Err Unit) (i : ℕ) :
    Bool :=
  match s.sessions i with
  | some ⟨.reserve a', .fail e, d, _⟩ =>
    a' = a ∧ SaysExhausted e ∧ Marked d a.generationId reason
  | _ => false

theorem rejectedByLimit_of_rejects {a : ReserveArgs} {reason : String}
    {s : Sys BudgetRow BudgetOp Err Unit} {i : ℕ} (h : rejects a reason s i = true) :
    ∃ x, RejectedByLimit s i a reason x := by
  unfold rejects at h
  split at h
  · next a' e d n hsession =>
    obtain ⟨rfl, hsays, hmarked⟩ := of_decide_eq_true h
    exact ⟨_, hsession, rfl, ⟨e, rfl, hsays⟩, hmarked⟩
  · cases h

/-- **The refusal is forgotten**: the meter is active once the request for too many tokens has
raised, and the next request is admitted. -/
theorem refusal_forgotten :
    ∃ s t x, run (budgetBody sampleService) (Sys.init ∅) refusedMoves = some s ∧
      RejectedByLimit s 1 (tokenCall "r1" 101) "total_tokens" x ∧
      step (budgetBody sampleService) s (.advance 1) = some t ∧
      ¬ Marked t.db "g" "total_tokens" ∧
      ∃ r, (reserve (tokenCall "r2" 50)).exec t.db = .ok r := by
  have hrejects : (run (budgetBody sampleService) (Sys.init ∅) refusedMoves).all
      (rejects (tokenCall "r1" 101) "total_tokens" · 1) = true := by decide +kernel
  have hafter : ((run (budgetBody sampleService) (Sys.init ∅) refusedMoves).bind fun s =>
      (step (budgetBody sampleService) s (.advance 1)).map fun t =>
        !decide (Marked t.db "g" "total_tokens") &&
          ((reserve (tokenCall "r2" 50)).exec t.db).isOk) = some true := by decide +kernel
  obtain ⟨s, hrun, hafter⟩ := Option.bind_eq_some_iff.mp hafter
  obtain ⟨t, hstep, hafter⟩ := Option.map_eq_some_iff.mp hafter
  rw [hrun, Option.all_some] at hrejects
  obtain ⟨x, hrejected⟩ := rejectedByLimit_of_rejects hrejects
  simp only [Bool.and_eq_true, Bool.not_eq_true', decide_eq_false_iff_not] at hafter
  refine ⟨s, t, x, hrun, hrejected, hstep, hafter.1, ?_⟩
  cases hexec : (reserve (tokenCall "r2" 50)).exec t.db with
  | ok r => exact ⟨r, rfl⟩
  | error e =>
    rw [hexec] at hafter
    cases hafter.2

theorem refusal_leaves_no_mark_sample :
    ∃ s t, run (budgetBody sampleService) (Sys.init ∅) refusedMoves = some s ∧
      step (budgetBody sampleService) s (.advance 1) = some t ∧
      ¬ Marked t.db "g" "total_tokens" := by
  have hrejects : (run (budgetBody sampleService) (Sys.init ∅) refusedMoves).all
      (rejects (tokenCall "r1" 101) "total_tokens" · 1) = true := by decide +kernel
  have hsome : ((run (budgetBody sampleService) (Sys.init ∅) refusedMoves).bind
      (step (budgetBody sampleService) · (.advance 1))).isSome = true := by decide +kernel
  obtain ⟨t, hsome⟩ := Option.isSome_iff_exists.mp hsome
  obtain ⟨s, hrun, hstep⟩ := Option.bind_eq_some_iff.mp hsome
  rw [hrun, Option.all_some] at hrejects
  obtain ⟨x, hrejected⟩ := rejectedByLimit_of_rejects hrejects
  exact ⟨s, t, hrun, hstep, (refusal_leaves_no_mark sampleService hrun hrejected hstep).1⟩

end RagQs.Usage.Budget
