import RagQs.Chat.GenerationProof
import RagQs.Chat.Worker

/-!
# The worker keeps the life of a generation

What the transactions of the chat worker do to the generations: the events it emits, the ends it
writes and the passes of its maintenance, each as a triple from writes that may be committed to
writes that may be committed.

## Main results

* `triple_emitFenced` — an event of a worker that holds its claim.
* `triple_stopTerminal`, `triple_failExecution`, `triple_publish` — the ends a worker writes.
* `triple_reapDisconnectGrace`, `triple_recoverExpiredExecutions`,
  `triple_expireProviderReconcilingExecutions`, `triple_expirePastDeadlinePairs` — the passes.
-/

namespace RagQs.Chat

open Txn Discipline List Option

variable {S : Strict} {vote : Prop} {C : List (Write Row) → Db → Prop} {c c' d d₀ : Db}
  {H : Key → Prop} {g : String} {L : Prop} {P : Snapshot → Snapshot → Prop} {α β : Type} {w : Held}

variable {busy : Bool} {e : String} {env : Env} {now : Time} {s t : Snapshot} {r generation :
  GenerationRow} {reason : StopReason} {p : Publication} {newId : String → String}

variable {b pair : Option PairRow} {abOpen : Bool} {code : String}

/-! ### Parts that do not show -/

theorem quiet_lockExecution {g : String} : Quiet S vote C (lockExecution busy g e) := by
  unfold lockExecution
  exact .ite (fun _ => .done) fun _ => .lockRow

theorem quiet_updateExecution {g : String} {cond : ExecutionRow → Bool}
    {f : ExecutionRow → ExecutionRow} :
    Quiet S vote C (updateWhere (Key.execution g e) cond f : Tx ℕ) := .updateWhere rfl

theorem quiet_cancelExecutionRow : Quiet S vote C (cancelExecutionRow w) :=
  quiet_updateExecution.bind fun _ => .done

theorem quiet_claimExecution {a : ClaimArgs} : Quiet S vote C (claimExecution env a) := by
  unfold claimExecution
  cases a.picked with
  | none => exact .done
  | some x =>
    refine .bind .selectForUpdate fun due => ?_
    cases due with
    | none => exact .done
    | some row =>
      refine .bind .orRaise fun _ => .ite (fun _ => .done) fun _ =>
        quiet_lockExecution.bind fun _ => .ite (fun _ => ?_) fun _ => .done
      exact .bind .lockRow fun _ => .ite
        (fun _ => quiet_updateExecution.bind fun _ => .done)
        fun _ => quiet_updateExecution.bind fun _ => .done

theorem quiet_heartbeat {g : String} {token : ℕ} :
    Quiet S vote C (heartbeat env g e token now) := quiet_updateExecution.bind fun _ => .done

theorem quiet_persistCheckpoint {checkpoint : JsonObject} :
    Quiet S vote C (persistCheckpoint w checkpoint) :=
  .bind .readRow fun _ => .bind (.updateIf rfl) fun _ => .done

theorem quiet_requeueReconciled {g : String} {checkpoint : Option JsonObject} :
    Quiet S vote C (requeueReconciled g e now checkpoint) :=
  quiet_updateExecution.bind fun _ => .done

theorem quiet_reconcileProvider {g : String} {decision : Decision} :
    Quiet S vote C (reconcileProvider g e now decision) := by
  unfold reconcileProvider
  refine .bind .readRow fun row => ?_
  cases decision with
  | stillUnknown => exact .done
  | reconciliationOnlyAmount => exact .done
  | confirmedNotSent => exact quiet_requeueReconciled
  | confirmedUsage content =>
    dsimp only
    split
    · exact .done
    · exact quiet_requeueReconciled
    · exact quiet_requeueReconciled

/-! ### Stopping -/

theorem finish_stopped {r' : GenerationRow} {n : ℕ} {e : EventRow} {m : MessageRow}
    (es : List EventRow) (hs : Ok S s) (hr : s.gen = some r) (hm : s.msg = some m)
    (hn : Top s.log n) (hlive : r.status.terminal = false) (hst : r'.status = .stopped)
    (hc : r.controlVersion ≠ 1 → r'.controlVersion ≠ 1)
    (hes : ∀ x ∈ es, x.eventType = .stopRequested) (he : e.eventType = .stopped)
    (hpair : Settles S s.pair b) (hopen : ∀ p, b = some p → p.status = .opened → b = s.pair) :
    Ok S ⟨some r', some { m with status := .stopped, stopReason := some reason },
        extend s.log n (es ++ [e]), b, s.votes, s.windows⟩ ∧
      Moves S True vote s ⟨some r', some { m with status := .stopped, stopReason := some reason },
        extend s.log n (es ++ [e]), b, s.votes, s.windows⟩ := by
  refine hs.finish es hr hm hn hlive (by rw [hst]; rfl) ⟨by simp [hst], by simp [hst], by simp [hst]⟩
    (by rw [hst]; rfl) (fun x hx => by rw [hes x hx]; rfl) (by rw [he, hst]; rfl) hpair ?_ ?_
  · intro p hp ho
    exact absurd ho (hs.unsettled hr hlive ((hopen p hp ho).symm.trans hp)).1
  · intro h
    exact ⟨hc h, fun x hx => by rw [hes x hx]; rfl, by rw [he]; rfl, rfl, rfl, rfl⟩

/-- `_stop_terminal_in_transaction` on a generation that has not ended. -/
theorem triple_stopTerminalInTransaction (hlive : r.status.terminal = false) :
    (chat S).Triple (Permits S) (Locked S vote w.generationId r) (stopTerminalInTransaction w reason)
      fun _ => Good S vote := by
  unfold stopTerminalInTransaction
  refine Changes.locked (Changes.bind Changes.updateLocked fun _ =>
    Changes.bind Changes.updateMessage fun _ => Changes.bind (quiet_updateExecution _ _) fun _ =>
      Changes.bind Changes.discard fun _ => Changes.appendTerminal) ?_
  rintro _ s t hs hr ⟨_, _, hgen, _, _, hmsg, _, _, rfl, _, _, ⟨b, hb, hopen, rfl⟩, hlog⟩
  rcases hgen with ⟨-, rfl, hmiss⟩ | ⟨-, r', hr', -, rfl⟩
  · cases hmiss r hr
  cases hr.symm.trans hr'
  obtain ⟨m, hm, -⟩ := hs.message r hr
  rcases hmsg with ⟨hnone, -⟩ | ⟨m', hm', rfl⟩
  · exact absurd (hm.symm.trans hnone) (by simp)
  cases hm.symm.trans hm'
  rcases hlog with ⟨-, hT, -⟩ | ⟨-, n, hn, rfl⟩
  · have := (hs.ended r hr).mpr hT
    rw [hlive] at this
    cases this
  · exact finish_stopped [] hs hr hm hn hlive rfl id (fun x hx => by cases hx) rfl hb hopen

theorem triple_cancelStaleExecution :
    (chat S).Triple (Permits S) (Good S vote) (cancelStaleExecution w busy)
      fun _ => Good S vote := by
  refine .bind quiet_lockExecution.good fun _ =>
    triple_lock quiet_cancelExecutionRow.good fun r => ?_
  dsimp only
  split
  · next hst => exact triple_stopTerminalInTransaction (by rw [hst]; rfl)
  · exact quiet_cancelExecutionRow.good.pre fun _ _ _ _ h => h.good

/-- `_stop_terminal` -/
theorem triple_stopTerminal :
    (chat S).Triple (Permits S) (Good S vote) (stopTerminal w busy reason)
      fun _ => Good S vote := by
  refine .bind quiet_lockExecution.good fun _ => triple_lock Quiet.done.good fun r => ?_
  dsimp only
  split
  · exact Quiet.done.good.pre fun _ _ _ _ h => h.good
  · next hlive => exact triple_stopTerminalInTransaction (by simpa using hlive)

/-! ### Events -/

/-- The claim was given to the worker: its control version is the first one, or its generation
had ended when it was read. -/
def Given (S : Strict) (w : Held) (s : Snapshot) : Prop :=
  S.genuine → w.controlVersion = 1 ∨ ∃ r, s.gen = some r ∧ r.status.terminal = true

theorem triple_fence {f : Bool → Tx β} {ψ : β → Assn Row} {F : Snapshot → Prop}
    (hlost : (chat S).Triple C (Good S vote) (f false) ψ)
    (hheld : ∀ s r, s.gen = some r → F s → r.controlVersion = w.controlVersion →
      r.status.terminal = false → (chat S).Triple C (Locked S vote w.generationId r) (f true) ψ) :
    (chat S).Triple C
      (fun c d H => Good S vote c d H ∧ F (snap (d ∪ c : Db) w.generationId))
      (fenceCurrent w busy >>= f) ψ := by
  unfold fenceCurrent
  rw [Prog.bind_assoc]
  refine .bind (ψ := fun _ c d H =>
    Good S vote c d H ∧ F (snap (d ∪ c : Db) w.generationId)) ?_ fun execution => ?_
  · exact (quiet_lockExecution.keep (L := False) (F := F)).conseq
      (fun _ _ _ _ h => ⟨h.1, False.elim, h.2⟩) fun _ _ _ _ _ h => ⟨h.1, h.2.2⟩
  · rw [Prog.bind_assoc]
    refine .bind (ψ := fun o c d H => Good S vote c d H ∧
      F (snap (d ∪ c : Db) w.generationId) ∧
        ∀ r, o = some r → Locked S vote w.generationId r c d H) ?_ fun o => ?_
    · refine (triple_lockGeneration (φ := fun c d H => Good S vote c d H ∧
        F (snap (d ∪ c : Db) w.generationId)) fun _ _ _ _ hH h => ⟨h.1.mono hH, h.2⟩).post ?_
      exact fun o c d H _ h => ⟨h.1.1, h.1.2, fun r hr => ⟨h.1.1, (h.2 r hr).1, (h.2 r hr).2⟩⟩
    · show (chat S).Triple C _ (f (Fence w execution o)) ψ
      cases hfence : Fence w execution o with
      | false => exact hlost.pre fun _ _ _ _ h => h.1
      | true =>
        cases execution with
        | none => simp [Fence] at hfence
        | some x =>
          cases o with
          | none => simp [Fence] at hfence
          | some r =>
            simp only [Fence, Bool.and_eq_true, decide_eq_true_eq, Bool.not_eq_true'] at hfence
            obtain ⟨⟨-, hc⟩, hlive⟩ := hfence
            refine .of_fact (P := ∃ s : Snapshot, s.gen = some r ∧ F s)
              (fun c d H _ h => ⟨_, (h.2.2 r rfl).row, h.2.1⟩) ?_
            rintro ⟨s, hr, hF⟩
            exact (hheld s r hr hF hc hlive).pre fun _ _ _ _ h => h.2.2 r rfl

theorem triple_fence' {f : Bool → Tx β} {ψ : β → Assn Row}
    (hlost : (chat S).Triple C (Good S vote) (f false) ψ)
    (hheld : ∀ r, r.controlVersion = w.controlVersion → r.status.terminal = false →
      (chat S).Triple C (Locked S vote w.generationId r) (f true) ψ) :
    (chat S).Triple C (Good S vote) (fenceCurrent w busy >>= f) ψ :=
  (triple_fence (F := fun _ => True) hlost fun _ r _ _ => hheld r).pre fun _ _ _ _ h => ⟨h, trivial⟩

theorem Given.first (h : Given S w s) (hr : s.gen = some r)
    (hc : r.controlVersion = w.controlVersion) (hlive : r.status.terminal = false) (hS : S.genuine) :
    r.controlVersion = 1 := by
  rcases h hS with h | ⟨r', hr', ht⟩
  · exact hc.trans h
  · cases hr.symm.trans hr'
    rw [hlive] at ht
    cases ht

theorem append_held {n : ℕ} {e : EventRow} (hs : Ok S s) (hr : s.gen = some r) (hn : Top s.log n)
    (he : e.eventType.terminal = false) (hlive : r.status.terminal = false)
    (hfirst : S.genuine → r.controlVersion = 1) :
    Ok S { s with log := extend s.log n [e] } ∧
      Moves S True vote s { s with log := extend s.log n [e] } := by
  refine hs.append hr hn he (fun ht => ?_) fun hS h => absurd (hfirst hS) h
  rw [hlive] at ht
  cases ht

theorem triple_emitFenced {eventType : EventType} {data : JsonObject}
    (he : eventType.terminal = false) :
    (chat S).Triple C (fun c d H => Good S vote c d H ∧ Given S w (snap (d ∪ c : Db) w.generationId))
      (emitFenced w busy eventType data) fun _ => Good S vote := by
  unfold emitFenced
  refine triple_fence Quiet.done.good fun s r hr hF hc hlive => ?_
  refine Changes.locked (Changes.bind Changes.appendTerminal fun _ =>
    Changes.done (R := fun _ s t => t = s) fun _ => rfl) ?_
  rintro _ s t hs hr' ⟨_, _, hlog, rfl⟩
  rcases hlog with ⟨ht, -⟩ | ⟨-, n, hn, rfl⟩
  · rw [he] at ht
    cases ht
  · exact append_held hs hr' hn he hlive (hF.first hr hc hlive)

/-- `_emit_notice` -/
theorem triple_emitNotice {kind : String} {detail : JsonObject} :
    (chat S).Triple C (fun c d H => Good S vote c d H ∧ Given S w (snap (d ∪ c : Db) w.generationId))
      (emitNotice w busy kind detail) fun _ => Good S vote := by
  unfold emitNotice emitFenced
  dsimp only
  rw [Prog.bind_assoc]
  refine triple_fence Quiet.done.good fun s r hr hF hc hlive => ?_
  simp only [if_true, Prog.bind_assoc, Prog.pure_eq, Prog.done_bind]
  refine Changes.locked (Changes.bind Changes.appendTerminal fun _ =>
    Changes.bind Changes.readRow fun _ => Changes.bind Changes.updateMessage fun _ =>
      Changes.done (R := fun _ s t => t = s) fun _ => rfl) ?_
  rintro _ s t hs hr' ⟨_, _, hlog, _, _, rfl, _, _, hmsg, rfl⟩
  rcases hlog with ⟨ht, -⟩ | ⟨-, n, hn, rfl⟩
  · cases ht
  · have happend : Ok S _ ∧ Moves S True vote s _ := append_held
      (e := ⟨.notice, [("kind", .str kind), ("detail", .dict detail)]⟩) hs hr' hn rfl hlive
      (hF.first hr hc hlive)
    rcases hmsg with ⟨-, rfl⟩ | ⟨m, hm, rfl⟩
    · exact happend
    · refine And.imp id happend.2.trans (happend.1.notices hm ?_ ?_ ?_ ?_)
      all_goals rfl

/-- `_persist_effort_upgrade` -/
theorem triple_persistEffortUpgrade {busyAgain : Bool} {previous upgraded : String} :
    (chat S).Triple (Permits S) (Good S vote)
      (persistEffortUpgrade w busy busyAgain previous upgraded) fun _ => Good S vote := by
  have hstale : (chat S).Triple (Permits S) (Good S vote) (do
      cancelStaleExecution w busyAgain
      pure false) fun _ => Good S vote :=
    .bind triple_cancelStaleExecution fun _ => Quiet.done.good
  refine triple_fence' hstale fun r _ _ => .pre ?_ fun _ _ _ _ h => h.good
  rw [if_pos rfl]
  refine .bind (triple_updateIf fun _ s r hs hr _ => hs.touch hr rfl rfl) fun updated => ?_
  split
  · exact Quiet.done.good
  · exact hstale

/-! ### Publication -/

theorem triple_compare {cond : GenerationRow → Bool} :
    (chat S).Triple C (Locked S vote g r)
      (updateWhere (Key.generation g) cond (fun r => r) : Tx ℕ) fun n c d H =>
        Locked S vote g r c d H ∧ (n ≠ 0 → cond r = true) := by
  refine (Changes.triple (F := fun s => s.gen = some r) Changes.updateLocked ?_).pre
    fun _ _ _ _ h => ⟨h.good, fun _ => h.held, h.row⟩
  intro d₀ n c d H _ hw
  have key : ∀ s t : Snapshot, s.gen = some r → (n = 0 ∧ t = s ∧ (∀ r, s.gen = some r → cond r = false) ∨
      n = 1 ∧ ∃ r, s.gen = some r ∧ cond r = true ∧ t = { s with gen := some r }) →
      t = s ∧ (n ≠ 0 → cond r = true) := by
    rintro s t hr (⟨rfl, rfl, -⟩ | ⟨rfl, r', hr', hcond, rfl⟩)
    · exact ⟨rfl, fun h => absurd rfl h⟩
    · cases hr.symm.trans hr'
      refine ⟨?_, fun _ => hcond⟩
      rw [← hr]
  obtain ⟨hr, hview⟩ := hw.view
  obtain ⟨hts, hcond⟩ := key _ _ hr hview
  refine ⟨⟨hw.close fun s t hs h => hs.same (key s t h.1 h.2).1, hw.held trivial, ?_⟩, hcond⟩
  rw [hts]
  exact hr

theorem Changes.openPair :
    Changes S vote (Permits S) g L (updateWhere (Key.pair g) (fun _ => true)
        (fun p => { p with status := .opened }) : Tx ℕ) fun _ s t =>
      t = s ∨ ∃ p, s.pair = some p ∧ (S.publisher → p.status = .pending) ∧
        t = { s with pair := some { p with status := .opened } } := by
  refine (Changes.updatePair (f := fun p => { p with status := .opened })
    (Φ := fun p => S.publisher → p.status = .pending) ?_ (fun _ => rfl) fun _ => rfl).conseq ?_
  · intro v p hp _ hC hpub
    exact hC.publisher hpub g p _ mem_cons_self hp rfl
  · rintro _ s t (rfl | ⟨p, hp, -, hpub, rfl⟩)
    · exact .inl rfl
    · exact .inr ⟨p, hp, hpub, rfl⟩

/-- The pair of a published generation: it has expired, or was opened where that is asked for. -/
def Publishes (S : Strict) (abOpen : Bool) (s t : Snapshot) : Prop :=
  t = s ∨ ∃ p p', s.pair = some p ∧ t = { s with pair := some p' } ∧ p'.windowId = p.windowId ∧
    p'.voted = p.voted ∧ p'.choice = p.choice ∧ (p'.status = .expired ∨
      abOpen = true ∧ p'.status = .opened ∧ (S.publisher → p.status = .pending))

theorem Changes.closePair :
    Changes S vote (Permits S) g L (updateWhere (Key.pair g) (fun _ => true)
        (fun p => { p with status := .expired }) : Tx ℕ) fun _ s t =>
      t = s ∨ ∃ p, s.pair = some p ∧ t = { s with pair := some { p with status := .expired } } := by
  refine (Changes.expirePair (f := fun p => { p with status := .expired }) (fun _ => rfl)
    (fun _ => rfl) (fun _ => rfl) fun _ => rfl).conseq ?_
  rintro _ s t (rfl | ⟨p, hp, -, -, rfl⟩)
  · exact .inl rfl
  · exact .inr ⟨p, hp, rfl⟩

theorem changes_settlePair :
    Changes S vote (Permits S) g L (settlePair g pair abOpen) fun _ => Publishes S abOpen := by
  unfold settlePair
  cases pair with
  | none => exact .done fun _ => .inl rfl
  | some p =>
    cases abOpen with
    | false =>
      refine (Changes.bind Changes.closePair fun _ =>
        Changes.done (R := fun _ s t => t = s) fun _ => rfl).conseq ?_
      rintro _ s t ⟨_, _, rfl | ⟨p, hp, rfl⟩, rfl⟩
      · exact .inl rfl
      · exact .inr ⟨p, _, hp, rfl, rfl, rfl, rfl, .inl rfl⟩
    | true =>
      refine (Changes.bind Changes.openPair fun _ =>
        Changes.done (R := fun _ s t => t = s) fun _ => rfl).conseq ?_
      rintro _ s t ⟨_, _, rfl | ⟨p, hp, hpub, rfl⟩, rfl⟩
      · exact .inl rfl
      · exact .inr ⟨p, _, hp, rfl, rfl, rfl, rfl, .inr ⟨rfl, rfl, hpub⟩⟩

theorem changes_collapsePair :
    Changes S vote (Permits S) g L (collapsePair g) fun _ s t =>
      t = s ∨ ∃ p, s.pair = some p ∧ t = { s with pair := some { p with status := .expired } } := by
  unfold collapsePair
  refine (Changes.bind (Changes.updateHidden rfl) fun _ => Changes.bind Changes.closePair fun _ =>
    Changes.done (R := fun _ s t => t = s) fun _ => rfl).conseq ?_
  rintro _ s t ⟨_, _, rfl, _, _, h, rfl⟩
  exact h

theorem changes_publishEach {paired : Bool} (cs : List CandidateAnswer) :
    Changes S vote C g True (publishEach g p paired cs) fun _ s t =>
      ∃ es, (∀ x ∈ es, x.eventType = .answer) ∧
        ∀ n, Top s.log n → t = { s with log := extend s.log n es } := by
  induction cs with
  | nil =>
    refine .done fun s => ⟨[], fun x hx => (by cases hx), fun n hn => ?_⟩
    rw [extend_nil hn]
  | cons x cs ih =>
    have hnext : Changes S vote C g True (if paired then do
          let _ ← updateWhere (Key.candidate g x.candidate) (fun _ => true) fun r =>
            { r with
              status := .published
              content := x.content
              citations := x.citations
              answerMode := x.answerMode }
          publishEach g p paired cs
        else publishEach g p paired cs) fun _ s t =>
        ∃ es, (∀ x ∈ es, x.eventType = .answer) ∧
          ∀ n, Top s.log n → t = { s with log := extend s.log n es } := by
      refine Changes.ite (fun _ => ?_) fun _ => ih
      refine (Changes.bind (Changes.updateHidden rfl) fun _ => ih).conseq ?_
      rintro _ s t ⟨_, _, rfl, h⟩
      exact h
    refine (Changes.bind Changes.appendTerminal fun _ => hnext).conseq ?_
    rintro _ s t ⟨_, _, hlog, es, hes, ht⟩
    rcases hlog with ⟨ht, -⟩ | ⟨-, n, hn, rfl⟩
    · cases ht
    · refine ⟨⟨.answer, answerData p x⟩ :: es, fun y hy => ?_, fun m hm => ?_⟩
      · rcases mem_cons.mp hy with rfl | hy
        · rfl
        · exact hes y hy
      · obtain rfl := hn.unique hm
        rw [ht (n + 1) hn.longer]
        have happ := extend_extend s.log n [⟨.answer, answerData p x⟩] es
        simp only [length_cons, length_nil, Nat.zero_add, cons_append,
          nil_append] at happ
        rw [happ]

/-- The end of a publication: the answers, the pair, the message, the generation and the last
event, one after the other. -/
def Completes (S : Strict) (abOpen : Bool) (s t : Snapshot) : Prop :=
  ∃ s₁ s₂ s₃ s₄ es e, ∃ f : GenerationRow → GenerationRow, ∃ h : MessageRow → MessageRow,
    (∀ x ∈ es, x.eventType = .answer) ∧
    (∀ n, Top s.log n → s₁ = { s with log := extend s.log n es }) ∧
    Publishes S abOpen s₁ s₂ ∧
    (s₂.msg = none ∧ s₃ = s₂ ∨ ∃ m, s₂.msg = some m ∧ s₃ = { s₂ with msg := some (h m) }) ∧
    (∀ m, (h m).status = .completed) ∧
    (∀ r, s₃.gen = some r → s₄ = { s₃ with gen := some (f r) }) ∧
    (∀ r, (f r).status = .completed ∧ (f r).controlVersion = r.controlVersion) ∧
    e.eventType = .done ∧ (s₄.hasTerminal ∧ t = s₄ ∨ Appends e s₄ t)

theorem changes_complete {paired : Bool} {shown : List CandidateAnswer} :
    Changes S vote (Permits S) w.generationId True (do
        publishEach w.generationId p paired shown
        settlePair w.generationId pair abOpen
        let visible ← visibleAnswer p abOpen
        let _ ← updateWhere (Key.message w.generationId) (fun _ => true)
          fun m => publishedMessage m visible
        let _ ← updateWhere (Key.generation w.generationId) (fun _ => true)
          fun r => { r with status := .completed, stopReason := none }
        let _ ← updateWhere (Key.execution w.generationId w.executionId) (fun _ => true)
          fun x => { x with status := .completed, checkpoint := none }
        appendTerminal w.generationId .done
          [("generation_id", .str w.generationId), ("status", .str "completed")])
      fun _ => Completes S abOpen := by
  have hvisible : Quiet S vote (Permits S) (visibleAnswer p abOpen) := by
    unfold visibleAnswer
    exact .ite (fun _ => .done) fun _ => .bind .orRaise fun _ => .done
  refine .conseq (.bind (changes_publishEach shown) fun _ =>
    .bind changes_settlePair fun _ => .bind (hvisible _ _) fun _ =>
      .bind .updateMessage fun _ => .bind .updateLocked fun _ =>
        .bind (quiet_updateExecution _ _) fun _ => .appendTerminal) ?_
  rintro _ s t ⟨_, s₁, ⟨es, hes, hs₁⟩, _, _, hpair, visible, s₂, rfl, _, s₃, hmsg, _, _, hgen, _,
    s₄, rfl, hlog⟩
  refine ⟨s₁, s₂, s₃, s₄, es,
    ⟨.done, [("generation_id", .str w.generationId), ("status", .str "completed")]⟩,
    fun r => { r with status := .completed, stopReason := none },
    fun m => publishedMessage m visible, hes, hs₁, hpair, hmsg, fun _ => rfl, fun r hr => ?_,
    fun _ => ⟨rfl, rfl⟩, rfl, ?_⟩
  · rcases hgen with ⟨-, -, hmiss⟩ | ⟨-, r', hr', -, h⟩
    · cases hmiss r hr
    · cases hr.symm.trans hr'
      exact h
  · rcases hlog with ⟨-, hT, h⟩ | ⟨-, h⟩
    · exact .inl ⟨hT, h⟩
    · exact .inr h

theorem Completes.ok (hs : Ok S s) (hr : s.gen = some r) (hrun : r.status = .running)
    (hb : b = s.pair ∨ abOpen = false ∧ ∃ p, s.pair = some p ∧
      b = some { p with status := .expired }) (h : Completes S abOpen { s with pair := b } t) :
    Ok S t ∧ Moves S True vote s t := by
  obtain ⟨s₁, s₂, s₃, s₄, es, e, f, k, hes, hs₁, hpub, hmsg, hk, hgen, hf, he, hlog⟩ := h
  have hlive : r.status.terminal = false := by rw [hrun]; rfl
  have hc : r.controlVersion = 1 := (hs.control r hr).running hrun
  obtain ⟨n, hd⟩ := hs.dense
  obtain ⟨m, hm, -⟩ := hs.message r hr
  obtain rfl := hs₁ n hd.top
  have hpair : ∃ b', Settles S s.pair b' ∧
      s₂ = { s with log := extend s.log n es, pair := b' } := by
    rcases hb with rfl | ⟨rfl, p, hp, rfl⟩
    · rcases hpub with rfl | ⟨p, p', hp, rfl, h1, h2, h3, h4⟩
      · exact ⟨_, .inl rfl, rfl⟩
      · refine ⟨_, .inr ⟨p, p', hp, rfl, ⟨h1, h2, h3, fun _ => ?_, ?_, fun ho => ?_⟩⟩, rfl⟩
        · exact (hs.unsettled hr hlive hp).2
        · exact h4.imp id fun h => h.2.1
        · rcases h4 with h4 | ⟨-, -, h4⟩
          · rw [ho] at h4
            cases h4
          · exact h4
    · have hp' : Resolves S p { p with status := .expired } :=
        ⟨rfl, rfl, rfl, fun _ => (hs.unsettled hr hlive hp).2, .inl rfl, by simp⟩
      rcases hpub with rfl | ⟨q, p', hq, rfl, h1, h2, h3, h4⟩
      · exact ⟨_, .inr ⟨p, _, hp, rfl, hp'⟩, rfl⟩
      · cases hq
        have hst : p'.status = .expired := h4.resolve_right fun h => by cases h.1
        exact ⟨_, .inr ⟨p, p', hp, rfl, ⟨h1, h2, h3, hp'.unvoted, .inl hst, by simp [hst]⟩⟩, rfl⟩
  obtain ⟨b', hset, rfl⟩ := hpair
  rcases hmsg with ⟨hnone, -⟩ | ⟨m', hm', rfl⟩
  · exact absurd (hm.symm.trans hnone) (by simp)
  cases hm.symm.trans hm'
  obtain rfl := hgen r hr
  have hold : ∀ q x, extend s.log n es q = some x → x.eventType.terminal = false := by
    intro q x hx
    rcases extend_mem hx with hx | hx
    · by_contra ht
      have := (hs.ended r hr).mpr ⟨q, x, hx, by simpa using ht⟩
      rw [hlive] at this
      cases this
    · rw [hes x hx]
      rfl
  rcases hlog with ⟨⟨q, x, hx, ht⟩, -⟩ | ⟨j, hj, rfl⟩
  · rw [hold q x hx] at ht
    cases ht
  · obtain rfl := hd.top.longer.unique hj
    rw [extend_extend]
    refine hs.finish _ hr hm hd.top hlive (by rw [(hf r).1]; rfl) ⟨?_, ?_, ?_⟩
      (by rw [(hf r).1]; exact hk m) (fun x hx => by rw [hes x hx]; rfl)
      (by rw [he, (hf r).1]; rfl) hset (fun _ _ _ => (hf r).2.trans hc) fun h => absurd hc h
    · simp [(hf r).1]
    · simp [(hf r).1]
    · exact fun _ => (hf r).2.trans hc

theorem triple_publishAnswer (hrun : r.status = .running) :
    (chat S).Triple (Permits S) (Locked S vote w.generationId r) (publishAnswer w p)
      fun _ => Good S vote := by
  unfold publishAnswer
  refine .bind Quiet.raiseIf.locked fun _ => .bind Quiet.readRow.locked fun pair => ?_
  cases hcompared : pair.isSome && p.candidates.length == 2 with
  | false =>
    simp only [Bool.false_and, Bool.false_eq_true, if_false]
    refine Changes.locked changes_complete fun _ s t hs hr h => ?_
    exact h.ok hs hr hrun (.inl rfl)
  | true =>
    cases hnear : p.nearDuplicate with
    | false =>
      simp only [Bool.and_false, Bool.false_eq_true, if_false]
      refine Changes.locked changes_complete fun _ s t hs hr h => ?_
      exact h.ok hs hr hrun (.inl rfl)
    | true =>
      simp only [Bool.and_self, if_true]
      refine Changes.locked (Changes.bind changes_collapsePair fun _ => changes_complete) ?_
      rintro _ s t hs hr ⟨_, s', hcollapse, h⟩
      rcases hcollapse with rfl | ⟨q, hq, rfl⟩
      · exact h.ok hs hr hrun (.inl rfl)
      · exact h.ok hs hr hrun (.inr ⟨rfl, q, hq, rfl⟩)

/-- `_publish` -/
theorem triple_publish :
    (chat S).Triple (Permits S) (Good S vote) (publish w p) fun _ => Good S vote := by
  refine triple_fence' triple_cancelStaleExecution fun r _ _ => ?_
  rw [if_pos rfl]
  refine .bind quiet_updateExecution.locked fun current => ?_
  split
  · exact triple_cancelStaleExecution.pre fun _ _ _ _ h => h.good
  · refine .bind triple_compare fun current => ?_
    split
    · exact triple_cancelStaleExecution.pre fun _ _ _ _ h => h.1.good
    · next hne =>
      refine .of_fact (fun _ _ _ _ h => h.2 hne) fun hcond => ?_
      have hrun : r.status = .running := by
        simp only [decide_eq_true_eq] at hcond
        exact hcond.2
      exact (triple_publishAnswer hrun).pre fun _ _ _ _ h => h.1

/-! ### Failures -/

/-- A failure of a generation: its row, its message, its pair and the last event, one after the
other. -/
def Fails (S : Strict) (code : String) (s t : Snapshot) : Prop :=
  ∃ r s₂ s₃ e, s.gen = some r ∧
    (s.msg = none ∧ s₂ = { s with gen := some (r.fail code) } ∨ ∃ m, s.msg = some m ∧
      s₂ = { s with gen := some (r.fail code), msg := some { m with status := .failed } }) ∧
    Discards S s₂ s₃ ∧ e.eventType = .error ∧
    (s₃.hasTerminal ∧ t = s₃ ∨ ¬ s₃.hasTerminal ∧ Appends e s₃ t)

theorem Fails.live (hs : Ok S s) (hr : s.gen = some r) (hlive : r.status.terminal = false)
    (h : Fails S code s t) : Ok S t ∧ Moves S True vote s t := by
  obtain ⟨r', s₂, _, e, hr', hmsg, ⟨b, hb, hopen, rfl⟩, he, hlog⟩ := h
  cases hr.symm.trans hr'
  obtain ⟨m, hm, -⟩ := hs.message r hr
  rcases hmsg with ⟨hnone, -⟩ | ⟨m', hm', rfl⟩
  · exact absurd (hm.symm.trans hnone) (by simp)
  cases hm.symm.trans hm'
  rcases hlog with ⟨hT, -⟩ | ⟨-, n, hn, rfl⟩
  · have := (hs.ended r hr).mpr hT
    rw [hlive] at this
    cases this
  · have hended : (r.fail code).status.terminal = true := rfl
    refine hs.finish [] hr hm hn hlive hended ⟨?_, ?_, ?_⟩ rfl
      (fun x hx => by cases hx) he hb ?_ fun h => ⟨h, fun x hx => (by cases hx), ?_, rfl, rfl, rfl⟩
    · exact fun h => by cases h
    · exact fun h => by cases h
    · exact fun h => by cases h
    · intro p hp ho
      exact absurd ho (hs.unsettled hr hlive ((hopen p hp ho).symm.trans hp)).1
    · rw [he]
      rfl

theorem Fails.ended (hs : Ok S s) (hr : s.gen = some r) (hterm : r.status.terminal = true)
    (hS : S.recovery → r.status = .failed) (h : Fails S code s t) :
    Ok S t ∧ Moves S True vote s t := by
  obtain ⟨r', s₂, _, e, hr', hmsg, ⟨b, hb, hopen, rfl⟩, he, hlog⟩ := h
  cases hr.symm.trans hr'
  obtain ⟨m, hm, -⟩ := hs.message r hr
  rcases hmsg with ⟨hnone, -⟩ | ⟨m', hm', rfl⟩
  · exact absurd (hm.symm.trans hnone) (by simp)
  cases hm.symm.trans hm'
  rcases hlog with ⟨-, rfl⟩ | ⟨hT, -⟩
  · exact hs.overwrite hr hm hterm rfl rfl hS rfl rfl rfl rfl hb hopen
  · exact absurd ((hs.ended r hr).mp hterm) hT

theorem changes_failed {f : GenerationRow → GenerationRow} {message : String} {details : JsonObject}
    {requestId : Option String} {q : Tx Unit} (hq : Quiet S vote (Permits S) q)
    (hf : ∀ r, f r = r.fail code) :
    Changes S vote (Permits S) g True (do
        let _ ← updateWhere (Key.message g) (fun _ => true) fun m => { m with status := .failed }
        q
        discardUnfinishedAbPair g
        appendTerminal g .error (errorData code message details requestId)) fun _ s₁ t =>
      ∀ s r, s.gen = some r → s₁ = { s with gen := some (f r) } → Fails S code s t := by
  refine .conseq (.bind .updateMessage fun _ =>
    .bind (hq _ _) fun _ => .bind .discard fun _ =>
      .appendTerminal) ?_
  rintro _ s₁ t ⟨_, _, hmsg, _, s₂, rfl, _, s₃, hpair, hlog⟩ s r hr rfl
  refine ⟨r, s₂, s₃, ⟨.error, errorData code message details requestId⟩, hr, ?_, hpair, rfl, ?_⟩
  · rw [← hf r]
    exact hmsg
  · rcases hlog with ⟨-, hT, h⟩ | ⟨hT, h⟩
    · exact .inl ⟨hT, h⟩
    · exact .inr ⟨hT rfl, h⟩

theorem triple_failGeneration {error : Failure} (hlive : r.status.terminal = false) :
    (chat S).Triple (Permits S) (Locked S vote w.generationId r) (failGeneration w generation error)
      fun _ => Good S vote := by
  unfold failGeneration
  refine Changes.locked (Changes.bind Changes.updateLocked fun _ =>
    changes_failed (q := do
      let _ ← updateWhere (Key.execution w.generationId w.executionId) (fun _ => true) fun x =>
        { x with status := .failed, lastErrorClassification := some error.code, checkpoint := none }
      pure ()) (quiet_updateExecution.bind fun _ => Quiet.done) fun _ => rfl) ?_
  rintro _ s t hs hr ⟨_, s₁, hgen, h⟩
  rcases hgen with ⟨-, -, hmiss⟩ | ⟨-, r', hr', -, hs₁⟩
  · cases hmiss r hr
  · exact (h s r' hr' hs₁).live hs hr hlive

/-- `_fail_execution` -/
theorem triple_failExecution {error : Failure} :
    (chat S).Triple (Permits S) (Good S vote) (failExecution env w busy now error)
      fun _ => Good S vote := by
  unfold failExecution
  split
  · exact triple_cancelStaleExecution
  · refine .bind quiet_lockExecution.good fun _ =>
      triple_lock quiet_cancelExecutionRow.good fun r => ?_
    dsimp only
    split
    · next hst => exact triple_stopTerminalInTransaction (by rw [hst]; rfl)
    split
    · exact Quiet.done.good.pre fun _ _ _ _ h => h.good
    next hrun =>
    have hlive : r.status.terminal = false := by
      rw [not_not.mp hrun]
      rfl
    split
    · exact (quiet_updateExecution.bind fun _ => .done).good.pre fun _ _ _ _ h => h.good
    split
    · unfold retryScope
      refine .bind Quiet.readRow.locked fun row => ?_
      dsimp only
      split
      · exact (quiet_updateExecution.bind fun _ => .done).good.pre fun _ _ _ _ h => h.good
      · exact triple_failGeneration hlive
    · exact triple_failGeneration hlive

/-! ### The passes of the maintenance -/

theorem quiet_cancelWaiting {v : Db} {g : String} :
    ∀ x ∈ cancelWaiting v g, x.1.observed = false := by
  intro x hx
  obtain ⟨e, -, rfl⟩ := List.mem_map.mp hx
  rfl

/-- What follows when a generation that nobody reads any more was asked to stop: the event, the
discard of its pair, its row, the last event and its message. -/
def Reaped (S : Strict) (s t : Snapshot) : Prop :=
  ∃ s₁ s₂ s₃ s₄ e e', Appends e s s₁ ∧ e.eventType = .stopRequested ∧ Discards S s₁ s₂ ∧
    (∀ r, s₂.gen = some r → s₃ = { s₂ with gen := some { r with status := .stopped } }) ∧
    (s₃.hasTerminal ∧ s₄ = s₃ ∨ Appends e' s₃ s₄) ∧ e'.eventType = .stopped ∧
    (s₄.msg = none ∧ t = s₄ ∨ ∃ m, s₄.msg = some m ∧ t = { s₄ with
      msg := some { m with status := .stopped, stopReason := some .clientDisconnected } })

theorem Reaped.ok (hs : Ok S s) (hr : s.gen = some r) (hrun : r.status = .running)
    (h : Reaped S { s with
      gen := some (r.requestStop .clientDisconnected (r.controlVersion + 1)) } t) :
    Ok S t ∧ Moves S True vote s t := by
  have hlive : r.status.terminal = false := by rw [hrun]; rfl
  obtain ⟨_, _, _, s₄, e, e', ⟨n, hn, rfl⟩, he, ⟨b, hb, hopen, rfl⟩, hgen, hlog, he', hmsg⟩ := h
  obtain ⟨m, hm, -⟩ := hs.message r hr
  obtain rfl := hgen _ rfl
  rcases hlog with ⟨⟨q, x, hx, ht⟩, -⟩ | ⟨j, hj, rfl⟩
  · exfalso
    rcases extend_mem hx with hx | hx
    · have := (hs.ended r hr).mpr ⟨q, x, hx, ht⟩
      rw [hlive] at this
      cases this
    · rw [mem_singleton.mp hx, he] at ht
      cases ht
  rcases hmsg with ⟨hnone, -⟩ | ⟨m', hm', rfl⟩
  · exact absurd (hm.symm.trans hnone) (by simp)
  cases hm.symm.trans hm'
  have hlonger : Top (extend s.log _ [e]) _ := hn.longer
  obtain rfl := hlonger.unique hj
  rw [extend_extend]
  refine finish_stopped [e] hs hr hm hn hlive rfl (fun hc => ?_) (fun x hx => ?_) he' hb hopen
  · exact absurd ((hs.control r hr).running hrun) hc
  · rw [mem_singleton.mp hx]
    exact he

theorem triple_reapGeneration :
    (chat S).Triple (Permits S) (Locked S vote g r) (reapGeneration g) fun _ => Good S vote := by
  unfold reapGeneration
  refine Changes.locked (Changes.bind Changes.updateLocked (T := fun n _ s t =>
    n = 0 ∧ t = s ∨ n ≠ 0 ∧ Reaped S s t) fun n => .ite (fun hn => ?_) fun hn =>
      .done fun _ => .inl ⟨not_not.mp hn, rfl⟩) ?_
  · refine Changes.conseq (Changes.bind Changes.appendEvent fun _ =>
      .bind .discard fun _ => .bind .updateLocked fun _ =>
        .bind .appendTerminal fun _ => .bind .updateMessage fun _ =>
          .hidden fun v => quiet_cancelWaiting) ?_
    rintro _ s t ⟨_, s₁, hstop, _, s₂, hpair, _, s₃, hgen, _, s₄, hlog, _, _, hmsg, rfl⟩
    refine .inr ⟨hn, s₁, s₂, s₃, s₄, _, _, hstop, rfl, hpair, fun r hr => ?_,
      hlog.imp And.right And.right, rfl, hmsg⟩
    rcases hgen with ⟨-, -, hmiss⟩ | ⟨-, r', hr', -, h⟩
    · cases hmiss r hr
    · cases hr.symm.trans hr'
      exact h
  · rintro _ s t hs hr ⟨n, s₁, hgen, h⟩
    rcases hgen with ⟨hn, rfl, -⟩ | ⟨hn, r', hr', hrun, rfl⟩
    · rcases h with ⟨-, rfl⟩ | ⟨hn', -⟩
      · exact hs.same rfl
      · exact absurd hn hn'
    · rcases h with ⟨hn', -⟩ | ⟨-, h⟩
      · rw [hn'] at hn
        cases hn
      · exact h.ok hs hr' (by simpa using hrun)

theorem triple_reapOne {g : String} :
    (chat S).Triple (Permits S) (Good S vote) (reapOne now g) fun _ => Good S vote := by
  unfold reapOne
  refine .bind Quiet.select.good fun active => ?_
  split
  · exact .bind (triple_touch (fun _ => rfl) fun _ => rfl) fun _ => Quiet.done.good
  · refine .bind Quiet.selectForUpdate.good fun _ => triple_lock Quiet.done.good fun r => ?_
    dsimp only
    split
    · exact triple_reapGeneration
    · exact Quiet.done.good.pre fun _ _ _ _ h => h.good

theorem triple_reapEach (rows : List (String × GenerationRow)) :
    (chat S).Triple (Permits S) (Good S vote) (reapEach now rows) fun _ => Good S vote := by
  induction rows with
  | nil => exact Quiet.done.good
  | cons x rows ih =>
    unfold reapEach
    split
    · exact .bind triple_reapOne fun _ => ih
    · exact ih

/-- `_reap_disconnect_grace` -/
theorem triple_reapDisconnectGrace :
    (chat S).Triple (Permits S) (Good S vote) (reapDisconnectGrace now) fun _ => Good S vote :=
  .bind Quiet.select.good triple_reapEach

theorem work_failGeneration {f : GenerationRow → GenerationRow}
    {Φ : GenerationRow → Prop} (hC : ∀ v r, v.get (.generation g) = some r →
      C [⟨.generation g, some (f r)⟩] v → Φ r) :
    (chat S).Triple C (Work S vote d₀ g False fun s t => t = s ∧ s.gen.isSome = true)
      (updateWhere (Key.generation g) (fun _ => true) f : Tx ℕ) fun _ =>
        Work S vote d₀ g True fun s t =>
          ∃ r, s.gen = some r ∧ Φ r ∧ t = { s with gen := some (f r) } := by
  refine .updateWhere (fun c d H hc hφ hmiss => ?_) fun c d H r _ hφ hget _ hw => ?_
  · obtain ⟨hts, hsome⟩ := (hφ.now hc).view
    rw [← hts] at hsome
    obtain ⟨r, hr⟩ := isSome_iff_exists.mp hsome
    cases hmiss r hr
  · refine .write hφ rfl (fun _ => .inr rfl)
      (fun c' _ => tally_set_of_not_pair (by simp) _) fun c' hr s _ ⟨hts, _⟩ => ?_
    refine ⟨r, ?_, hC _ r hget hw, ?_⟩
    · rw [← hts]
      exact (hr.view d (.inr rfl)).trans hget
    · rw [← hts]
      exact snap_set_generation _ _ _

/-- The part of `_terminalize_unrecoverable` about a generation that had not ended when it was
read. -/
theorem triple_terminalizeGeneration :
    (chat S).Triple (Permits S)
      (fun c d H => Good S vote c d H ∧ (snap (d ∪ c : Db) g).gen.isSome = true)
      (terminalizeGeneration g generation now) fun _ => Good S vote := by
  refine (triple_work (L := False) (F := fun s => s.gen.isSome = true) fun d₀ => ?_).pre
    fun _ _ _ _ h => ⟨h.1, False.elim, h.2⟩
  unfold terminalizeGeneration
  refine .bind (work_failGeneration (Φ := fun r => S.recovery →
    r.status ≠ .completed ∧ r.status ≠ .stopped) fun v r hr hC hS => ?_) fun _ => ?_
  · refine hC.recovery hS g r _ mem_cons_self hr ⟨rfl, ?_⟩
    unfold unrecoverable
    cases decide (generation.absoluteDeadline ≤ now)
    · exact .inr rfl
    · exact .inl rfl
  · refine ((changes_failed (q := Prog.done ()) (f := fun r => r.fail
      (unrecoverable (generation.absoluteDeadline ≤ now)).1) .done fun _ => rfl).work d₀ _).post fun _ c d H _ hw => hw.close ?_
    rintro s t hs ⟨s₁, ⟨r, hr, hS, rfl⟩, h⟩
    have hfails := h s r hr rfl
    cases hterm : r.status.terminal with
    | false => exact hfails.live hs hr hterm
    | true =>
      refine hfails.ended hs hr hterm fun hrec => ?_
      obtain ⟨h1, h2⟩ := hS hrec
      revert hterm h1 h2
      cases r.status <;> simp [GenerationStatus.terminal]

theorem triple_readGeneration :
    (chat S).Triple C (Good S vote) (readGeneration g) fun o c d H =>
      Good S vote c d H ∧ (o.isSome = true → (snap (d ∪ c : Db) g).gen.isSome = true) :=
  .select fun _ _ _ _ hφ c' hr => ⟨hφ c' hr, rely_present hr⟩

theorem triple_failRunning (S : Strict) (vote : Prop) (g : String)
    (running : List (String × ExecutionRow)) :
    (chat S).Triple (Permits S) (Good S vote) (match running.head? with
      | none => pure ()
      | some (e, _) => do
        let _ ← updateWhere (Key.execution g e) (fun x => x.status = .running)
          fun x => { x with status := .failed }
        pure () : Tx Unit) fun _ => Good S vote := by
  cases running.head? with
  | none => exact Quiet.done.good
  | some x => exact (quiet_updateExecution.bind fun _ => .done).good

theorem triple_terminalizeUnrecoverable :
    (chat S).Triple (Permits S) (Good S vote) (terminalizeUnrecoverable g now)
      fun _ => Good S vote := by
  unfold terminalizeUnrecoverable
  refine .bind Quiet.select.good fun running => ?_
  refine .bind Quiet.raiseIf.good fun _ => ?_
  refine .bind triple_readGeneration fun o => ?_
  refine .bind (ψ := fun _ c d H =>
    Good S vote c d H ∧ (snap (d ∪ c : Db) g).gen.isSome = true) (.orRaise ?_) fun r => ?_
  · rintro r rfl c d H - h
    exact ⟨h.1, h.2 rfl⟩
  have hrest := triple_failRunning S vote g running
  dsimp only
  split
  · exact .bind triple_terminalizeGeneration fun _ => hrest
  · exact hrest.pre fun _ _ _ _ h => h.1

theorem triple_recoverGeneration {row : ExecutionRow} :
    (chat S).Triple (Permits S) (Good S vote) (recoverGeneration env newId now g e row)
      fun _ => Good S vote := by
  unfold recoverGeneration
  refine .bind Quiet.readRow.good fun o => ?_
  cases o with
  | none => exact Quiet.done.good
  | some generation =>
    dsimp only
    split
    · exact triple_terminalizeUnrecoverable
    · refine .bind Quiet.select.good fun physical => ?_
      split
      · exact triple_terminalizeUnrecoverable
      · exact quiet_addExecution.good

theorem triple_recoverEach (rows : List ((String × String) × ExecutionRow)) :
    (chat S).Triple (Permits S) (Good S vote) (recoverEach env newId now rows)
      fun _ => Good S vote := by
  induction rows with
  | nil => exact Quiet.done.good
  | cons x rows ih =>
    unfold recoverEach
    split
    · refine .bind quiet_updateExecution.good fun claimed => ?_
      split
      · exact .bind triple_recoverGeneration fun _ => ih
      · exact ih
    · exact ih

/-- `_recover_expired_executions` -/
theorem triple_recoverExpiredExecutions :
    (chat S).Triple (Permits S) (Good S vote) (recoverExpiredExecutions env newId now)
      fun _ => Good S vote :=
  .bind Quiet.select.good triple_recoverEach

theorem triple_expireGeneration (hlive : r.status.terminal = false) :
    (chat S).Triple (Permits S) (Locked S vote g r) (expireGeneration g e generation)
      fun _ => Good S vote := by
  unfold expireGeneration
  refine Changes.locked (Changes.bind Changes.updateLocked (T := fun n _ s₁ t =>
    n ≠ 1 ∧ t = s₁ ∨ n = 1 ∧ ∀ s r, s.gen = some r →
      s₁ = { s with gen := some (r.fail unknownResult.code) } → Fails S unknownResult.code s t)
    fun n => .ite (fun hn => ?_) fun hn => .done fun _ => .inl ⟨hn, rfl⟩) ?_
  · refine Changes.conseq (changes_failed (q := do
      let _ ← updateWhere (Key.execution g e) (fun x => x.status = .providerReconciling) fun x =>
        { x.release .failed with
          checkpoint := none
          lastErrorClassification := some unknownResult.code }
      pure ()) (quiet_updateExecution.bind fun _ => .done) fun _ => rfl) ?_
    exact fun _ s₁ t h => .inr ⟨hn, h⟩
  · rintro _ s t hs hr ⟨n, s₁, hgen, h⟩
    rcases hgen with ⟨hn, rfl, -⟩ | ⟨hn, r', hr', -, hs₁⟩
    · rcases h with ⟨-, rfl⟩ | ⟨hn', -⟩
      · exact hs.same rfl
      · rw [hn'] at hn
        cases hn
    · rcases h with ⟨hn', -⟩ | ⟨-, h⟩
      · exact absurd hn hn'
      · exact (h s r' hr' hs₁).live hs hr hlive

theorem triple_expireEach {busy : String → Bool} (rows : List (String × String)) :
    (chat S).Triple (Permits S) (Good S vote) (expireEach busy now rows) fun _ => Good S vote := by
  induction rows with
  | nil => exact Quiet.done.good
  | cons x rows ih =>
    obtain ⟨g, e⟩ := x
    unfold expireEach
    refine .bind quiet_lockExecution.good fun execution => ?_
    cases execution with
    | none => exact ih
    | some _ =>
      refine triple_lock ih fun r => ?_
      dsimp only
      split
      · next h => exact .bind (triple_expireGeneration (by rw [h.1]; rfl)) fun _ => ih
      · exact ih.pre fun _ _ _ _ h => h.good

/-- `_expire_provider_reconciling_executions` -/
theorem triple_expireProviderReconcilingExecutions {busy : String → Bool} :
    (chat S).Triple (Permits S) (Good S vote) (expireProviderReconcilingExecutions busy now)
      fun _ => Good S vote :=
  .bind Quiet.select.good triple_expireEach

theorem triple_expirePairs (rows : List (String × PairRow)) :
    (chat S).Triple (Permits S) (Good S vote) (expirePairs now rows) fun _ => Good S vote := by
  induction rows with
  | nil => exact Quiet.done.good
  | cons x rows ih =>
    obtain ⟨g, row⟩ := x
    unfold expirePairs
    dsimp only
    split
    · refine .bind ?_ fun _ => ih
      refine ((Changes.expirePair (L := False) (f := fun p => { p with status := .expired })
        (fun _ => rfl) (fun _ => rfl) (fun _ => rfl) fun _ => rfl).good ?_).pre
          fun _ _ _ _ h => ⟨h, False.elim⟩
      rintro _ s t hs (rfl | ⟨p, hp, hcond, -, rfl⟩)
      · exact hs.same rfl
      · refine hs.expire hp rfl rfl rfl rfl fun hv => ?_
        rw [hv] at hcond
        cases hcond
    · exact ih

/-- `_expire_past_deadline_pairs` -/
theorem triple_expirePastDeadlinePairs :
    (chat S).Triple (Permits S) (Good S vote) (expirePastDeadlinePairs now) fun _ => Good S vote :=
  .bind Quiet.select.good triple_expirePairs

theorem triple_runMaintenance {busy : String → Bool} :
    (chat S).Triple (Permits S) (Good S vote) (runMaintenance env newId busy now)
      fun _ => Good S vote :=
  .bind triple_consumeDurableRevocationCommands fun _ =>
    .bind triple_reapDisconnectGrace fun _ =>
      .bind triple_recoverExpiredExecutions fun _ =>
        triple_expireProviderReconcilingExecutions

theorem triple_runExpiry {busy : String → Bool} :
    (chat S).Triple (Permits S) (Good S vote) (runExpiry busy now) fun _ => Good S vote :=
  .bind triple_expireProviderReconcilingExecutions fun _ => triple_expirePastDeadlinePairs

end RagQs.Chat
