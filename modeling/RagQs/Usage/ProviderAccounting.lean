import RagQs.Usage.ProviderIntegration

/-!
# Every attempt is accounted for

Whatever the callbacks return or raise, a provider call that an invocation creates ends in
a status that tells what became of it, as long as the answers the wrapper acts on are true
and the terminal transitions of the ledger do not fail.

## Main definitions

* `Settled` — the status of a call fits what happened to it.
* `Behaviour.Truthful` — the answers the wrapper acts on are true.
* `Stage` — where the call of the current attempt is.

## Main results

* `wrappedOperation_settles` — an attempt leaves its call settled.
* `provider_calls_settled` — so does an invocation.
-/

namespace RagQs.Usage

open Effect Effect.Action List Option Function

variable {c : Calls} {α : Type} {f : Calls → Except Exc Calls} {ctx : ProviderCallContext}

/-- What happened to a call and what its status says fit together. -/
structure Settled (c : Calls) (log : List CallEvent) (id : String) : Prop where
  ended : .created id ∈ log → c id ≠ some .prepared ∧ c id ≠ some .dispatching
  unsent : .created id ∈ log → .invoked id ∉ log → c id ≠ some .unknown ∧ c id ≠ some .completed
  refused : .created id ∈ log → .invoked id ∈ log → c id = some .notSent → .refused id ∈ log
  dispatched : .invoked id ∈ log → .dispatched id ∈ log

/-- The answers the wrapper acts on are true: `prepare` answers `False` only when it has
created nothing, `mark_dispatching` answers with what it has committed, and `complete`
answers with an event id only when it has committed. -/
structure Behaviour.Truthful {W : Type} (b : Behaviour W) : Prop where
  prepare : ∀ a w, (b.prepare a w).1.1 = .ok (.bool false) → (b.prepare a w).1.2 = false
  dispatched : ∀ id w, (b.markDispatching id w).1.1 = .ok (.bool true) →
    (b.markDispatching id w).1.2 = .dispatched
  expired : ∀ id w, (b.markDispatching id w).1.1 = .ok (.bool false) →
    (b.markDispatching id w).1.2 = .expired
  complete : ∀ a w s, s ≠ "" → (b.complete a w).1.1 = .ok (.str s) → (b.complete a w).1.2 = true

/-- The call an event is about. -/
def CallEvent.call : CallEvent → Option String
  | .created id | .dispatched id | .invoked id | .refused id => some id
  | .terminalFailed => none

section

variable {W : Type} {b : Behaviour W} {spec : CallSpec} {physicalId : String → ℕ → String}
  {root : String} {limit k : ℕ} {s : CallRun W}

/-- After `k` attempts all calls are settled and no later attempt's call has been touched,
unless a terminal transition has failed. -/
def AfterAttempts (physicalId : String → ℕ → String) (root : String) (limit k : ℕ) (s : CallRun W) :
    Prop :=
  .terminalFailed ∈ s.log ∨ (∀ id, Settled s.calls s.log id) ∧
    ∀ j, k < j → j ≤ limit → ∀ e ∈ s.log, e.call ≠ some (physicalId root j)

/-- The attempts after the first `k` use other ids. -/
def Fresh (physicalId : String → ℕ → String) (root : String) (limit k : ℕ) (id : String) : Prop :=
  ∀ j, k < j → j ≤ limit → physicalId root j ≠ id

/-- Where the call `id` of an attempt is, while the other calls are settled. -/
structure Stage (physicalId : String → ℕ → String) (root : String) (limit k : ℕ) (id : String)
    (T : Option CallStatus → List CallEvent → Prop) (s : CallRun W) : Prop where
  others : ∀ id', id' ≠ id → Settled s.calls s.log id'
  later : ∀ j, k < j → j ≤ limit → ∀ e ∈ s.log, e.call ≠ some (physicalId root j)
  here : T (s.calls id) s.log

/-- Nothing has happened to the call. -/
def Untouched (id : String) (_ : Option CallStatus) (log : List CallEvent) : Prop :=
  ∀ e ∈ log, e.call ≠ some id

/-- The call has not been sent; where this invocation created it its status is one of
`sts`. -/
def Unsent (id : String) (sts : List CallStatus) (st : Option CallStatus) (log : List CallEvent) :
    Prop :=
  .invoked id ∉ log ∧ (.created id ∈ log → ∃ x ∈ sts, st = some x)

/-- `mark_dispatching` has returned `True`. -/
def Ready (id : String) (st : Option CallStatus) (log : List CallEvent) : Prop :=
  Unsent id [.dispatching] st log ∧ .dispatched id ∈ log

/-- The operation has been invoked; where this invocation created the call its status is
one of `sts`. -/
def Sent (id : String) (sts : List CallStatus) (st : Option CallStatus) (log : List CallEvent) :
    Prop :=
  (.invoked id ∈ log ∧ .dispatched id ∈ log) ∧ (.created id ∈ log → ∃ x ∈ sts, st = some x)

/-- The action ends at `J`, with a result or an exception. -/
abbrev Reaches {α : Type} (J : CallRun W → Prop) (m : Action Exc (CallRun W) α) (s : CallRun W) :
    Prop := m.wp (fun _ => J) (fun _ => J) s

/-! ### What a step leaves alone -/

theorem Settled.congr {c' : Calls} {log log' : List CallEvent} {id : String} (h : Settled c log id)
    (hc : c' id = c id) (hlog : ∀ e : CallEvent, e.call = some id → (e ∈ log' ↔ e ∈ log)) :
    Settled c' log' id := by
  have hcreated := hlog (.created id) rfl
  have hinvoked := hlog (.invoked id) rfl
  have hrefused := hlog (.refused id) rfl
  have hdispatched := hlog (.dispatched id) rfl
  constructor
  · intro hcr
    rw [hc]
    exact h.ended (hcreated.mp hcr)
  · intro hcr hin
    rw [hc]
    exact h.unsent (hcreated.mp hcr) fun hi => hin (hinvoked.mpr hi)
  · intro hcr hin hst
    exact hrefused.mpr (h.refused (hcreated.mp hcr) (hinvoked.mp hin) (hc ▸ hst))
  · exact fun hin => hdispatched.mpr (h.dispatched (hinvoked.mp hin))

variable {id : String} {T T' : Option CallStatus → List CallEvent → Prop}

theorem Stage.move {s' : CallRun W} (h : Stage physicalId root limit k id T s)
    (hid : Fresh physicalId root limit k id)
    (hcalls : ∀ id', id' ≠ id → s'.calls id' = s.calls id')
    (hlog : s'.log = s.log ∨ ∃ e : CallEvent, s'.log = e :: s.log ∧ e.call = some id)
    (here : T' (s'.calls id) s'.log) : Stage physicalId root limit k id T' s' := by
  refine ⟨fun id' hne => ?_, fun j hj hle e he => ?_, here⟩
  · refine (h.others id' hne).congr (hcalls id' hne) fun e he => ?_
    rcases hlog with hlog | ⟨x, hlog, hx⟩
    · rw [hlog]
    · rw [hlog, mem_cons]
      refine ⟨fun hmem => hmem.resolve_left ?_, fun hmem => .inr hmem⟩
      rintro rfl
      rw [hx] at he
      exact hne (some.inj he).symm
  · rcases hlog with hlog | ⟨x, hlog, hx⟩
    · exact h.later j hj hle e (hlog ▸ he)
    · rw [hlog, mem_cons] at he
      rcases he with rfl | he
      · rw [hx]
        exact fun heq => hid j hj hle (some.inj heq).symm
      · exact h.later j hj hle e he

theorem Stage.after (h : Stage physicalId root limit k id T s) (hs : Settled s.calls s.log id) :
    AfterAttempts physicalId root limit k s := by
  refine .inr ⟨fun id' => ?_, h.later⟩
  by_cases hid : id' = id
  · exact hid ▸ hs
  · exact h.others id' hid

theorem Stage.mono (h : Stage physicalId root limit k id T s)
    (hT : ∀ st log, T st log → T' st log) : Stage physicalId root limit k id T' s :=
  ⟨h.others, h.later, hT _ _ h.here⟩

theorem keeps_onWorld (m : Action Exc W α) {J : CallRun W → Prop}
    (hJ : ∀ s w, J s → J { s with world := w }) : Keeps J (onWorld m) := by
  intro s hs
  unfold onWorld
  exact hJ s _ hs

theorem keeps_onWorld_stage (m : Action Exc W α) :
    Keeps (Stage physicalId root limit k id T) (onWorld m) :=
  keeps_onWorld m fun _ _ h => ⟨h.others, h.later, h.here⟩

theorem keeps_onWorld_after (m : Action Exc W α) :
    Keeps (AfterAttempts physicalId root limit k) (onWorld m) := keeps_onWorld m fun _ _ h => h

theorem keeps_captureHookError (e : Exc) :
    Keeps (AfterAttempts physicalId root limit k) (captureHookError e : Action Exc (CallRun W) Unit) :=
  keeps_change fun _ h => h

theorem keeps_captureTerminal (e : Option Exc) :
    Keeps (AfterAttempts physicalId root limit k) (captureTerminal e : Action Exc (CallRun W) Unit) := by
  cases e with
  | none => exact keeps_done ()
  | some e => exact keeps_captureHookError e

/-! ### Terminal transitions -/

theorem runTerminal_reaches
    (h : ∀ calls, f s.calls = .ok calls → AfterAttempts physicalId root limit k { s with calls := calls }) :
    Reaches (AfterAttempts physicalId root limit k) (runTerminal f) s := by
  unfold Reaches wp runTerminal
  cases hf : f s.calls with
  | ok calls => exact h calls hf
  | error e => exact .inl mem_cons_self

theorem markNotSent_reaches (h : Stage physicalId root limit k id T s)
    (hid : Fresh physicalId root limit k id)
    (hlog : .invoked id ∈ s.log → .refused id ∈ s.log ∧ .dispatched id ∈ s.log) :
    Reaches (AfterAttempts physicalId root limit k) (runTerminal (Calls.markNotSent id)) s := by
  refine runTerminal_reaches fun calls hf => ?_
  have hcalls : calls = update s.calls id (some .notSent) := by
    unfold Calls.markNotSent at hf
    split at hf
    · cases hf
    · cases hf
    · exact (Except.ok.inj hf).symm
  subst hcalls
  have hmove : Stage physicalId root limit k id (fun _ _ => True)
      { s with calls := update s.calls id (some .notSent) } :=
    h.move hid (fun id' hne => update_of_ne hne _ _) (.inl rfl) trivial
  refine hmove.after ⟨fun _ => ?_, fun _ _ => ?_, fun _ hin _ => (hlog hin).1,
    fun hin => (hlog hin).2⟩ <;> simp

theorem markNotSentIfPrepared_reaches
    (h : Stage physicalId root limit k id (Unsent id [.prepared]) s)
    (hid : Fresh physicalId root limit k id) :
    Reaches (AfterAttempts physicalId root limit k) (runTerminal (Calls.markNotSentIfPrepared id)) s := by
  refine runTerminal_reaches fun calls hf => ?_
  obtain ⟨hunsent, hcreated⟩ := h.here
  unfold Calls.markNotSentIfPrepared at hf
  split at hf
  · obtain rfl := Except.ok.inj hf
    have hmove : Stage physicalId root limit k id (fun _ _ => True)
        { s with calls := update s.calls id (some .notSent) } :=
      h.move hid (fun id' hne => update_of_ne hne _ _) (.inl rfl) trivial
    refine hmove.after ⟨fun _ => ?_, fun _ _ => ?_, fun _ hin => absurd hin hunsent,
      fun hin => absurd hin hunsent⟩ <;> simp
  · next hne =>
    obtain rfl := Except.ok.inj hf
    have hno : .created id ∉ s.log := by
      intro hc
      obtain ⟨x, hx, hst⟩ := hcreated hc
      obtain rfl : x = .prepared := by simpa using hx
      exact hne hst
    exact h.after ⟨fun hc => absurd hc hno, fun hc => absurd hc hno, fun hc => absurd hc hno,
      fun hin => absurd hin hunsent⟩

theorem markUnknown_reaches (h : Stage physicalId root limit k id (Sent id [.dispatching, .completed]) s)
    (hid : Fresh physicalId root limit k id) (allowTerminal : Bool) :
    Reaches (AfterAttempts physicalId root limit k) (runTerminal (Calls.markUnknown id allowTerminal))
      s := by
  refine runTerminal_reaches fun calls hf => ?_
  obtain ⟨⟨hinvoked, hdispatched⟩, hcreated⟩ := h.here
  -- no call this invocation created has another status
  have hother : ∀ st, s.calls id = some st → st ∉ [.dispatching, .completed] →
      AfterAttempts physicalId root limit k s := by
    intro st hst hmem
    have hno : .created id ∉ s.log := by
      intro hc
      obtain ⟨x, hx, hxst⟩ := hcreated hc
      cases hst.symm.trans hxst
      exact hmem hx
    exact h.after ⟨fun hc => absurd hc hno, fun hc => absurd hc hno, fun hc => absurd hc hno,
      fun _ => hdispatched⟩
  unfold Calls.markUnknown at hf
  cases hst : s.calls id with
  | none =>
    rw [hst] at hf
    cases hf
  | some st =>
    rw [hst] at hf
    cases st with
    | prepared => cases hf
    | dispatching =>
      obtain rfl := Except.ok.inj hf
      have hmove : Stage physicalId root limit k id (fun _ _ => True)
          { s with calls := update s.calls id (some .unknown) } :=
        h.move hid (fun id' hne => update_of_ne hne _ _) (.inl rfl) trivial
      refine hmove.after ⟨fun _ => ?_, fun _ hin => absurd hinvoked hin, fun _ _ hns => ?_,
        fun _ => hdispatched⟩
      · simp
      · simp at hns
    | unknown =>
      obtain rfl := Except.ok.inj hf
      exact hother _ hst (by decide)
    | completed =>
      cases allowTerminal <;> cases hf
      refine h.after ⟨fun _ => ?_, fun _ hin => absurd hinvoked hin, fun _ _ hns => ?_,
        fun _ => hdispatched⟩
      · simp [hst]
      · simp [hst] at hns
    | notSent =>
      cases allowTerminal <;> cases hf
      exact hother _ hst (by decide)

/-! ### The steps of an attempt -/

/-- What a step that ends at `J` is followed by preserves `J`. -/
theorem Reaches.bind {β : Type} {J : CallRun W → Prop} {m : Action Exc (CallRun W) α}
    {f : α → Action Exc (CallRun W) β} (hm : Reaches J m s) (hf : ∀ a, Keeps J (f a)) :
    Reaches J (m >>= f) s :=
  wp_bind.mpr (wp_mono hm (fun a _ ht => (hf a).wp ht (fun _ _ h => h) fun _ _ h => h)
    fun _ _ h => h)

theorem abortAfterTerminal_reaches
    (h : Reaches (AfterAttempts physicalId root limit k) (runTerminal f) s) (e : Exc)
    (message : String) :
    Reaches (AfterAttempts physicalId root limit k)
      (abortAfterTerminal f e message : Action Exc (CallRun W) α) s :=
  h.bind fun _ => (keeps_captureTerminal _).bind fun _ =>
    (keeps_captureHookError e).bind fun _ => keeps_raise _

theorem finalizeError_reaches (h : Stage physicalId root limit k ctx.providerCallId
      (Sent ctx.providerCallId [.dispatching, .completed]) s)
    (hid : Fresh physicalId root limit k ctx.providerCallId) (e : Exc)
    (failure : Option ProviderFailure) (uncertain : Bool) :
    Reaches (AfterAttempts physicalId root limit k) (finalizeError ctx e failure uncertain) s := by
  refine (markUnknown_reaches h hid uncertain).bind fun _ => (keeps_captureTerminal _).bind fun _ =>
    (keeps_captureHookError e).bind fun _ => ?_
  cases failure with
  | none => exact keeps_done ()
  | some f => exact keeps_raise _

theorem terminalizeProviderFailure_reaches {failure : ProviderFailure}
    (h : Reaches (AfterAttempts physicalId root limit k) (runTerminal f) s) :
    Reaches (AfterAttempts physicalId root limit k) (terminalizeProviderFailure f failure) s := by
  refine h.bind fun o => ?_
  cases o with
  | none => exact keeps_done ()
  | some e => exact (keeps_captureHookError e).bind fun _ => keeps_raise _

theorem expireBeforeSend_reaches (h : Stage physicalId root limit k ctx.providerCallId T s)
    (hid : Fresh physicalId root limit k ctx.providerCallId)
    (hlog : .invoked ctx.providerCallId ∉ s.log) :
    Reaches (AfterAttempts physicalId root limit k)
      (expireBeforeSend ctx : Action Exc (CallRun W) α) s := by
  refine (markNotSent_reaches h hid fun hin => absurd hin hlog).bind fun o => ?_
  cases o with
  | none => exact keeps_raise _
  | some e => exact (keeps_captureHookError e).bind fun _ => keeps_raise _

theorem complete_of_ne {id' : String} (committed : Bool) (h : id' ≠ id) :
    c.complete id committed id' = c id' := by
  have hcases : c.complete id committed = update c id (some .completed) ∨
      c.complete id committed = c := by
    unfold Calls.complete
    split <;> simp
  rcases hcases with heq | heq <;> rw [heq]
  exact update_of_ne h _ _

theorem complete_dispatching (committed : Bool) (h : c id = some .dispatching) :
    c.complete id committed id = some (if committed then .completed else .dispatching) := by
  unfold Calls.complete
  cases committed <;> simp [h]

theorem lifecycleComplete_wp (hb : b.Truthful) {a : CompleteRequest}
    (h : Stage physicalId root limit k a.providerCallId (Sent a.providerCallId [.dispatching]) s)
    (hid : Fresh physicalId root limit k a.providerCallId) :
    (lifecycleComplete b a).wp
      (fun v t => Stage physicalId root limit k a.providerCallId
          (Sent a.providerCallId [.dispatching, .completed]) t ∧
        ∀ e, v = .str e → e ≠ "" → AfterAttempts physicalId root limit k t)
      (fun _ t => Stage physicalId root limit k a.providerCallId
        (Sent a.providerCallId [.dispatching, .completed]) t) s := by
  obtain ⟨hsent, hcreated⟩ := h.here
  have htrue := hb.complete a s.world
  have hdispatching : .created a.providerCallId ∈ s.log →
      s.calls a.providerCallId = some .dispatching := by
    intro hc
    obtain ⟨x, hx, hst⟩ := hcreated hc
    obtain rfl : x = .dispatching := by simpa using hx
    exact hst
  unfold wp lifecycleComplete
  generalize b.complete a s.world = o at htrue
  obtain ⟨⟨r, committed⟩, w⟩ := o
  dsimp only at htrue ⊢
  have hself := fun hc => complete_dispatching committed (hdispatching hc)
  have hstage : Stage physicalId root limit k a.providerCallId
      (Sent a.providerCallId [.dispatching, .completed])
      { s with world := w, calls := s.calls.complete a.providerCallId committed } := by
    refine h.move hid (fun id' hne => complete_of_ne committed hne) (.inl rfl)
      ⟨hsent, fun hc => ⟨_, ?_, hself hc⟩⟩
    cases committed <;> simp
  cases r with
  | error e => exact hstage
  | ok v =>
    refine ⟨hstage, fun e hv he => hstage.after ?_⟩
    subst hv
    obtain rfl := htrue e he rfl
    refine ⟨fun hc => ?_, fun _ hin => absurd hsent.1 hin, fun hc _ hns => ?_, fun _ => hsent.2⟩
    · simp [hself hc]
    · simp [hself hc] at hns

theorem Sent.or_completed {st : Option CallStatus} {log : List CallEvent}
    (h : Sent id [.dispatching] st log) : Sent id [.dispatching, .completed] st log := by
  refine ⟨h.1, fun hc => ?_⟩
  obtain ⟨x, hx, hst⟩ := h.2 hc
  obtain rfl : x = .dispatching := by simpa using hx
  exact ⟨_, mem_cons_self, hst⟩

theorem finalizeUsage_reaches (hb : b.Truthful)
    (h : Stage physicalId root limit k ctx.providerCallId (Sent ctx.providerCallId [.dispatching]) s)
    (hid : Fresh physicalId root limit k ctx.providerCallId) (value : Obj)
    (failure : Option ProviderFailure) (result : String) :
    Reaches (AfterAttempts physicalId root limit k) (finalizeUsage b value ctx failure result) s := by
  have hfail : ∀ (e : Exc) (uncertain : Bool) (t : CallRun W), Stage physicalId root limit k ctx.providerCallId
      (Sent ctx.providerCallId [.dispatching]) t →
      Reaches (AfterAttempts physicalId root limit k) (finalizeError ctx e failure uncertain) t :=
    fun e u t ht => finalizeError_reaches (ht.mono fun _ _ => .or_completed) hid e failure u
  have hcheck : ∀ {α β : Type} (m : Action Exc W α) (check : α → Action Exc (CallRun W) β),
      (∀ v, Keeps (Stage physicalId root limit k ctx.providerCallId
        (Sent ctx.providerCallId [.dispatching])) (check v)) →
      Keeps (Stage physicalId root limit k ctx.providerCallId
        (Sent ctx.providerCallId [.dispatching])) (onWorld m >>= check) :=
    fun m check hc => (keeps_onWorld_stage m).bind hc
  refine wp_attempt_bind.mpr ((hcheck _ _ fun v => ?_).wp h (fun measurement t ht => ?_)
    fun e t ht => hfail e false t ht)
  · unfold requireMeasurement
    split
    · exact keeps_done _
    · exact keeps_raise _
  refine wp_attempt_bind.mpr ((hcheck _ _ fun v => ?_).wp ht (fun ownership t ht => ?_)
    fun e t ht => hfail e false t ht)
  · unfold requireOwnership
    split
    · exact keeps_done _
    · exact keeps_raise _
  refine wp_attempt_bind.mpr (wp_bind.mpr (wp_mono (lifecycleComplete_wp hb ht hid)
    (fun v t hv => ?_) fun e t ht => finalizeError_reaches ht hid e failure true))
  unfold requireEventId
  split
  · next e =>
    by_cases he : e = ""
    · rw [if_pos he]
      exact finalizeError_reaches hv.1 hid _ failure true
    · rw [if_neg he]
      exact hv.2 e rfl he
  · exact finalizeError_reaches hv.1 hid _ failure true

/-- The operation has ended with the outcome. -/
def Invoked (id : String) (outcome : Except Exc Obj) (st : Option CallStatus)
    (log : List CallEvent) : Prop :=
  Sent id [.dispatching] st log ∧
    ∀ f, outcome = .error (.failure f) → f.sent = false → .refused id ∈ log

theorem invokeOperation_wp
    (h : Stage physicalId root limit k ctx.providerCallId (Ready ctx.providerCallId) s)
    (hid : Fresh physicalId root limit k ctx.providerCallId) :
    (invokeOperation b ctx).wp (fun outcome => Stage physicalId root limit k ctx.providerCallId
      (Invoked ctx.providerCallId outcome)) (fun _ _ => False) s := by
  obtain ⟨⟨-, hcreated⟩, hdispatched⟩ := h.here
  have hinvoked : Stage physicalId root limit k ctx.providerCallId
      (Sent ctx.providerCallId [.dispatching])
      { s with log := .invoked ctx.providerCallId :: s.log } :=
    h.move hid (fun _ _ => rfl) (.inr ⟨_, rfl, rfl⟩)
      ⟨⟨mem_cons_self, mem_cons_of_mem _ hdispatched⟩,
        fun hc => hcreated (by simpa using hc)⟩
  have hkeep : ∀ (outcome : Except Exc Obj) (t : CallRun W),
      Stage physicalId root limit k ctx.providerCallId (Sent ctx.providerCallId [.dispatching]) t →
      (∀ f : ProviderFailure, outcome = .error (.failure f) → f.sent = false → False) →
      Stage physicalId root limit k ctx.providerCallId (Invoked ctx.providerCallId outcome) t :=
    fun _ _ ht hf => ht.mono fun _ _ hs => ⟨hs, fun f he hns => (hf f he hns).elim⟩
  refine wp_change_bind.mpr (wp_attempt_bind.mpr ((keeps_onWorld_stage _).wp hinvoked
    (fun v t ht => hkeep _ t ht fun f he => by cases he) fun e t ht => ?_))
  cases e with
  | failure f =>
    by_cases hsent : f.sent = false
    · simp only [hsent, if_true]
      refine wp_change_bind.mpr (ht.move hid (fun _ _ => rfl) (.inr ⟨_, rfl, rfl⟩) ?_)
      obtain ⟨⟨hi, hd⟩, hc⟩ := ht.here
      exact ⟨⟨⟨mem_cons_of_mem _ hi, mem_cons_of_mem _ hd⟩,
        fun hcr => hc (by simpa using hcr)⟩, fun _ _ _ => mem_cons_self⟩
    · simp only [if_neg hsent]
      refine hkeep _ t ht fun g he hg => ?_
      cases he
      exact hsent hg
  | _ => exact hkeep _ t ht fun f he => by cases he

theorem settleOperation_reaches (hb : b.Truthful) (outcome : Except Exc Obj)
    (h : Stage physicalId root limit k ctx.providerCallId (Invoked ctx.providerCallId outcome) s)
    (hid : Fresh physicalId root limit k ctx.providerCallId) :
    Reaches (AfterAttempts physicalId root limit k) (settleOperation b ctx outcome) s := by
  have hsent : Stage physicalId root limit k ctx.providerCallId
      (Sent ctx.providerCallId [.dispatching]) s := h.mono fun _ _ hs => hs.1
  have hunknown : Reaches (AfterAttempts physicalId root limit k)
      (runTerminal (Calls.markUnknown ctx.providerCallId false)) s :=
    markUnknown_reaches (hsent.mono fun _ _ => .or_completed) hid false
  -- any other exception counts as a failure after the call was sent
  have hother : ∀ (e : Exc) (f : ProviderFailure), Reaches (AfterAttempts physicalId root limit k)
      (do
        change fun s => { s with pendingErrors := s.pendingErrors ++ [e] }
        let terminalError ← runTerminal (Calls.markUnknown ctx.providerCallId false)
        captureTerminal terminalError
        raise (.accountingAbort f true) : Action Exc (CallRun W) Obj) s := by
    intro e f
    refine wp_change_bind.mpr (Reaches.bind (markUnknown_reaches ?_ hid false) fun _ =>
      (keeps_captureTerminal _).bind fun _ => keeps_raise _)
    exact hsent.move hid (fun _ _ => rfl) (.inl rfl) hsent.here.or_completed
  cases outcome with
  | ok v =>
    have hvalue : Reaches (AfterAttempts physicalId root limit k) (do
        finalizeUsage b v ctx none "succeeded"
        return v : Action Exc (CallRun W) Obj) s :=
      (finalizeUsage_reaches hb hsent hid v none "succeeded").bind fun _ => keeps_pure _
    cases v with
    | providerResult => exact abortAfterTerminal_reaches hunknown _ _
    | _ => exact hvalue
  | error e =>
    cases e with
    | cancelled => exact abortAfterTerminal_reaches hunknown _ _
    | failure f =>
      have hraise : Keeps (AfterAttempts physicalId root limit k)
          (raise (.failure f) : Action Exc (CallRun W) Obj) := keeps_raise _
      show Reaches _ (if f.sent then _ else _) s
      by_cases hf : f.sent = true
      · rw [if_pos hf]
        split
        · exact (finalizeUsage_reaches hb hsent hid _ _ _).bind fun _ => hraise
        · exact (terminalizeProviderFailure_reaches hunknown).bind fun _ => hraise
      · rw [if_neg hf]
        have hrefused := h.here.2 f rfl (by simpa using hf)
        exact (terminalizeProviderFailure_reaches (markNotSent_reaches hsent hid fun _ =>
          ⟨hrefused, hsent.here.1.2⟩)).bind fun _ => hraise
    | _ => exact hother _ _

theorem keeps_clockNow : Keeps (Stage physicalId root limit k id T) (clockNow b) :=
  (keeps_onWorld_stage _).bind fun v => keeps_validatedUtc "clock" v

theorem sendAttempt_reaches (hb : b.Truthful)
    (h : Stage physicalId root limit k ctx.providerCallId (Ready ctx.providerCallId) s)
    (hid : Fresh physicalId root limit k ctx.providerCallId) :
    Reaches (AfterAttempts physicalId root limit k) (sendAttempt b ctx) s := by
  refine wp_attempt_bind.mpr (keeps_clockNow.wp h (fun now t ht => ?_) fun e t ht =>
    abortAfterTerminal_reaches
      (markNotSent_reaches ht hid fun hin => absurd hin ht.here.1.1) _ _)
  by_cases hdeadline : ctx.deadlineUtc ≤ now
  · simp only [if_pos hdeadline]
    exact expireBeforeSend_reaches ht hid ht.here.1.1
  · simp only [if_neg hdeadline]
    exact wp_bind.mpr (wp_mono (invokeOperation_wp ht hid)
      (fun outcome u hu => settleOperation_reaches hb outcome hu hid) fun _ _ => False.elim)

theorem markDispatching_of_ne {id' : String} (effect : DispatchEffect) (h : id' ≠ id) :
    c.markDispatching id effect id' = c id' := by
  have hcases : (∃ st, c.markDispatching id effect = update c id st) ∨
      c.markDispatching id effect = c := by
    unfold Calls.markDispatching
    split <;> simp
  rcases hcases with ⟨st, heq⟩ | heq <;> rw [heq]
  exact update_of_ne h _ _

/-- The status of a prepared call after `mark_dispatching`. -/
def DispatchEffect.status : DispatchEffect → CallStatus
  | .nothing => .prepared
  | .dispatched => .dispatching
  | .expired => .notSent

theorem markDispatching_prepared (effect : DispatchEffect) (h : c id = some .prepared) :
    c.markDispatching id effect id = some effect.status := by
  unfold Calls.markDispatching
  cases effect <;> simp [h, DispatchEffect.status]

/-- What the answer of `mark_dispatching` says of the call. -/
theorem lifecycleMarkDispatching_wp (hb : b.Truthful)
    (h : Stage physicalId root limit k id (Unsent id [.prepared]) s)
    (hid : Fresh physicalId root limit k id) :
    (lifecycleMarkDispatching b id).wp
      (fun v t => (∃ T, Stage physicalId root limit k id T t) ∧ .invoked id ∉ t.log ∧
        (v = .bool true → Stage physicalId root limit k id (Unsent id [.dispatching]) t) ∧
        (v = .bool false → AfterAttempts physicalId root limit k t))
      (fun _ t => (∃ T, Stage physicalId root limit k id T t) ∧ .invoked id ∉ t.log) s := by
  obtain ⟨hunsent, hcreated⟩ := h.here
  have htrue := hb.dispatched id s.world
  have hfalse := hb.expired id s.world
  unfold wp lifecycleMarkDispatching
  generalize b.markDispatching id s.world = o at htrue hfalse
  obtain ⟨⟨r, effect⟩, w⟩ := o
  dsimp only at htrue hfalse ⊢
  have hstatus : .created id ∈ s.log → s.calls.markDispatching id effect id = some effect.status := by
    intro hc
    obtain ⟨x, hx, hst⟩ := hcreated hc
    obtain rfl : x = .prepared := by simpa using hx
    exact markDispatching_prepared effect hst
  have hstage : Stage physicalId root limit k id (Unsent id [effect.status])
      { s with world := w, calls := s.calls.markDispatching id effect } :=
    h.move hid (fun id' hne => markDispatching_of_ne effect hne) (.inl rfl)
      ⟨hunsent, fun hc => ⟨_, mem_cons_self, hstatus hc⟩⟩
  cases r with
  | error e => exact ⟨⟨_, hstage⟩, hunsent⟩
  | ok v =>
    refine ⟨⟨_, hstage⟩, hunsent, fun hv => ?_, fun hv => ?_⟩
    · subst hv
      obtain rfl := htrue rfl
      exact hstage
    · subst hv
      obtain rfl := hfalse rfl
      refine hstage.after ⟨fun hc => ?_, fun hc _ => ?_, fun _ hin => absurd hin hunsent,
        fun hin => absurd hin hunsent⟩ <;> simp [hstatus hc, DispatchEffect.status]

theorem dispatchAttempt_reaches (hb : b.Truthful)
    (h : Stage physicalId root limit k ctx.providerCallId (Unsent ctx.providerCallId [.prepared]) s)
    (hid : Fresh physicalId root limit k ctx.providerCallId) :
    Reaches (AfterAttempts physicalId root limit k) (dispatchAttempt b ctx) s := by
  refine wp_attempt_bind.mpr (keeps_clockNow.wp h (fun now t ht => ?_) fun e t ht =>
    abortAfterTerminal_reaches (markNotSent_reaches ht hid fun hin => absurd hin ht.here.1) _ _)
  by_cases hdeadline : ctx.deadlineUtc ≤ now
  · simp only [if_pos hdeadline]
    exact expireBeforeSend_reaches ht hid ht.here.1
  simp only [if_neg hdeadline]
  refine wp_attempt_bind.mpr (wp_mono (lifecycleMarkDispatching_wp hb ht hid)
    (fun v u hu => ?_) fun e u hu => ?_)
  · obtain ⟨⟨T, hT⟩, hunsent, htrue, hfalse⟩ := hu
    have habort : ∀ e message, Reaches (AfterAttempts physicalId root limit k)
        (abortAfterTerminal (Calls.markNotSent ctx.providerCallId) e message :
          Action Exc (CallRun W) Obj) u :=
      abortAfterTerminal_reaches (markNotSent_reaches hT hid fun hin => absurd hin hunsent)
    cases v with
    | bool answer =>
      cases answer with
      | true =>
        obtain ⟨hno, hcreated⟩ := (htrue rfl).here
        refine wp_change_bind.mpr (sendAttempt_reaches hb ((htrue rfl).move hid (fun _ _ => rfl)
          (.inr ⟨_, rfl, rfl⟩) ⟨⟨?_, fun hc => hcreated (by simpa using hc)⟩,
            mem_cons_self⟩) hid)
        simpa using hno
      | false => exact hfalse rfl
    | _ => exact habort _ _
  · obtain ⟨⟨T, hT⟩, hunsent⟩ := hu
    exact abortAfterTerminal_reaches
      (markNotSent_reaches hT hid fun hin => absurd hin hunsent) _ _

/-- What the answer of `prepare` says of the call. -/
theorem lifecyclePrepare_wp (hb : b.Truthful) {a : PrepareRequest}
    (h : Stage physicalId root limit k a.providerCallId (Untouched a.providerCallId) s)
    (hid : Fresh physicalId root limit k a.providerCallId) :
    (lifecyclePrepare b a).wp
      (fun v t => Stage physicalId root limit k a.providerCallId
          (Unsent a.providerCallId [.prepared]) t ∧
        (v = .bool false → AfterAttempts physicalId root limit k t))
      (fun _ t => Stage physicalId root limit k a.providerCallId
        (Unsent a.providerCallId [.prepared]) t) s := by
  have hnone : ∀ e : CallEvent, e.call = some a.providerCallId → e ∉ s.log :=
    fun e he hmem => h.here e hmem he
  have hfalse := hb.prepare a s.world
  unfold wp lifecyclePrepare
  generalize b.prepare a s.world = o at hfalse
  obtain ⟨⟨r, committed⟩, w⟩ := o
  dsimp only at hfalse ⊢
  have hsame : Stage physicalId root limit k a.providerCallId
      (Unsent a.providerCallId [.prepared]) { s with world := w } :=
    h.move hid (fun _ _ => rfl) (.inl rfl)
      ⟨hnone _ rfl, fun hc => absurd hc (hnone (.created _) rfl)⟩
  by_cases hcreate : committed = true ∧ s.calls a.providerCallId = none
  · rw [if_pos hcreate]
    have hstage : Stage physicalId root limit k a.providerCallId
        (Unsent a.providerCallId [.prepared])
        { s with
          world := w
          calls := update s.calls a.providerCallId (some .prepared)
          log := .created a.providerCallId :: s.log } := by
      refine h.move hid (fun id' hne => update_of_ne hne _ _) (.inr ⟨_, rfl, rfl⟩)
        ⟨?_, fun _ => ⟨_, mem_cons_self, update_self _ _ _⟩⟩
      simpa using hnone (.invoked _) rfl
    cases r with
    | error e => exact hstage
    | ok v =>
      refine ⟨hstage, fun hv => ?_⟩
      subst hv
      exact absurd (hfalse rfl) (by simp [hcreate.1])
  · rw [if_neg hcreate]
    cases r with
    | error e => exact hsame
    | ok v =>
      refine ⟨hsame, fun _ => hsame.after ⟨fun hc => ?_, fun hc => ?_, fun hc => ?_, fun hin => ?_⟩⟩
      · exact absurd hc (hnone (.created _) rfl)
      · exact absurd hc (hnone (.created _) rfl)
      · exact absurd hc (hnone (.created _) rfl)
      · exact absurd hin (hnone (.invoked _) rfl)

theorem wrappedOperation_reaches (hb : b.Truthful)
    (h : Stage physicalId root limit k ctx.providerCallId (Untouched ctx.providerCallId) s)
    (hid : Fresh physicalId root limit k ctx.providerCallId) :
    Reaches (AfterAttempts physicalId root limit k) (wrappedOperation b spec ctx) s := by
  have habort : ∀ e message t, Stage physicalId root limit k ctx.providerCallId
      (Unsent ctx.providerCallId [.prepared]) t →
      Reaches (AfterAttempts physicalId root limit k)
        (abortAfterTerminal (Calls.markNotSentIfPrepared ctx.providerCallId) e message :
          Action Exc (CallRun W) Obj) t :=
    fun e message t ht => abortAfterTerminal_reaches (markNotSentIfPrepared_reaches ht hid) _ _
  refine wp_attempt_bind.mpr (wp_mono (lifecyclePrepare_wp hb h hid) (fun v t ht => ?_)
    fun e t ht => habort e _ t ht)
  cases v with
  | bool answer =>
    cases answer with
    | true => exact dispatchAttempt_reaches hb ht.1 hid
    | false =>
      exact (keeps_captureHookError _).bind (fun _ => keeps_raise _)|>.wp (ht.2 rfl)
        (fun _ _ h => h) fun _ _ h => h
  | _ => exact habort _ _ t ht.1

/-! ### The log only grows -/

section Log

variable {e : CallEvent}

/-- The event has happened. -/
abbrev Happened (e : CallEvent) : CallRun W → Prop := fun s => e ∈ s.log

theorem keeps_note (x : CallEvent) :
    Keeps (Happened e) (note x : Action Exc (CallRun W) Unit) :=
  keeps_change fun _ h => mem_cons_of_mem _ h

theorem keeps_onWorld_happened (m : Action Exc W α) :
    Keeps (Happened e) (onWorld m) := keeps_onWorld m fun _ _ h => h

theorem keeps_clockNow_happened : Keeps (Happened e) (clockNow b) :=
  (keeps_onWorld_happened _).bind fun v => keeps_validatedUtc "clock" v

theorem keeps_lifecyclePrepare (a : PrepareRequest) : Keeps (Happened e) (lifecyclePrepare b a) := by
  intro s hs
  unfold lifecyclePrepare
  dsimp only
  split
  · exact mem_cons_of_mem _ hs
  · exact hs

theorem keeps_runTerminal (f : Calls → Except Exc Calls) :
    Keeps (Happened e) (runTerminal f : Action Exc (CallRun W) (Option Exc)) := by
  intro s hs
  unfold runTerminal
  split
  · exact hs
  · exact mem_cons_of_mem _ hs

theorem keeps_captureHookError_happened (x : Exc) :
    Keeps (Happened e) (captureHookError x : Action Exc (CallRun W) Unit) := keeps_change fun _ h => h

theorem keeps_captureTerminal_happened (o : Option Exc) :
    Keeps (Happened e) (captureTerminal o : Action Exc (CallRun W) Unit) := by
  cases o with
  | none => exact keeps_done ()
  | some x => exact keeps_captureHookError_happened x

theorem keeps_abortAfterTerminal (f : Calls → Except Exc Calls) (x : Exc) (message : String) :
    Keeps (Happened e) (abortAfterTerminal f x message : Action Exc (CallRun W) α) :=
  (keeps_runTerminal f).bind fun _ => (keeps_captureTerminal_happened _).bind fun _ =>
    (keeps_captureHookError_happened x).bind fun _ => keeps_raise _

theorem keeps_finalizeError (ctx : ProviderCallContext) (x : Exc) (failure : Option ProviderFailure)
    (uncertain : Bool) :
    Keeps (Happened e) (finalizeError ctx x failure uncertain : Action Exc (CallRun W) Unit) := by
  refine (keeps_runTerminal _).bind fun _ => (keeps_captureTerminal_happened _).bind fun _ =>
    (keeps_captureHookError_happened x).bind fun _ => ?_
  cases failure with
  | none => exact keeps_done ()
  | some f => exact keeps_raise _

theorem keeps_terminalizeProviderFailure (f : Calls → Except Exc Calls) (failure : ProviderFailure) :
    Keeps (Happened e)
      (terminalizeProviderFailure f failure : Action Exc (CallRun W) Unit) := by
  refine (keeps_runTerminal f).bind fun o => ?_
  cases o with
  | none => exact keeps_done ()
  | some x => exact (keeps_captureHookError_happened x).bind fun _ => keeps_raise _

theorem keeps_expireBeforeSend (ctx : ProviderCallContext) :
    Keeps (Happened e) (expireBeforeSend ctx : Action Exc (CallRun W) α) := by
  refine (keeps_runTerminal _).bind fun o => ?_
  cases o with
  | none => exact keeps_raise _
  | some x => exact (keeps_captureHookError_happened x).bind fun _ => keeps_raise _

theorem keeps_finalizeUsage (value : Obj) (ctx : ProviderCallContext)
    (failure : Option ProviderFailure) (result : String) :
    Keeps (Happened e) (finalizeUsage b value ctx failure result) := by
  refine ((keeps_onWorld_happened _).bind fun v => ?_).attempt.bind fun r => ?_
  · unfold requireMeasurement
    split
    · exact keeps_done _
    · exact keeps_raise _
  cases r with
  | error x => exact keeps_finalizeError ctx x failure false
  | ok measurement =>
  refine ((keeps_onWorld_happened _).bind fun v => ?_).attempt.bind fun r => ?_
  · unfold requireOwnership
    split
    · exact keeps_done _
    · exact keeps_raise _
  cases r with
  | error x => exact keeps_finalizeError ctx x failure false
  | ok ownership =>
  have hcomplete : ∀ a : CompleteRequest, Keeps (Happened e) (lifecycleComplete b a) :=
    fun _ _ hs => hs
  refine ((hcomplete _).bind fun v => ?_).attempt.bind fun r => ?_
  · unfold requireEventId
    split
    · exact keeps_ite (fun _ => keeps_raise _) fun _ => keeps_done _
    · exact keeps_raise _
  cases r with
  | error x => exact keeps_finalizeError ctx x failure true
  | ok _ => exact keeps_done ()

theorem keeps_invokeOperation (ctx : ProviderCallContext) :
    Keeps (Happened e) (invokeOperation b ctx) := by
  refine (keeps_note _).bind fun _ => (keeps_onWorld_happened _).attempt.bind fun outcome => ?_
  split
  · split
    · exact (keeps_note _).bind fun _ => keeps_pure _
    · exact keeps_pure _
  · exact keeps_pure _

theorem keeps_settleOperation (ctx : ProviderCallContext) (outcome : Except Exc Obj) :
    Keeps (Happened e) (settleOperation b ctx outcome) := by
  unfold settleOperation
  split
  · exact keeps_abortAfterTerminal _ _ _
  · split
    · split
      · exact (keeps_finalizeUsage _ _ _ _).bind fun _ => keeps_raise _
      · exact (keeps_terminalizeProviderFailure _ _).bind fun _ => keeps_raise _
    · exact (keeps_terminalizeProviderFailure _ _).bind fun _ => keeps_raise _
  · have hpending : ∀ x : Exc, Keeps (Happened e) (change fun s =>
        { s with pendingErrors := s.pendingErrors ++ [x] } : Action Exc (CallRun W) Unit) :=
      fun _ => keeps_change fun _ h => h
    exact (hpending _).bind fun _ => (keeps_runTerminal _).bind fun _ =>
      (keeps_captureTerminal_happened _).bind fun _ => keeps_raise _
  · exact keeps_abortAfterTerminal _ _ _
  · exact (keeps_finalizeUsage _ _ _ _).bind fun _ => keeps_pure _

theorem keeps_sendAttempt (ctx : ProviderCallContext) :
    Keeps (Happened e) (sendAttempt b ctx) := by
  refine keeps_clockNow_happened.attempt.bind fun r => ?_
  cases r with
  | error x => exact keeps_abortAfterTerminal _ _ _
  | ok now =>
    exact keeps_ite (fun _ => keeps_expireBeforeSend ctx) fun _ =>
      (keeps_invokeOperation ctx).bind fun outcome => keeps_settleOperation ctx outcome

theorem keeps_dispatchAttempt (ctx : ProviderCallContext) :
    Keeps (Happened e) (dispatchAttempt b ctx) := by
  refine keeps_clockNow_happened.attempt.bind fun r => ?_
  cases r with
  | error x => exact keeps_abortAfterTerminal _ _ _
  | ok now =>
    refine keeps_ite (fun _ => keeps_expireBeforeSend ctx) fun _ => ?_
    have hmark : Keeps (Happened e) (lifecycleMarkDispatching b ctx.providerCallId) :=
      fun _ hs => hs
    refine hmark.attempt.bind fun r => ?_
    split
    · exact keeps_abortAfterTerminal _ _ _
    · exact (keeps_note _).bind fun _ => keeps_sendAttempt ctx
    · exact keeps_raise _
    · exact keeps_abortAfterTerminal _ _ _

theorem keeps_wrappedOperation (ctx : ProviderCallContext) :
    Keeps (Happened e) (wrappedOperation b spec ctx) := by
  refine (keeps_lifecyclePrepare _).attempt.bind fun r => ?_
  split
  · exact keeps_abortAfterTerminal _ _ _
  · exact keeps_dispatchAttempt ctx
  · exact (keeps_captureHookError_happened _).bind fun _ => keeps_raise _
  · exact keeps_abortAfterTerminal _ _ _

end Log

/-! ### The whole call -/

theorem wrappedOperation_settles (hb : b.Truthful) (hk : k < limit)
    (hctx : ctx.providerCallId = physicalId root (k + 1))
    (hid : Fresh physicalId root limit (k + 1) ctx.providerCallId)
    (h : AfterAttempts physicalId root limit k s) :
    AfterAttempts physicalId root limit (k + 1) (wrappedOperation b spec ctx s).2 := by
  rcases h with hfailed | ⟨hsettled, hlater⟩
  · exact .inl (keeps_wrappedOperation ctx s hfailed)
  · refine of_wp _ (wrappedOperation_reaches hb ⟨fun id' _ => hsettled id', ?_, ?_⟩ hid)
    · exact fun j hj hle => hlater j (by omega) hle
    · intro e he
      rw [hctx]
      exact hlater (k + 1) (by omega) hk e he

theorem policyCallbacks_keep : (policyCallbacks b).Keeps (AfterAttempts physicalId root limit k) where
  maxAttempts _ := keeps_onWorld_after _
  delay _ := keeps_onWorld_after _
  now := keeps_onWorld_after _
  sleep _ := keeps_onWorld_after _
  jitter _ := keeps_onWorld_after _
  allow _ _ _ := keeps_onWorld_after _
  success _ _ := keeps_onWorld_after _
  circuitFailure _ _ _ := keeps_onWorld_after _
  abortProbe _ _ := keeps_onWorld_after _
  releaseProbe _ _ _ hs := hs
  recoveryAfterSeconds _ _ _ := keeps_onWorld_after _
  telemetry _ := keeps_onWorld_after _

theorem runProviderCallWithUsage_state (ctx : ProviderCallContext) (asynchronous : Bool) :
    (runProviderCallWithUsage b spec physicalId ctx asynchronous s).2
      = (callWithPolicy (policyCallbacks b) physicalId (wrappedOperation b spec) ctx asynchronous
          s).2 := by
  generalize ht : (callWithPolicy (policyCallbacks b) physicalId (wrappedOperation b spec) ctx
    asynchronous s).2 = t
  refine of_wp (fun u => u = t) ?_
  have hend : (callWithPolicy (policyCallbacks b) physicalId (wrappedOperation b spec) ctx
      asynchronous).wp (fun _ u => u = t) (fun _ u => u = t) s := by
    unfold wp
    split <;> (next heq => rw [heq] at ht; exact ht)
  refine wp_attempt_bind.mpr (wp_mono hend (fun r u hu => ?_) fun e u hu => ?_) <;>
    refine wp_read_bind.mpr ?_ <;> cases u.hookErrors ++ u.pendingErrors <;> exact hu

end

/-- **Every attempt is accounted for.**  When the answers acted on are true, the attempts'
ids differ and no terminal transition fails, then however the invocation ends every call
it has created is settled. -/
theorem provider_calls_settled {W : Type} (b : Behaviour W) (hb : b.Truthful) (spec : CallSpec)
    (physicalId : String → ℕ → String) (ctx : ProviderCallContext) (asynchronous : Bool)
    (hids : ∀ i j, 1 ≤ i → i < j → j ≤ hardAttemptLimit asynchronous →
      physicalId ctx.providerCallId i ≠ physicalId ctx.providerCallId j)
    (world : W) (calls : Calls) :
    let s := (runProviderCallWithUsage b spec physicalId ctx asynchronous
      ⟨world, calls, [], [], []⟩).2
    .terminalFailed ∉ s.log → ∀ id, Settled s.calls s.log id := by
  intro s hterminal id
  have hstart : AfterAttempts physicalId ctx.providerCallId (hardAttemptLimit asynchronous) 0
      (⟨world, calls, [], [], []⟩ : CallRun W) :=
    .inr ⟨fun _ => ⟨by simp, by simp, by simp, by simp⟩, by simp⟩
  have hattempt : ∀ k < hardAttemptLimit asynchronous, ∀ t s,
      AfterAttempts physicalId ctx.providerCallId (hardAttemptLimit asynchronous) k s →
      AfterAttempts physicalId ctx.providerCallId (hardAttemptLimit asynchronous) (k + 1)
        (wrappedOperation b spec { ctx with
          providerCallId := physicalId ctx.providerCallId (k + 1), deadlineUtc := t } s).2 :=
    fun k hk t s hs => wrappedOperation_settles hb hk rfl
      (fun j hj hle => (hids _ _ (by omega) hj hle).symm) hs
  obtain ⟨k, -, hk⟩ := callWithPolicy_keeps (fun _ => policyCallbacks_keep) asynchronous hattempt
    hstart
  rw [← runProviderCallWithUsage_state] at hk
  exact (hk.resolve_left hterminal).1 id

/-! ### A call that needs two attempts -/

/-- A policy that allows two attempts and waits for nothing. -/
def samplePolicy : Callbacks ℕ Payload where
  maxAttempts _ := done (.int 2)
  delay _ := done (.int 0)
  maxDelaySeconds := 0
  now := done (.datetime 0)
  sleep _ := done .none
  jitter _ := done (.int 0)
  allow _ _ _ := done (.bool false)
  success _ _ := done .none
  circuitFailure _ _ _ := done .none
  abortProbe _ _ := done .none
  releaseProbe _ _ n := n
  recoveryAfterSeconds _ _ _ := done .none
  telemetry _ := done .none

/-- The first attempt times out before it is sent and the second one succeeds; its
completion commits or not, and answers with an event id in both cases. -/
def sampleBehaviour (commits : Bool) : Behaviour ℕ where
  policy := samplePolicy
  prepare _ n := ((.ok (.bool true), true), n)
  markDispatching _ n := ((.ok (.bool true), .dispatched), n)
  operation _ n :=
    (if n = 0 then .error (.failure { errorClass := "timeout" }) else .ok (.str "answer"), n + 1)
  measurementExtractor _ _ _ := done (.object (.measurement
    ⟨some 7, none, none, some 3, none, none, none, none, none, []⟩))
  ownershipProvider _ := done (.object (.ownership
    { actorUserId := "user"
      actorRoleSnapshot := "member"
      actorDepartmentIdSnapshot := none
      quotaSubjectUserId := some "user"
      costCenterKey := "default" }))
  complete _ n := ((.ok (.str "event"), commits), n)

/-- The ids of the attempts of the call `"call"`. -/
def samplePhysicalId (_ : String) : ℕ → String
  | 1 => "pc_29414dc9536bf1592cc67602bb500c23dda2f91c269a5492d7472e3da57e1"
  | 2 => "pc_9fde565a1b03313f656ce8b2599564294cfc39355c963dd60d68d9b686dcd"
  | 3 => "pc_760c2d89c03d635aa17f3128e9f090c945399e2e8a845d85006a7d81eeb83"
  | _ => ""

/-- The call of the samples. -/
def sampleContext : ProviderCallContext :=
  ⟨"provider", "chat", "call", "attempt", 1000000000, none⟩

/-- The state in which the sample call ends. -/
def sampleRun (commits : Bool) : CallRun ℕ :=
  (runProviderCallWithUsage (sampleBehaviour commits) ⟨"model", "kind", "execution", "fingerprint"⟩
    samplePhysicalId sampleContext false ⟨0, fun _ => none, [], [], []⟩).2

theorem sampleBehaviour_truthful : (sampleBehaviour true).Truthful := by
  constructor <;> intros <;> simp_all [sampleBehaviour]

theorem provider_calls_settled_sample :
    (sampleRun true).calls (samplePhysicalId "call" 1) = some .notSent ∧
      (sampleRun true).calls (samplePhysicalId "call" 2) = some .completed ∧
      ∀ id, Settled (sampleRun true).calls (sampleRun true).log id := by
  have hids : ∀ j < 4, ∀ i < j, 1 ≤ i → samplePhysicalId "call" i ≠ samplePhysicalId "call" j := by
    decide
  exact ⟨by decide +kernel, by decide +kernel,
    provider_calls_settled (sampleBehaviour true) sampleBehaviour_truthful _ samplePhysicalId
      sampleContext false (fun i j hi hij hj => hids j (Nat.lt_succ_of_le hj) i hij hi) 0
      (fun _ => none) (by decide +kernel)⟩

theorem uncommitted_completion_unsettled :
    .terminalFailed ∉ (sampleRun false).log ∧
      (sampleRun false).calls (samplePhysicalId "call" 2) = some .dispatching ∧
      ¬ ∀ id, Settled (sampleRun false).calls (sampleRun false).log id := by
  have hcreated : .created (samplePhysicalId "call" 2) ∈ (sampleRun false).log := by decide +kernel
  have hst : (sampleRun false).calls (samplePhysicalId "call" 2) = some .dispatching := by
    decide +kernel
  exact ⟨by decide +kernel, hst, fun h => ((h _).ended hcreated).2 hst⟩

end RagQs.Usage
