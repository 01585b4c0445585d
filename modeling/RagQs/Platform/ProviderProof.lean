import RagQs.Platform.Provider

/-!
# Invariants of a provider call

The policy itself touches nothing but its own variables, so what all its callbacks
preserve holds throughout, and what an attempt turns from one stage into the next holds
at the stage the call has reached when it ends.

## Main definitions

* `Callbacks.Keeps` — every callback preserves an invariant.

## Main results

* `callWithPolicy_keeps` — the rule of a call.
-/

namespace RagQs

open Effect Effect.Action

/-- Every callback preserves the invariant. -/
structure Callbacks.Keeps {σ V : Type} (cb : Callbacks σ V) (I : σ → Prop) : Prop where
  maxAttempts : ∀ a, Effect.Keeps I (cb.maxAttempts a)
  delay : ∀ n, Effect.Keeps I (cb.delay n)
  now : Effect.Keeps I cb.now
  sleep : ∀ x, Effect.Keeps I (cb.sleep x)
  jitter : ∀ x, Effect.Keeps I (cb.jitter x)
  allow : ∀ p o t, Effect.Keeps I (cb.allow p o t)
  success : ∀ p o, Effect.Keeps I (cb.success p o)
  circuitFailure : ∀ p o t, Effect.Keeps I (cb.circuitFailure p o t)
  abortProbe : ∀ p o, Effect.Keeps I (cb.abortProbe p o)
  releaseProbe : ∀ p o s, I s → I (cb.releaseProbe p o s)
  recoveryAfterSeconds : ∀ p o t, Effect.Keeps I (cb.recoveryAfterSeconds p o t)
  telemetry : ∀ x, Effect.Keeps I (cb.telemetry x)

section Keeps

variable {σ V : Type} {cb : Callbacks σ V} {I : σ → Prop} {physicalId : String → ℕ → String}
  {ctx : ProviderCallContext} {started : Time}

/-- The invariant, of the state of the callbacks under the policy's variables. -/
abbrev below (I : σ → Prop) : PolicyState V × σ → Prop := fun s => I s.2

variable {J : σ → Prop}

theorem keeps_validatedUtc (name : String) (v : PyObj V) :
    Effect.Keeps J (validatedUtc name v) := by
  unfold validatedUtc
  split
  · exact keeps_done _
  · exact keeps_raise _

theorem keeps_requireNone (name : String) (v : PyObj V) : Effect.Keeps J (requireNone name v) := by
  unfold requireNone
  split
  · exact keeps_done _
  · exact keeps_raise _

theorem keeps_checkedRetryNumber (name : String) (v : PyObj V) :
    Effect.Keeps J (checkedRetryNumber name v) := by
  unfold checkedRetryNumber
  split
  · exact keeps_ite (fun _ => keeps_raise _) fun _ => keeps_done _
  · exact keeps_ite (fun _ => keeps_raise _) fun _ => keeps_done _
  · exact keeps_raise _

theorem keeps_checkedMaxAttempts (v : PyObj V) :
    Effect.Keeps J (checkedMaxAttempts v : Action Exc σ ℕ) := by
  unfold checkedMaxAttempts
  split
  · exact keeps_ite (fun _ => keeps_raise _) fun _ => keeps_done _
  · exact keeps_raise _

theorem keeps_setLocal (f : PolicyState V → PolicyState V) :
    Effect.Keeps (below I) (setLocal f : Pol σ V Unit) := keeps_change_fst fun _ => rfl

theorem keeps_getLocal : Effect.Keeps (below I) (getLocal : Pol σ V (PolicyState V)) :=
  keeps_read.bind fun _ => keeps_pure _

theorem keeps_completeResult (r : ProviderResult V) :
    Effect.Keeps (below I) (completeResult r : Pol σ V (ProviderResult V)) :=
  (keeps_setLocal _).bind fun _ => keeps_pure _

theorem keeps_raiseOr {α : Type} {m : Pol σ V α} (hm : Effect.Keeps (below I) m)
    (r : Except Exc Unit) : Effect.Keeps (below I) (match r with
      | .ok () => m
      | .error e => raise e) := by
  cases r with
  | ok _ => exact hm
  | error e => exact keeps_raise e

variable (h : cb.Keeps I)

include h

theorem keeps_sampleNow : Effect.Keeps (below I) (sampleNow cb) :=
  h.now.onSnd.bind fun _ => (keeps_validatedUtc _ _).bind fun _ =>
    (keeps_setLocal _).bind fun _ => keeps_pure _

theorem keeps_invokeAbortProbeHook : Effect.Keeps (below I) (invokeAbortProbeHook cb ctx) :=
  ((h.abortProbe _ _).onSnd.bind fun _ => keeps_requireNone _ _).attempt.bind fun r =>
    (keeps_change fun s hs => h.releaseProbe _ _ s.2 hs).bind fun _ => keeps_raiseOr (keeps_pure ()) r

theorem keeps_abortOwnedProbe : Effect.Keeps (below I) (abortOwnedProbe cb ctx) :=
  keeps_getLocal.bind fun _ => keeps_ite
    (fun _ => (keeps_invokeAbortProbeHook h).attempt.bind fun r =>
      (keeps_setLocal _).bind fun _ => keeps_raiseOr (keeps_pure ()) r)
    fun _ => keeps_pure ()

theorem keeps_recordSuccess : Effect.Keeps (below I) (recordSuccess cb ctx) :=
  (h.success _ _).onSnd.bind fun _ => (keeps_requireNone _ _).bind fun _ => keeps_setLocal _

theorem keeps_recordFailure (t : Time) : Effect.Keeps (below I) (recordFailure cb ctx t) :=
  (h.circuitFailure _ _ _).onSnd.bind fun _ => (keeps_requireNone _ _).bind fun _ => keeps_setLocal _

theorem keeps_completeWithFailure (r : ProviderResult V) (t : Time) (b : Bool) :
    Effect.Keeps (below I) (completeWithFailure cb ctx r t b) :=
  (keeps_completeResult r).bind fun _ =>
    keeps_ite (fun _ => (keeps_recordFailure h t).bind fun _ => keeps_pure _) fun _ => keeps_pure _

theorem keeps_completeWithSuccess (r : ProviderResult V) :
    Effect.Keeps (below I) (completeWithSuccess cb ctx r) :=
  (keeps_completeResult r).bind fun _ => (keeps_recordSuccess h).bind fun _ => keeps_pure _

theorem keeps_accountInterruptedFailure (f : ProviderFailure) (u : Bool) (t : Time) (n : ℕ)
    (force : Bool) :
    Effect.Keeps (below I) (accountInterruptedFailure cb ctx started f u t n force) :=
  (keeps_completeResult _).bind fun _ => keeps_getLocal.bind fun _ =>
    keeps_ite (fun _ => (keeps_recordFailure h t).swallow) fun _ => keeps_pure _

theorem keeps_accountPrior (last : Option ProviderFailure) (u : Bool) (n : ℕ) :
    Effect.Keeps (below I) (accountPrior cb ctx started last u n) := by
  cases last with
  | none => exact keeps_pure ()
  | some f =>
    exact keeps_ite (fun _ => keeps_getLocal.bind fun _ =>
      keeps_accountInterruptedFailure h f u _ n false) fun _ => keeps_pure _

theorem keeps_completeDeadline (last : Option ProviderFailure) (u : Bool) (n : ℕ) (t : Time) :
    Effect.Keeps (below I) (completeDeadline cb ctx started last u n t) :=
  keeps_ite (fun _ => keeps_completeWithFailure h _ t true) fun _ => keeps_completeResult _

theorem keeps_checkedRecoveryAfterSeconds :
    Effect.Keeps (below I) (checkedRecoveryAfterSeconds cb ctx) := by
  refine keeps_getLocal.bind fun _ => (h.recoveryAfterSeconds _ _ _).onSnd.bind fun v => ?_
  split
  · exact keeps_pure _
  · exact keeps_ite (fun _ => keeps_raise _) fun _ => keeps_pure _
  · exact keeps_raise _

theorem keeps_emitTelemetry (x : ProviderCallObservation) :
    Effect.Keeps (below I) (emitTelemetry cb x) :=
  (h.telemetry x).onSnd.bind fun _ => keeps_requireNone _ _

theorem keeps_retryWait (n : ℕ) : Effect.Keeps (below I) (retryWait cb n) :=
  (h.delay n).onSnd.bind fun _ => (keeps_checkedRetryNumber _ _).bind fun _ =>
    (h.jitter _).onSnd.bind fun _ => (keeps_checkedRetryNumber _ _).bind fun _ => keeps_pure _

theorem keeps_afterFailure (max n : ℕ) (d : Time) (u : Bool) (f : ProviderFailure) :
    Effect.Keeps (below I) (afterFailure cb ctx started max n d u f) := by
  have hend : ∀ r t b, Effect.Keeps (below I) (do
      return some (← completeWithFailure cb ctx r t b)) := fun r t b =>
    (keeps_completeWithFailure h r t b).bind fun _ => keeps_pure _
  refine keeps_getLocal.bind fun _ => ((keeps_sampleNow h).onError
    (keeps_accountInterruptedFailure h f u _ n false)).bind fun finished => ?_
  refine keeps_ite (fun _ => hend _ _ _) fun _ => keeps_getLocal.bind fun _ => ?_
  refine keeps_ite (fun _ => hend _ _ _) fun _ => keeps_ite (fun _ => hend _ _ _) fun _ => ?_
  refine ((keeps_retryWait h n).onError
    (keeps_accountInterruptedFailure h f u finished n false)).bind fun _ => ?_
  refine keeps_ite (fun _ => hend _ _ _) fun _ => ?_
  refine (Effect.Keeps.onError ((h.sleep _).onSnd.bind fun v => ?_)
    (keeps_accountInterruptedFailure h f u finished n false)).bind fun _ => keeps_pure _
  split
  · exact keeps_pure _
  · exact keeps_raise _

theorem keeps_afterException (n : ℕ) (d : Time) (u : Bool) :
    Effect.Keeps (below I) (afterException cb ctx started n d u) :=
  keeps_getLocal.bind fun _ => ((keeps_sampleNow h).onError
    ((keeps_completeResult _).bind fun _ => (keeps_recordFailure h _).swallow)).bind fun _ =>
      keeps_ite (fun _ => keeps_completeWithFailure h _ _ _)
        fun _ => keeps_completeWithFailure h _ _ _

theorem keeps_afterValue (n : ℕ) (d : Time) (u : Bool) (last : Option ProviderFailure)
    (value : PyObj V) : Effect.Keeps (below I) (afterValue cb ctx started n d u last value) := by
  unfold afterValue
  split
  · exact (keeps_accountPrior h last u _).bind fun _ => keeps_raise _
  · refine keeps_getLocal.bind fun _ => ((keeps_sampleNow h).onError
      ((keeps_completeResult _).bind fun _ => (keeps_recordSuccess h).swallow)).bind fun _ => ?_
    exact keeps_ite (fun _ => keeps_completeWithFailure h _ _ _)
      fun _ => keeps_completeWithSuccess h _

theorem keeps_allowCall : Effect.Keeps (below I) (allowCall cb ctx) := by
  refine .bind (.attempt ?_) fun r => ?_
  · refine keeps_getLocal.bind fun _ => (h.allow _ _ _).onSnd.attempt.bind fun r => ?_
    split
    · exact keeps_setLocal _
    · exact keeps_raise _
    · exact (keeps_setLocal _).bind fun _ => keeps_raise _
    · exact keeps_raise _
  · cases r with
    | ok _ => exact keeps_pure _
    | error e => exact (keeps_invokeAbortProbeHook h).swallow.bind fun _ => keeps_raise _

theorem keeps_reportRejection : Effect.Keeps (below I) (reportRejection cb ctx started) :=
  (keeps_checkedRecoveryAfterSeconds h).attempt.bind fun _ => keeps_getLocal.bind fun _ =>
    (keeps_emitTelemetry h _).swallow

theorem keeps_cleanup : Effect.Keeps (below I) (cleanup cb ctx) := by
  refine keeps_getLocal.bind fun _ => .bind (.attempt (keeps_ite
    (fun _ => keeps_abortOwnedProbe h) fun _ => keeps_pure _)) fun _ => ?_
  refine keeps_getLocal.bind fun p => ?_
  split
  · exact keeps_pure _
  · refine (keeps_checkedRecoveryAfterSeconds h).attempt.bind fun _ => ?_
    refine (keeps_emitTelemetry h _).attempt.bind fun r => ?_
    split <;> exact keeps_pure _

end Keeps

/-- An action on the second part that reaches `I` there. -/
theorem wp_of_snd {σ τ α : Type} {m : Action Exc σ α} {I : σ → Prop} {s : τ × σ}
    {Q : α → τ × σ → Prop} {E : Exc → τ × σ → Prop} (h : I (m s.2).2)
    (hQ : ∀ a t, I t.2 → Q a t) (hE : ∀ e t, I t.2 → E e t) :
    (m.onSnd : Action Exc (τ × σ) α).wp Q E s := by
  unfold wp onSnd
  cases hm : m s.2 with
  | mk r t =>
    rw [hm] at h
    cases r with
    | ok a => exact hQ a _ h
    | error e => exact hE e _ h

theorem of_wp {σ α : Type} {m : Action Exc σ α} {s : σ} (P : σ → Prop)
    (h : m.wp (fun _ => P) (fun _ => P) s) : P (m s).2 := by
  unfold wp at h
  split at h <;> (next heq => rw [heq]; exact h)

theorem attemptLoop_keeps {σ V : Type} {cb : Callbacks σ V} {I : ℕ → σ → Prop}
    {physicalId : String → ℕ → String} {ctx : ProviderCallContext} {started : Time}
    {operation : ProviderCallContext → Action Exc σ (PyObj V)} (h : ∀ k, cb.Keeps (I k))
    {limit : ℕ} (hop : ∀ k < limit, ∀ t s, I k s → I (k + 1) (operation { ctx with
      providerCallId := physicalId ctx.providerCallId (k + 1), deadlineUtc := t } s).2)
    (maxAttempts : ℕ) : ∀ remaining prior u last s,
      prior + remaining ≤ limit → below (I prior) s →
      ∃ k ≤ limit, below (I k)
        (attemptLoop cb physicalId ctx started operation maxAttempts remaining prior u last s).2 := by
  have hend : ∀ {α : Type} {m : Pol σ V α} {k : ℕ} {s}, k ≤ limit →
      Effect.Keeps (below (I k)) m → below (I k) s →
      m.wp (fun _ t => ∃ k ≤ limit, below (I k) t) (fun _ t => ∃ k ≤ limit, below (I k) t) s :=
    fun hk hm hs => hm.wp hs (fun _ _ ht => ⟨_, hk, ht⟩) fun _ _ ht => ⟨_, hk, ht⟩
  have hwp : ∀ remaining prior u last s, prior + remaining ≤ limit → below (I prior) s →
      (attemptLoop cb physicalId ctx started operation maxAttempts remaining prior u last).wp
        (fun _ t => ∃ k ≤ limit, below (I k) t) (fun _ t => ∃ k ≤ limit, below (I k) t) s := by
    intro remaining
    induction remaining with
    | zero =>
      exact fun prior u _ s hle hs =>
        hend hle (keeps_getLocal.bind fun _ => keeps_completeResult _) hs
    | succ remaining ih =>
      intro prior u last s hle hs
      have hprior : prior ≤ limit := by omega
      have hnext : prior + 1 ≤ limit := by omega
      unfold attemptLoop
      refine wp_bind.mpr ((((keeps_sampleNow (h prior)).onError
        (keeps_accountPrior (h prior) last u prior))).wp hs (fun current s hs => ?_)
        fun _ _ ht => ⟨_, hprior, ht⟩)
      split
      · exact hend hprior (keeps_completeDeadline (h prior) last u prior current) hs
      · refine wp_attempt_bind.mpr ?_
        have hop' := hop prior hnext (min ctx.deadlineUtc (current + maxProviderAttempt)) s.2 hs
        refine wp_of_snd hop' (fun value t ht => ?_) fun e t ht => ?_
        · exact hend hnext (keeps_afterValue (h _) _ _ _ last value) ht
        have hacc : Effect.Keeps (below (I (prior + 1)))
            (accountPrior cb ctx started last u prior) :=
          keeps_accountPrior (h (prior + 1)) last u prior
        cases e with
        | accountingAbort f force =>
          exact hend hnext (keeps_getLocal.bind fun _ =>
            (keeps_sampleNow (h _)).attempt.bind fun _ =>
            (keeps_accountInterruptedFailure (h _) f _ _ _ force).bind fun _ => keeps_raise _) ht
        | cancelled => exact hend hnext (hacc.bind fun _ => keeps_raise _) ht
        | preSendDeadlineExceeded =>
          exact hend hnext (((keeps_sampleNow (h _)).onError hacc).bind fun _ =>
            keeps_completeDeadline (h _) last u prior _) ht
        | policyAbort message => exact hend hnext (hacc.bind fun _ => keeps_raise _) ht
        | failure f =>
          refine wp_bind.mpr ((keeps_afterFailure (h (prior + 1)) _ _ _ _ f).wp ht
            (fun o t ht => ?_) fun _ _ ht => ⟨_, hnext, ht⟩)
          cases o with
          | some r => exact ⟨_, hnext, ht⟩
          | none => exact ih (prior + 1) _ (some f) t (by omega) ht
        | circuitOpen => exact hend hnext (keeps_afterException (h _) _ _ _) ht
        | typeError message => exact hend hnext (keeps_afterException (h _) _ _ _) ht
        | platform e => exact hend hnext (keeps_afterException (h _) _ _ _) ht
        | other name => exact hend hnext (keeps_afterException (h _) _ _ _) ht
  intro remaining prior u last s hle hs
  exact of_wp (fun t => ∃ k ≤ limit, below (I k) t) (hwp remaining prior u last s hle hs)

theorem wp_stages {σ V α : Type} {I : ℕ → σ → Prop} {limit : ℕ} {m : Pol σ V α}
    {Q : α → PolicyState V × σ → Prop} {E : Exc → PolicyState V × σ → Prop}
    {s : PolicyState V × σ} (h : ∃ k ≤ limit, below (I k) (m s).2)
    (hQ : ∀ a t, (∃ k ≤ limit, below (I k) t) → Q a t)
    (hE : ∀ e t, (∃ k ≤ limit, below (I k) t) → E e t) : m.wp Q E s := by
  unfold wp
  cases hm : m s with
  | mk r t =>
    rw [hm] at h
    cases r with
    | ok a => exact hQ a t h
    | error e => exact hE e t h

theorem wp_stage {σ V α : Type} {I : ℕ → σ → Prop} {limit : ℕ} {m : Pol σ V α}
    {s : PolicyState V × σ} (hm : ∀ k, Effect.Keeps (below (I k)) m)
    (hs : ∃ k ≤ limit, below (I k) s) :
    m.wp (fun _ t => ∃ k ≤ limit, below (I k) t) (fun _ t => ∃ k ≤ limit, below (I k) t) s := by
  obtain ⟨k, hle, hk⟩ := hs
  exact (hm k).wp hk (fun _ _ ht => ⟨k, hle, ht⟩) fun _ _ ht => ⟨k, hle, ht⟩

theorem wp_raiseOn {σ V : Type} {cb : Callbacks σ V} {I : ℕ → σ → Prop}
    {ctx : ProviderCallContext} {started : Time} (h : ∀ k, cb.Keeps (I k)) {limit : ℕ} {e : Exc}
    {t : PolicyState V × σ} (ht : ∃ k ≤ limit, below (I k) t) : (do
      match e with
      | .circuitOpen => do
        let p ← getLocal
        if p.circuitRejected then reportRejection cb ctx started
      | _ => pure ()
      let _ ← cleanup cb ctx
      raise e : Pol σ V (ProviderResult V)).wp (fun _ t => ∃ k ≤ limit, below (I k) t)
        (fun _ t => ∃ k ≤ limit, below (I k) t) t := by
  have hlast : ∀ k, Effect.Keeps (below (I k)) (do
      let _ ← cleanup cb ctx
      raise e : Pol σ V (ProviderResult V)) := fun k =>
    (keeps_cleanup (h k)).bind fun _ => keeps_raise e
  refine wp_stage (fun k => ?_) ht
  cases e with
  | circuitOpen =>
    exact keeps_getLocal.bind fun _ => keeps_ite
      (fun _ => (keeps_reportRejection (h k)).bind fun _ => hlast k) fun _ => hlast k
  | _ => exact hlast k

theorem guardedCall_keeps {σ V : Type} {cb : Callbacks σ V} {I : ℕ → σ → Prop}
    {physicalId : String → ℕ → String} {ctx : ProviderCallContext} {started : Time}
    {operation : ProviderCallContext → Action Exc σ (PyObj V)} (h : ∀ k, cb.Keeps (I k))
    {limit : ℕ} (hop : ∀ k < limit, ∀ t s, I k s → I (k + 1) (operation { ctx with
      providerCallId := physicalId ctx.providerCallId (k + 1), deadlineUtc := t } s).2)
    {maxAttempts : ℕ} (hmax : maxAttempts ≤ limit) {s : PolicyState V × σ} (hs : below (I 0) s) :
    ∃ k ≤ limit, below (I k) (guardedCall cb physicalId ctx started operation maxAttempts s).2 := by
  refine of_wp (fun t => ∃ k ≤ limit, below (I k) t) (wp_attempt_bind.mpr (wp_bind.mpr
    ((keeps_allowCall (h 0)).wp hs (fun _ t ht => wp_stages
      (attemptLoop_keeps h hop maxAttempts maxAttempts 0 false none t (by omega) ht)
      (fun r t ht => ?_) fun e t ht => wp_raiseOn h ht) fun e t ht =>
        wp_raiseOn h ⟨0, Nat.zero_le _, ht⟩)))
  refine wp_stage (fun k => (keeps_cleanup (h k)).bind fun o => ?_) ht
  cases o with
  | none => exact keeps_pure r
  | some e => exact keeps_raise e

/-- **The rule of a call.**  What every callback preserves at every stage, and every attempt
turns from one stage into the next, holds at some stage when the call ends. -/
theorem callWithPolicy_keeps {σ V : Type} {cb : Callbacks σ V} {I : ℕ → σ → Prop}
    {physicalId : String → ℕ → String} {ctx : ProviderCallContext}
    {operation : ProviderCallContext → Action Exc σ (PyObj V)} (h : ∀ k, cb.Keeps (I k))
    (asynchronous : Bool) (hop : ∀ k < hardAttemptLimit asynchronous, ∀ t s, I k s →
      I (k + 1) (operation { ctx with
        providerCallId := physicalId ctx.providerCallId (k + 1), deadlineUtc := t } s).2)
    {s : σ} (hs : I 0 s) :
    ∃ k ≤ hardAttemptLimit asynchronous,
      I k (callWithPolicy cb physicalId operation ctx asynchronous s).2 := by
  refine of_wp (fun t => ∃ k ≤ hardAttemptLimit asynchronous, I k t) ?_
  have hraise : ∀ (e : Exc) t, I 0 t → ∃ k ≤ hardAttemptLimit asynchronous, I k t :=
    fun _ t ht => ⟨0, Nat.zero_le _, ht⟩
  refine wp_bind.mpr ((h 0).now.wp hs (fun v t ht => ?_) hraise)
  refine wp_bind.mpr ((keeps_validatedUtc _ v).wp ht (fun started t ht => ?_) hraise)
  refine wp_bind.mpr (((h 0).maxAttempts asynchronous).wp ht (fun v t ht => ?_) hraise)
  refine wp_bind.mpr ((keeps_checkedMaxAttempts v).wp ht (fun limit t ht => ?_) hraise)
  have hk : ∃ k ≤ hardAttemptLimit asynchronous, below (I k) (guardedCall cb physicalId ctx
      started operation (min limit (hardAttemptLimit asynchronous)) (⟨started, false, false, false, none⟩, t)).2 :=
    guardedCall_keeps h hop (Nat.min_le_right _ _) ht
  unfold wp
  cases hr : guardedCall cb physicalId ctx started operation
      (min limit (hardAttemptLimit asynchronous)) (⟨started, false, false, false, none⟩, t) with
  | mk r u =>
    rw [hr] at hk
    simp only [hr]
    cases r <;> exact hk

end RagQs
