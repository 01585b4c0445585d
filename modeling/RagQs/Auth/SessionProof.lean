import RagQs.Auth.Session
import Mathlib.Data.List.Nodup

/-!
# The invariant of a tab's session

The fields say the same about who is signed in, the lifecycle epoch tells the identities apart,
the slot holds the refresh of the current key, and a timer is set while somebody is signed in or
what is left to run sets it.

## Main definitions

* `FieldsOk`, `OperationsOk`, `FlightsOk`, `TimerOk` — the parts of the invariant.
* `Sound` — the invariant.
* `Fair` — a login is not undone by its own listeners, and its identity is new.

## Main results

* `Sound.step` — what a fair move preserves.
* `follows_step` — what a move does to who is signed in.
-/

namespace RagQs.Auth

open List Option

variable {s t : AuthStore} {m : Move} {o o' : Operation} {f : Frame}
variable {applied : Bool} {u : AuthStore}

/-- The identity that a logout or a revocation is to end. -/
def Pending.initiated : Pending → Option String
  | .logout initiated => initiated
  | .revokeSession _ true initiated => initiated
  | .revokeAll initiated => initiated
  | _ => none

/-- The refresh that what is left to run belongs to. -/
def Frame.flight : Frame → Option ℕ
  | .refreshed flight _ _ _ => some flight
  | .refreshFailed flight => some flight
  | _ => none

/-- What is left to run sets the timer under the key. -/
def Frame.Schedules (key : LifecycleKey) : Frame → Prop
  | .login _ _ => True
  | .busLogin => True
  | .refreshed _ appliedKey _ _ => appliedKey = key
  | .busRefresh appliedKey => appliedKey = key
  | _ => False

/-- Who is signed in has a token and an identity, and nobody else has. -/
structure FieldsOk (status : Status) (token : Option String) (user : Option User)
    (key : LifecycleKey) (sessionInstance : ℕ) : Prop where
  signedIn : status = .authenticated → token.isSome = true ∧ key.authSessionId.isSome = true
  signedOut : status ≠ .authenticated → token = none ∧ user = none ∧ key.authSessionId = none
  unknown : status = .unknown → key.lifecycleEpoch = 0
  counted : sessionInstance = key.lifecycleEpoch

/-- An operation knows the lifecycle it was started in: within an epoch the identity stays, and
what is to be ended does not come back in a later one. -/
structure OperationOk (key : LifecycleKey) (started : ℕ) (o : Operation) : Prop where
  number : o.number < started
  epoch : o.key.lifecycleEpoch ≤ key.lifecycleEpoch
  same : o.key.lifecycleEpoch = key.lifecycleEpoch → o.key = key
  initiated : ∀ id, o.pending.initiated = some id → key.authSessionId = some id → o.key = key
  flight : ∀ flight, o.pending = .refresh flight → flight = o.number
  presentation : ∀ userId sessionInstance, o.pending = .presentation userId sessionInstance →
    sessionInstance = o.key.lifecycleEpoch

/-- The operations. -/
structure OperationsOk (key : LifecycleKey) (started : ℕ) (ops : List Operation) : Prop where
  each : ∀ o ∈ ops, OperationOk key started o
  nodup : (ops.map Operation.number).Nodup

/-- The operation is the refresh with the number. -/
def Operation.Refreshes (o : Operation) (flight : ℕ) : Prop := o.pending = .refresh flight

/-- The refresh under the current key is in the slot, and what is in the slot has not ended. -/
structure FlightsOk (key : LifecycleKey) (started : ℕ) (ops : List Operation)
    (slot : Option (LifecycleKey × ℕ)) (frames : List Frame) : Prop where
  current : ∀ o ∈ ops, ∀ flight, o.Refreshes flight → o.key = key → slot = some (key, flight)
  single : ∀ o ∈ ops, ∀ o' ∈ ops, ∀ flight flight', o.Refreshes flight → o'.Refreshes flight' →
    o.key = o'.key → o = o'
  live : ∀ key flight, slot = some (key, flight) →
    (∃ o ∈ ops, o.Refreshes flight ∧ o.key = key) ∨ ∃ f ∈ frames, f.flight = some flight
  ended : ∀ f ∈ frames, ∀ flight, f.flight = some flight →
    flight < started ∧ ∀ o ∈ ops, o.number ≠ flight

/-- The timer is set while somebody is signed in, and one that has fired has started a refresh. -/
structure TimerOk (status : Status) (key : LifecycleKey) (ops : List Operation)
    (timer : Option Bool) (frames : List Frame) : Prop where
  off : status ≠ .authenticated → timer = none
  on : status = .authenticated → timer.isSome = true ∨ ∃ f ∈ frames, f.Schedules key
  fired : timer = some false →
    (∃ o ∈ ops, ∃ flight, o.Refreshes flight ∧ o.key = key) ∨ ∃ f ∈ frames, f.Schedules key

/-- The invariant. -/
structure Sound (s : AuthStore) : Prop where
  fields : FieldsOk s.status s.token s.user s.key s.presentationSessionInstance
  operations : OperationsOk s.key s.started s.operations
  flights : FlightsOk s.key s.started s.operations s.inflightRefresh s.frames
  timer : TimerOk s.status s.key s.operations s.refreshTimer s.frames

/-! ### The parts of the invariant -/

section Parts

variable {status : Status} {token : Option String} {user : Option User}
  {key key' k : LifecycleKey} {sessionInstance started n : ℕ} {ops ops' : List Operation}
  {slot : Option (LifecycleKey × ℕ)} {timer : Option Bool} {frames : List Frame}

theorem OperationOk.await (h : OperationOk key started o) : OperationOk key (started + 1) o :=
  ⟨h.number.trans (Nat.lt_succ_self _), h.epoch, h.same, h.initiated, h.flight, h.presentation⟩

theorem OperationsOk.await {p : Pending} (h : OperationsOk key started ops)
    (hflight : ∀ flight, p = .refresh flight → flight = started)
    (hpresentation : ∀ userId i, p = .presentation userId i → i = key.lifecycleEpoch) :
    OperationsOk key (started + 1) (ops ++ [⟨started, key, p⟩]) where
  each o ho := by
    rcases mem_append.mp ho with ho | ho
    · exact (h.each o ho).await
    · obtain rfl := mem_singleton.mp ho
      exact ⟨Nat.lt_succ_self _, le_rfl, fun _ => rfl, fun _ _ _ => rfl, hflight, hpresentation⟩
  nodup := by
    rw [map_append, nodup_append]
    refine ⟨h.nodup, by simp, fun a ha b hb hab => ?_⟩
    obtain ⟨o, ho, rfl⟩ := List.mem_map.mp ha
    obtain rfl := mem_singleton.mp hb
    exact absurd hab (h.each o ho).number.ne

theorem OperationsOk.sublist (h : OperationsOk key started ops) (hsub : ops'.Sublist ops) :
    OperationsOk key started ops' :=
  ⟨fun o ho => h.each o (hsub.subset ho), (hsub.map _).nodup h.nodup⟩

theorem OperationsOk.unique (h : OperationsOk key started ops) (ho : o ∈ ops) (ho' : o' ∈ ops)
    (heq : o.number = o'.number) : o = o' :=
  inj_on_of_nodup_map h.nodup ho ho' heq

theorem OperationsOk.enter (h : OperationsOk key started ops)
    (hepoch : key'.lifecycleEpoch = key.lifecycleEpoch + 1)
    (hnew : ∀ id, key'.authSessionId = some id → ∀ o ∈ ops, o.pending.initiated ≠ some id) :
    OperationsOk key' started ops where
  each o ho := by
    have hok := h.each o ho
    have hlt : o.key.lifecycleEpoch < key'.lifecycleEpoch := by
      have := hok.epoch
      omega
    exact ⟨hok.number, hlt.le, fun heq => absurd heq hlt.ne,
      fun id hid hkey => absurd hid (hnew id hkey o ho), hok.flight, hok.presentation⟩
  nodup := h.nodup

theorem OperationsOk.ne_new (h : OperationsOk key started ops)
    (hepoch : key'.lifecycleEpoch = key.lifecycleEpoch + 1) (ho : o ∈ ops) : o.key ≠ key' := by
  rintro rfl
  have := (h.each o ho).epoch
  omega

theorem FlightsOk.push (h : FlightsOk key started ops slot frames) (hf : f.flight = none) :
    FlightsOk key started ops slot (f :: frames) where
  current := h.current
  single := h.single
  live k flight hslot := (h.live k flight hslot).imp id fun ⟨f', hf', hflight⟩ =>
    ⟨f', mem_cons_of_mem _ hf', hflight⟩
  ended f' hf' flight hflight := by
    rcases mem_cons.mp hf' with rfl | hf'
    · rw [hf] at hflight
      cases hflight
    · exact h.ended f' hf' flight hflight

theorem FlightsOk.pop (h : FlightsOk key started ops slot (f :: frames)) (hf : f.flight = none) :
    FlightsOk key started ops slot frames where
  current := h.current
  single := h.single
  live k flight hslot := (h.live k flight hslot).imp id fun ⟨f', hf', hflight⟩ => by
    rcases mem_cons.mp hf' with rfl | hf'
    · rw [hf] at hflight
      cases hflight
    · exact ⟨f', hf', hflight⟩
  ended f' hf' := h.ended f' (mem_cons_of_mem _ hf')

theorem FlightsOk.await {p : Pending} (h : FlightsOk key started ops slot frames)
    (hp : ∀ flight, p ≠ .refresh flight) :
    FlightsOk key (started + 1) (ops ++ [⟨started, k, p⟩]) slot frames := by
  have hmem : ∀ {o flight}, o ∈ ops ++ [⟨started, k, p⟩] → o.Refreshes flight → o ∈ ops := by
    intro o flight ho hrefresh
    rcases mem_append.mp ho with ho | ho
    · exact ho
    · obtain rfl := mem_singleton.mp ho
      exact absurd hrefresh (hp flight)
  refine ⟨fun o ho flight hr => h.current o (hmem ho hr) flight hr,
    fun o ho o' ho' flight flight' hr hr' =>
      h.single o (hmem ho hr) o' (hmem ho' hr') flight flight' hr hr',
    fun k' flight hslot => (h.live k' flight hslot).imp (fun ⟨o, ho, hlive⟩ =>
      ⟨o, mem_append_left _ ho, hlive⟩) id, fun f hf flight hflight => ?_⟩
  obtain ⟨hlt, hne⟩ := h.ended f hf flight hflight
  refine ⟨hlt.trans (Nat.lt_succ_self _), fun o ho => ?_⟩
  rcases mem_append.mp ho with ho | ho
  · exact hne o ho
  · obtain rfl := mem_singleton.mp ho
    exact hlt.ne'

theorem FlightsOk.refresh (h : FlightsOk key started ops slot frames)
    (hnone : ∀ o ∈ ops, ∀ flight, o.Refreshes flight → o.key ≠ key) :
    FlightsOk key (started + 1) (ops ++ [⟨started, key, .refresh started⟩])
      (some (key, started)) frames := by
  refine ⟨fun o ho flight hr hkey => ?_, fun o ho o' ho' flight flight' hr hr' hkey => ?_,
    fun k flight hslot => ?_, fun f hf flight hflight => ?_⟩
  · rcases mem_append.mp ho with ho | ho
    · exact absurd hkey (hnone o ho flight hr)
    · obtain rfl := mem_singleton.mp ho
      cases hr
      rfl
  · rcases mem_append.mp ho with ho | ho <;> rcases mem_append.mp ho' with ho' | ho'
    · exact h.single o ho o' ho' flight flight' hr hr' hkey
    · obtain rfl := mem_singleton.mp ho'
      exact absurd hkey (hnone o ho flight hr)
    · obtain rfl := mem_singleton.mp ho
      exact absurd hkey.symm (hnone o' ho' flight' hr')
    · rw [mem_singleton.mp ho, mem_singleton.mp ho']
  · cases hslot
    exact .inl ⟨_, mem_append_right _ mem_cons_self, rfl, rfl⟩
  · obtain ⟨hlt, hne⟩ := h.ended f hf flight hflight
    refine ⟨hlt.trans (Nat.lt_succ_self _), fun o ho => ?_⟩
    rcases mem_append.mp ho with ho | ho
    · exact hne o ho
    · obtain rfl := mem_singleton.mp ho
      exact hlt.ne'

theorem FlightsOk.enter (h : FlightsOk key started ops slot frames)
    (hnew : ∀ o ∈ ops, o.key ≠ key') : FlightsOk key' started ops slot frames :=
  ⟨fun o ho _ _ hkey => absurd hkey (hnew o ho), h.single, h.live, h.ended⟩

theorem TimerOk.push (h : TimerOk status key ops timer frames) :
    TimerOk status key ops timer (f :: frames) where
  off := h.off
  on hs := (h.on hs).imp id fun ⟨f', hf', hsched⟩ => ⟨f', mem_cons_of_mem _ hf', hsched⟩
  fired ht := (h.fired ht).imp id fun ⟨f', hf', hsched⟩ => ⟨f', mem_cons_of_mem _ hf', hsched⟩

theorem TimerOk.pushing (hf : f.Schedules key) :
    TimerOk .authenticated key ops timer (f :: frames) :=
  ⟨fun h => absurd rfl h, fun _ => .inr ⟨f, mem_cons_self, hf⟩,
    fun _ => .inr ⟨f, mem_cons_self, hf⟩⟩

theorem TimerOk.pop (h : TimerOk status key ops timer (f :: frames))
    (hf : ¬ (status = .authenticated ∧ f.Schedules key)) : TimerOk status key ops timer frames := by
  have hrest : status = .authenticated → (∃ f' ∈ f :: frames, f'.Schedules key) →
      ∃ f' ∈ frames, f'.Schedules key := by
    rintro hs ⟨f', hf', hsched⟩
    rcases mem_cons.mp hf' with rfl | hf'
    · exact absurd ⟨hs, hsched⟩ hf
    · exact ⟨f', hf', hsched⟩
  refine ⟨h.off, fun hs => (h.on hs).imp id (hrest hs), fun ht => ?_⟩
  by_cases hs : status = .authenticated
  · exact (h.fired ht).imp id (hrest hs)
  · rw [h.off hs] at ht
    cases ht

theorem TimerOk.scheduled (hs : status = .authenticated) :
    TimerOk status key ops (some true) frames :=
  ⟨fun h => absurd hs h, fun _ => .inl rfl, fun h => by cases h⟩

theorem TimerOk.stopped (hs : status ≠ .authenticated) : TimerOk status key ops none frames :=
  ⟨fun _ => rfl, fun h => absurd h hs, fun h => by cases h⟩

theorem TimerOk.operations (h : TimerOk status key ops timer frames)
    (hops : ∀ o ∈ ops, ∀ flight, o.Refreshes flight → o.key = key → o ∈ ops') :
    TimerOk status key ops' timer frames :=
  ⟨h.off, h.on, fun ht => (h.fired ht).imp (fun ⟨o, ho, flight, hr, hkey⟩ =>
    ⟨o, hops o ho flight hr hkey, flight, hr, hkey⟩) id⟩

theorem FlightsOk.sublist (h : FlightsOk key started ops slot frames)
    (hsub : ops'.Sublist ops) (hrefresh : ∀ o ∈ ops, ∀ flight, o.Refreshes flight → o ∈ ops') :
    FlightsOk key started ops' slot frames :=
  ⟨fun o ho => h.current o (hsub.subset ho),
    fun o ho o' ho' => h.single o (hsub.subset ho) o' (hsub.subset ho'),
    fun k flight hslot => (h.live k flight hslot).imp (fun ⟨o, ho, hr, hkey⟩ =>
      ⟨o, hrefresh o ho flight hr, hr, hkey⟩) id,
    fun f hf flight hflight => ⟨(h.ended f hf flight hflight).1, fun o ho =>
      (h.ended f hf flight hflight).2 o (hsub.subset ho)⟩⟩

theorem FlightsOk.respond (h : FlightsOk key started ops slot frames)
    (hops : OperationsOk key started ops) (ho : o ∈ ops) (hf : f.flight = some o.number) :
    FlightsOk key started (ops.filter fun o' => o'.number ≠ o.number) slot (f :: frames) := by
  have hmem : ∀ {o'}, o' ∈ ops.filter (fun o' => o'.number ≠ o.number) →
      o' ∈ ops ∧ o'.number ≠ o.number := fun h => by simpa using h
  refine ⟨fun o' ho' => h.current o' (hmem ho').1,
    fun o₁ h₁ o₂ h₂ => h.single o₁ (hmem h₁).1 o₂ (hmem h₂).1, fun k flight hslot => ?_,
    fun f' hf' flight hflight => ?_⟩
  · rcases h.live k flight hslot with ⟨o', ho', hr', hkey⟩ | ⟨f', hf', hflight⟩
    · by_cases hsame : flight = o.number
      · exact .inr ⟨f, mem_cons_self, by rw [hf, hsame]⟩
      · have hnumber := (hops.each o' ho').flight flight hr'
        exact .inl ⟨o', by simp [ho', ← hnumber, hsame], hr', hkey⟩
    · exact .inr ⟨f', mem_cons_of_mem _ hf', hflight⟩
  · rcases mem_cons.mp hf' with rfl | hf'
    · rw [hf] at hflight
      cases hflight
      exact ⟨(hops.each o ho).number, fun o' ho' => (hmem ho').2⟩
    · obtain ⟨hlt, hne⟩ := h.ended f' hf' flight hflight
      exact ⟨hlt, fun o' ho' => hne o' (hmem ho').1⟩

theorem FlightsOk.finish (h : FlightsOk key started ops slot (f :: frames))
    (hops : OperationsOk key started ops) (hf : f.flight = some n) :
    FlightsOk key started ops (slot.filter fun x => x.2 ≠ n) frames := by
  obtain ⟨-, hended⟩ := h.ended f mem_cons_self n hf
  refine ⟨fun o ho flight hr hkey => ?_, h.single, fun k flight hslot => ?_,
    fun f' hf' => h.ended f' (mem_cons_of_mem _ hf')⟩
  · rw [h.current o ho flight hr hkey]
    have hne := hended o ho
    simp [(hops.each o ho).flight flight hr, hne]
  · obtain ⟨hslot, hne⟩ := filter_eq_some_iff.mp hslot
    have hne : flight ≠ n := by simpa using hne
    refine (h.live k flight hslot).imp id fun ⟨f', hf', hflight'⟩ => ?_
    rcases mem_cons.mp hf' with rfl | hf'
    · rw [hf] at hflight'
      exact absurd (some.inj hflight').symm hne
    · exact ⟨f', hf', hflight'⟩

theorem outcome_cases (h : o.outcome n applied = some o') :
    o' = o ∨ o'.number = o.number ∧ o'.key = o.key ∧ o'.pending = .bootstrapped := by
  unfold Operation.outcome at h
  split at h
  · split at h
    · split at h
      · cases h
        exact .inr ⟨rfl, rfl, rfl⟩
      · cases h
    · cases h
      exact .inl rfl
  · cases h
    exact .inl rfl

theorem outcome_refreshes {flight : ℕ} (h : o.Refreshes flight) : o.outcome n applied = some o := by
  unfold Operation.outcome
  rw [show o.pending = .refresh flight from h]

theorem mem_outcome (h : o' ∈ ops.filterMap (Operation.outcome n applied)) :
    ∃ o ∈ ops, o'.number = o.number ∧ o'.key = o.key ∧ (o' = o ∨ o'.pending = .bootstrapped) := by
  obtain ⟨o, ho, heq⟩ := mem_filterMap.mp h
  rcases outcome_cases heq with rfl | ⟨hnumber, hkey, hpending⟩
  · exact ⟨o', ho, rfl, rfl, .inl rfl⟩
  · exact ⟨o, ho, hnumber, hkey, .inr hpending⟩

theorem mem_outcome_refreshes {flight : ℕ} (h : o' ∈ ops.filterMap (Operation.outcome n applied))
    (hr : o'.Refreshes flight) : o' ∈ ops := by
  obtain ⟨o, ho, -, -, rfl | hpending⟩ := mem_outcome h
  · exact ho
  · rw [Operation.Refreshes, hpending] at hr
    cases hr

theorem OperationsOk.outcome (h : OperationsOk key started ops) :
    OperationsOk key started (ops.filterMap (Operation.outcome n applied)) where
  each o' ho' := by
    obtain ⟨o, ho, hnumber, hkey, rfl | hpending⟩ := mem_outcome ho'
    · exact h.each o' ho
    · have hok := h.each o ho
      exact ⟨hnumber ▸ hok.number, hkey ▸ hok.epoch, hkey ▸ hok.same,
        fun id hid => (by rw [hpending] at hid; cases hid),
        fun flight heq => (by rw [hpending] at heq; cases heq),
        fun _ _ heq => (by rw [hpending] at heq; cases heq)⟩
  nodup := by
    refine Nodup.sublist ?_ h.nodup
    induction ops with
    | nil => exact Sublist.slnil
    | cons o ops ih =>
      have hrest := ih ⟨fun o ho => h.each o (mem_cons_of_mem _ ho),
        (nodup_cons.mp h.nodup).2⟩
      rw [filterMap_cons]
      cases heq : o.outcome n applied with
      | none => exact hrest.cons _
      | some o' =>
        have hnumber : o'.number = o.number := by
          rcases outcome_cases heq with rfl | ⟨hnumber, -⟩
          · rfl
          · exact hnumber
        simp only [map_cons, hnumber]
        exact hrest.cons_cons _

theorem FlightsOk.outcome (h : FlightsOk key started ops slot frames) :
    FlightsOk key started (ops.filterMap (Operation.outcome n applied)) slot frames where
  current o ho flight hr := h.current o (mem_outcome_refreshes ho hr) flight hr
  single o ho o' ho' flight flight' hr hr' :=
    h.single o (mem_outcome_refreshes ho hr) o' (mem_outcome_refreshes ho' hr') flight flight'
      hr hr'
  live k flight hslot := (h.live k flight hslot).imp (fun ⟨o, ho, hr, hkey⟩ =>
    ⟨o, mem_filterMap.mpr ⟨o, ho, outcome_refreshes hr⟩, hr, hkey⟩) id
  ended f hf flight hflight := by
    obtain ⟨hlt, hne⟩ := h.ended f hf flight hflight
    refine ⟨hlt, fun o' ho' => ?_⟩
    obtain ⟨o, ho, hnumber, -⟩ := mem_outcome ho'
    rw [hnumber]
    exact hne o ho

theorem TimerOk.outcome (h : TimerOk status key ops timer frames) :
    TimerOk status key (ops.filterMap (Operation.outcome n applied)) timer frames :=
  h.operations fun o ho _ hr _ => mem_filterMap.mpr ⟨o, ho, outcome_refreshes hr⟩

end Parts

/-! ### What the parts of a step preserve -/

theorem Sound.notify (h : Sound s) (hf : f.flight = none) : Sound (s.notify f) :=
  ⟨h.fields, h.operations, h.flights.push hf, h.timer.push⟩

theorem Sound.post (h : Sound s) (message : BusMessage) : Sound (s.post message) :=
  ⟨h.fields, h.operations, h.flights, h.timer⟩

theorem Sound.await {p : Pending} (h : Sound s) (hp : ∀ flight, p ≠ .refresh flight)
    (hpresentation : ∀ userId i, p = .presentation userId i → i = s.presentationSessionInstance) :
    Sound (s.await p) :=
  ⟨h.fields, h.operations.await (fun flight heq => absurd heq (hp flight)) fun userId i heq =>
      (hpresentation userId i heq).trans h.fields.counted,
    h.flights.await hp, h.timer.operations fun _ ho _ _ _ => mem_append_left _ ho⟩

theorem Sound.cleared (h : Sound s) : Sound s.cleared where
  fields := ⟨fun heq => (by cases heq), fun _ => ⟨rfl, rfl, rfl⟩, fun heq => (by cases heq),
    congrArg (· + 1) h.fields.counted⟩
  operations := h.operations.enter rfl fun _ heq => by cases heq
  flights := h.flights.enter fun _ => h.operations.ne_new rfl
  timer := .stopped (by simp [AuthStore.cleared])

theorem Sound.setFlag (h : Sound s) (pending : Bool) :
    Sound { s with freshLoginLandingPending := pending } :=
  ⟨h.fields, h.operations, h.flights, h.timer⟩

theorem Sound.clearAuth (h : Sound s) : Sound s.clearAuth := h.cleared.notify rfl

theorem Sound.established {token id : String} {user : Option User} (h : Sound s)
    (hnew : ∀ o ∈ s.operations, o.pending.initiated ≠ some id) (hf : f.flight = none)
    (hsched : f.Schedules (s.enter (some id)).key) :
    Sound ({ s.enter (some id) with
      status := .authenticated, token := some token, user }.notify f) where
  fields := ⟨fun _ => ⟨rfl, rfl⟩, fun hne => absurd rfl hne, fun heq => (by cases heq),
    congrArg (· + 1) h.fields.counted⟩
  operations := h.operations.enter rfl fun id' heq => by
    cases heq
    exact hnew
  flights := .push (h.flights.enter fun _ => h.operations.ne_new rfl) hf
  timer := .pushing hsched

theorem AuthStore.refresh_some {x : LifecycleKey × ℕ}
    (h : s.inflightRefresh.filter (fun f => f.1 = s.key) = some x) :
    s.refreshForCurrentLifecycle = (s, x.2) := by
  unfold AuthStore.refreshForCurrentLifecycle
  rw [h]

theorem AuthStore.refresh_none (h : s.inflightRefresh.filter (fun f => f.1 = s.key) = none) :
    s.refreshForCurrentLifecycle =
      ({ s with inflightRefresh := some (s.key, s.started) }.await (.refresh s.started),
        s.started) := by
  unfold AuthStore.refreshForCurrentLifecycle
  rw [h]

theorem Sound.refreshForCurrentLifecycle (h : Sound s) : Sound s.refreshForCurrentLifecycle.1 := by
  cases hslot : s.inflightRefresh.filter fun f => f.1 = s.key with
  | some f =>
    rw [AuthStore.refresh_some hslot]
    exact h
  | none =>
    rw [AuthStore.refresh_none hslot]
    have hnone : ∀ o ∈ s.operations, ∀ flight, o.Refreshes flight → o.key ≠ s.key := by
      intro o ho flight hr hkey
      rw [h.flights.current o ho flight hr hkey] at hslot
      simp at hslot
    exact ⟨h.fields, h.operations.await (fun flight heq => (Pending.refresh.inj heq).symm)
      fun _ _ heq => (by cases heq), h.flights.refresh hnone,
      h.timer.operations fun _ ho _ _ _ => mem_append_left _ ho⟩

theorem Sound.refreshing (h : Sound s) (hframes : s.frames = []) :
    ∃ o ∈ s.refreshForCurrentLifecycle.1.operations,
      ∃ flight, o.Refreshes flight ∧ o.key = s.key := by
  cases hslot : s.inflightRefresh.filter fun f => f.1 = s.key with
  | some f =>
    rw [AuthStore.refresh_some hslot]
    obtain ⟨hslot, hkey⟩ := filter_eq_some_iff.mp hslot
    obtain ⟨key, flight⟩ := f
    rcases h.flights.live key flight hslot with ⟨o, ho, hr, heq⟩ | ⟨f, hf, -⟩
    · exact ⟨o, ho, flight, hr, heq.trans (of_decide_eq_true hkey)⟩
    · rw [hframes] at hf
      cases hf
  | none =>
    rw [AuthStore.refresh_none hslot]
    exact ⟨_, mem_append_right _ mem_cons_self, s.started, rfl, rfl⟩

theorem Sound.ensureUser (h : Sound s) : Sound s.ensureUser := by
  unfold AuthStore.ensureUser
  split
  · exact h
  · exact h.await (fun _ heq => by cases heq) fun _ _ heq => by cases heq

theorem Sound.bootstrap (h : Sound s) : Sound s.bootstrap := by
  unfold AuthStore.bootstrap
  split
  · exact h
  · have hflag : Sound { s with isBootstrapped := true } :=
      ⟨h.fields, h.operations, h.flights, h.timer⟩
    exact hflag.refreshForCurrentLifecycle.await (fun _ heq => by cases heq)
      fun _ _ heq => by cases heq

theorem Sound.handleServerAllSessionsRevoked (h : Sound s) (expected : Option (Option String)) :
    Sound (s.handleServerAllSessionsRevoked expected) := by
  unfold AuthStore.handleServerAllSessionsRevoked
  split
  · exact h
  · split
    · exact (h.post _).clearAuth
    · exact h.post _

theorem Sound.endSession (h : Sound s) (initiated : Option String)
    (message : String → BusMessage) : Sound (s.endSession initiated message) := by
  unfold AuthStore.endSession
  split
  · split
    · exact h.clearAuth
    · exact h
  · split
    · exact (h.post _).clearAuth
    · exact h.post _

theorem Sound.settled (h : Sound s) (ho : o ∈ s.operations)
    (hp : ∀ flight, ¬ o.Refreshes flight) : Sound (s.settled o.number) := by
  have hkept : ∀ o' ∈ s.operations, ∀ flight, o'.Refreshes flight →
      o' ∈ s.operations.filter fun o' => o'.number ≠ o.number := by
    intro o' ho' flight hr
    refine mem_filter.mpr ⟨ho', decide_eq_true fun hnumber => ?_⟩
    rw [h.operations.unique ho' ho hnumber] at hr
    exact hp flight hr
  exact ⟨h.fields, h.operations.sublist filter_sublist,
    h.flights.sublist filter_sublist hkept,
    h.timer.operations fun o' ho' flight hr _ => hkept o' ho' flight hr⟩

theorem Sound.finished (h : Sound s) (ho : o ∈ s.operations)
    (hkey : s.key ≠ o.key) : Sound ((s.settled o.number).finish o.number false) := by
  have hops : OperationsOk s.key s.started (s.settled o.number).operations :=
    h.operations.sublist filter_sublist
  have hflights := h.flights.respond h.operations ho (f := .refreshFailed o.number) rfl
  refine ⟨h.fields, hops.outcome, (hflights.finish hops rfl).outcome, .outcome ?_⟩
  refine h.timer.operations fun o' ho' flight hr' hkey' => ?_
  refine mem_filter.mpr ⟨ho', decide_eq_true fun hnumber => hkey ?_⟩
  rw [← hkey', h.operations.unique ho' ho hnumber]

theorem Sound.refreshSucceeded {token : String} (h : Sound s) (ho : o ∈ s.operations)
    (hnew : s.key = o.key → s.status ≠ .authenticated →
      ∀ o ∈ s.operations, o.pending.initiated ≠ some token) :
    Sound ((s.settled o.number).refreshSucceeded o.number o.key token) := by
  have hops : OperationsOk s.key s.started (s.settled o.number).operations :=
    h.operations.sublist filter_sublist
  unfold AuthStore.refreshSucceeded
  by_cases hkey : s.key = o.key
  · rw [if_pos (show (s.settled o.number).key = o.key from hkey)]
    by_cases hs : s.status = .authenticated
    · obtain ⟨-, hsome⟩ := h.fields.signedIn hs
      obtain ⟨id, hid⟩ := isSome_iff_exists.mp hsome
      have hid : s.authSessionId = some id := hid
      have happlied : (s.settled o.number).refreshApplied o.key token =
          ({ s.settled o.number with token := some token }, id, o.key) := by
        simp [AuthStore.refreshApplied, AuthStore.settled, hs, hid]
      rw [happlied]
      exact ⟨⟨fun _ => ⟨rfl, hsome⟩, fun hne => absurd hs hne, h.fields.unknown, h.fields.counted⟩,
        hops, h.flights.respond h.operations ho rfl, hs ▸ .pushing hkey.symm⟩
    · have happlied : (s.settled o.number).refreshApplied o.key token =
          ({ (s.settled o.number).enter (some token) with
            status := .authenticated, token := some token }, token,
            ((s.settled o.number).enter (some token)).key) := by
        simp [AuthStore.refreshApplied, AuthStore.settled, hs]
      rw [happlied]
      refine ⟨⟨fun _ => ⟨rfl, rfl⟩, fun hne => absurd rfl hne, fun heq => (by cases heq),
        congrArg (· + 1) h.fields.counted⟩, hops.enter rfl fun id heq => ?_,
        (h.flights.respond h.operations ho rfl).enter fun _ => hops.ne_new rfl, .pushing rfl⟩
      cases heq
      exact fun o' ho' => hnew hkey hs o' (mem_of_mem_filter ho')
  · rw [if_neg (show ¬ (s.settled o.number).key = o.key from hkey)]
    exact h.finished ho hkey

theorem Sound.refreshRejected (h : Sound s) (ho : o ∈ s.operations) :
    Sound ((s.settled o.number).refreshRejected o.number o.key) := by
  have hops : OperationsOk s.key s.started (s.settled o.number).operations :=
    h.operations.sublist filter_sublist
  unfold AuthStore.refreshRejected
  by_cases hkey : s.key = o.key
  · rw [if_pos (show (s.settled o.number).key = o.key from hkey)]
    exact ⟨⟨fun heq => (by cases heq), fun _ => ⟨rfl, rfl, rfl⟩, fun heq => (by cases heq),
      congrArg (· + 1) h.fields.counted⟩, hops.enter rfl fun _ heq => (by cases heq),
      (h.flights.respond h.operations ho rfl).enter fun _ => hops.ne_new rfl, .stopped nofun⟩
  · rw [if_neg (show ¬ (s.settled o.number).key = o.key from hkey)]
    exact h.finished ho hkey

theorem Sound.setUser (h : Sound s) (hs : s.status = .authenticated) (user : Option User) :
    Sound ({ s with user }.notify .rest) :=
  ⟨⟨h.fields.signedIn, fun hne => absurd hs hne, h.fields.unknown, h.fields.counted⟩, h.operations,
    h.flights.push rfl, h.timer.push⟩

theorem Sound.sync (h : Sound s) (userId : String) (sessionInstance : ℕ) (p : Patch) :
    Sound (s.sync userId sessionInstance p) := by
  unfold AuthStore.sync
  split
  · split
    · next hs => exact h.setUser hs.1 _
    · exact h
  · exact h

/-- The identity that a move gives to the store. -/
def newIdentity (s : AuthStore) : Move → Option String
  | .settle _ (.loggedIn token _) => some token
  | .settle number (.refreshed token) => (s.operation number).bind fun o =>
    if s.key = o.key ∧ s.status ≠ .authenticated then some token else none
  | .deliver payload =>
    match readBus payload with
    | some (.login _ _ authSessionId) => some authSessionId
    | some (.refresh _ authSessionId) => if s.status = .unknown then some authSessionId else none
    | _ => none
  | _ => none

/-- The listeners of a login, here or in another tab, leave it signed in, and a new identity is
not one that a logout or a revocation still has to end. -/
structure Fair (s : AuthStore) (m : Move) : Prop where
  stays : m = .resume → ∀ f frames, s.frames = f :: frames →
    (f = .busLogin ∨ ∃ token user, f = .login token user) → s.status = .authenticated
  new : ∀ id, newIdentity s m = some id → ∀ o ∈ s.operations, o.pending.initiated ≠ some id

theorem Sound.deliver {payload : Val} (h : Sound s) (hm : Fair s (.deliver payload)) :
    Sound (s.deliver payload) := by
  have hnew := hm.new
  simp only [newIdentity] at hnew
  unfold AuthStore.deliver
  cases hread : readBus payload with
  | none => exact h
  | some e =>
    rw [hread] at hnew
    cases e with
    | login token user authSessionId => exact h.established (hnew _ rfl) rfl trivial
    | refresh token authSessionId =>
      simp only
      by_cases hunknown : s.status = .unknown ∧ s.authSessionId = none
      · rw [if_pos hunknown]
        simp only [if_pos hunknown.1] at hnew
        exact h.established (hnew _ rfl) rfl rfl
      · rw [if_neg hunknown]
        by_cases hsame : s.status = .authenticated ∧ s.authSessionId = some authSessionId
        · rw [if_pos hsame]
          exact ⟨⟨fun _ => ⟨rfl, (h.fields.signedIn hsame.1).2⟩, fun hne => absurd hsame.1 hne,
            h.fields.unknown, h.fields.counted⟩, h.operations, h.flights.push rfl,
            hsame.1 ▸ .pushing rfl⟩
        · rw [if_neg hsame]
          exact h
    | ended authSessionId =>
      simp only
      split
      · exact h.clearAuth
      · exact h

theorem Sound.afterNotify {frames : List Frame} (h : Sound s) (hm : Fair s .resume)
    (hframes : s.frames = f :: frames) : Sound ({ s with frames }.afterNotify f) := by
  have hflights := h.flights
  have htimer := h.timer
  rw [hframes] at hflights htimer
  cases f with
  | rest => exact ⟨h.fields, h.operations, hflights.pop rfl, htimer.pop fun hs => hs.2⟩
  | login token user =>
    have hs := hm.stays rfl _ _ hframes (.inr ⟨token, user, rfl⟩)
    exact ⟨h.fields, h.operations, hflights.pop rfl, .scheduled hs⟩
  | busLogin =>
    have hs := hm.stays rfl _ _ hframes (.inl rfl)
    exact ⟨h.fields, h.operations, hflights.pop rfl, .scheduled hs⟩
  | refreshed flight appliedKey token authSessionId =>
    have hfinish := hflights.finish h.operations rfl
    simp only [AuthStore.afterNotify]
    split
    · next hkey =>
      have hs : s.status = .authenticated := by simpa using (Bool.and_eq_true_iff.mp hkey).1
      exact ⟨h.fields, h.operations.outcome, hfinish.outcome, .scheduled hs⟩
    · next hkey =>
      refine ⟨h.fields, h.operations.outcome, hfinish.outcome,
        (htimer.pop fun hs => hkey ?_).outcome⟩
      exact Bool.and_eq_true_iff.mpr ⟨decide_eq_true hs.1, decide_eq_true hs.2.symm⟩
  | refreshFailed flight =>
    exact ⟨h.fields, h.operations.outcome, (hflights.finish h.operations rfl).outcome,
      (htimer.pop fun hs => hs.2).outcome⟩
  | busRefresh appliedKey =>
    simp only [AuthStore.afterNotify]
    split
    · next hkey =>
      have hs : s.status = .authenticated := by simpa using (Bool.and_eq_true_iff.mp hkey).1
      have hscheduled : Sound { s with frames, refreshTimer := some true } :=
        ⟨h.fields, h.operations, hflights.pop rfl, .scheduled hs⟩
      exact hscheduled.ensureUser
    · next hkey =>
      refine ⟨h.fields, h.operations, hflights.pop rfl, htimer.pop fun hs => hkey ?_⟩
      exact Bool.and_eq_true_iff.mpr ⟨decide_eq_true hs.1, decide_eq_true hs.2.symm⟩

theorem AuthStore.operation_some {number : ℕ} (h : s.operation number = some o) :
    o ∈ s.operations ∧ o.number = number :=
  ⟨List.mem_of_find?_eq_some h, by simpa using List.find?_some h⟩

theorem Sound.settle {r : Response} (h : Sound s) (ho : s.operation o.number = some o)
    (hm : Fair s (.settle o.number r)) (ht : s.settle o r = some t) : Sound t := by
  obtain ⟨hmem, -⟩ := AuthStore.operation_some ho
  have hsettled : ∀ {p}, o.pending = p → (∀ flight, p ≠ .refresh flight) →
      Sound (s.settled o.number) := by
    rintro p rfl hp
    exact h.settled hmem hp
  have hnumber : ∀ {flight}, o.pending = .refresh flight → flight = o.number :=
    fun hp => (h.operations.each o hmem).flight _ hp
  unfold AuthStore.settle at ht
  split at ht
  · rename_i token user hp
    cases ht
    have hs := hsettled hp nofun
    exact (hs.established (f := .login token user) (fun o' ho' => hm.new _ rfl o'
      (mem_of_mem_filter ho')) rfl trivial).setFlag _
  · rename_i hp
    cases ht
    exact hsettled hp nofun
  · rename_i initiated hp
    cases ht
    exact (hsettled hp nofun).endSession _ _
  · rename_i initiated hp
    cases ht
    exact (hsettled hp nofun).endSession _ _
  · rename_i flight token hp
    cases ht
    rw [hnumber hp]
    refine h.refreshSucceeded hmem fun hkey hs o' ho' => hm.new token ?_ o' ho'
    simp [newIdentity, ho, hkey, hs]
  · rename_i flight hp
    cases ht
    rw [hnumber hp]
    exact h.refreshRejected hmem
  · rename_i user hp
    cases ht
    have hs := hsettled hp nofun
    split
    · next hkey => exact hs.setUser (by simpa using (Bool.and_eq_true_iff.mp hkey).1) _
    · exact hs
  · rename_i hp
    cases ht
    exact hsettled hp nofun
  · rename_i id initiated hp
    cases ht
    exact (hsettled hp nofun).endSession _ _
  · rename_i id initiated hp
    cases ht
    exact (hsettled hp nofun).post _
  · rename_i id current initiated hp
    cases ht
    exact hsettled hp nofun
  · rename_i initiated hp
    cases ht
    exact (hsettled hp nofun).handleServerAllSessionsRevoked _
  · rename_i initiated hp
    cases ht
    exact hsettled hp nofun
  · rename_i hp
    cases ht
    exact (hsettled hp nofun).ensureUser
  · cases ht

theorem Sound.fire (h : Sound s) (hframes : s.frames = []) (htimer : s.refreshTimer = some true) :
    Sound { s with refreshTimer := some false }.refreshForCurrentLifecycle.1 := by
  have hsame : { s with refreshTimer := some false }.refreshForCurrentLifecycle.1 =
      { s.refreshForCurrentLifecycle.1 with refreshTimer := some false } := by
    have hfilter : ({ s with refreshTimer := some false } : AuthStore).inflightRefresh.filter
        (fun f => f.1 = ({ s with refreshTimer := some false } : AuthStore).key) =
        s.inflightRefresh.filter fun f => f.1 = s.key := rfl
    cases hslot : s.inflightRefresh.filter fun f => f.1 = s.key with
    | some f => rw [AuthStore.refresh_some hslot, AuthStore.refresh_some (hfilter.trans hslot)]
    | none =>
      rw [AuthStore.refresh_none hslot, AuthStore.refresh_none (hfilter.trans hslot)]
      rfl
  have hstate : s.refreshForCurrentLifecycle.1.status = s.status ∧
      s.refreshForCurrentLifecycle.1.key = s.key := by
    cases hslot : s.inflightRefresh.filter fun f => f.1 = s.key with
    | some f => exact AuthStore.refresh_some hslot ▸ ⟨rfl, rfl⟩
    | none => exact AuthStore.refresh_none hslot ▸ ⟨rfl, rfl⟩
  have hs : s.status = .authenticated := by
    by_contra hs
    rw [h.timer.off hs] at htimer
    cases htimer
  have hrefresh := h.refreshForCurrentLifecycle
  rw [hsame]
  refine ⟨hrefresh.fields, hrefresh.operations, hrefresh.flights, fun hne => ?_, fun _ => .inl rfl,
    fun _ => .inl ?_⟩
  · exact absurd (hstate.1.trans hs) hne
  · obtain ⟨o, ho, flight, hr, hkey⟩ := h.refreshing hframes
    exact ⟨o, ho, flight, hr, hkey.trans hstate.2.symm⟩

theorem Sound.call {c : Call} (h : Sound s) (ht : s.call c = some t) : Sound t := by
  cases c with
  | bootstrap =>
    cases ht
    exact h.bootstrap
  | login =>
    cases ht
    exact h.await nofun nofun
  | logout =>
    cases ht
    exact h.await nofun nofun
  | refresh =>
    cases ht
    exact h.refreshForCurrentLifecycle
  | ensureUser =>
    cases ht
    exact h.ensureUser
  | revokeSession id current =>
    cases ht
    exact h.await nofun nofun
  | revokeAllSessions =>
    cases ht
    exact h.await nofun nofun
  | handleServerAllSessionsRevoked expected =>
    cases ht
    exact h.handleServerAllSessionsRevoked expected
  | createCurrentUserPresentationSync =>
    simp only [AuthStore.call] at ht
    split at ht
    · split at ht
      · cases ht
        exact h.await nofun fun _ _ heq => (Pending.presentation.inj heq).2.symm
      · cases ht
        exact h
    · cases ht
      exact h
  | sync number p =>
    simp only [AuthStore.call] at ht
    split at ht
    · cases ht
      exact h.sync _ _ _
    · cases ht
  | clearFreshLoginLanding =>
    cases ht
    exact h.setFlag _

/-- **What a fair move preserves.** -/
theorem Sound.step (h : Sound s) (hm : Fair s m) (ht : s.step m = some t) : Sound t := by
  cases m with
  | call c => exact h.call ht
  | resume =>
    simp only [AuthStore.step] at ht
    split at ht
    · next f frames hframes =>
      cases ht
      exact h.afterNotify hm hframes
    · cases ht
  | settle number r =>
    simp only [AuthStore.step] at ht
    split at ht
    · obtain ⟨o, ho, hsettle⟩ := bind_eq_some_iff.mp ht
      obtain ⟨-, rfl⟩ := AuthStore.operation_some ho
      exact h.settle ho hm hsettle
    · cases ht
  | fire =>
    simp only [AuthStore.step] at ht
    split at ht
    · next hfire =>
      cases ht
      exact h.fire (by simpa using hfire.1) hfire.2
    · cases ht
  | deliver payload =>
    simp only [AuthStore.step] at ht
    split at ht
    · cases ht
      exact h.deliver hm
    · cases ht

/-! ### What a move does to the identity of a tab -/

/-- The store is as signed in as it was, is signed out, takes the identity of the move, or is
signed in under the identity it had. -/
def Follows (s : AuthStore) (m : Move) (t : AuthStore) : Prop :=
  t.status = .authenticated →
    s.status = .authenticated ∧ (∀ id, s.authSessionId = some id → t.authSessionId = some id) ∨
      newIdentity s m = t.authSessionId ∧ t.authSessionId.isSome = true

theorem Follows.kept (hstatus : t.status = s.status) (hid : t.authSessionId = s.authSessionId) :
    Follows s m t := fun ht => .inl ⟨hstatus ▸ ht, fun _ h => hid.trans h⟩

theorem Follows.cleared (hstatus : t.status = .unauthenticated) : Follows s m t := by
  intro ht
  rw [hstatus] at ht
  cases ht

theorem follows_refresh (hstatus : u.status = s.status) (hid : u.authSessionId = s.authSessionId) :
    Follows s m u.refreshForCurrentLifecycle.1 := by
  cases hslot : u.inflightRefresh.filter fun f => f.1 = u.key with
  | some f =>
    rw [AuthStore.refresh_some hslot]
    exact .kept hstatus hid
  | none =>
    rw [AuthStore.refresh_none hslot]
    exact .kept hstatus hid

theorem follows_endSession (initiated : Option String) (message : String → BusMessage)
    (hstatus : u.status = s.status) (hid : u.authSessionId = s.authSessionId) :
    Follows s m (u.endSession initiated message) := by
  unfold AuthStore.endSession
  split
  · split
    · exact .cleared rfl
    · exact .kept hstatus hid
  · split
    · exact .cleared rfl
    · exact .kept hstatus hid

theorem follows_ensureUser (hstatus : u.status = s.status) (hid : u.authSessionId = s.authSessionId) :
    Follows s m u.ensureUser := by
  unfold AuthStore.ensureUser
  split
  · exact .kept hstatus hid
  · exact .kept hstatus hid

theorem follows_handle (expected : Option (Option String)) (hstatus : u.status = s.status)
    (hid : u.authSessionId = s.authSessionId) :
    Follows s m (u.handleServerAllSessionsRevoked expected) := by
  unfold AuthStore.handleServerAllSessionsRevoked
  split
  · exact .kept hstatus hid
  · split
    · exact .cleared rfl
    · exact .kept hstatus hid

theorem follows_call {c : Call} (ht : s.call c = some t) : Follows s m t := by
  cases c with
  | bootstrap =>
    cases ht
    unfold AuthStore.bootstrap
    split
    · exact .kept rfl rfl
    · exact follows_refresh (u := { s with isBootstrapped := true }) rfl rfl
  | refresh =>
    cases ht
    exact follows_refresh rfl rfl
  | ensureUser =>
    cases ht
    exact follows_ensureUser rfl rfl
  | handleServerAllSessionsRevoked expected =>
    cases ht
    exact follows_handle _ rfl rfl
  | createCurrentUserPresentationSync =>
    simp only [AuthStore.call] at ht
    split at ht
    · split at ht <;> cases ht <;> exact .kept rfl rfl
    · cases ht
      exact .kept rfl rfl
  | sync number p =>
    simp only [AuthStore.call] at ht
    split at ht
    · cases ht
      unfold AuthStore.sync
      split
      · split <;> exact .kept rfl rfl
      · exact .kept rfl rfl
    · cases ht
  | _ =>
    cases ht
    exact .kept rfl rfl

theorem follows_settle {r : Response} (ho : s.operation o.number = some o)
    (ht : s.settle o r = some t) : Follows s (.settle o.number r) t := by
  unfold AuthStore.settle at ht
  split at ht
  · cases ht
    exact fun _ => .inr ⟨rfl, rfl⟩
  · cases ht
    exact .kept rfl rfl
  · cases ht
    exact follows_endSession _ _ rfl rfl
  · cases ht
    exact follows_endSession _ _ rfl rfl
  · rename_i flight token _
    cases ht
    unfold AuthStore.refreshSucceeded
    by_cases hkey : s.key = o.key
    · rw [if_pos (show (s.settled o.number).key = o.key from hkey)]
      unfold AuthStore.refreshApplied
      by_cases hs : s.status = .authenticated
      · rw [if_pos (show (s.settled o.number).status = .authenticated from hs)]
        refine fun _ => .inl ⟨hs, fun id hid => ?_⟩
        simp [AuthStore.notify, AuthStore.settled, hid]
      · rw [if_neg (show ¬ (s.settled o.number).status = .authenticated from hs)]
        exact fun _ => .inr
          ⟨by simp [newIdentity, ho, hkey, hs, AuthStore.notify, AuthStore.enter], rfl⟩
    · rw [if_neg (show ¬ (s.settled o.number).key = o.key from hkey)]
      exact .kept rfl rfl
  · cases ht
    unfold AuthStore.refreshRejected
    split
    · exact .cleared rfl
    · exact .kept rfl rfl
  · cases ht
    split <;> exact .kept rfl rfl
  · cases ht
    exact .kept rfl rfl
  · cases ht
    exact follows_endSession _ _ rfl rfl
  · cases ht
    exact .kept rfl rfl
  · cases ht
    exact .kept rfl rfl
  · cases ht
    exact follows_handle _ rfl rfl
  · cases ht
    exact .kept rfl rfl
  · cases ht
    exact follows_ensureUser rfl rfl
  · cases ht

theorem follows_afterNotify (f : Frame) (frames : List Frame) :
    Follows s .resume ({ s with frames }.afterNotify f) := by
  cases f with
  | refreshed flight appliedKey token authSessionId =>
    simp only [AuthStore.afterNotify]
    split <;> exact .kept rfl rfl
  | busRefresh appliedKey =>
    simp only [AuthStore.afterNotify]
    split
    · exact follows_ensureUser rfl rfl
    · exact .kept rfl rfl
  | _ => exact .kept rfl rfl

theorem follows_deliver (payload : Val) : Follows s (.deliver payload) (s.deliver payload) := by
  unfold AuthStore.deliver
  cases hread : readBus payload with
  | none => exact .kept rfl rfl
  | some e =>
    cases e with
    | login token user authSessionId =>
      exact fun _ => .inr
        ⟨by simp [newIdentity, hread, AuthStore.notify, AuthStore.signIn, AuthStore.enter], rfl⟩
    | refresh token authSessionId =>
      simp only
      split
      · next hunknown =>
        exact fun _ => .inr
          ⟨by simp [newIdentity, hread, AuthStore.notify, AuthStore.enter, hunknown.1], rfl⟩
      · split
        · next hsame => exact fun _ => .inl ⟨hsame.1, fun _ hid => hid⟩
        · exact .kept rfl rfl
    | ended authSessionId =>
      simp only
      split
      · exact .cleared rfl
      · exact .kept rfl rfl

/-- **What a move does to who is signed in.** -/
theorem follows_step (ht : s.step m = some t) : Follows s m t := by
  cases m with
  | call c => exact follows_call ht
  | resume =>
    simp only [AuthStore.step] at ht
    split at ht
    · cases ht
      exact follows_afterNotify _ _
    · cases ht
  | settle number r =>
    simp only [AuthStore.step] at ht
    split at ht
    · obtain ⟨o, ho, hsettle⟩ := bind_eq_some_iff.mp ht
      obtain ⟨-, rfl⟩ := AuthStore.operation_some ho
      exact follows_settle ho hsettle
    · cases ht
  | fire =>
    simp only [AuthStore.step] at ht
    split at ht
    · cases ht
      exact follows_refresh rfl rfl
    · cases ht
  | deliver payload =>
    simp only [AuthStore.step] at ht
    split at ht
    · cases ht
      exact follows_deliver payload
    · cases ht

end RagQs.Auth
