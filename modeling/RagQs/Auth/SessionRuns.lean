import RagQs.Auth.SessionProof
import RagQs.Machine.Run

/-!
# The session of a browser tab, in every run

However calls, responses, messages and listeners interleave, the fields of the store agree, a timer
is set while somebody is signed in, one refresh is in flight for a lifecycle, and what comes late
disturbs nothing, as long as no listener ends a login it is told of and no login takes an identity
that is about to be ended.

## Main definitions

* `Undisturbed` — what is asked of the store.

## Main results

* `Sound.late` — a response after the lifecycle its operation was started in.
* `session_undisturbed` — the store in every run.
* `timer_without_session` — a run after which a timer is set while nobody is signed in.
-/

namespace RagQs.Auth

open Machine

variable {s t : AuthStore} {m : Move} {o : Operation} {ms : List Move}

/-- The operation whose completion a move is. -/
def completes (s : AuthStore) : Move → Option Operation
  | .settle number _ => s.operation number
  | .call (.sync number _) => s.operation number
  | _ => none

/-- What everybody sees is as it was. -/
def SameSession (s t : AuthStore) : Prop :=
  t.status = s.status ∧ t.token = s.token ∧ t.user = s.user ∧ t.refreshTimer = s.refreshTimer

/-- What is asked of the store in a run. -/
structure Undisturbed (ms : List Move) : Prop where
  /-- Between calls somebody is signed in when there are a token and an identity. -/
  signedIn : ∀ s, Reaches AuthStore.step {} ms s → s.frames = [] →
    (s.status = .authenticated ↔ s.token.isSome = true ∧ s.authSessionId.isSome = true)
  /-- Between calls the timer is set while somebody is signed in. -/
  timer : ∀ s, Reaches AuthStore.step {} ms s → s.frames = [] →
    (s.refreshTimer.isSome = true ↔ s.status = .authenticated)
  /-- The refresh of a timer that has fired is in flight. -/
  fired : ∀ s, Reaches AuthStore.step {} ms s → s.frames = [] → s.refreshTimer = some false →
    ∃ o ∈ s.operations, ∃ flight, o.Refreshes flight ∧ o.key = s.key
  /-- One refresh at most is in flight for a lifecycle. -/
  single : ∀ s, Reaches AuthStore.step {} ms s → ∀ o ∈ s.operations, ∀ o' ∈ s.operations,
    ∀ flight flight', o.Refreshes flight → o'.Refreshes flight' → o.key = o'.key → o = o'
  /-- What was started in another lifecycle changes nothing when it completes, unless it is a
  login. -/
  late : ∀ m s t o, At AuthStore.step {} ms m s t → completes s m = some o →
    o.pending ≠ .login → o.key ≠ s.key → SameSession s t

theorem SameSession.refl (s : AuthStore) : SameSession s s := ⟨rfl, rfl, rfl, rfl⟩

theorem Sound.late_end (h : Sound s) (ho : o ∈ s.operations) (hkey : o.key ≠ s.key)
    (message : String → BusMessage) :
    SameSession s ((s.settled o.number).endSession o.pending.initiated message) := by
  unfold AuthStore.endSession
  cases hid : o.pending.initiated with
  | none =>
    simp only
    split
    · next hnone =>
      -- a lifecycle has ended since, so that nobody is signed in
      have hok := h.operations.each o ho
      have hnone : s.key.authSessionId = none := hnone
      have hs : s.status ≠ .authenticated := fun hs => by
        have := (h.fields.signedIn hs).2
        simp [hnone] at this
      obtain ⟨htoken, huser, -⟩ := h.fields.signedOut hs
      have hstatus : s.status = .unauthenticated := by
        cases hst : s.status with
        | unknown =>
          have hzero := h.fields.unknown hst
          have hle := hok.epoch
          exact absurd (hok.same (by omega)) hkey
        | authenticated => exact absurd hst hs
        | unauthenticated => rfl
      exact ⟨hstatus.symm, htoken.symm, huser.symm, (h.timer.off hs).symm⟩
    · exact .refl s
  | some id =>
    simp only
    split
    · next hsame => exact absurd ((h.operations.each o ho).initiated id hid hsame) hkey
    · exact .refl s

theorem sameSession_ensureUser : SameSession s s.ensureUser := by
  unfold AuthStore.ensureUser
  split
  · exact .refl s
  · exact .refl s

/-- **A response after the lifecycle its operation was started in.** -/
theorem Sound.late {r : Response} (h : Sound s) (ho : o ∈ s.operations) (hkey : o.key ≠ s.key)
    (hlogin : o.pending ≠ .login) (ht : s.settle o r = some t) : SameSession s t := by
  have hend := h.late_end ho hkey
  unfold AuthStore.settle at ht
  split at ht
  · rename_i hp
    exact absurd hp hlogin
  · rename_i hp
    exact absurd hp hlogin
  · rename_i hp
    cases ht
    rw [hp] at hend
    exact hend _
  · rename_i hp
    cases ht
    rw [hp] at hend
    exact hend _
  · cases ht
    unfold AuthStore.refreshSucceeded
    rw [if_neg (show ¬ (s.settled o.number).key = o.key from hkey.symm)]
    exact .refl s
  · cases ht
    unfold AuthStore.refreshRejected
    rw [if_neg (show ¬ (s.settled o.number).key = o.key from hkey.symm)]
    exact .refl s
  · cases ht
    rw [if_neg fun heq => hkey ?_]
    · exact .refl s
    · exact (of_decide_eq_true (Bool.and_eq_true_iff.mp heq).2).symm
  · cases ht
    exact .refl s
  · rename_i hp
    cases ht
    rw [hp] at hend
    exact hend _
  · cases ht
    exact .refl s
  · cases ht
    exact .refl s
  · rename_i initiated hp
    cases ht
    unfold AuthStore.handleServerAllSessionsRevoked
    rw [hp] at hend
    cases initiated with
    | none => exact .refl s
    | some id => exact hend .sessionsRevokedAll
  · cases ht
    exact .refl s
  · cases ht
    exact sameSession_ensureUser
  · cases ht

theorem Sound.late_sync {userId : String} {sessionInstance : ℕ} {p : Patch} (h : Sound s)
    (ho : o ∈ s.operations) (hkey : o.key ≠ s.key)
    (hp : o.pending = .presentation userId sessionInstance) :
    s.sync userId sessionInstance p = s := by
  have hok := h.operations.each o ho
  unfold AuthStore.sync
  split
  · rw [if_neg]
    rintro ⟨-, -, hinstance, -⟩
    refine hkey (hok.same ?_)
    rw [← hok.presentation _ _ hp, ← hinstance, h.fields.counted]
  · rfl

theorem sound_start : Sound {} where
  fields := ⟨by simp, fun _ => ⟨rfl, rfl, rfl⟩, fun _ => rfl, rfl⟩
  operations := ⟨by simp, List.nodup_nil⟩
  flights := ⟨by simp, by simp, by simp, by simp⟩
  timer := ⟨fun _ => rfl, by simp, by simp⟩

/-- **The store in every run** of fair moves. -/
theorem session_undisturbed (h : Moves AuthStore.step Fair {} ms) : Undisturbed ms := by
  have hstep : ∀ s m t, Sound s → Fair s m → AuthStore.step s m = some t → Sound t :=
    fun _ _ _ hs hm ht => hs.step hm ht
  have hreach : ∀ {s}, Reaches AuthStore.step {} ms s → Sound s :=
    fun hs => reaches_preserves hstep sound_start h hs
  refine ⟨fun s hs _ => ⟨(hreach hs).fields.signedIn, fun hsome => ?_⟩,
    fun s hs hframes => ⟨?_, ?_⟩,
    fun s hs hframes hfired => ?_, fun s hs => (hreach hs).flights.single,
    fun m s t o hat ho hlogin hkey => ?_⟩
  · by_contra hout
    have hnone := ((hreach hs).fields.signedOut hout).1
    rw [hnone] at hsome
    cases hsome.1
  · intro hset
    by_contra hout
    rw [(hreach hs).timer.off hout] at hset
    cases hset
  · intro hin
    refine ((hreach hs).timer.on hin).resolve_right ?_
    rintro ⟨f, hf, -⟩
    rw [hframes] at hf
    cases hf
  · refine ((hreach hs).timer.fired hfired).resolve_right ?_
    rintro ⟨f, hf, -⟩
    rw [hframes] at hf
    cases hf
  · have hsound := (at_preserves hstep sound_start h hat).1
    obtain ⟨ms₁, -, -, hm⟩ := hat
    cases m with
    | settle number r =>
      simp only [AuthStore.step] at hm
      split at hm
      · obtain ⟨o', ho', hsettle⟩ := Option.bind_eq_some_iff.mp hm
        obtain rfl := Option.some.inj (ho'.symm.trans ho)
        exact hsound.late (AuthStore.operation_some ho').1 hkey hlogin hsettle
      · cases hm
    | call c =>
      cases c with
      | sync number p =>
        obtain ⟨hmem, -⟩ := AuthStore.operation_some ho
        have hm : s.call (.sync number p) = some t := hm
        simp only [AuthStore.call, show s.operation number = some o from ho] at hm
        split at hm
        · rename_i heq
          obtain rfl := Option.some.inj heq
          obtain rfl := Option.some.inj hm
          rw [hsound.late_sync hmem hkey rfl]
          exact .refl s
        · cases hm
      | _ => cases ho
    | _ => cases ho

/-! ### Runs that can be checked -/

/-- The test of fairness. -/
def fairMove (s : AuthStore) (m : Move) : Bool :=
  (match m, s.frames with
    | .resume, .busLogin :: _ => s.status = .authenticated
    | .resume, .login _ _ :: _ => s.status = .authenticated
    | _, _ => true) &&
  match newIdentity s m with
  | some id => s.operations.all fun o => o.pending.initiated ≠ some id
  | none => true

theorem fair_of_fairMove (h : fairMove s m = true) : Fair s m := by
  obtain ⟨hstays, hnew⟩ := Bool.and_eq_true_iff.mp h
  refine ⟨fun hm f frames hframes hf => ?_, fun id hid o ho => ?_⟩
  · subst hm
    rw [hframes] at hstays
    rcases hf with rfl | ⟨token, user, rfl⟩
    · exact of_decide_eq_true hstays
    · exact of_decide_eq_true hstays
  · rw [hid] at hnew
    exact of_decide_eq_true (List.all_eq_true.mp hnew o ho)

/-- A user. -/
def sampleUser : User where
  id := "u"
  username := "a"
  displayName := "A"
  realName := "A"
  department := .null
  role := "user"
  avatarUrl := none

/-- A login.  Its timer fires, and while the refresh is in flight the user logs out. -/
def loggedOut : List Move :=
  [.call .login, .settle 0 (.loggedIn "t₁" sampleUser), .resume, .fire, .call .logout,
    .settle 2 .done, .resume, .settle 1 (.refreshed "t₂")]

theorem session_undisturbed_sample : Undisturbed loggedOut ∧
    (run AuthStore.step {} loggedOut).map (fun s => (s.status, s.token)) =
      some (.unauthenticated, none) := by
  have hfair : checks AuthStore.step fairMove {} loggedOut = true := by
    decide +kernel
  exact ⟨session_undisturbed (moves_of_checks (fun _ _ => fair_of_fairMove) hfair),
    by decide +kernel⟩

/-- A listener of a login does what follows the revocation of all sessions. -/
def endedByListener : List Move :=
  [.call .login, .settle 0 (.loggedIn "t₁" sampleUser),
    .call (.handleServerAllSessionsRevoked none), .resume, .resume]

theorem timer_without_session : ¬ ∀ ms, Undisturbed ms := by
  intro h
  have hrun : (run AuthStore.step {} endedByListener).map
      (fun s => (s.status, s.refreshTimer, s.frames.isEmpty)) =
      some (.unauthenticated, some true, true) := by
    decide +kernel
  obtain ⟨s, hs, hvals⟩ := Option.map_eq_some_iff.mp hrun
  simp only [Prod.mk.injEq] at hvals
  obtain ⟨hstatus, htimer, hframes⟩ := hvals
  have hset := ((h endedByListener).timer s ⟨_, List.prefix_rfl, hs⟩ (by simpa using hframes)).mp
    (by rw [htimer]; rfl)
  rw [hstatus] at hset
  cases hset

end RagQs.Auth
