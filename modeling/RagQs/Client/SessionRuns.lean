import RagQs.Client.Fold
import RagQs.Client.SessionProof

/-!
# A generation session never goes silent

When nothing is under way any longer, the view says that the session is over; the question is sent
a bounded number of times, and a stop that was accepted holds.

## Main definitions

* `Tries` — the invariant of the question.
* `NeverSilent` — what is asked of a session.

## Main results

* `session_never_silent` — the session in every run of smooth moves.
* `stop_goes_silent` — a run after which nobody listens for the end of a stop.
-/

namespace RagQs.Client

open Machine List

/-- The view says that the session is over, or that it could not be reached again. -/
def Settled (s : Session) : Prop :=
  s.view.terminal ≠ none ∨ s.view.requestError ≠ none ∨
    s.view.authFailed = true ∧ s.refreshFailed = true ∨
    s.view.phase = .reconnectFailed ∧ s.view.stopRequested = false

/-- No stream, timer or request is pending. -/
structure Idle (s : Session) : Prop where
  main : s.main = .done
  stops : s.stops = []
  listeners : s.listeners = []
  floating : s.floating = []

/-- The request of the first stream. -/
def LaunchMode.request (idempotencyKey : String) : LaunchMode → Request
  | .ask conversationId body => .ask conversationId body idempotencyKey
  | .retry failedGenerationId => .retry failedGenerationId idempotencyKey
  | .recover _ generationId lastEventId => .events generationId lastEventId

/-- How often the question has been sent. -/
def triesSent (sent : List Request) : ℕ := sent.countP Request.isInitial

/-- What is asked of a session. -/
structure NeverSilent (config : Config) (mode : LaunchMode) (key : String) (s₀ : Session)
    (ms : List Move) : Prop where
  settled : ∀ s, Reaches Session.step s₀ ms s → s.disposed = false → Idle s → Settled s
  tries : ∀ s, Reaches Session.step s₀ ms s → triesSent s.sent ≤ config.preStartMaxRetries + 1
  same : ∀ s, Reaches Session.step s₀ ms s → ∀ r ∈ s.sent, r.isInitial = true →
    r = mode.request key
  sticks : ∀ s, Reaches Session.step s₀ ms s → s.stopAccepted = true →
    s.view.phase ≠ .connecting ∧ s.view.phase ≠ .running ∧ s.view.phase ≠ .reconnecting
  stops : ∀ s, Reaches Session.step s₀ ms s → stopsSent s.sent ≤ 2

variable {s t u : Session} {w : Reading} {m : Move} {config : Config} {mode : LaunchMode}
  {key : String} {f : Failure}

/-! ### The tries -/

/-- How often the question may have been sent, with so many attempts counted. -/
def Budget (limit attempts tries : ℕ) : Main → Prop
  | .initial _ => tries ≤ attempts + 1 ∧ attempts ≤ limit
  | .refresh .initial => tries ≤ attempts + 1 ∧ attempts ≤ limit
  | .refreshed .initial _ => tries ≤ attempts + 1 ∧ attempts ≤ limit
  | .initialSleep => tries ≤ attempts ∧ attempts ≤ limit
  | _ => tries ≤ limit + 1

/-- The question is the one the session was launched with, and is not sent too often. -/
structure Tries (config : Config) (mode : LaunchMode) (key : String) (s : Session) : Prop where
  config_eq : s.config = config
  mode_eq : s.mode = mode
  key_eq : s.idempotencyKey = key
  same : ∀ r ∈ s.sent, r.isInitial = true → r = mode.request key
  budget : Budget config.preStartMaxRetries s.preStartAttempts (triesSent s.sent) s.main

/-- The question is not sent again. -/
structure Late (s t : Session) : Prop where
  config : t.config = s.config
  mode : t.mode = s.mode
  key : t.idempotencyKey = s.idempotencyKey
  attempts : t.preStartAttempts = s.preStartAttempts
  main : t.main = s.main ∨ t.main.kind ≠ .initial
  sent : ∃ l, t.sent = s.sent ++ l ∧ ∀ r ∈ l, r.isInitial = false

theorem Late.refl (s : Session) : Late s s :=
  ⟨rfl, rfl, rfl, rfl, .inl rfl, [], (append_nil _).symm, (by simp)⟩

theorem Late.trans (h : Late s t) (h' : Late t u) : Late s u where
  config := h'.config.trans h.config
  mode := h'.mode.trans h.mode
  key := h'.key.trans h.key
  attempts := h'.attempts.trans h.attempts
  main := by
    rcases h'.main with heq | hkind
    · rw [heq]
      exact h.main
    · exact .inr hkind
  sent := by
    obtain ⟨l, hl, hlate⟩ := h.sent
    obtain ⟨l', hl', hlate'⟩ := h'.sent
    refine ⟨l ++ l', by rw [hl', hl, append_assoc], fun r hr => ?_⟩
    exact (mem_append.mp hr).elim (hlate r) (hlate' r)

theorem frame_late : Frame Late where
  refl := .refl
  trans := .trans
  view s _ _ _ := ⟨rfl, rfl, rfl, rfl, .inl rfl, [], (append_nil _).symm, nofun⟩
  main _ _ _ hmain := ⟨rfl, rfl, rfl, rfl, .inr hmain, [], (append_nil _).symm, nofun⟩
  reconnect _ _ _ := ⟨rfl, rfl, rfl, rfl, .inl rfl, [], (append_nil _).symm, nofun⟩
  stop _ _ _ _ _ := ⟨rfl, rfl, rfl, rfl, .inl rfl, [], (append_nil _).symm, nofun⟩
  sends _ generationId := ⟨rfl, rfl, rfl, rfl, .inl rfl, [.stop generationId], rfl,
    by simp [Request.isInitial]⟩
  beside _ _ _ := ⟨rfl, rfl, rfl, rfl, .inl rfl, [], (append_nil _).symm, nofun⟩
  opens s generationId := ⟨rfl, rfl, rfl, rfl, .inl rfl, [.events generationId s.lastEventId], rfl,
    by simp [Request.isInitial]⟩
  closes _ _ := ⟨rfl, rfl, rfl, rfl, .inl rfl, [], (append_nil _).symm, nofun⟩

theorem Budget.le {limit attempts tries : ℕ} {main : Main} (h : Budget limit attempts tries main) :
    tries ≤ limit + 1 := by
  cases main with
  | initial k => exact h.1.trans (Nat.succ_le_succ h.2)
  | initialSleep => exact (h.1.trans h.2).trans (Nat.le_succ _)
  | refresh wait =>
    cases wait with
    | initial => exact h.1.trans (Nat.succ_le_succ h.2)
    | _ => exact h
  | refreshed wait ok =>
    cases wait with
    | initial => exact h.1.trans (Nat.succ_le_succ h.2)
    | _ => exact h
  | _ => exact h

theorem Budget.of_le {limit attempts tries : ℕ} {main : Main} (h : tries ≤ limit + 1)
    (hmain : main.kind ≠ .initial) : Budget limit attempts tries main := by
  cases main with
  | initial k => exact absurd rfl hmain
  | initialSleep => exact absurd rfl hmain
  | refresh wait =>
    cases wait with
    | initial => exact absurd rfl hmain
    | _ => exact h
  | refreshed wait ok =>
    cases wait with
    | initial => exact absurd rfl hmain
    | _ => exact h
  | _ => exact h

theorem Tries.late (h : Tries config mode key s) (ht : Late s t) : Tries config mode key t := by
  obtain ⟨l, hl, hlate⟩ := ht.sent
  have hcount : triesSent t.sent = triesSent s.sent := by
    have hnone : l.countP Request.isInitial = 0 :=
      countP_eq_zero.mpr fun r hr => by simp [hlate r hr]
    rw [triesSent, hl, countP_append, hnone]
    rfl
  refine ⟨ht.config.trans h.config_eq, ht.mode.trans h.mode_eq, ht.key.trans h.key_eq,
    fun r hr hinitial => ?_, ?_⟩
  · rw [hl] at hr
    rcases mem_append.mp hr with hr | hr
    · exact h.same r hr hinitial
    · rw [hlate r hr] at hinitial
      cases hinitial
  · rw [hcount, ht.attempts]
    rcases ht.main with heq | hkind
    · rw [heq]
      exact h.budget
    · exact .of_le h.budget.le hkind

/-- The first driver runs: the question has been sent at most once more than there were attempts. -/
structure Trying (config : Config) (mode : LaunchMode) (key : String) (s : Session) : Prop where
  tries : Tries config mode key s
  main : s.main = .done
  sent : triesSent s.sent ≤ s.preStartAttempts + 1
  attempts : s.preStartAttempts ≤ config.preStartMaxRetries

theorem Trying.retryInitial (h : Trying config mode key s) :
    Tries config mode key s.retryInitial := by
  have hcount : Tries config mode key { s with preStartAttempts := s.preStartAttempts + 1 } := by
    refine ⟨h.tries.config_eq, h.tries.mode_eq, h.tries.key_eq, h.tries.same, ?_⟩
    refine .of_le h.tries.budget.le ?_
    change s.main.kind ≠ .initial
    rw [h.main]
    nofun
  unfold Session.retryInitial
  dsimp only
  split
  · exact hcount.late (frame_late.setRequestError _)
  · next hlimit =>
    unfold Session.sleep
    split
    · exact hcount
    · refine ⟨h.tries.config_eq, h.tries.mode_eq, h.tries.key_eq, h.tries.same, h.sent, ?_⟩
      rw [← h.tries.config_eq]
      exact Nat.le_of_not_lt hlimit

theorem Trying.initialFailed (h : Trying config mode key s) :
    Tries config mode key (s.initialFailed w f) := by
  unfold Session.initialFailed
  split
  · exact h.tries
  · split
    · exact h.tries.late frame_late.enterReconnect
    · split
      · exact h.retryInitial
      · exact ⟨h.tries.config_eq, h.tries.mode_eq, h.tries.key_eq, h.tries.same, h.sent, h.attempts⟩
      · exact h.tries.late (frame_late.setRequestError _)

theorem Trying.initialEnded (h : Trying config mode key s) :
    Tries config mode key (s.initialEnded w) := by
  unfold Session.initialEnded
  split
  · exact h.tries
  · split
    · exact h.tries.late frame_late.enterReconnect
    · exact h.retryInitial

theorem initialRequest_eq (s : Session) :
    s.initialRequest.1 = s.mode.request s.idempotencyKey := by
  unfold Session.initialRequest
  cases s.mode <;> rfl

theorem Trying.initialLoop (h : Trying config mode key s)
    (hsent : triesSent s.sent ≤ s.preStartAttempts) :
    Tries config mode key (s.initialLoop w) := by
  unfold Session.initialLoop
  split
  · exact h.tries
  · have hphase : ∃ v, (if s.view.phase = .stopping then s else s.setPhase .connecting) =
        { s with view := v } := by
      split
      · exact ⟨s.view, rfl⟩
      · exact ⟨_, rfl⟩
    obtain ⟨v, hv⟩ := hphase
    have hview : Tries config mode key { s with view := v } :=
      ⟨h.tries.config_eq, h.tries.mode_eq, h.tries.key_eq, h.tries.same, h.tries.budget⟩
    dsimp only
    rw [hv]
    split
    · have hauth : Trying config mode key ({ s with view := v } : Session).failAuth := by
        unfold Session.failAuth
        split
        · exact ⟨hview, h.main, h.sent, h.attempts⟩
        · exact ⟨⟨hview.config_eq, hview.mode_eq, hview.key_eq, hview.same, hview.budget⟩,
            h.main, h.sent, h.attempts⟩
      exact hauth.initialFailed
    · refine ⟨h.tries.config_eq, h.tries.mode_eq, h.tries.key_eq, fun r hr hinitial => ?_, ?_,
        h.attempts⟩
      · rcases mem_append.mp hr with hr | hr
        · exact h.tries.same r hr hinitial
        · rw [mem_singleton.mp hr, initialRequest_eq]
          change s.mode.request s.idempotencyKey = _
          rw [h.tries.mode_eq, h.tries.key_eq]
      · change triesSent (s.sent ++ [_]) ≤ _
        rw [triesSent, countP_append, countP_singleton, ← triesSent]
        change _ ≤ s.preStartAttempts + 1
        split <;> omega

theorem Tries.trying (h : Tries config mode key s)
    (hsent : triesSent s.sent ≤ s.preStartAttempts + 1)
    (hattempts : s.preStartAttempts ≤ config.preStartMaxRetries) :
    Trying config mode key { s with main := .done } :=
  ⟨⟨h.config_eq, h.mode_eq, h.key_eq, h.same, h.budget.le⟩, rfl, hsent, hattempts⟩

theorem Tries.step (h : Tries config mode key s) (ht : s.step m = some t) :
    Tries config mode key t := by
  have hbudget := h.budget
  have hdone : Late s { s with main := .done } := frame_late.main s .done _ nofun
  unfold Session.step at ht
  split at ht
  · split at ht
    · cases ht
      exact ⟨h.config_eq, h.mode_eq, h.key_eq, h.same, h.budget⟩
    · cases ht
  · next k failure hact =>
    split at ht
    · next hstream =>
      cases ht
      cases hmain : s.main with
      | initial j =>
        rw [hmain] at hbudget
        have htrying := h.trying hbudget.1 hbudget.2
        have hclosed : Trying config mode key (({ s with main := .done } : Session).close k) :=
          ⟨htrying.tries.late (frame_late.closes _ k), rfl, htrying.sent, htrying.attempts⟩
        cases failure with
        | none => exact hclosed.initialEnded
        | some f => exact hclosed.initialFailed
      | reconnect j =>
        refine h.late (hdone.trans ((frame_late.closes _ k).trans ?_))
        cases failure with
        | none => exact frame_late.reconnectEnded
        | some f => exact frame_late.reconnectFailed f
      | _ =>
        rw [hmain] at hstream
        cases hstream
    · split at ht
      · cases ht
        exact h.late ((frame_late.beside s _ _).trans
          ((frame_late.closes _ k).trans frame_late.listenerEnded))
      · split at ht
        · cases ht
          exact h.late ((frame_late.beside s _ _).trans (frame_late.closes _ k))
        · cases ht
  · split at ht
    · next hmain =>
      cases ht
      rw [hmain] at hbudget
      exact (h.trying (hbudget.1.trans (Nat.le_succ _)) hbudget.2).initialLoop hbudget.1
    · cases ht
      exact h.late (hdone.trans frame_late.reconnectLoop)
    · cases ht
  · split at ht
    · next ok _ _ =>
      cases ht
      refine ⟨h.config_eq, h.mode_eq, h.key_eq, h.same, ?_⟩
      change Budget _ s.preStartAttempts (triesSent s.sent) (s.main.endRefresh ok)
      cases hmain : s.main with
      | refresh wait =>
        rw [hmain] at hbudget
        cases wait <;> exact hbudget
      | _ =>
        rw [hmain] at hbudget
        exact hbudget
    · cases ht
  · split at ht
    · next wait ok hmain =>
      cases ht
      rw [hmain] at hbudget
      cases wait with
      | initial =>
        have htrying := h.trying hbudget.1 hbudget.2
        cases ok with
        | true => exact htrying.retryInitial
        | false => exact htrying.tries.late frame_late.failAuth
      | reconnect => exact h.late (hdone.trans (frame_late.resumed (by decide) ok))
      | reconnectAuth => exact h.late (hdone.trans (frame_late.resumed (by decide) ok))
    · cases ht
  · split at ht
    · dsimp only at ht
      split at ht
      · cases ht
        exact h.late ((frame_late.stop s (s.stops.erase .request) _ true _).trans
          frame_late.ensureStopTerminalListener)
      · cases ht
        exact h.late ((frame_late.stop s (s.stops.erase .request) _ _ _).trans
          (frame_late.stopRejected _))
    · cases ht
  · next ok _ =>
    split at ht
    · cases ht
      exact h.late ((frame_late.stop s (s.stops.erase (.refreshed ok)) _ _ _).trans
        (frame_late.stopResumed ok))
    · cases ht
  · cases ht
    exact h.late frame_late.requestStop
  · cases ht
    exact ⟨h.config_eq, h.mode_eq, h.key_eq, h.same, h.budget⟩

/-! ### Every run -/

theorem sound_launch (config : Config) (mode : LaunchMode) (id key : String)
    (hw : w.token.isSome = true) : Sound (launch config mode id key w) := by
  refine Driver.initialLoop ⟨⟨⟨fun _ => ⟨nofun, rfl, rfl, rfl⟩, fun hne => absurd rfl hne,
    fun _ => ⟨rfl, rfl⟩, nofun, nofun, nofun⟩, ⟨fun hne => absurd rfl hne, nofun, nofun,
    fun _ => .inr rfl⟩, ⟨fun _ => ⟨rfl, nofun⟩, fun _ => rfl, .unsent, fun _ => rfl, ?_⟩⟩, rfl,
    nofun⟩ hw rfl rfl
  rintro (hacc | hne)
  · cases hacc
  · exact absurd rfl hne

theorem tries_launch (config : Config) (mode : LaunchMode) (id key : String) (w : Reading) :
    Tries config mode key (launch config mode id key w) :=
  Trying.initialLoop ⟨⟨rfl, rfl, rfl, (by simp), Nat.zero_le _⟩, rfl, Nat.zero_le _, Nat.zero_le _⟩
    (Nat.zero_le _)

theorem Sound.settled (h : Sound s) (hd : s.disposed = false) (hidle : Idle s) : Settled s := by
  rcases h.inv.phase.live hd with (hterminal | herror | hauth) | hlive
  · exact .inl hterminal
  · exact .inr (.inl herror)
  · exact .inr (.inr (.inl ⟨hauth, h.inv.phase.auth hauth⟩))
  · rw [hidle.main, hidle.stops, hidle.listeners, hidle.floating] at hlive
    cases hphase : s.view.phase <;> rw [hphase] at hlive
    case reconnectFailed => exact .inr (.inr (.inr ⟨hphase, hlive⟩))
    case stopping => simp [Live, Main.kind] at hlive
    all_goals cases hlive

theorem Sound.sticks (h : Sound s) (haccepted : s.stopAccepted = true) :
    s.view.phase ≠ .connecting ∧ s.view.phase ≠ .running ∧ s.view.phase ≠ .reconnecting := by
  have hphase : s.view.phase = .completed ∨ s.view.phase = .failed ∨ s.view.phase = .stopped ∨
      s.view.phase = .stopping := by
    rcases h.inv.stop.holds (.inl haccepted) with hterminal | hstopping | ⟨hfailed, -⟩
    · exact (h.inv.phase.final hterminal).imp id (Or.imp id .inl)
    · exact .inr (.inr (.inr hstopping))
    · exact .inr (.inl hfailed)
  rcases hphase with hphase | hphase | hphase | hphase <;> rw [hphase] <;> decide

theorem Stage.le {n : ℕ} {stops : List Stop} {retried : Bool} (h : Stage n stops retried) :
    n ≤ 2 := by
  cases h <;> decide

/-- **A session never goes silent**, in every run of smooth moves. -/
theorem session_never_silent (config : Config) (mode : LaunchMode) (id key : String)
    (hw : w.token.isSome = true) {ms : List Move}
    (h : Moves Session.step (fun s m => StartNumbered m ∧ Smooth s m)
      (launch config mode id key w) ms) :
    NeverSilent config mode key (launch config mode id key w) ms := by
  have hsound : ∀ {s}, Reaches Session.step (launch config mode id key w) ms s → Sound s :=
    fun hs => reaches_preserves (fun _ _ _ hs hm ht => hs.step hm.1 hm.2 ht)
      (sound_launch config mode id key hw) h hs
  have htries : ∀ {s}, Reaches Session.step (launch config mode id key w) ms s →
      Tries config mode key s :=
    fun hs => reaches_preserves (fun _ _ _ hs _ ht => hs.step ht)
      (tries_launch config mode id key w) h hs
  exact
    { settled := fun s hs hd hidle => (hsound hs).settled hd hidle
      tries := fun s hs => (htries hs).budget.le
      same := fun s hs => (htries hs).same
      sticks := fun s hs haccepted => (hsound hs).sticks haccepted
      stops := fun s hs => (hsound hs).inv.stop.stage.le }

/-! ### Runs that can be checked -/

/-- The test of a stop that has still to come to an end. -/
def isStopping (s : Session) : Bool :=
  !s.disposed && s.view.terminal.isNone && !s.view.authFailed && s.view.phase = .stopping

theorem isStopping_of_stopping (h : Stopping s) : isStopping s = true := by
  simp [isStopping, h.disposed, h.terminal, h.auth, h.phase]

/-- A test that smooth moves pass: no stream ends while a stop has still to come to an end. -/
def smoothMove (s : Session) (m : Move) : Bool :=
  m.reading.token.isSome &&
    match m.act with
    | .event _ message => !message.event.isStart || message.id = some 1
    | .requestStop => s.stopIgnored || stopsSent s.sent = 0
    | .ended _ _ => !isStopping s
    | .stopAnswered (some (.api 409 _)) => !isStopping s
    | _ => true

theorem smooth_of_smoothMove (h : smoothMove s m = true) : StartNumbered m ∧ Smooth s m := by
  rw [smoothMove, Bool.and_eq_true] at h
  obtain ⟨htoken, hact⟩ := h
  have hended : ∀ k failure, m.act = .ended k failure → ¬ Stopping s := by
    intro k failure hm hs
    rw [hm, isStopping_of_stopping hs] at hact
    cases hact
  refine ⟨fun k message hm hstart => ?_, htoken, fun hm hignored => ?_,
    fun k failure hm _ => hended k failure hm, fun k f hm _ hs => absurd hs (hended k _ hm),
    fun code hm hs => ?_, fun k failure hm _ hs => absurd hs (hended k failure hm),
    fun k failure hm _ hs => absurd hs (hended k failure hm)⟩
  · rw [hm] at hact
    simpa [hstart] using hact
  · rw [hm] at hact
    simpa [hignored] using hact
  · rw [hm, isStopping_of_stopping hs] at hact
    cases hact

/-- A question that has started. -/
def startedEvent : Move := Act.move (.event 0 ⟨some 1, .start ⟨"g", "m", "q", 1⟩⟩)

/-- The connection breaks off, and the user stops the generation: a new stream brings the end. -/
def stoppedOffline : List Move :=
  [startedEvent, Act.move (.ended 0 (some .network)), Act.move .requestStop,
    Act.move (.stopAnswered none), Act.move (.refreshEnds true), Act.move .resumes,
    Act.move (.event 1 ⟨some 2, .stopped "g" "m" .manualRequest⟩), Act.move (.ended 1 none)]

theorem session_never_silent_sample :
    NeverSilent {} (.ask "c" .null) "k" (launch {} (.ask "c" .null) "p" "k" sampleReading)
      stoppedOffline ∧
      (run Session.step (launch {} (.ask "c" .null) "p" "k" sampleReading) stoppedOffline).map
        (fun s => (s.main, s.stops, s.listeners, s.view.phase)) =
        some (.done, [], [], .stopped) := by
  have hsmooth : checks Session.step smoothMove
      (launch {} (.ask "c" .null) "p" "k" sampleReading) stoppedOffline = true := by
    decide +kernel
  exact ⟨session_never_silent {} _ "p" "k" rfl
    (moves_of_checks (fun _ _ => smooth_of_smoothMove) hsmooth), by decide +kernel⟩

/-- The connection breaks off, the stop fails too, and the stream that is opened then ends. -/
def stopUnheard : List Move :=
  [startedEvent, Act.move (.ended 0 (some .network)), Act.move .requestStop,
    Act.move (.stopAnswered (some .network)), Act.move (.refreshEnds true), Act.move .resumes,
    Act.move (.ended 1 none)]

theorem numbered_stopUnheard : checks Session.step (fun _ m =>
    match m.act with
    | .event _ message => message.id = some 1
    | _ => true) (launch {} (.ask "c" .null) "p" "k" sampleReading) stopUnheard = true := by
  decide +kernel

theorem stop_goes_silent : ¬ ∀ config mode id key w ms,
    Moves Session.step (fun _ m => StartNumbered m) (launch config mode id key w) ms →
      NeverSilent config mode key (launch config mode id key w) ms := by
  intro h
  let s₀ := launch {} (.ask "c" .null) "p" "k" sampleReading
  have hrun : (run Session.step s₀ stopUnheard).map (fun s =>
      decide (s.main = .done ∧ s.stops = [] ∧ s.listeners = [] ∧ s.floating = [] ∧
        s.disposed = false ∧ s.view.phase = .stopping) &&
      s.view.terminal.isNone && s.view.requestError.isNone && !s.view.authFailed) =
      some true := by
    decide +kernel
  obtain ⟨s, hs, hvals⟩ := Option.map_eq_some_iff.mp hrun
  simp only [Bool.and_eq_true, decide_eq_true_eq, Bool.not_eq_true', Option.isNone_iff_eq_none]
    at hvals
  obtain ⟨⟨⟨⟨hmain, hstops, hlisteners, hfloating, hd, hphase⟩, hterminal⟩, herror⟩, hauth⟩ := hvals
  have hnever := h {} (.ask "c" .null) "p" "k" sampleReading stopUnheard
    (moves_of_checks (fun _ m hm k message hact _ => by
      rw [hact] at hm
      exact of_decide_eq_true hm) numbered_stopUnheard)
  rcases hnever.settled s ⟨_, List.prefix_rfl, hs⟩ hd ⟨hmain, hstops, hlisteners, hfloating⟩ with
    hne | hne | ⟨hne, -⟩ | ⟨hne, -⟩
  · exact hne hterminal
  · exact hne herror
  · cases hauth.symm.trans hne
  · cases hphase.symm.trans hne

end RagQs.Client
