import RagQs.Client.Frame
import RagQs.Machine.Run
import Mathlib.Data.List.Perm.Subperm

/-!
# Every event of a generation is applied once

The streams of a session overlap, repeat events and break off.  What is shown is the fold of the
handlers over the events of the server up to the highest number that was delivered.

## Main definitions

* `ServerLog`, `Serves` — the events of the server, and streams that deliver them.
* `Applying` — the invariant.
* `Folds`, `AppliedOnce` — what is asked of a session.

## Main results

* `events_applied_once` — the session in every run.
* `recovery_skips_events` — a recovery from a later event does not show the earlier ones.
-/

namespace RagQs.Client

open Machine List

/-- An event of the server, with its number. -/
abbrev Logged := ℕ × GenerationEvent

/-- The event as a stream delivers it. -/
def Logged.message (e : Logged) : SseEventMessage := ⟨some e.1, e.2⟩

/-- The events of a generation: their numbers increase, the first is the start, and one that ends
the generation is the last. -/
structure ServerLog (log : List Logged) : Prop where
  positive : ∀ e ∈ log, 0 < e.1
  increasing : log.Pairwise fun e e' => e.1 < e'.1
  startFirst : ∀ e rest, log = e :: rest → e.2.isStart = true ∧ ∀ e' ∈ rest, e'.2.isStart = false
  terminalLast : ∀ e ∈ log, e.2.isTerminal = true → ∀ e' ∈ log, e'.1 ≤ e.1

/-- A stream goes on along the log; it has begun at an event that is not after the first one it
was opened for. -/
def Serves (log : List Logged) (s : Session) (m : Move) : Prop :=
  ∀ k message, m.act = .event k message → ∀ st ∈ s.streams, st.number = k →
    ∃ before e after, log = before ++ e :: after ∧ message = e.message ∧
      ∃ skipped sent, before = skipped ++ sent ∧ st.delivered = sent.map Logged.message ∧
        ∀ e ∈ skipped, e.1 ≤ st.lastEventId.getD 0

/-- The highest number that was delivered. -/
def highestNumber (received : List SseEventMessage) : ℕ :=
  (received.filterMap SseEventMessage.id).foldl max 0

/-- The fold of the handlers. -/
def fold (c : Content) (events : List Logged) : Content :=
  (events.map Prod.snd).foldl Content.handle c

/-- The event number that a session is launched from. -/
def LaunchMode.lastEventId : LaunchMode → Option ℕ
  | .recover _ _ lastEventId => lastEventId
  | _ => none

/-- The session shows the fold over the events up to the highest number that was delivered, where
those that it was launched after may be missing. -/
structure Folds (log : List Logged) (c : Content) (mode : LaunchMode) (s : Session) : Prop where
  highest : s.view.appliedSeq = highestNumber s.received
  all : mode.lastEventId = none →
    s.view.toContent = fold c (log.filter fun e => e.1 ≤ s.view.appliedSeq)
  later : ∃ applied, applied.Sublist (log.filter fun e => e.1 ≤ s.view.appliedSeq) ∧
    (∀ e ∈ log, mode.lastEventId.getD 0 < e.1 → e.1 ≤ s.view.appliedSeq → e ∈ applied) ∧
    s.view.toContent = fold c applied

/-- What is asked of a session. -/
structure AppliedOnce (log : List Logged) (c : Content) (mode : LaunchMode) (s₀ : Session)
    (ms : List Move) : Prop where
  folds : ∀ s, Reaches Session.step s₀ ms s → Folds log c mode s
  grows : ∀ m s t, At Session.step s₀ ms m s t → s.view.appliedSeq ≤ t.view.appliedSeq
  final : ∀ m s t, At Session.step s₀ ms m s t → s.view.terminal.isSome = true →
    t.view.toContent = s.view.toContent

variable {s t u : Session} {w : Reading} {log : List Logged} {c : Content} {mode : LaunchMode}
  {m : Move} {k : ℕ}

/-! ### What the drivers leave alone -/

/-- A stream that has been opened for what comes next. -/
def Stream.Fresh (s : Session) (st : Stream) : Prop :=
  st.delivered = [] ∧ (st.lastEventId = s.lastEventId ∨ st.lastEventId = s.mode.lastEventId)

/-- Nothing is applied or delivered, and streams are at most closed or opened. -/
structure Drives (s t : Session) : Prop where
  content : t.view.toContent = s.view.toContent
  appliedSeq : t.view.appliedSeq = s.view.appliedSeq
  mode : t.mode = s.mode
  received : t.received = s.received
  streams : ∀ st ∈ t.streams, st ∈ s.streams ∨ st.Fresh s

theorem Drives.refl (s : Session) : Drives s s := ⟨rfl, rfl, rfl, rfl, fun _ h => .inl h⟩

theorem Drives.trans (h : Drives s t) (h' : Drives t u) : Drives s u where
  content := h'.content.trans h.content
  appliedSeq := h'.appliedSeq.trans h.appliedSeq
  mode := h'.mode.trans h.mode
  received := h'.received.trans h.received
  streams st hst := by
    rcases h'.streams st hst with hst | ⟨hnew, hlast⟩
    · exact h.streams st hst
    · refine .inr ⟨hnew, ?_⟩
      rwa [Session.lastEventId, h.appliedSeq, h.mode] at hlast

theorem Drives.same (hcontent : t.view.toContent = s.view.toContent)
    (happlied : t.view.appliedSeq = s.view.appliedSeq) (hmode : t.mode = s.mode)
    (hreceived : t.received = s.received) (hstreams : t.streams = s.streams) : Drives s t :=
  ⟨hcontent, happlied, hmode, hreceived, fun _ h => .inl (hstreams ▸ h)⟩

theorem Drives.following (h : Drives u t) (hcontent : u.view.toContent = s.view.toContent)
    (happlied : u.view.appliedSeq = s.view.appliedSeq) (hmode : u.mode = s.mode)
    (hreceived : u.received = s.received) (hstreams : u.streams = s.streams) : Drives s t :=
  (Drives.same hcontent happlied hmode hreceived hstreams).trans h

theorem Drives.awaiting (h : Drives s t) (main : Main) : Drives s { t with main } :=
  ⟨h.content, h.appliedSeq, h.mode, h.received, h.streams⟩

theorem drives_openStream {r : Request} {lastEventId : Option ℕ}
    (hlast : lastEventId = s.lastEventId ∨ lastEventId = s.mode.lastEventId) :
    Drives s (s.openStream r lastEventId) where
  content := rfl
  appliedSeq := rfl
  mode := rfl
  received := rfl
  streams st hst := by
    rcases mem_append.mp hst with hst | hst
    · exact .inl hst
    · obtain rfl := mem_singleton.mp hst
      exact .inr ⟨rfl, hlast⟩

theorem frame_drives : Frame Drives where
  refl := .refl
  trans := .trans
  view _ _ hcontent happlied := .same hcontent happlied rfl rfl rfl
  main _ _ _ _ := .same rfl rfl rfl rfl rfl
  reconnect _ _ _ := .same rfl rfl rfl rfl rfl
  stop _ _ _ _ _ := .same rfl rfl rfl rfl rfl
  sends _ _ := .same rfl rfl rfl rfl rfl
  beside _ _ _ := .same rfl rfl rfl rfl rfl
  opens _ _ := drives_openStream (.inl rfl)
  closes _ _ := ⟨rfl, rfl, rfl, rfl, fun _ h => .inl (mem_of_mem_filter h)⟩

theorem drives_retryInitial : Drives s s.retryInitial := by
  unfold Session.retryInitial
  dsimp only
  split
  · exact (frame_drives.setRequestError _).following rfl rfl rfl rfl rfl
  · unfold Session.sleep
    split
    · exact .same rfl rfl rfl rfl rfl
    · exact .same rfl rfl rfl rfl rfl

theorem drives_initialFailed (f : Failure) : Drives s (s.initialFailed w f) := by
  unfold Session.initialFailed
  split
  · exact .refl s
  · split
    · exact frame_drives.enterReconnect
    · split
      · exact drives_retryInitial
      · exact .same rfl rfl rfl rfl rfl
      · exact frame_drives.setRequestError _

theorem drives_initialEnded : Drives s (s.initialEnded w) := by
  unfold Session.initialEnded
  split
  · exact .refl s
  · split
    · exact frame_drives.enterReconnect
    · exact drives_retryInitial

theorem initialRequest_lastEventId (s : Session) : s.initialRequest.2 = s.mode.lastEventId := by
  unfold Session.initialRequest
  cases s.mode <;> rfl

theorem drives_initialLoop : Drives s (s.initialLoop w) := by
  unfold Session.initialLoop
  split
  · exact .refl s
  · have hphase : Drives s (if s.view.phase = .stopping then s else s.setPhase .connecting) := by
      split
      · exact .refl s
      · exact frame_drives.setPhase _
    dsimp only
    split
    · exact hphase.trans (frame_drives.failAuth.trans (drives_initialFailed _))
    · exact (hphase.trans (drives_openStream (.inr (initialRequest_lastEventId _)))).awaiting _

theorem drives_mainEnded (failure : Option Failure) (main : Main) :
    Drives s (s.mainEnded w failure main) := by
  cases main with
  | initial k =>
    cases failure with
    | none => exact drives_initialEnded
    | some f => exact drives_initialFailed f
  | reconnect k =>
    cases failure with
    | none => exact frame_drives.reconnectEnded
    | some f => exact frame_drives.reconnectFailed f
  | _ => exact .refl s

theorem drives_resumed (ok : Bool) (wait : Wait) : Drives s (s.resumed w ok wait) := by
  cases wait with
  | initial =>
    simp only [Session.resumed]
    split
    · exact drives_retryInitial
    · exact frame_drives.failAuth
  | reconnect => exact frame_drives.resumed (by decide) ok
  | reconnectAuth => exact frame_drives.resumed (by decide) ok

theorem drives_step (hm : ∀ k message, m.act ≠ .event k message) (ht : s.step m = some t) :
    Drives s t := by
  obtain ⟨act, w⟩ := m
  unfold Session.step at ht
  cases act with
  | event k message => exact absurd rfl (hm k message)
  | ended k failure =>
    have hclose : ∀ u : Session, Drives u (u.close k) := fun u => frame_drives.closes u k
    simp only at ht
    split at ht
    · cases ht
      exact ((hclose _).trans (drives_mainEnded failure _)).following rfl rfl rfl rfl rfl
    · split at ht
      · cases ht
        exact ((hclose _).trans frame_drives.listenerEnded).following rfl rfl rfl rfl rfl
      · split at ht
        · cases ht
          exact (hclose _).following rfl rfl rfl rfl rfl
        · cases ht
  | fires =>
    simp only at ht
    split at ht
    · cases ht
      exact drives_initialLoop.following rfl rfl rfl rfl rfl
    · cases ht
      exact frame_drives.reconnectLoop.following rfl rfl rfl rfl rfl
    · cases ht
  | refreshEnds ok =>
    simp only at ht
    split at ht
    · cases ht
      exact .same rfl rfl rfl rfl rfl
    · cases ht
  | resumes =>
    simp only at ht
    split at ht
    · cases ht
      exact (drives_resumed _ _).following rfl rfl rfl rfl rfl
    · cases ht
  | stopAnswered failure =>
    simp only at ht
    split at ht
    · split at ht
      · cases ht
        exact frame_drives.ensureStopTerminalListener.following rfl rfl rfl rfl rfl
      · cases ht
        exact (frame_drives.stopRejected _).following rfl rfl rfl rfl rfl
    · cases ht
  | stopResumes ok =>
    simp only at ht
    split at ht
    · cases ht
      exact (frame_drives.stopResumed ok).following rfl rfl rfl rfl rfl
    · cases ht
  | requestStop =>
    cases ht
    exact frame_drives.requestStop
  | dispose =>
    cases ht
    exact .same rfl rfl rfl rfl rfl

/-! ### The invariant -/

/-- What is shown is the fold over the events that have been applied, and every stream is still to
deliver the event that comes next. -/
structure Applying (log : List Logged) (c : Content) (mode : LaunchMode) (s : Session) :
    Prop where
  launched : s.mode = mode
  applied : ∃ applied, applied.Sublist (log.filter fun e => e.1 ≤ s.view.appliedSeq) ∧
    (∀ e ∈ log, mode.lastEventId.getD 0 < e.1 → e.1 ≤ s.view.appliedSeq → e ∈ applied) ∧
    s.view.toContent = fold c applied
  streams : ∀ st ∈ s.streams,
    (st.lastEventId.getD 0 ≤ s.view.appliedSeq ∨ st.lastEventId = mode.lastEventId) ∧
      ∀ message ∈ st.delivered, ∀ n, message.id = some n → n ≤ s.view.appliedSeq
  highest : s.view.appliedSeq = highestNumber s.received

theorem lastEventId_le (s : Session) : s.lastEventId.getD 0 ≤ s.view.appliedSeq := by
  unfold Session.lastEventId
  split
  · exact le_rfl
  · exact Nat.zero_le _

theorem Applying.drives (h : Applying log c mode s) (ht : Drives s t) : Applying log c mode t where
  launched := ht.mode.trans h.launched
  applied := by
    rw [ht.content, ht.appliedSeq]
    exact h.applied
  streams st hst := by
    rw [ht.appliedSeq]
    rcases ht.streams st hst with hst | ⟨hnew, hlast⟩
    · exact h.streams st hst
    · rw [h.launched] at hlast
      refine ⟨hlast.imp (fun hlast => ?_) id, fun message hmessage => ?_⟩
      · rw [hlast]
        exact lastEventId_le s
      · rw [hnew] at hmessage
        cases hmessage
  highest := by
    rw [ht.appliedSeq, ht.received]
    exact h.highest

theorem Applying.terminal (hlog : ServerLog log) (hc : c.terminal = none)
    (h : Applying log c mode s) (hterminal : s.view.terminal ≠ none) :
    ∀ e ∈ log, e.1 ≤ s.view.appliedSeq := by
  obtain ⟨applied, hsub, -, hcontent⟩ := h.applied
  rw [hcontent] at hterminal
  obtain ⟨ev, hev, hends⟩ := Content.terminal_foldl hc hterminal
  obtain ⟨last, hlast, rfl⟩ := mem_map.mp hev
  obtain ⟨hmem, hle⟩ := mem_filter.mp (hsub.subset hlast)
  intro e he
  exact (hlog.terminalLast last hmem hends e he).trans (of_decide_eq_true hle)

theorem highestNumber_append (received : List SseEventMessage) (e : Logged) :
    highestNumber (received ++ [e.message]) = max (highestNumber received) e.1 := by
  simp [highestNumber, filterMap_append, Logged.message]

variable {e : Logged}

theorem View.applyEvent_old {v : View} (h : e.1 ≤ v.appliedSeq) : v.applyEvent e.message = v := by
  unfold View.applyEvent
  split
  · rfl
  · simp only [Logged.message]
    rw [if_pos h]

theorem View.applyEvent_new {v : View} (hterminal : v.terminal = none) (h : v.appliedSeq < e.1) :
    v.applyEvent e.message = { v with appliedSeq := e.1 }.handle e.2 := by
  unfold View.applyEvent
  rw [hterminal]
  simp only [Option.isSome_none, Bool.false_eq_true, if_false, Logged.message]
  rw [if_neg h.not_ge]

theorem fold_append (c : Content) (events : List Logged) (e : Logged) :
    fold c (events ++ [e]) = (fold c events).handle e.2 := by
  simp [fold]

theorem filter_le_append {before after : List Logged} (hlog : ServerLog (before ++ e :: after))
    (n : ℕ) (hn : n < e.1) :
    ((before ++ e :: after).filter fun e' => e'.1 ≤ e.1) = before ++ [e] ∧
      ((before ++ e :: after).filter fun e' => e'.1 ≤ n).Sublist before := by
  have hincreasing := hlog.increasing
  rw [pairwise_append, pairwise_cons] at hincreasing
  obtain ⟨-, ⟨hafter, -⟩, hbefore⟩ := hincreasing
  constructor
  · rw [filter_append, filter_cons_of_pos (by simp),
      filter_eq_self.mpr fun e' he' => ?_, filter_eq_nil_iff.mpr fun e' he' => ?_]
    · have := hafter e' he'
      simpa using this
    · have := hbefore e' he' e mem_cons_self
      simpa using this.le
  · have hnone : (after.filter fun e' => e'.1 ≤ n) = [] := by
      refine filter_eq_nil_iff.mpr fun e' he' => ?_
      have := hafter e' he'
      simp only [decide_eq_true_eq]
      omega
    rw [filter_append, filter_cons_of_neg (by simpa using hn), hnone, append_nil]
    exact filter_sublist

theorem Applying.streams_deliver {n : ℕ} (h : Applying log c mode s) (hn : s.view.appliedSeq ≤ n)
    (he : e.1 ≤ n) :
    ∀ st ∈ (s.deliver k e.message).streams,
      (st.lastEventId.getD 0 ≤ n ∨ st.lastEventId = mode.lastEventId) ∧
        ∀ message ∈ st.delivered, ∀ n', message.id = some n' → n' ≤ n := by
  intro st' hst'
  obtain ⟨st, hst, rfl⟩ := mem_map.mp hst'
  obtain ⟨hlast, hdelivered⟩ := h.streams st hst
  split
  · refine ⟨hlast.imp hn.trans' id, fun message hmessage n' hn' => ?_⟩
    rcases mem_append.mp hmessage with hmessage | hmessage
    · exact (hdelivered message hmessage n' hn').trans hn
    · obtain rfl := mem_singleton.mp hmessage
      cases hn'
      exact he
  · exact ⟨hlast.imp hn.trans' id, fun message hmessage n' hn' =>
      (hdelivered message hmessage n' hn').trans hn⟩

/-- **A stream delivers an event.** -/
theorem Applying.deliver {message : SseEventMessage} (hlog : ServerLog log)
    (hc : c.terminal = none) (h : Applying log c mode s) (hm : m.act = .event k message)
    (hserves : Serves log s m) (hopen : ∃ st ∈ s.streams, st.number = k) :
    Applying log c mode (s.deliver k message) ∧
      s.view.appliedSeq ≤ (s.deliver k message).view.appliedSeq ∧
      (s.view.terminal.isSome = true →
        (s.deliver k message).view.toContent = s.view.toContent) := by
  obtain ⟨st, hst, hk⟩ := hopen
  obtain ⟨before, e, after, rfl, rfl, skipped, sent, rfl, hdelivered, hskipped⟩ :=
    hserves k message hm st hst hk
  have hhighest : highestNumber (s.deliver k e.message).received = max s.view.appliedSeq e.1 := by
    rw [h.highest]
    exact highestNumber_append s.received e
  by_cases hnew : s.view.appliedSeq < e.1
  · have hterminal : s.view.terminal = none := by
      by_contra hne
      have := h.terminal hlog hc hne e (by simp)
      omega
    have hview : (s.deliver k e.message).view =
        { s.view with appliedSeq := e.1 }.handle e.2 := View.applyEvent_new hterminal hnew
    have happlied : (s.deliver k e.message).view.appliedSeq = e.1 := by
      rw [hview]
      rfl
    obtain ⟨applied, hsub, hall, hcontent⟩ := h.applied
    obtain ⟨hupto, hbefore⟩ := filter_le_append hlog s.view.appliedSeq hnew
    refine ⟨⟨h.launched, ⟨applied ++ [e], ?_, fun e' he' hfrom hle => ?_, ?_⟩, ?_, ?_⟩, ?_,
      fun hsome => ?_⟩
    · rw [happlied, hupto]
      exact (hsub.trans hbefore).append (Sublist.refl _)
    · rw [happlied] at hle
      have hmem : e' ∈ (skipped ++ sent) ++ [e] := by
        rw [← hupto]
        exact mem_filter.mpr ⟨he', by simpa using hle⟩
      rcases mem_append.mp hmem with hmem | hmem
      · refine mem_append_left _ (hall e' he' hfrom ?_)
        obtain ⟨hlast, hold⟩ := h.streams st hst
        rcases mem_append.mp hmem with hmem | hmem
        · have hle := hskipped e' hmem
          rcases hlast with hlast | hlast
          · exact hle.trans hlast
          · -- the stream was opened where the session was launched from
            rw [hlast] at hle
            exact absurd hfrom hle.not_gt
        · refine hold e'.message ?_ e'.1 rfl
          rw [hdelivered]
          exact mem_map_of_mem hmem
      · exact mem_append_right _ hmem
    · rw [hview, fold_append, ← hcontent]
      rfl
    · rw [happlied]
      exact h.streams_deliver hnew.le le_rfl
    · rw [happlied, hhighest, max_eq_right hnew.le]
    · rw [happlied]
      exact hnew.le
    · rw [hterminal] at hsome
      cases hsome
  · have hold := Nat.le_of_not_lt hnew
    have hview : (s.deliver k e.message).view = s.view := View.applyEvent_old hold
    refine ⟨⟨h.launched, ?_, ?_, ?_⟩, hview ▸ le_rfl, fun _ => by rw [hview]⟩
    · rw [hview]
      exact h.applied
    · rw [hview]
      exact h.streams_deliver le_rfl hold
    · rw [hview, hhighest, max_eq_left hold]

/-- **What a move preserves.** -/
theorem Applying.step (hlog : ServerLog log) (hc : c.terminal = none) (h : Applying log c mode s)
    (hm : Serves log s m) (ht : s.step m = some t) :
    Applying log c mode t ∧ s.view.appliedSeq ≤ t.view.appliedSeq ∧
      (s.view.terminal.isSome = true → t.view.toContent = s.view.toContent) := by
  by_cases hevent : ∃ k message, m.act = .event k message
  · obtain ⟨k, message, hact⟩ := hevent
    unfold Session.step at ht
    rw [hact] at ht
    simp only at ht
    split at ht
    · next hopen =>
      cases ht
      refine h.deliver hlog hc hact hm ?_
      obtain ⟨st, hst, hk⟩ := any_eq_true.mp hopen.2
      exact ⟨st, hst, of_decide_eq_true hk⟩
    · cases ht
  · have hdrives := drives_step (fun k message hact => hevent ⟨k, message, hact⟩) ht
    exact ⟨h.drives hdrives, hdrives.appliedSeq.ge, fun _ => hdrives.content⟩

/-! ### Every run -/

theorem applying_launch (hlog : ServerLog log) (config : Config) (mode : LaunchMode)
    (id key : String) (w : Reading) :
    Applying log (emptyContent id) mode (launch config mode id key w) := by
  refine .drives ⟨rfl, ⟨[], nil_sublist _, fun e he _ hle => ?_, rfl⟩,
    fun st hst => ?_, rfl⟩ drives_initialLoop
  · exact absurd hle (hlog.positive e he).not_ge
  · cases hst

theorem filter_eq_of_covers {applied : List Logged} {n : ℕ} (hlog : ServerLog log)
    (hsub : applied.Sublist (log.filter fun e => e.1 ≤ n))
    (hall : ∀ e ∈ log, 0 < e.1 → e.1 ≤ n → e ∈ applied) :
    applied = log.filter fun e => e.1 ≤ n := by
  refine hsub.eq_of_length_le ?_
  have hnodup : log.Nodup := hlog.increasing.imp fun h heq => by simp [heq] at h
  refine (subperm_of_subset (hnodup.filter _) fun e he => ?_).length_le
  obtain ⟨hmem, hle⟩ := mem_filter.mp he
  exact hall e hmem (hlog.positive e hmem) (of_decide_eq_true hle)

/-- **Every event is applied once**, in every run of the session with streams that serve the
log. -/
theorem events_applied_once (config : Config) (mode : LaunchMode) (id key : String) (w : Reading)
    {ms : List Move} (hlog : ServerLog log)
    (h : Moves Session.step (Serves log) (launch config mode id key w) ms) :
    AppliedOnce log (emptyContent id) mode (launch config mode id key w) ms := by
  have hstep : ∀ s m t, Applying log (emptyContent id) mode s → Serves log s m →
      Session.step s m = some t → Applying log (emptyContent id) mode t :=
    fun _ _ _ hs hm ht => (hs.step hlog rfl hm ht).1
  have hstart := applying_launch hlog config mode id key w
  refine ⟨fun s hs => ?_, fun m s t hat => ?_, fun m s t hat => ?_⟩
  · have happlying := reaches_preserves hstep hstart h hs
    obtain ⟨applied, hsub, hall, hcontent⟩ := happlying.applied
    refine ⟨happlying.highest, fun hmode => ?_, applied, hsub, hall, hcontent⟩
    rw [hmode] at hall
    rw [hcontent, filter_eq_of_covers hlog hsub hall]
  · obtain ⟨hs, hm⟩ := at_preserves hstep hstart h hat
    obtain ⟨-, -, -, ht⟩ := hat
    exact (hs.step hlog rfl hm ht).2.1
  · obtain ⟨hs, hm⟩ := at_preserves hstep hstart h hat
    obtain ⟨-, -, -, ht⟩ := hat
    exact (hs.step hlog rfl hm ht).2.2

/-! ### Runs that can be checked -/

/-- The two are the same start, stage, piece of text or end. -/
def GenerationEvent.same : GenerationEvent → GenerationEvent → Bool
  | .start d, .start d' => d = d'
  | .stage phase, .stage phase' => phase = phase'
  | .delta candidate content, .delta candidate' content' =>
    candidate = candidate' && content = content'
  | .done generationId messageId, .done generationId' messageId' =>
    generationId = generationId' && messageId = messageId'
  | _, _ => false

theorem GenerationEvent.eq_of_same {e e' : GenerationEvent} (h : e.same e' = true) : e = e' := by
  unfold GenerationEvent.same at h
  split at h <;> simp_all

/-- The messages are those of the events. -/
def delivers : List SseEventMessage → List Logged → Bool
  | [], [] => true
  | message :: messages, e :: events =>
    message.id = some e.1 && message.event.same e.2 && delivers messages events
  | _, _ => false

theorem eq_of_delivers {messages : List SseEventMessage} {events : List Logged}
    (h : delivers messages events = true) : messages = events.map Logged.message := by
  induction messages generalizing events with
  | nil =>
    cases events with
    | nil => rfl
    | cons e events => cases h
  | cons message messages ih =>
    cases events with
    | nil => cases h
    | cons e events =>
      simp only [delivers, Bool.and_eq_true, decide_eq_true_eq] at h
      obtain ⟨⟨hid, hsame⟩, hrest⟩ := h
      rw [map_cons, ← ih hrest, Logged.message, ← hid,
        ← GenerationEvent.eq_of_same hsame]

/-- The test of a stream, which has left out as many events as it may. -/
def servesStream (log : List Logged) (st : Stream) (message : SseEventMessage) : Bool :=
  (range log.length).any fun n =>
    (log.take n).all (fun e => e.1 ≤ st.lastEventId.getD 0) &&
      delivers (st.delivered ++ [message]) ((log.drop n).take (st.delivered.length + 1))

/-- The test of a move. -/
def servesMove (log : List Logged) (s : Session) (m : Move) : Bool :=
  match m.act with
  | .event k message => s.streams.all fun st => st.number ≠ k || servesStream log st message
  | _ => true

theorem serves_of_servesMove (h : servesMove log s m = true) : Serves log s m := by
  intro k message hm st hst hk
  rw [servesMove, hm] at h
  have hstream : servesStream log st message = true := by
    have := all_eq_true.mp h st hst
    simpa [hk] using this
  obtain ⟨n, -, hn⟩ := any_eq_true.mp hstream
  rw [Bool.and_eq_true] at hn
  obtain ⟨hskipped, hdelivers⟩ := hn
  have heq := eq_of_delivers hdelivers
  rw [append_eq_map_iff] at heq
  obtain ⟨sent, last, hsplit, hsent, hlast⟩ := heq
  obtain ⟨e, rfl, hmessage⟩ := map_eq_singleton_iff.mp hlast
  refine ⟨log.take n ++ sent, e, (log.drop n).drop (st.delivered.length + 1), ?_, hmessage.symm,
    log.take n, sent, rfl, hsent.symm, fun e he => ?_⟩
  · have hrest := take_append_drop (st.delivered.length + 1) (log.drop n)
    rw [hsplit] at hrest
    rw [append_assoc, ← singleton_append, ← append_assoc sent, hrest,
      take_append_drop]
  · exact of_decide_eq_true (all_eq_true.mp hskipped e he)

/-- A clock, and a token. -/
def sampleReading : Reading := ⟨0, some "t"⟩

/-- A generation of five events. -/
def sampleLog : List Logged :=
  [(1, .start ⟨"g", "m", "q", 1⟩), (2, .stage .retrieving), (3, .delta ⟨0, Nat.two_pos⟩ "a"),
    (4, .delta ⟨0, Nat.two_pos⟩ "b"),
    (5, .done "g" "m")]

theorem serverLog_sample : ServerLog sampleLog where
  positive := by decide
  increasing := by decide
  startFirst e rest h := by
    obtain ⟨rfl, rfl⟩ := List.cons.inj h
    exact ⟨rfl, by decide⟩
  terminalLast := by decide

/-- A move that reads the clock and the token. -/
def Act.move (act : Act) : Move := ⟨act, sampleReading⟩

/-- An event of the sample. -/
def sampleEvent (k n : ℕ) : Move :=
  Act.move (.event k ((sampleLog[n]?).map Logged.message |>.getD ⟨none, .stage .generating⟩))

/-- A question whose stream breaks off; the next one repeats events. -/
def resumedStream : List Move :=
  [sampleEvent 0 0, sampleEvent 0 1, sampleEvent 0 2, Act.move (.ended 0 (some .network)),
    Act.move (.refreshEnds true), Act.move .resumes, sampleEvent 1 1,
    sampleEvent 1 2, sampleEvent 1 3, sampleEvent 1 4, Act.move (.ended 1 none)]

theorem events_applied_once_sample :
    AppliedOnce sampleLog (emptyContent "p") (.ask "c" .null)
      (launch {} (.ask "c" .null) "p" "k" sampleReading) resumedStream ∧
      (run Session.step (launch {} (.ask "c" .null) "p" "k" sampleReading) resumedStream).map
        (fun s => (s.view.answer.map Answer.content, s.view.terminal.isSome, s.view.appliedSeq)) =
        some (some "ab", true, 5) := by
  have hserves : checks Session.step (servesMove sampleLog)
      (launch {} (.ask "c" .null) "p" "k" sampleReading) resumedStream = true := by
    decide +kernel
  exact ⟨events_applied_once {} _ "p" "k" sampleReading serverLog_sample
    (moves_of_checks (fun _ _ => serves_of_servesMove) hserves), by decide +kernel⟩

theorem recovery_skips_events : ¬ ∀ config mode id key w log ms s, ServerLog log →
    Moves Session.step (Serves log) (launch config mode id key w) ms →
      Reaches Session.step (launch config mode id key w) ms s →
        s.view.toContent =
          fold (emptyContent id) (log.filter fun e => e.1 ≤ highestNumber s.received) := by
  intro h
  let s₀ := launch {} (.recover "c" "g" (some 1)) "p" "k" sampleReading
  have hserves : checks Session.step (servesMove sampleLog) s₀ [sampleEvent 0 1] = true := by
    decide +kernel
  have hrun : (run Session.step s₀ [sampleEvent 0 1]).map (fun s => (s.view.start,
      (fold (emptyContent "p") (sampleLog.filter fun e => e.1 ≤ highestNumber s.received)).start)) =
      some (none, some ⟨"g", "m", "q", 1⟩) := by
    decide +kernel
  obtain ⟨s, hs, hvals⟩ := Option.map_eq_some_iff.mp hrun
  obtain ⟨hstart, hfold⟩ := Prod.mk.inj hvals
  have heq := h {} (.recover "c" "g" (some 1)) "p" "k" sampleReading sampleLog [sampleEvent 0 1] s
    serverLog_sample (moves_of_checks (fun _ _ => serves_of_servesMove) hserves)
    ⟨_, List.prefix_rfl, hs⟩
  rw [heq] at hstart
  exact absurd (hfold.symm.trans hstart) nofun

end RagQs.Client
