import RagQs.Client.Frame

/-!
# The invariant of a generation session

While a session has no end, something is under way that will change what it shows, and a stop that
was asked for is kept.

## Main definitions

* `FlowOk`, `PhaseOk`, `StopOk` — the parts of the invariant.
* `Inv`, `Sound` — the invariant while a driver runs, and between moves.
* `Smooth` — what is asked of a move.

## Main results

* `Sound.step` — what a smooth move preserves.
-/

namespace RagQs.Client

open List

variable {message : SseEventMessage} {j : ℕ} {phase : Phase} {stopRequested retried : Bool} {l :
  List ℕ} {r : Request} {failure : Option Failure}

variable {sent : List Request} {listeners : List ℕ} {generationId : String} {stops' : List Stop}

/-- A question or a retry. -/
def Request.isInitial : Request → Bool
  | .ask _ _ _ => true
  | .retry _ _ => true
  | _ => false

def Request.isStop : Request → Bool
  | .stop _ => true
  | _ => false

/-- How often a stop has been sent. -/
def stopsSent (sent : List Request) : ℕ := sent.countP Request.isStop

/-! ### The parts of the invariant -/

/-- What is open is awaited, and until the first stream has ended it is the only one. -/
structure FlowOk (start : Option Start) (appliedSeq : ℕ) (k : Kind) (stream : Option ℕ)
    (stops : List Stop) (listeners floating : List ℕ) (active : Option ℕ) (streams : List Stream) :
    Prop where
  before : start = none → k ≠ .reconnect ∧ stops = [] ∧ listeners = [] ∧ floating = []
  applied : start ≠ none → 0 < appliedSeq
  alone : k = .initial → listeners = [] ∧ floating = []
  current : k = .initial → ∀ j, stream = some j → active = some j
  awaited : ∀ j, active = some j → stream = some j ∨ j ∈ listeners ∨ j ∈ floating
  opened : ∀ st ∈ streams,
    stream = some st.number ∨ st.number ∈ listeners ∨ st.number ∈ floating

/-- The view says that the session has come to an end. -/
def Ended (v : View) : Prop := v.terminal ≠ none ∨ v.requestError ≠ none ∨ v.authFailed = true

/-- What is under way in a phase. -/
def Live (phase : Phase) (stopRequested : Bool) (k : Kind) (stops : List Stop)
    (listeners floating : List ℕ) : Prop :=
  match phase with
  | .connecting => k = .initial
  | .running => k = .initial
  | .reconnecting => k = .reconnect
  | .reconnectFailed => stopRequested = false
  | .stopping => k ≠ .done ∨ stops ≠ [] ∨ listeners ≠ [] ∨ floating ≠ []
  | _ => False

/-- The phase says what is under way. -/
structure PhaseOk (v : View) (refreshFailed disposed : Bool) (k : Kind) (stops : List Stop)
    (listeners floating : List ℕ) : Prop where
  final : v.terminal ≠ none → v.phase = .completed ∨ v.phase = .failed ∨ v.phase = .stopped
  auth : v.authFailed = true → refreshFailed = true
  stopping : v.stopRequested = true → v.phase = .stopping ∨ v.terminal ≠ none
  live : disposed = false →
    Ended v ∨ Live v.phase v.stopRequested k stops listeners floating

/-- How far the stop has come. -/
inductive Stage : ℕ → List Stop → Bool → Prop
  | unsent : Stage 0 [] false
  | sent : Stage 1 [.request] false
  | answered : Stage 1 [] false
  | refreshing : Stage 1 [.refresh] true
  | refreshed (ok : Bool) : Stage 1 [.refreshed ok] true
  | unauthorized : Stage 1 [] true
  | resent : Stage 2 [.request] true
  | reanswered : Stage 2 [] true

/-- A stop is sent twice at most, and holds while it is not rejected. -/
structure StopOk (v : View) (k : Kind) (stops : List Stop) (sent : List Request)
    (retried accepted : Bool) : Prop where
  before : v.start = none → stopsSent sent = 0 ∧ v.phase ≠ .stopping
  unsent : stopsSent sent = 0 → accepted = false
  stage : Stage (stopsSent sent) stops retried
  answered : accepted = true → stops = []
  holds : accepted = true ∨ stops ≠ [] → v.terminal ≠ none ∨ v.phase = .stopping ∨
    v.phase = .failed ∧ (k = .done ∨ v.authFailed = true)

/-- The invariant, with a driver under way that awaits a stream. -/
structure Inv (k : Kind) (stream : Option ℕ) (stops : List Stop) (s : Session) : Prop where
  flow : FlowOk s.view.start s.view.appliedSeq k stream stops s.listeners s.floating
    s.activeStream s.streams
  phase : PhaseOk s.view s.refreshFailed s.disposed k stops s.listeners s.floating
  stop : StopOk s.view k stops s.sent s.stopRetriedAfterRefresh s.stopAccepted

/-- The invariant between moves: a first driver that awaits no stream has heard nothing, and what
goes on after a refresh knows how it ended. -/
structure Sound (s : Session) : Prop where
  inv : Inv s.main.kind s.main.stream s.stops s
  waiting : s.main.kind = .initial → s.main.stream = none →
    s.view.start = none ∧ s.view.terminal = none
  refused : (∃ wait, s.main = .refreshed wait false) ∨ .refreshed false ∈ s.stops →
    s.refreshFailed = true

/-! ### What is asked of a move -/

/-- A stop was asked for that has still to come to an end. -/
structure Stopping (s : Session) : Prop where
  disposed : s.disposed = false
  terminal : s.view.terminal = none
  auth : s.view.authFailed = false
  phase : s.view.phase = .stopping

/-- The start is the event with the number one. -/
def StartNumbered (m : Move) : Prop :=
  ∀ k message, m.act = .event k message → message.event.isStart = true → message.id = some 1

/-- No move is one after which a stop is forgotten, or nobody listens. -/
structure Smooth (s : Session) (m : Move) : Prop where
  /-- There is a token for every stream that is opened. -/
  token : m.reading.token.isSome = true
  /-- The user asks for a stop once. -/
  once : m.act = .requestStop → s.stopIgnored = false → stopsSent s.sent = 0
  /-- The first stream does not end without a terminal after the user has asked for a stop. -/
  initial : ∀ k failure, m.act = .ended k failure → s.main = .initial k → ¬ Stopping s
  /-- The reconnection does not come to its limits then. -/
  limit : ∀ k f, m.act = .ended k (some f) → s.main = .reconnect k → Stopping s →
    (∃ code, f = .api 401 code) ∨ s.atLimit m.reading = false
  /-- A stop that comes too late is rejected while something is under way. -/
  conflict : ∀ code, m.act = .stopAnswered (some (.api 409 code)) → Stopping s →
    s.main ≠ .done ∨ s.listeners ≠ [] ∨ s.floating ≠ []
  /-- The stream that nothing awaits does not end as the last. -/
  floating : ∀ k failure, m.act = .ended k failure → k ∈ s.floating → Stopping s →
    s.main ≠ .done ∨ s.stops ≠ [] ∨ s.listeners ≠ [] ∨ s.floating.erase k ≠ []
  /-- The stream that is awaited for a terminal does not end while there is a reconnection. -/
  listener : ∀ k failure, m.act = .ended k failure → k ∈ s.listeners → Stopping s →
    s.main = .done

variable {s t u : Session} {w : Reading} {m : Move} {v : View} {k : Kind} {stream : Option ℕ}
  {stops : List Stop} {f : Failure} {n : ℕ}

/-! ### Events -/

/-- What an event does to the fields that the drivers read. -/
inductive Applies (v : View) (message : SseEventMessage) : View → Prop
  | kept {v' : View} (hstart : v'.start = v.start) (hterminal : v'.terminal = v.terminal)
      (hphase : v'.phase = v.phase) (happlied : v.appliedSeq ≤ v'.appliedSeq) :
      Applies v message v'
  | started {v' : View} (he : message.event.isStart = true) (hnone : v.terminal = none)
      (hid : ∀ id, message.id = some id → v.appliedSeq < id ∧ v'.appliedSeq = id)
      (hstart : v'.start ≠ none) (hterminal : v'.terminal = none) (hphase : v'.phase = .running) :
      Applies v message v'
  | ended {v' : View} (hstart : v'.start = v.start) (hterminal : v'.terminal ≠ none)
      (hphase : v'.phase = .completed ∨ v'.phase = .failed ∨ v'.phase = .stopped)
      (happlied : v.appliedSeq ≤ v'.appliedSeq) : Applies v message v'

theorem Content.start_handle {c : Content} {e : GenerationEvent} (he : e.isStart = false) :
    (c.handle e).start = c.start := by
  cases e with
  | start d => cases he
  | abStart pairId messageId =>
    simp only [Content.handle, Content.startAb]
    split <;> rfl
  | delta candidate content =>
    simp only [Content.handle, Content.appendDelta]
    split
    · rfl
    · split <;> rfl
  | answer d =>
    simp only [Content.handle, Content.applyAnswer]
    split <;> rfl
  | _ => rfl

theorem applies_handle (hnone : v.terminal = none) (n : ℕ) (hn : v.appliedSeq ≤ n)
    (hid : ∀ id, message.id = some id → v.appliedSeq < id ∧ n = id) :
    Applies v message ({ v with appliedSeq := n }.handle message.event) := by
  cases he : message.event with
  | start d => exact .started (by rw [he]; rfl) hnone hid nofun hnone rfl
  | done generationId messageId => exact .ended rfl nofun (.inl rfl) hn
  | error code text details requestId => exact .ended rfl nofun (.inr (.inl rfl)) hn
  | stopped generationId messageId stopReason => exact .ended rfl nofun (.inr (.inr rfl)) hn
  | _ => exact .kept (Content.start_handle rfl) (Content.terminal_handle rfl) rfl hn

theorem applies_applyEvent (v : View) (message : SseEventMessage) :
    Applies v message (v.applyEvent message) := by
  unfold View.applyEvent
  split
  · exact .kept rfl rfl rfl le_rfl
  · next hterminal =>
    have hnone : v.terminal = none := by simpa using hterminal
    split
    · next id hid =>
      split
      · exact .kept rfl rfl rfl le_rfl
      · next hle =>
        refine applies_handle hnone id (Nat.le_of_not_le hle) fun id' hid' => ?_
        cases hid.symm.trans hid'
        exact ⟨Nat.lt_of_not_le hle, rfl⟩
    · next hid =>
      refine applies_handle hnone v.appliedSeq le_rfl fun id hid' => ?_
      rw [hid] at hid'
      cases hid'

theorem applyEvent_rest (v : View) (message : SseEventMessage) :
    (v.applyEvent message).requestError = v.requestError ∧
      (v.applyEvent message).authFailed = v.authFailed ∧
      (v.applyEvent message).stopRequested = v.stopRequested := by
  unfold View.applyEvent
  split
  · exact ⟨rfl, rfl, rfl⟩
  · split
    · split
      · exact ⟨rfl, rfl, rfl⟩
      · exact ⟨rfl, rfl, rfl⟩
    · exact ⟨rfl, rfl, rfl⟩

theorem Main.kind_ne_done {main : Main} (h : main.stream = some j) : main.kind ≠ .done := by
  intro hkind
  cases main with
  | initial k => cases hkind
  | reconnect k => cases hkind
  | _ => cases h

theorem Inv.unstarted (h : Inv k stream stops s) (hstart : s.view.start = none) :
    s.stopAccepted = false ∧ stops = [] :=
  ⟨h.stop.unsent (h.stop.before hstart).1, (h.flow.before hstart).2.1⟩

theorem Inv.deliver (h : Inv k stream stops s) (hk : ∀ j, stream = some j → k ≠ .done)
    (hstart : message.event.isStart = true → message.id = some 1)
    (hopen : ∃ st ∈ s.streams, st.number = j) : Inv k stream stops (s.deliver j message) := by
  obtain ⟨hrequest, hauth, hrequested⟩ := applyEvent_rest s.view message
  have hopened : ∀ st ∈ (s.deliver j message).streams,
      stream = some st.number ∨ st.number ∈ s.listeners ∨ st.number ∈ s.floating := by
    intro st' hst'
    obtain ⟨st, hst, rfl⟩ := mem_map.mp hst'
    have := h.flow.opened st hst
    split <;> exact this
  have hflow : ((s.deliver j message).view.start = none → s.view.start = none) →
      ((s.deliver j message).view.start ≠ none → 0 < (s.deliver j message).view.appliedSeq) →
      FlowOk (s.deliver j message).view.start (s.deliver j message).view.appliedSeq k stream stops
        s.listeners s.floating s.activeStream (s.deliver j message).streams :=
    fun hbefore happlied => ⟨fun hnone => h.flow.before (hbefore hnone), happlied, h.flow.alone,
      h.flow.current, h.flow.awaited, hopened⟩
  have hview : Applies s.view message (s.deliver j message).view :=
    applies_applyEvent s.view message
  change (s.deliver j message).view.requestError = _ at hrequest
  change (s.deliver j message).view.authFailed = _ at hauth
  change (s.deliver j message).view.stopRequested = _ at hrequested
  cases hview with
  | kept hstart hterminal hphase happlied =>
    refine ⟨hflow (fun hnone => hstart ▸ hnone) fun hsome => ?_, ⟨?_, ?_, ?_, ?_⟩,
      ⟨?_, h.stop.unsent, h.stop.stage, h.stop.answered, ?_⟩⟩
    · exact (h.flow.applied (hstart ▸ hsome)).trans_le happlied
    · rw [hterminal, hphase]
      exact h.phase.final
    · rw [hauth]
      exact h.phase.auth
    · rw [hrequested, hphase, hterminal]
      exact h.phase.stopping
    · rw [Ended, hterminal, hrequest, hauth, hphase, hrequested]
      exact h.phase.live
    · rw [hstart, hphase]
      exact h.stop.before
    · rw [hterminal, hphase, hauth]
      exact h.stop.holds
  | started he hnone hid hsome hterminal hphase =>
    obtain ⟨hlt, hone⟩ := hid 1 (hstart he)
    have hfresh : s.view.start = none := by
      by_contra hne
      have := h.flow.applied hne
      omega
    obtain ⟨hreconnect, -, hlisteners, hfloating⟩ := h.flow.before hfresh
    obtain ⟨haccepted, hstops⟩ := h.unstarted hfresh
    have hinitial : k = .initial := by
      obtain ⟨st, hst, -⟩ := hopen
      rcases h.flow.opened st hst with hstream | hmem | hmem
      · have := hk _ hstream
        cases k with
        | initial => rfl
        | reconnect => exact absurd rfl hreconnect
        | done => exact absurd rfl this
      · rw [hlisteners] at hmem
        cases hmem
      · rw [hfloating] at hmem
        cases hmem
    have hunrequested : s.view.stopRequested = false := by
      by_contra hne
      rcases h.phase.stopping (by simpa using hne) with hstopping | hterm
      · exact (h.stop.before hfresh).2 hstopping
      · exact hterm hnone
    refine ⟨hflow (fun _ => hfresh) fun _ => hone ▸ Nat.one_pos, ⟨?_, ?_, ?_, fun _ => .inr ?_⟩,
      ⟨fun hn => absurd hn hsome, h.stop.unsent, h.stop.stage, h.stop.answered, ?_⟩⟩
    · exact fun hne => absurd hterminal hne
    · rw [hauth]
      exact h.phase.auth
    · rw [hrequested, hunrequested]
      exact nofun
    · rw [hphase]
      exact hinitial
    · rintro (hacc | hne)
      · rw [show s.stopAccepted = true from hacc] at haccepted
        cases haccepted
      · exact absurd hstops hne
  | ended hstart hterminal hphase happlied =>
    refine ⟨hflow (fun hnone => hstart ▸ hnone) fun hsome => ?_,
      ⟨fun _ => hphase, ?_, fun _ => .inr hterminal, fun _ => .inl (.inl hterminal)⟩,
      ⟨fun hnone => ?_, h.stop.unsent, h.stop.stage, h.stop.answered, fun _ => .inl hterminal⟩⟩
    · exact (h.flow.applied (hstart ▸ hsome)).trans_le happlied
    · rw [hauth]
      exact h.phase.auth
    · refine ⟨(h.stop.before (hstart ▸ hnone)).1, ?_⟩
      rcases hphase with hphase | hphase | hphase <;> rw [hphase] <;> exact nofun

/-- **A stream delivers an event.** -/
theorem Sound.deliver (h : Sound s) (hstart : message.event.isStart = true → message.id = some 1)
    (hopen : ∃ st ∈ s.streams, st.number = j) : Sound (s.deliver j message) := by
  refine ⟨h.inv.deliver (fun _ => Main.kind_ne_done) hstart hopen, fun hkind hnone => ?_,
    h.refused⟩
  -- a stream is open, so that the driver awaits it
  have hnone : s.main.stream = none := hnone
  obtain ⟨st, hst, -⟩ := hopen
  obtain ⟨hstart, -⟩ := h.waiting hkind hnone
  obtain ⟨-, -, hlisteners, hfloating⟩ := h.inv.flow.before hstart
  rcases h.inv.flow.opened st hst with hstream | hmem | hmem
  · rw [hnone] at hstream
    cases hstream
  · rw [hlisteners] at hmem
    cases hmem
  · rw [hfloating] at hmem
    cases hmem

/-! ### The streams of events -/

/-- A call of `awaitTerminalOnce` awaits a new stream. -/
def Session.listen (s : Session) (generationId : String) : Session :=
  { s.openStream (.events generationId s.lastEventId) s.lastEventId with
    listeners := s.listeners ++ [s.opened] }

theorem openEventsStream_eq (opened failed returned : Session → Session)
    (hw : w.token.isSome = true) (hstart : s.view.start ≠ none) :
    ∃ generationId, s.openEventsStream w opened failed returned =
      opened (s.openStream (.events generationId s.lastEventId) s.lastEventId) := by
  obtain ⟨token, htoken⟩ := Option.isSome_iff_exists.mp hw
  obtain ⟨d, hd⟩ := Option.ne_none_iff_exists'.mp hstart
  refine ⟨d.generationId, ?_⟩
  rw [Session.openEventsStream, htoken, Session.generationId, hd]

theorem awaitTerminalOnce_cases (hw : w.token.isSome = true) (hstart : s.view.start ≠ none) :
    s.awaitTerminalOnce w = s ∧ (s.disposed = true ∨ s.view.terminal ≠ none) ∨
      ∃ generationId, s.awaitTerminalOnce w = s.listen generationId := by
  unfold Session.awaitTerminalOnce
  split
  · next h => exact .inl ⟨rfl, by simpa [Option.isSome_iff_ne_none] using h⟩
  · obtain ⟨generationId, heq⟩ := openEventsStream_eq (s := s)
      (fun t => { t with listeners := t.listeners ++ [s.opened] }) Session.listenerEnded
      Session.listenerEnded hw hstart
    exact .inr ⟨generationId, heq⟩

theorem ensureStopTerminalListener_cases (hw : w.token.isSome = true)
    (hstart : s.view.start ≠ none) :
    s.ensureStopTerminalListener w = s ∧
        (s.disposed = true ∨ s.view.terminal ≠ none ∨ s.activeStream ≠ none) ∨
      s.activeStream = none ∧ ∃ generationId,
        s.ensureStopTerminalListener w = s.listen generationId := by
  unfold Session.ensureStopTerminalListener
  split
  · next h =>
    simp only [Bool.or_eq_true, Option.isSome_iff_ne_none, or_assoc] at h
    exact .inl ⟨rfl, h⟩
  · next h =>
    simp only [Bool.or_eq_true, Option.isSome_iff_ne_none, not_or, not_not] at h
    rcases awaitTerminalOnce_cases hw hstart with ⟨-, hdisposed | hterminal⟩ | hlisten
    · exact absurd hdisposed h.1.1
    · exact absurd h.1.2 hterminal
    · exact .inr ⟨h.2, hlisten⟩

theorem Live.mono {l' f f' : List ℕ} (h : Live phase stopRequested k stops l f) (hl : l ⊆ l')
    (hf : f ⊆ f') : Live phase stopRequested k stops l' f' := by
  cases phase with
  | stopping =>
    refine h.imp id (Or.imp id (Or.imp (fun hne => ?_) fun hne => ?_))
    · obtain ⟨j, hj⟩ := exists_mem_of_ne_nil _ hne
      exact ne_nil_of_mem (hl hj)
    · obtain ⟨j, hj⟩ := exists_mem_of_ne_nil _ hne
      exact ne_nil_of_mem (hf hj)
  | _ => exact h

theorem stopsSent_append (hr : r.isStop = false) : stopsSent (sent ++ [r]) = stopsSent sent := by
  simp [stopsSent, hr]

theorem StopOk.send {accepted : Bool} (h : StopOk v k stops sent retried accepted)
    (hr : r.isStop = false) : StopOk v k stops (sent ++ [r]) retried accepted := by
  obtain ⟨hbefore, hunsent, hstage, hanswered, hholds⟩ := h
  rw [← stopsSent_append hr] at hbefore hunsent hstage
  exact ⟨hbefore, hunsent, hstage, hanswered, hholds⟩

theorem Inv.drive (h : Inv k none stops s) (lastEventId : Option ℕ) (hr : r.isStop = false) :
    Inv k (some s.opened) stops (s.openStream r lastEventId) where
  flow :=
    { before := h.flow.before
      applied := h.flow.applied
      alone := h.flow.alone
      current := fun _ j hj => hj
      awaited := fun j hj => .inl hj
      opened := fun st hst => by
        rcases mem_append.mp hst with hst | hst
        · exact .inr ((h.flow.opened st hst).resolve_left nofun)
        · obtain rfl := mem_singleton.mp hst
          exact .inl rfl }
  phase := h.phase
  stop := h.stop.send hr

theorem Inv.beside {lastEventId : Option ℕ} {floating : List ℕ} (h : Inv k stream stops s)
    (hk : k ≠ .initial) (hstart : s.view.start ≠ none) (hr : r.isStop = false)
    (hlisteners : s.listeners ⊆ listeners) (hfloating : s.floating ⊆ floating)
    (hnew : s.opened ∈ listeners ∨ s.opened ∈ floating) :
    Inv k stream stops { s.openStream r lastEventId with listeners, floating } where
  flow :=
    { before := fun hnone => absurd hnone hstart
      applied := h.flow.applied
      alone := fun hinitial => absurd hinitial hk
      current := fun hinitial => absurd hinitial hk
      awaited := fun j hj => by
        cases hj
        exact .inr hnew
      opened := fun st hst => by
        rcases mem_append.mp hst with hst | hst
        · exact (h.flow.opened st hst).imp id (Or.imp (hlisteners ·) (hfloating ·))
        · obtain rfl := mem_singleton.mp hst
          exact .inr hnew }
  phase := ⟨h.phase.final, h.phase.auth, h.phase.stopping,
    fun hd => (h.phase.live hd).imp id fun hlive => hlive.mono hlisteners hfloating⟩
  stop := h.stop.send hr

theorem Inv.listen (h : Inv k stream stops s) (hk : k ≠ .initial) (hstart : s.view.start ≠ none) :
    Inv k stream stops (s.listen generationId) :=
  h.beside hk hstart rfl (subset_append_left _ _) (Subset.refl _)
    (.inl (mem_append_right _ mem_cons_self))

/-! ### A driver returns -/

theorem FlowOk.started {start : Option Start} {n : ℕ} {l f : List ℕ} {active : Option ℕ}
    {streams : List Stream} (h : FlowOk start n k stream stops l f active streams)
    (hstart : start ≠ none) : FlowOk start n k stream stops' l f active streams :=
  ⟨fun hnone => absurd hnone hstart, h.applied, h.alone, h.current, h.awaited, h.opened⟩

theorem Sound.of_inv (h : Inv s.main.kind s.main.stream s.stops s)
    (hwaiting : s.main.kind = .initial → s.main.stream = none →
      s.view.start = none ∧ s.view.terminal = none)
    (hmain : ∀ wait, s.main ≠ .refreshed wait false)
    (hrefused : .refreshed false ∈ s.stops → s.refreshFailed = true) : Sound s :=
  ⟨h, hwaiting, fun hor => hor.elim (fun ⟨wait, hwait⟩ => absurd hwait (hmain wait)) hrefused⟩

/-- A driver has returned, and another takes its place or none. -/
structure Driver (k : Kind) (s : Session) : Prop where
  inv : Inv k none s.stops s
  main : s.main = .done
  refused : .refreshed false ∈ s.stops → s.refreshFailed = true

theorem Driver.sound (h : Driver .done s) : Sound s := by
  have hinv := h.inv
  refine .of_inv ?_ (fun hkind => ?_) (fun wait => ?_) h.refused
  · rw [h.main]
    exact hinv
  · rw [h.main] at hkind
    cases hkind
  · rw [h.main]
    exact nofun

theorem Driver.returns (h : Driver k s) (hlive : s.disposed = false →
    Ended s.view ∨ Live s.view.phase s.view.stopRequested .done s.stops s.listeners s.floating) :
    Sound s :=
  Driver.sound
    { inv :=
        { flow := ⟨fun hnone => ⟨nofun, (h.inv.flow.before hnone).2⟩, h.inv.flow.applied, nofun,
            nofun, h.inv.flow.awaited, h.inv.flow.opened⟩
          phase := { h.inv.phase with live := hlive }
          stop := { h.inv.stop with
            holds := fun hs => (h.inv.stop.holds hs).imp id (Or.imp id fun ⟨hphase, _⟩ =>
              ⟨hphase, .inl rfl⟩) } }
      main := h.main
      refused := h.refused }

theorem Driver.listen (h : Driver k s) (hk : k ≠ .initial) (hstart : s.view.start ≠ none) :
    Driver k (s.listen generationId) :=
  ⟨h.inv.listen hk hstart, h.main, h.refused⟩

theorem Driver.over (h : Driver k s) (hover : s.disposed = true ∨ Ended s.view) : Sound s := by
  refine h.returns fun hd => ?_
  rcases hover with hdisposed | hended
  · rw [hdisposed] at hd
    cases hd
  · exact .inl hended

theorem Driver.start (h : Driver .reconnect s) : s.view.start ≠ none := fun hnone =>
  (h.inv.flow.before hnone).1 rfl

theorem Driver.ensure (h : Driver .reconnect s) (hw : w.token.isSome = true)
    (hphase : s.view.phase = .stopping) : Sound (s.ensureStopTerminalListener w) := by
  rcases ensureStopTerminalListener_cases hw h.start with ⟨heq, hover⟩ | ⟨-, generationId, heq⟩
  · rw [heq]
    rcases hover with hdisposed | hterminal | hactive
    · exact h.over (.inl hdisposed)
    · exact h.over (.inr (.inl hterminal))
    · refine h.returns fun _ => .inr ?_
      obtain ⟨j, hj⟩ := Option.ne_none_iff_exists'.mp hactive
      rw [hphase]
      rcases h.inv.flow.awaited j hj with hstream | hmem | hmem
      · cases hstream
      · exact .inr (.inr (.inl (ne_nil_of_mem hmem)))
      · exact .inr (.inr (.inr (ne_nil_of_mem hmem)))
  · rw [heq]
    refine (h.listen nofun h.start).returns fun _ => .inr ?_
    change Live s.view.phase _ _ _ _ _
    rw [hphase]
    exact .inr (.inr (.inl (by simp [Session.listen])))

/-! ### The reconnection -/

theorem Inv.unstopped (h : Inv k stream stops s) (hk : k ≠ .done)
    (hterminal : s.view.terminal = none) (hauth : s.view.authFailed = false)
    (hphase : s.view.phase ≠ .stopping) :
    s.stopAccepted = false ∧ stops = [] ∧ s.view.stopRequested = false := by
  have hnot : ¬ (s.stopAccepted = true ∨ stops ≠ []) := by
    intro hs
    rcases h.stop.holds hs with hne | hstopping | ⟨-, hdone | hfailed⟩
    · exact hne hterminal
    · exact hphase hstopping
    · exact hk hdone
    · rw [hauth] at hfailed
      cases hfailed
  simp only [not_or, Bool.not_eq_true, not_not] at hnot
  refine ⟨hnot.1, hnot.2, ?_⟩
  by_contra hrequested
  rcases h.phase.stopping (by simpa using hrequested) with hstopping | hne
  · exact hphase hstopping
  · exact hne hterminal

theorem Inv.enterPhase {phase : Phase} {k' : Kind} (h : Inv k none stops s) (hk : k ≠ .done)
    (hstart : s.view.start ≠ none) (hterminal : s.view.terminal = none)
    (hauth : s.view.authFailed = false) (hphase : s.view.phase ≠ .stopping)
    (hk' : k' ≠ .initial)
    (hlive : Live phase false k' stops s.listeners s.floating) :
    Inv k' none stops (s.setPhase phase) := by
  obtain ⟨haccepted, hstops, hrequested⟩ := h.unstopped hk hterminal hauth hphase
  refine ⟨⟨fun hnone => absurd hnone hstart, h.flow.applied, fun hinitial => absurd hinitial hk',
    fun hinitial => absurd hinitial hk', h.flow.awaited, h.flow.opened⟩,
    ⟨fun hne => absurd hterminal hne, h.phase.auth, fun htrue => ?_, fun _ => .inr ?_⟩,
    ⟨fun hnone => absurd hnone hstart, h.stop.unsent, h.stop.stage, h.stop.answered, ?_⟩⟩
  · rw [show s.view.stopRequested = true from htrue] at hrequested
    cases hrequested
  · change Live phase s.view.stopRequested _ _ _ _
    rw [hrequested]
    exact hlive
  · rintro (hacc | hne)
    · rw [show s.stopAccepted = true from hacc] at haccepted
      cases haccepted
    · exact absurd hstops hne

/-- `failReconnect` -/
theorem Driver.failReconnect (h : Driver .reconnect s) (hw : w.token.isSome = true)
    (hterminal : s.view.terminal = none) (hauth : s.view.authFailed = false)
    (hphase : s.view.phase ≠ .stopping) : Sound (s.failReconnect w) := by
  unfold Session.failReconnect
  split
  · next hdisposed => exact h.over (.inl hdisposed)
  · have hfailed : Driver .done (s.setPhase .reconnectFailed) :=
      ⟨h.inv.enterPhase nofun h.start hterminal hauth hphase nofun rfl, h.main, h.refused⟩
    rcases awaitTerminalOnce_cases (s := s.setPhase .reconnectFailed) hw h.start with
      ⟨heq, -⟩ | ⟨generationId, heq⟩
    · rw [heq]
      exact hfailed.sound
    · rw [heq]
      exact (hfailed.listen nofun h.start).sound

theorem Driver.attempts (h : Driver k s) (n : ℕ) :
    Driver k { s with
      reconnectAttempts := n
      view := { s.view with reconnectAttempts := n } } :=
  ⟨⟨h.inv.flow, { h.inv.phase with }, { h.inv.stop with }⟩, h.main, h.refused⟩

theorem Driver.reconnectSleep (h : Driver .reconnect s) : Sound (s.sleep .reconnectSleep) := by
  unfold Session.sleep
  split
  · next hdisposed => exact h.over (.inl hdisposed)
  · exact .of_inv ⟨h.inv.flow, h.inv.phase, h.inv.stop⟩ nofun nofun h.refused

theorem Driver.refreshToken (wait : Wait) (h : Driver wait.kind s)
    (hwaiting : wait.kind = .initial → s.view.start = none ∧ s.view.terminal = none) :
    Sound (s.refreshToken wait) :=
  .of_inv ⟨h.inv.flow, h.inv.phase, h.inv.stop⟩ (fun hkind _ => hwaiting hkind) nofun h.refused

theorem Driver.retryReconnect (h : Driver .reconnect s) (hw : w.token.isSome = true)
    (hterminal : s.view.terminal = none) (hauth : s.view.authFailed = false)
    (hphase : s.view.phase = .stopping → s.atLimit w = false) : Sound (s.retryReconnect w) := by
  unfold Session.retryReconnect
  dsimp only
  split
  · next hlimit =>
    refine (h.attempts _).failReconnect hw hterminal hauth fun hstopping => ?_
    rw [hphase hstopping] at hlimit
    cases hlimit
  · exact (h.attempts _).reconnectSleep

theorem over_of_or (h : (s.disposed || s.view.terminal.isSome || s.view.authFailed) = true) :
    s.disposed = true ∨ Ended s.view := by
  simp only [Bool.or_eq_true, Option.isSome_iff_ne_none] at h
  rcases h with (hdisposed | hterminal) | hauth
  · exact .inl hdisposed
  · exact .inr (.inl hterminal)
  · exact .inr (.inr (.inr hauth))

theorem not_over (h : ¬ (s.disposed || s.view.terminal.isSome || s.view.authFailed) = true) :
    s.disposed = false ∧ s.view.terminal = none ∧ s.view.authFailed = false := by
  simpa [not_or, and_assoc] using h

theorem Driver.reconnectEnded (h : Driver .reconnect s) (hw : w.token.isSome = true) :
    Sound (s.reconnectEnded w) := by
  unfold Session.reconnectEnded
  split
  · next hover => exact h.over (over_of_or hover)
  · next hover =>
    obtain ⟨-, hterminal, hauth⟩ := not_over hover
    split
    · next hphase => exact h.ensure hw hphase
    · next hphase => exact h.retryReconnect hw hterminal hauth fun hs => absurd hs hphase

theorem Driver.reconnectFailed (h : Driver .reconnect s) (hw : w.token.isSome = true)
    (hlimit : Stopping s → (∃ code, f = .api 401 code) ∨ s.atLimit w = false) :
    Sound (s.reconnectFailed w f) := by
  unfold Session.reconnectFailed
  split
  · next hover => exact h.over (over_of_or hover)
  · next hover =>
    obtain ⟨hdisposed, hterminal, hauth⟩ := not_over hover
    split
    · exact Driver.refreshToken .reconnectAuth h nofun
    · next hf =>
      refine h.retryReconnect hw hterminal hauth fun hs => ?_
      rcases hlimit ⟨hdisposed, hterminal, hauth, hs⟩ with ⟨code, rfl⟩ | hlimit
      · exact absurd rfl (hf code)
      · exact hlimit

theorem Driver.reconnectLoop (h : Driver .reconnect s) (hw : w.token.isSome = true) :
    Sound (s.reconnectLoop w) := by
  unfold Session.reconnectLoop
  split
  · next hover => exact h.over (over_of_or hover)
  · next hover =>
    obtain ⟨hdisposed, hterminal, hauth⟩ := not_over hover
    split
    · next hphase => exact h.ensure hw hphase
    · next hphase =>
      split
      · exact h.failReconnect hw hterminal hauth hphase
      · have hgoes : Inv .reconnect none s.stops (s.setPhase .reconnecting) :=
          h.inv.enterPhase nofun h.start hterminal hauth hphase nofun rfl
        obtain ⟨generationId, heq⟩ := openEventsStream_eq (s := s.setPhase .reconnecting)
          (fun t => { t with main := .reconnect s.opened })
          (fun t => t.reconnectFailed w (.api 401 "invalid_token")) (fun t => t.reconnectEnded w)
          hw h.start
        rw [heq]
        have hdrive := hgoes.drive (s.setPhase .reconnecting).lastEventId
          (r := .events generationId (s.setPhase .reconnecting).lastEventId) rfl
        exact .of_inv ⟨hdrive.flow, hdrive.phase, hdrive.stop⟩ nofun nofun h.refused

/-! ### The first driver -/

theorem Driver.enterReconnect (h : Driver .initial s) (hstart : s.view.start ≠ none)
    (hterminal : s.view.terminal = none) (hphase : ¬ Stopping s) :
    Sound (s.enterReconnect w) := by
  unfold Session.enterReconnect
  split
  · next hover =>
    rw [Bool.or_eq_true] at hover
    exact h.over (hover.imp id fun hauth => .inr (.inr hauth))
  · next hover =>
    simp only [Bool.or_eq_true, not_or, Bool.not_eq_true] at hover
    obtain ⟨hdisposed, hauth⟩ := hover
    have hgoes : Inv .reconnect none s.stops (s.setPhase .reconnecting) :=
      h.inv.enterPhase nofun hstart hterminal hauth
        (fun hs => hphase ⟨hdisposed, hterminal, hauth, hs⟩) nofun rfl
    exact .of_inv ⟨hgoes.flow, { hgoes.phase with }, { hgoes.stop with }⟩ nofun nofun h.refused

theorem Driver.setRequestError (h : Driver k s) (code : String) :
    Sound (s.setRequestError code) := by
  unfold Session.setRequestError
  split
  · next hdisposed => exact h.over (.inl hdisposed)
  · have herror : Driver k { s with view := { s.view with requestError := some code } } :=
      ⟨⟨h.inv.flow, { h.inv.phase with live := fun _ => .inl (.inr (.inl nofun)) },
        { h.inv.stop with }⟩, h.main, h.refused⟩
    exact herror.over (.inr (.inr (.inl nofun)))

theorem Driver.retryInitial (h : Driver .initial s) (hstart : s.view.start = none)
    (hterminal : s.view.terminal = none) : Sound s.retryInitial := by
  unfold Session.retryInitial
  dsimp only
  have hcount : Driver .initial { s with preStartAttempts := s.preStartAttempts + 1 } :=
    ⟨⟨h.inv.flow, h.inv.phase, h.inv.stop⟩, h.main, h.refused⟩
  split
  · exact hcount.setRequestError _
  · unfold Session.sleep
    split
    · next hdisposed => exact hcount.over (.inl hdisposed)
    · exact .of_inv ⟨h.inv.flow, h.inv.phase, h.inv.stop⟩ (fun _ _ => ⟨hstart, hterminal⟩) (by simp)
        h.refused

theorem Driver.initialFailed (h : Driver .initial s) (hphase : ¬ Stopping s) :
    Sound (s.initialFailed w f) := by
  unfold Session.initialFailed
  split
  · next hover =>
    rw [Bool.or_eq_true, Option.isSome_iff_ne_none] at hover
    exact h.over (hover.imp id .inl)
  · next hover =>
    simp only [Bool.or_eq_true, not_or, Option.isSome_iff_ne_none, not_not] at hover
    split
    · next hstart => exact h.enterReconnect (Option.isSome_iff_ne_none.mp hstart) hover.2 hphase
    · next hstart =>
      have hstart : s.view.start = none := by simpa using hstart
      split
      · exact h.retryInitial hstart hover.2
      · exact Driver.refreshToken .initial h fun _ => ⟨hstart, hover.2⟩
      · exact h.setRequestError _

theorem Driver.initialEnded (h : Driver .initial s) (hphase : ¬ Stopping s) :
    Sound (s.initialEnded w) := by
  unfold Session.initialEnded
  split
  · next hover =>
    rw [Bool.or_eq_true, Option.isSome_iff_ne_none] at hover
    exact h.over (hover.imp id .inl)
  · next hover =>
    simp only [Bool.or_eq_true, not_or, Option.isSome_iff_ne_none, not_not] at hover
    split
    · next hstart => exact h.enterReconnect (Option.isSome_iff_ne_none.mp hstart) hover.2 hphase
    · next hstart => exact h.retryInitial (by simpa using hstart) hover.2

theorem initialRequest_isStop (s : Session) : s.initialRequest.1.isStop = false := by
  unfold Session.initialRequest
  cases s.mode <;> rfl

theorem Driver.initialLoop (h : Driver .initial s) (hw : w.token.isSome = true)
    (hstart : s.view.start = none) (hterminal : s.view.terminal = none) :
    Sound (s.initialLoop w) := by
  obtain ⟨token, htoken⟩ := Option.isSome_iff_exists.mp hw
  unfold Session.initialLoop
  split
  · next hdisposed => exact h.over (.inl hdisposed)
  · have hphase := (h.inv.stop.before hstart).2
    rw [if_neg hphase, htoken]
    obtain ⟨haccepted, hstops⟩ := h.inv.unstarted hstart
    have hrequested : s.view.stopRequested = false := by
      by_contra hne
      rcases h.inv.phase.stopping (by simpa using hne) with hs | hne
      · exact hphase hs
      · exact hne hterminal
    have hconnecting : Inv .initial none s.stops (s.setPhase .connecting) := by
      refine ⟨h.inv.flow, ⟨fun hne => absurd hterminal hne, h.inv.phase.auth, fun htrue => ?_,
        fun _ => .inr rfl⟩, { h.inv.stop with
          before := fun hnone => ⟨(h.inv.stop.before hnone).1, nofun⟩
          holds := ?_ }⟩
      · rw [show s.view.stopRequested = true from htrue] at hrequested
        cases hrequested
      · rintro (hacc | hne)
        · rw [show s.stopAccepted = true from hacc] at haccepted
          cases haccepted
        · exact absurd hstops hne
    have hdrive := hconnecting.drive (s.setPhase .connecting).initialRequest.2
      (initialRequest_isStop (s.setPhase .connecting))
    exact .of_inv ⟨hdrive.flow, hdrive.phase, hdrive.stop⟩ nofun nofun h.refused

theorem Inv.failAuth (h : Inv k stream stops s) (hfailed : s.refreshFailed = true) :
    Inv k stream stops { s with view := { s.view with authFailed := true } } :=
  ⟨h.flow, { h.phase with
      auth := fun _ => hfailed
      live := fun _ => .inl (.inr (.inr rfl)) },
    { h.stop with
      holds := fun hs => (h.stop.holds hs).imp id (Or.imp id fun hphase =>
        ⟨hphase.1, .inr rfl⟩) }⟩

theorem Driver.resumed {wait : Wait} {ok : Bool} (h : Driver wait.kind s)
    (hw : w.token.isSome = true)
    (hwaiting : wait.kind = .initial → s.view.start = none ∧ s.view.terminal = none)
    (hfailed : ok = false → s.refreshFailed = true) : Sound (s.resumed w ok wait) := by
  cases ok with
  | false =>
    have heq : s.resumed w false wait = s.failAuth := by
      cases wait <;> rfl
    rw [heq]
    unfold Session.failAuth
    split
    · next hdisposed => exact h.over (.inl hdisposed)
    · have hauth : Driver wait.kind { s with view := { s.view with authFailed := true } } :=
        ⟨h.inv.failAuth (hfailed rfl), h.main, h.refused⟩
      exact hauth.over (.inr (.inr (.inr rfl)))
  | true =>
    cases wait with
    | initial => exact Driver.retryInitial h (hwaiting rfl).1 (hwaiting rfl).2
    | reconnect => exact Driver.reconnectLoop h hw
    | reconnectAuth =>
      have hcount : Driver .reconnect { s with reconnectAttempts := s.reconnectAttempts + 1 } :=
        ⟨⟨h.inv.flow, h.inv.phase, h.inv.stop⟩, h.main, h.refused⟩
      exact hcount.reconnectSleep

/-! ### The stop -/

/-- A `driveStop` goes on, which is the only one. -/
structure Stops (s : Session) (x : Stop) : Prop where
  inv : Inv s.main.kind s.main.stream [x] s
  alone : s.stops = []
  waiting : s.main.kind = .initial → s.main.stream ≠ none
  refused : (∃ wait, s.main = .refreshed wait false) → s.refreshFailed = true

variable {x : Stop}

theorem Stops.start (h : Stops s x) : s.view.start ≠ none := fun hnone =>
  absurd (h.inv.flow.before hnone).2.1 (cons_ne_nil _ _)

theorem Stops.unaccepted (h : Stops s x) : s.stopAccepted = false := by
  by_contra hne
  exact absurd (h.inv.stop.answered (by simpa using hne)) (cons_ne_nil _ _)

theorem Stage.drop (h : Stage n [x] retried) : n ≠ 0 ∧ Stage n [] retried := by
  cases h with
  | sent => exact ⟨nofun, .answered⟩
  | refreshing => exact ⟨nofun, .unauthorized⟩
  | refreshed ok => exact ⟨nofun, .unauthorized⟩
  | resent => exact ⟨nofun, .reanswered⟩

theorem Live.replace {f : List ℕ} (h : Live phase stopRequested k stops l f) (hne : stops' ≠ []) :
    Live phase stopRequested k stops' l f := by
  cases phase with
  | stopping => exact .inr (.inl hne)
  | _ => exact h

theorem Live.drop {f : List ℕ} (h : Live phase stopRequested k stops l f)
    (hbusy : phase = .stopping → k ≠ .done ∨ l ≠ [] ∨ f ≠ []) :
    Live phase stopRequested k [] l f := by
  cases phase with
  | stopping => exact (hbusy rfl).imp id .inr
  | _ => exact h

/-- What the `driveStop` leaves behind, in another view or with another wait. -/
theorem Stops.sound (h : Stops s x) (htmain : t.main = s.main)
    (hinv : Inv s.main.kind s.main.stream t.stops t) (hfailed : t.refreshFailed = s.refreshFailed)
    (hstops : .refreshed false ∉ t.stops) : Sound t := by
  refine ⟨htmain ▸ hinv, fun hkind hnone => ?_, ?_⟩
  · rw [htmain] at hkind hnone
    exact absurd hnone (h.waiting hkind)
  · rw [htmain, hfailed]
    rintro (hwait | hstop)
    · exact h.refused hwait
    · exact absurd hstop hstops

/-- The `driveStop` has returned. -/
theorem Stops.returns (h : Stops s x) (accepted : Bool)
    (hbusy : s.disposed = false → s.view.phase = .stopping →
      Ended s.view ∨ s.main.kind ≠ .done ∨ s.listeners ≠ [] ∨ s.floating ≠ []) :
    Sound { s with stopAccepted := accepted } := by
  have halone := h.alone
  refine h.sound rfl ?_ rfl (by simp [halone])
  change Inv s.main.kind s.main.stream s.stops _
  rw [halone]
  refine ⟨h.inv.flow.started h.start, { h.inv.phase with live := fun hd => ?_ },
    ⟨h.inv.stop.before, fun hn => absurd hn h.inv.stop.stage.drop.1, h.inv.stop.stage.drop.2,
      fun _ => rfl, fun _ => h.inv.stop.holds (.inr (cons_ne_nil _ _))⟩⟩
  rcases h.inv.phase.live hd with hended | hlive
  · exact .inl hended
  · by_cases hphase : s.view.phase = .stopping
    · exact (hbusy hd hphase).imp id fun hbusy => hlive.drop fun _ => hbusy
    · exact .inr (hlive.drop fun hs => absurd hs hphase)

theorem Stops.busy (h : Stops s x) (hactive : s.activeStream ≠ none) :
    s.main.kind ≠ .done ∨ s.listeners ≠ [] ∨ s.floating ≠ [] := by
  obtain ⟨j, hj⟩ := Option.ne_none_iff_exists'.mp hactive
  rcases h.inv.flow.awaited j hj with hstream | hmem | hmem
  · exact .inl (Main.kind_ne_done hstream)
  · exact .inr (.inl (ne_nil_of_mem hmem))
  · exact .inr (.inr (ne_nil_of_mem hmem))

theorem Stops.ne_initial (h : Stops s x) (hactive : s.activeStream = none) :
    s.main.kind ≠ .initial := by
  intro hkind
  obtain ⟨j, hj⟩ := Option.ne_none_iff_exists'.mp (h.waiting hkind)
  have := h.inv.flow.current hkind j hj
  rw [hactive] at this
  cases this

theorem Stops.accept (h : Stops s x) (hw : w.token.isSome = true) :
    Sound ({ s with stopAccepted := true }.ensureStopTerminalListener w) := by
  rcases ensureStopTerminalListener_cases (s := { s with stopAccepted := true }) hw h.start with
    ⟨heq, hover⟩ | ⟨hactive, generationId, heq⟩
  · rw [heq]
    refine h.returns true fun hd _ => ?_
    rcases hover with hdisposed | hterminal | hactive
    · rw [show s.disposed = true from hdisposed] at hd
      cases hd
    · exact .inl (.inl hterminal)
    · exact .inr (h.busy hactive)
  · rw [heq]
    have hlisten : Stops (s.listen generationId) x :=
      ⟨h.inv.listen (h.ne_initial hactive) h.start, h.alone, h.waiting, h.refused⟩
    exact hlisten.returns true fun _ _ => .inr (.inr (.inl (by simp [Session.listen])))

theorem Stops.rejected (h : Stops s x)
    (hbusy : s.disposed = false → s.view.phase = .stopping →
      Ended s.view ∨ s.main.kind ≠ .done ∨ s.listeners ≠ [] ∨ s.floating ≠ []) : Sound s := by
  have hreturns := h.returns false hbusy
  rwa [← h.unaccepted] at hreturns

/-- The `driveStop` waits once more. -/
theorem Stops.again {x' : Stop} {retried inflight : Bool} (h : Stops s x)
    (hx' : x' ≠ .refreshed false) (hunsent : stopsSent sent = 0 → s.stopAccepted = false)
    (hstage : Stage (stopsSent sent) [x'] retried) :
    Sound { s with
      sent
      stopRetriedAfterRefresh := retried
      inflightRefresh := inflight
      stops := s.stops ++ [x'] } := by
  have halone := h.alone
  refine h.sound rfl ?_ rfl (by simpa [halone] using hx'.symm)
  change Inv s.main.kind s.main.stream (s.stops ++ [x']) _
  rw [halone]
  refine ⟨h.inv.flow.started h.start, { h.inv.phase with live := fun hd => ?_ },
    ⟨fun hnone => absurd hnone h.start, hunsent, hstage, fun hacc => ?_,
      fun _ => h.inv.stop.holds (.inr (cons_ne_nil _ _))⟩⟩
  · exact (h.inv.phase.live hd).imp id fun hlive => hlive.replace (cons_ne_nil _ _)
  · cases h.unaccepted.symm.trans hacc

theorem Main.done_of_kind {main : Main} (h : main.kind = .done) : main = .done := by
  cases main with
  | done => rfl
  | refresh wait => cases wait <;> cases h
  | refreshed wait ok => cases wait <;> cases h
  | _ => cases h

theorem Stops.reject (h : Stops s .request) (hw : w.token.isSome = true)
    (hconflict : ∀ code, f = .api 409 code → Stopping s →
      s.main ≠ .done ∨ s.listeners ≠ [] ∨ s.floating ≠ []) : Sound (s.stopRejected w f) := by
  unfold Session.stopRejected
  split
  · next hdisposed =>
    refine h.rejected fun hd _ => ?_
    rw [hdisposed] at hd
    cases hd
  · next hdisposed =>
    split
    · next code =>
      refine h.rejected fun hd hphase => ?_
      by_cases hterminal : s.view.terminal = none
      · by_cases hauth : s.view.authFailed = true
        · exact .inl (.inr (.inr hauth))
        · exact .inr ((hconflict code rfl ⟨hd, hterminal, by simpa using hauth, hphase⟩).imp
            (fun hne hkind => hne (Main.done_of_kind hkind)) id)
      · exact .inl (.inl hterminal)
    · next code =>
      split
      · -- the second time that the token is not accepted
        have halone := h.alone
        refine h.sound rfl ?_ rfl (by simp [Session.failStop, halone])
        change Inv s.main.kind s.main.stream s.stops _
        rw [halone]
        refine ⟨h.inv.flow.started h.start,
          ⟨fun _ => .inr (.inl rfl), h.inv.phase.auth, nofun, fun _ => .inl (.inr (.inl nofun))⟩,
          ⟨fun hnone => absurd hnone h.start, fun hn => absurd hn h.inv.stop.stage.drop.1,
          h.inv.stop.stage.drop.2, fun _ => rfl, ?_⟩⟩
        rintro (hacc | hne)
        · cases h.unaccepted.symm.trans hacc
        · exact absurd rfl hne
      · next hretried =>
        have hstage : Stage (stopsSent s.sent) [.refresh] true := by
          have hstage := h.inv.stop.stage
          rw [show s.stopRetriedAfterRefresh = false by simpa using hretried] at hstage
          generalize stopsSent s.sent = n at hstage
          cases hstage
          exact .refreshing
        exact h.again nofun h.inv.stop.unsent hstage
    · split
      · next hover =>
        rw [Bool.or_eq_true, Option.isSome_iff_ne_none, Option.isSome_iff_ne_none] at hover
        refine h.rejected fun _ _ => ?_
        rcases hover with hterminal | hactive
        · exact .inl (.inl hterminal)
        · exact .inr (h.busy hactive)
      · next hover =>
        simp only [Bool.or_eq_true, not_or, Option.isSome_iff_ne_none, not_not] at hover
        obtain ⟨generationId, heq⟩ := openEventsStream_eq (s := s)
          (fun t => { t with floating := t.floating ++ [s.opened] }) id id hw h.start
        rw [heq]
        have hfloats : Stops { s.openStream (.events generationId s.lastEventId) s.lastEventId with
            listeners := s.listeners
            floating := s.floating ++ [s.opened] } .request :=
          ⟨h.inv.beside (h.ne_initial hover.2) h.start rfl (Subset.refl _)
            (subset_append_left _ _) (.inr (mem_append_right _ mem_cons_self)),
            h.alone, h.waiting, h.refused⟩
        exact hfloats.rejected fun _ _ => .inr (.inr (.inr (by simp)))

theorem Stops.resend (h : Stops s (.refreshed true)) : Sound s.driveStop := by
  obtain ⟨d, hd⟩ := Option.ne_none_iff_exists'.mp h.start
  unfold Session.driveStop
  rw [hd]
  have hsent : stopsSent (s.sent ++ [.stop d.generationId]) = stopsSent s.sent + 1 := by
    simp [stopsSent, Request.isStop]
  have hstage : Stage (stopsSent (s.sent ++ [.stop d.generationId])) [.request]
      s.stopRetriedAfterRefresh := by
    rw [hsent]
    have hstage := h.inv.stop.stage
    generalize stopsSent s.sent = n, s.stopRetriedAfterRefresh = retried at hstage
    cases hstage
    exact .resent
  refine h.again nofun (fun hn => ?_) hstage
  rw [hsent] at hn
  cases hn

theorem Stops.resumed {ok : Bool} (h : Stops s (.refreshed ok))
    (hrefused : ok = false → s.refreshFailed = true) : Sound (s.stopResumed ok) := by
  unfold Session.stopResumed
  cases ok with
  | false =>
    simp only [Bool.not_false, if_true]
    unfold Session.failAuth
    split
    · next hdisposed =>
      refine h.rejected fun hd _ => ?_
      rw [hdisposed] at hd
      cases hd
    · have hauth : Stops { s with view := { s.view with authFailed := true } } (.refreshed false) :=
        ⟨h.inv.failAuth (hrefused rfl), h.alone, h.waiting, h.refused⟩
      exact hauth.rejected fun _ _ => .inl (.inr (.inr rfl))
  | true =>
    simp only [Bool.not_true, Bool.false_eq_true, if_false]
    split
    · next hterminal =>
      exact h.rejected fun _ _ => .inl (.inl (Option.isSome_iff_ne_none.mp hterminal))
    · exact h.resend

/-- **The user asks for a stop**, for the first time. -/
theorem Sound.requestStop (h : Sound s) (honce : s.stopIgnored = false → stopsSent s.sent = 0) :
    Sound s.requestStop := by
  unfold Session.requestStop
  split
  · exact h
  · next hignored =>
    have hzero := honce (by simpa using hignored)
    simp only [Session.stopIgnored, Bool.or_eq_true, not_or, Bool.not_eq_true,
      Option.isSome_iff_ne_none, Option.isNone_iff_eq_none, decide_eq_true_eq, not_not]
      at hignored
    obtain ⟨⟨⟨hdisposed, hterminal⟩, hstart⟩, hphase⟩ := hignored
    obtain ⟨d, hd⟩ := Option.ne_none_iff_exists'.mp hstart
    have hstage := h.inv.stop.stage
    rw [hzero] at hstage
    have haccepted := h.inv.stop.unsent hzero
    have hstops : s.stops = [] ∧ s.stopRetriedAfterRefresh = false := by
      generalize s.stops = stops, s.stopRetriedAfterRefresh = retried at hstage
      cases hstage
      exact ⟨rfl, rfl⟩
    have hsent : stopsSent (s.sent ++ [.stop d.generationId]) = 1 := by
      change stopsSent s.sent = 0 at hzero
      rw [stopsSent, countP_append, ← stopsSent, hzero]
      rfl
    unfold Session.driveStop
    simp only [hd]
    refine ⟨?_, fun hkind hnone => absurd (h.waiting hkind hnone).1 hstart, ?_⟩
    · change Inv s.main.kind s.main.stream (s.stops ++ [.request]) _
      rw [hstops.1]
      refine ⟨h.inv.flow.started hstart,
        ⟨fun hne => absurd hterminal hne, h.inv.phase.auth, fun _ => .inl rfl,
          fun _ => .inr (.inr (.inl (cons_ne_nil _ _)))⟩,
        ⟨fun hnone => absurd hnone hstart, fun hn => ?_, ?_, fun hacc => ?_,
          fun _ => .inr (.inl rfl)⟩⟩
      · rw [hsent] at hn
        cases hn
      · change Stage (stopsSent (s.sent ++ [.stop d.generationId])) [.request]
          s.stopRetriedAfterRefresh
        rw [hsent, hstops.2]
        exact .sent
      · cases haccepted.symm.trans hacc
    · rintro (hwait | hstop)
      · exact h.refused (.inl hwait)
      · change _ ∈ s.stops ++ [.request] at hstop
        rw [hstops.1] at hstop
        simp at hstop

/-! ### A stream ends -/

theorem Inv.closeMain (h : Inv k (some j) stops s) : Inv k none stops (s.close j) where
  flow :=
    { before := h.flow.before
      applied := h.flow.applied
      alone := h.flow.alone
      current := fun _ _ hj => by cases hj
      awaited := fun j' hj' => by
        obtain ⟨hj', hne⟩ := Option.filter_eq_some_iff.mp hj'
        rcases h.flow.awaited j' hj' with hstream | hothers
        · rw [Option.some.inj hstream] at hne
          simp at hne
        · exact .inr hothers
      opened := fun st hst => by
        obtain ⟨hst, hne⟩ := mem_filter.mp hst
        rcases h.flow.opened st hst with hstream | hothers
        · rw [Option.some.inj hstream] at hne
          simp at hne
        · exact .inr hothers }
  phase := h.phase
  stop := h.stop

theorem FlowOk.closeBeside {floating : List ℕ}
    (h : FlowOk s.view.start s.view.appliedSeq k stream stops s.listeners s.floating
      s.activeStream s.streams) (hlisteners : ∀ j' ∈ s.listeners, j' ≠ j → j' ∈ listeners)
    (hfloating : ∀ j' ∈ s.floating, j' ≠ j → j' ∈ floating)
    (hsub : listeners ⊆ s.listeners ∧ floating ⊆ s.floating) (hj : stream ≠ some j) :
    FlowOk s.view.start s.view.appliedSeq k stream stops listeners floating
      (s.close j).activeStream (s.close j).streams where
  before hnone := by
    obtain ⟨hk, hstops, hl, hf⟩ := h.before hnone
    exact ⟨hk, hstops, eq_nil_of_subset_nil (hl ▸ hsub.1),
      eq_nil_of_subset_nil (hf ▸ hsub.2)⟩
  applied := h.applied
  alone hk := by
    obtain ⟨hl, hf⟩ := h.alone hk
    exact ⟨eq_nil_of_subset_nil (hl ▸ hsub.1), eq_nil_of_subset_nil (hf ▸ hsub.2)⟩
  current hk j' hj' := by
    refine Option.filter_eq_some_iff.mpr ⟨h.current hk j' hj', ?_⟩
    rw [decide_eq_true_eq]
    rintro rfl
    exact hj hj'
  awaited j' hj' := by
    obtain ⟨hj', hne⟩ := Option.filter_eq_some_iff.mp hj'
    have hne : j' ≠ j := by simpa using hne
    exact (h.awaited j' hj').imp id (Or.imp (hlisteners j' · hne) (hfloating j' · hne))
  opened st hst := by
    obtain ⟨hst, hne⟩ := mem_filter.mp hst
    have hne : st.number ≠ j := by simpa using hne
    exact (h.opened st hst).imp id (Or.imp (hlisteners _ · hne) (hfloating _ · hne))

theorem Live.other {l' f f' : List ℕ} (h : Live phase stopRequested k stops l f)
    (hphase : phase ≠ .stopping) : Live phase stopRequested k stops' l' f' := by
  cases phase with
  | stopping => exact absurd rfl hphase
  | _ => exact h

theorem Sound.listenerEnds (h : Sound s) (hm : Smooth s m) (hact : m.act = .ended j failure)
    (hmain : s.main.stream ≠ some j) (hj : j ∈ s.listeners) :
    Sound ({ s with listeners := s.listeners.erase j }.close j).listenerEnded := by
  have hflow : FlowOk s.view.start s.view.appliedSeq s.main.kind s.main.stream s.stops
      (s.listeners.erase j) s.floating (s.close j).activeStream (s.close j).streams :=
    h.inv.flow.closeBeside (fun j' hj' hne => (mem_erase_of_ne hne).mpr hj')
      (fun _ hj' _ => hj') ⟨erase_subset, Subset.refl _⟩ hmain
  unfold Session.listenerEnded
  split
  · next hover =>
    refine ⟨⟨hflow, ⟨h.inv.phase.final, h.inv.phase.auth, h.inv.phase.stopping, fun hd => ?_⟩,
      h.inv.stop⟩, h.waiting, h.refused⟩
    simp only [Bool.or_eq_true, Option.isSome_iff_ne_none, decide_eq_true_eq] at hover
    rcases hover with (hdisposed | hterminal) | hphase
    · cases hd.symm.trans hdisposed
    · exact .inl (.inl hterminal)
    · exact (h.inv.phase.live hd).imp id fun hlive => hlive.other hphase
  · next hover =>
    simp only [Bool.or_eq_true, not_or, Bool.not_eq_true, Option.isSome_iff_ne_none,
      decide_eq_true_eq, not_not] at hover
    obtain ⟨⟨hdisposed, hterminal⟩, hphase⟩ := hover
    refine ⟨⟨hflow, ⟨fun hne => absurd hterminal hne, h.inv.phase.auth, nofun,
      fun _ => .inl (.inr (.inl nofun))⟩, ⟨fun hnone => ⟨(h.inv.stop.before hnone).1, nofun⟩,
      h.inv.stop.unsent, h.inv.stop.stage, h.inv.stop.answered, fun _ => .inr (.inr ⟨rfl, ?_⟩)⟩⟩,
      h.waiting, h.refused⟩
    by_cases hauth : s.view.authFailed = true
    · exact .inr hauth
    · have hdone := hm.listener j failure hact hj
        ⟨hdisposed, hterminal, by simpa using hauth, hphase⟩
      exact .inl (congrArg Main.kind hdone)

theorem Sound.floatingEnds (h : Sound s) (hm : Smooth s m) (hact : m.act = .ended j failure)
    (hmain : s.main.stream ≠ some j) (hj : j ∈ s.floating) :
    Sound ({ s with floating := s.floating.erase j }.close j) := by
  have hflow : FlowOk s.view.start s.view.appliedSeq s.main.kind s.main.stream s.stops
      s.listeners (s.floating.erase j) (s.close j).activeStream (s.close j).streams :=
    h.inv.flow.closeBeside (fun _ hj' _ => hj')
      (fun j' hj' hne => (mem_erase_of_ne hne).mpr hj') ⟨Subset.refl _, erase_subset⟩
      hmain
  refine ⟨⟨hflow, ⟨h.inv.phase.final, h.inv.phase.auth, h.inv.phase.stopping, fun hd => ?_⟩,
    h.inv.stop⟩, h.waiting, h.refused⟩
  rcases h.inv.phase.live hd with hended | hlive
  · exact .inl hended
  · by_cases hphase : s.view.phase = .stopping
    · by_cases hover : s.view.terminal = none ∧ s.view.authFailed = false
      · have hothers := hm.floating j failure hact hj ⟨hd, hover.1, hover.2, hphase⟩
        refine .inr ?_
        change Live s.view.phase _ _ _ _ _
        rw [hphase]
        exact hothers.imp (fun hne hkind => hne (Main.done_of_kind hkind)) id
      · rw [not_and_or, Bool.not_eq_false] at hover
        exact .inl (hover.imp id .inr)
    · exact .inr (hlive.other hphase)

/-- **The stream of a driver ends.** -/
theorem Sound.mainEnds (h : Sound s) (hm : Smooth s m) (hact : m.act = .ended j failure)
    (hj : s.main.stream = some j) :
    Sound (({ s with main := .done }.close j).mainEnded m.reading failure s.main) := by
  have hinv := h.inv
  rw [hj] at hinv
  have hclosed : Driver s.main.kind ({ s with main := .done }.close j) :=
    ⟨⟨hinv.closeMain.flow, hinv.closeMain.phase, hinv.closeMain.stop⟩, rfl,
      fun hstop => h.refused (.inr hstop)⟩
  cases hmain : s.main with
  | initial k =>
    rw [hmain] at hclosed
    have hphase : ¬ Stopping ({ s with main := .done }.close j) := fun hs =>
      hm.initial j failure hact (by rw [hmain]; rw [hmain] at hj; cases hj; rfl)
        ⟨hs.disposed, hs.terminal, hs.auth, hs.phase⟩
    cases failure with
    | none => exact Driver.initialEnded hclosed hphase
    | some f => exact Driver.initialFailed hclosed hphase
  | reconnect k =>
    rw [hmain] at hclosed
    cases failure with
    | none => exact Driver.reconnectEnded hclosed hm.token
    | some f =>
      refine Driver.reconnectFailed hclosed hm.token fun hs => ?_
      exact hm.limit j f hact (by rw [hmain]; rw [hmain] at hj; cases hj; rfl)
        ⟨hs.disposed, hs.terminal, hs.auth, hs.phase⟩
  | _ =>
    rw [hmain] at hj
    cases hj

/-! ### Every move -/

theorem Main.endRefresh_kind (ok : Bool) (main : Main) : (main.endRefresh ok).kind = main.kind := by
  cases main <;> rfl

theorem Main.endRefresh_stream (ok : Bool) (main : Main) :
    (main.endRefresh ok).stream = main.stream := by
  cases main <;> rfl

theorem Stage.endRefresh (ok : Bool) (h : Stage n stops retried) :
    Stage n (stops.map (Stop.endRefresh ok)) retried := by
  cases h with
  | unsent => exact .unsent
  | sent => exact .sent
  | answered => exact .answered
  | refreshing => exact .refreshed ok
  | refreshed ok' => exact .refreshed ok'
  | unauthorized => exact .unauthorized
  | resent => exact .resent
  | reanswered => exact .reanswered

theorem Sound.refreshEnds (h : Sound s) (ok : Bool) : Sound { s with
    inflightRefresh := false
    main := s.main.endRefresh ok
    stops := s.stops.map (Stop.endRefresh ok)
    refreshFailed := s.refreshFailed || !ok } := by
  have hnil : ∀ {l : List Stop}, l.map (Stop.endRefresh ok) ≠ [] → l ≠ [] := by
    rintro l hne rfl
    exact hne rfl
  refine ⟨?_, fun hkind hnone => ?_, ?_⟩
  · change Inv (s.main.endRefresh ok).kind (s.main.endRefresh ok).stream
      (s.stops.map (Stop.endRefresh ok)) _
    rw [Main.endRefresh_kind, Main.endRefresh_stream]
    refine ⟨⟨fun hnone => ?_, h.inv.flow.applied, h.inv.flow.alone, h.inv.flow.current,
      h.inv.flow.awaited, h.inv.flow.opened⟩, ⟨h.inv.phase.final, fun hauth => ?_,
      h.inv.phase.stopping, fun hd => ?_⟩, ⟨h.inv.stop.before, h.inv.stop.unsent,
      h.inv.stop.stage.endRefresh ok, fun hacc => ?_, fun hs => h.inv.stop.holds (hs.imp id hnil)⟩⟩
    · obtain ⟨hk, hstops, hothers⟩ := h.inv.flow.before hnone
      exact ⟨hk, by rw [hstops]; rfl, hothers⟩
    · change (s.refreshFailed || !ok) = true
      rw [h.inv.phase.auth hauth, Bool.true_or]
    · refine (h.inv.phase.live hd).imp id fun hlive => ?_
      by_cases hphase : s.view.phase = .stopping
      · change Live s.view.phase _ _ _ _ _
        rw [hphase] at hlive ⊢
        exact hlive.imp id (Or.imp (fun hne heq => hne (map_eq_nil_iff.mp heq)) id)
      · exact hlive.other hphase
    · rw [h.inv.stop.answered hacc]
      rfl
  · change (s.main.endRefresh ok).kind = _ at hkind
    change (s.main.endRefresh ok).stream = _ at hnone
    rw [Main.endRefresh_kind] at hkind
    rw [Main.endRefresh_stream] at hnone
    exact h.waiting hkind hnone
  · change _ → (s.refreshFailed || !ok) = true
    cases ok with
    | false => exact fun _ => by simp
    | true =>
      intro hfailed
      rw [h.refused ?_, Bool.true_or]
      rcases hfailed with ⟨wait, hwait⟩ | hstop
      · refine .inl ⟨wait, ?_⟩
        change s.main.endRefresh true = _ at hwait
        cases hmain : s.main <;> rw [hmain] at hwait <;> first | exact hwait | cases hwait
      · obtain ⟨t, ht, heq⟩ := mem_map.mp hstop
        cases t <;> first | exact .inr (heq ▸ ht) | cases heq

theorem Stage.singleton (h : Stage n stops retried) (hx : x ∈ stops) : stops = [x] := by
  cases h with
  | unsent => cases hx
  | answered => cases hx
  | unauthorized => cases hx
  | reanswered => cases hx
  | _ => rw [mem_singleton.mp hx]

theorem Sound.goesOn (h : Sound s) (hx : x ∈ s.stops) :
    Stops { s with stops := s.stops.erase x } x := by
  have hstops := h.inv.stop.stage.singleton hx
  have hinv := h.inv
  rw [hstops] at hinv
  refine ⟨⟨hinv.flow, hinv.phase, hinv.stop⟩, ?_, fun hkind hnone => ?_,
    fun hwait => h.refused (.inl hwait)⟩
  · change s.stops.erase x = []
    rw [hstops]
    simp
  · have hbefore := (hinv.flow.before (h.waiting hkind hnone).1).2.1
    cases hbefore

theorem Sound.driver (h : Sound s) (hnone : s.main.stream = none) :
    Driver s.main.kind { s with main := .done } := by
  have hinv := h.inv
  rw [hnone] at hinv
  exact ⟨⟨hinv.flow, hinv.phase, hinv.stop⟩, rfl, fun hstop => h.refused (.inr hstop)⟩

/-- **What a smooth move preserves.** -/
theorem Sound.step (h : Sound s) (hstart : StartNumbered m) (hm : Smooth s m)
    (ht : s.step m = some t) : Sound t := by
  have hrefused : .refreshed false ∈ s.stops → s.refreshFailed = true :=
    fun hstop => h.refused (.inr hstop)
  unfold Session.step at ht
  split at ht
  · next k message hact =>
    split at ht
    · next hopen =>
      cases ht
      obtain ⟨st, hst, hk⟩ := any_eq_true.mp hopen.2
      exact h.deliver (hstart k message hact) ⟨st, hst, of_decide_eq_true hk⟩
    · cases ht
  · next k failure hact =>
    split at ht
    · next hstream =>
      cases ht
      exact h.mainEnds hm hact hstream
    · next hstream =>
      split at ht
      · next hmem =>
        cases ht
        exact h.listenerEnds hm hact hstream hmem
      · split at ht
        · next hmem =>
          cases ht
          exact h.floatingEnds hm hact hstream hmem
        · cases ht
  · have hwaiting := h.waiting
    have hdriver := h.driver
    split at ht
    · next hmain =>
      cases ht
      rw [hmain] at hdriver hwaiting
      exact (hdriver rfl).initialLoop hm.token (hwaiting rfl rfl).1 (hwaiting rfl rfl).2
    · next hmain =>
      cases ht
      rw [hmain] at hdriver
      exact (hdriver rfl).reconnectLoop hm.token
    · cases ht
  · split at ht
    · cases ht
      exact h.refreshEnds _
    · cases ht
  · have hwaiting := h.waiting
    have hdriver := h.driver
    split at ht
    · next wait ok hmain =>
      cases ht
      rw [hmain] at hdriver hwaiting
      refine (hdriver rfl).resumed hm.token (fun hkind => hwaiting hkind rfl) ?_
      rintro rfl
      exact h.refused (.inl ⟨wait, hmain⟩)
    · cases ht
  · next failure hact =>
    split at ht
    · next hmem =>
      have hstops := h.goesOn hmem
      dsimp only at ht
      split at ht
      · cases ht
        exact hstops.accept hm.token
      · next f =>
        cases ht
        refine hstops.reject hm.token fun code hf hs => ?_
        subst hf
        exact hm.conflict code hact ⟨hs.disposed, hs.terminal, hs.auth, hs.phase⟩
    · cases ht
  · next ok hact =>
    split at ht
    · next hmem =>
      cases ht
      refine (h.goesOn hmem).resumed ?_
      rintro rfl
      exact hrefused hmem
    · cases ht
  · next hact =>
    cases ht
    exact h.requestStop fun hignored => hm.once hact hignored
  · cases ht
    exact ⟨⟨h.inv.flow, ⟨h.inv.phase.final, h.inv.phase.auth, h.inv.phase.stopping,
      fun hd => by cases hd⟩, h.inv.stop⟩, h.waiting, h.refused⟩

end RagQs.Client
