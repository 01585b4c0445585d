import RagQs.Client.Session

/-!
# What the functions of a session leave alone

A relation between two states that allows the updates the functions are made of holds between the
states before and after each of them.

## Main definitions

* `Kind`, `Main.kind` — the driver that is under way.
* `Frame` — the relation allows the updates of the reconnection and the stop.
-/

namespace RagQs.Client

/-- The driver that is under way. -/
inductive Kind
  | initial
  | reconnect
  | done
  deriving DecidableEq

/-- The driver of a wait. -/
def Wait.kind : Wait → Kind
  | .initial => .initial
  | .reconnect => .reconnect
  | .reconnectAuth => .reconnect

/-- The driver that is under way. -/
def Main.kind : Main → Kind
  | .initial _ => .initial
  | .initialSleep => .initial
  | .reconnect _ => .reconnect
  | .reconnectSleep => .reconnect
  | .refresh wait => wait.kind
  | .refreshed wait _ => wait.kind
  | .done => .done

/-- The relation allows the updates of the reconnection and the stop. -/
structure Frame (R : Session → Session → Prop) : Prop where
  refl : ∀ s, R s s
  trans : ∀ {s t u}, R s t → R t u → R s u
  view : ∀ s v, v.toContent = s.view.toContent → v.appliedSeq = s.view.appliedSeq →
    R s { s with view := v }
  main : ∀ s main inflightRefresh, main.kind ≠ .initial → R s { s with main, inflightRefresh }
  reconnect : ∀ s disconnectAt reconnectAttempts, R s { s with disconnectAt, reconnectAttempts }
  stop : ∀ s stops stopRetriedAfterRefresh stopAccepted inflightRefresh,
    R s { s with stops, stopRetriedAfterRefresh, stopAccepted, inflightRefresh }
  sends : ∀ s generationId, R s { s with sent := s.sent ++ [.stop generationId] }
  beside : ∀ s listeners floating, R s { s with listeners, floating }
  opens : ∀ s generationId, R s (s.openStream (.events generationId s.lastEventId) s.lastEventId)
  closes : ∀ s k, R s (s.close k)

namespace Frame

variable {R : Session → Session → Prop} {s : Session} {w : Reading}

theorem setPhase (h : Frame R) (phase : Phase) : R s (s.setPhase phase) := h.view _ _ rfl rfl

theorem failAuth (h : Frame R) : R s s.failAuth := by
  unfold Session.failAuth
  split
  · exact h.refl s
  · exact h.view _ _ rfl rfl

theorem setRequestError (h : Frame R) (code : String) : R s (s.setRequestError code) := by
  unfold Session.setRequestError
  split
  · exact h.refl s
  · exact h.view _ _ rfl rfl

theorem failStop (h : Frame R) (code : String) : R s (s.failStop code) := h.view _ _ rfl rfl

theorem sleep (h : Frame R) {main : Main} (hmain : main.kind ≠ .initial) : R s (s.sleep main) := by
  unfold Session.sleep
  split
  · exact h.refl s
  · exact h.main s main _ hmain

theorem refreshToken (h : Frame R) {wait : Wait} (hwait : wait.kind ≠ .initial) :
    R s (s.refreshToken wait) := h.main s (.refresh wait) true hwait

theorem openEventsStream (h : Frame R) {opened failed returned : Session → Session}
    (hopened : ∀ t, R t (opened t)) (hfailed : ∀ t, R t (failed t))
    (hreturned : ∀ t, R t (returned t)) : R s (s.openEventsStream w opened failed returned) := by
  unfold Session.openEventsStream
  split
  · exact h.trans h.failAuth (hfailed _)
  · split
    · exact hreturned s
    · exact h.trans (h.opens s _) (hopened _)

theorem listenerEnded (h : Frame R) : R s s.listenerEnded := by
  unfold Session.listenerEnded
  split
  · exact h.refl s
  · exact h.failStop _

theorem awaitTerminalOnce (h : Frame R) : R s (s.awaitTerminalOnce w) := by
  unfold Session.awaitTerminalOnce
  split
  · exact h.refl s
  · exact h.openEventsStream (fun _ => h.beside _ _ _) (fun _ => h.listenerEnded)
      fun _ => h.listenerEnded

theorem ensureStopTerminalListener (h : Frame R) : R s (s.ensureStopTerminalListener w) := by
  unfold Session.ensureStopTerminalListener
  split
  · exact h.refl s
  · exact h.awaitTerminalOnce

theorem failReconnect (h : Frame R) : R s (s.failReconnect w) := by
  unfold Session.failReconnect
  split
  · exact h.refl s
  · exact h.trans (h.setPhase _) h.awaitTerminalOnce

theorem retryReconnect (h : Frame R) : R s (s.retryReconnect w) := by
  unfold Session.retryReconnect
  refine h.trans (h.trans (h.reconnect s s.disconnectAt (s.reconnectAttempts + 1))
    (h.view _ { s.view with reconnectAttempts := s.reconnectAttempts + 1 } rfl rfl)) ?_
  dsimp only
  split
  · exact h.failReconnect
  · exact h.sleep nofun

theorem reconnectEnded (h : Frame R) : R s (s.reconnectEnded w) := by
  unfold Session.reconnectEnded
  split
  · exact h.refl s
  · split
    · exact h.ensureStopTerminalListener
    · exact h.retryReconnect

theorem reconnectFailed (h : Frame R) (f : Failure) : R s (s.reconnectFailed w f) := by
  unfold Session.reconnectFailed
  split
  · exact h.refl s
  · split
    · exact h.refreshToken nofun
    · exact h.retryReconnect

theorem reconnectLoop (h : Frame R) : R s (s.reconnectLoop w) := by
  unfold Session.reconnectLoop
  split
  · exact h.refl s
  · split
    · exact h.ensureStopTerminalListener
    · split
      · exact h.failReconnect
      · exact h.trans (h.setPhase _) (h.openEventsStream (fun t => h.main t _ _ nofun)
          (fun _ => h.reconnectFailed _) fun _ => h.reconnectEnded)

theorem enterReconnect (h : Frame R) : R s (s.enterReconnect w) := by
  unfold Session.enterReconnect
  split
  · exact h.refl s
  · exact h.trans (h.trans (h.reconnect s (some w.now) 0)
      (h.view _ { s.view with phase := .reconnecting, reconnectAttempts := 0 } rfl rfl))
      (h.refreshToken nofun)

theorem driveStop (h : Frame R) : R s s.driveStop := by
  unfold Session.driveStop
  split
  · exact h.trans (h.sends s _) (h.stop _ (s.stops ++ [.request]) _ _ _)
  · exact h.refl s

theorem requestStop (h : Frame R) : R s s.requestStop := by
  unfold Session.requestStop
  split
  · exact h.refl s
  · exact h.trans (h.view s { s.view with phase := .stopping, stopRequested := true } rfl rfl)
      h.driveStop

theorem stopRejected (h : Frame R) (f : Failure) : R s (s.stopRejected w f) := by
  unfold Session.stopRejected
  split
  · exact h.refl s
  · split
    · exact h.refl s
    · split
      · exact h.failStop _
      · exact h.stop _ _ _ _ _
    · split
      · exact h.refl s
      · exact h.openEventsStream (fun t => h.beside t _ _) h.refl h.refl

theorem stopResumed (h : Frame R) (ok : Bool) : R s (s.stopResumed ok) := by
  unfold Session.stopResumed
  split
  · exact h.failAuth
  · split
    · exact h.refl s
    · exact h.driveStop

theorem resumed (h : Frame R) {wait : Wait} (hwait : wait.kind ≠ .initial) (ok : Bool) :
    R s (s.resumed w ok wait) := by
  cases wait with
  | initial => exact absurd rfl hwait
  | reconnect =>
    simp only [Session.resumed]
    split
    · exact h.reconnectLoop
    · exact h.failAuth
  | reconnectAuth =>
    simp only [Session.resumed]
    split
    · exact h.trans (h.reconnect s s.disconnectAt (s.reconnectAttempts + 1)) (h.sleep nofun)
    · exact h.failAuth

end Frame

end RagQs.Client
