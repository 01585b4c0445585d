import RagQs.Client.View

/-!
# A generation session of the browser

One question, retry or recovery, from the first request to a terminal.  The code is a handful of
asynchronous functions that share the view and the streams: the state says what each of them
awaits, and a move is what ends one of the waits.

## Main definitions

* `Session`, `Main`, `Stop` — the fields, and where the functions are.
* `Session.initialFailed`, `Session.reconnectLoop`, `Session.stopRejected` — the functions between
  two waits.
* `launch`, `Act`, `Move`, `Session.step` — the start, what may happen, and what it does.
-/

namespace RagQs.Client

/-- `GenerationConfig`, without the delays of the timers. -/
structure Config where
  gracePeriodMs : ℕ := 60000
  maxReconnectAttempts : ℕ := 10
  preStartMaxRetries : ℕ := 3
  sessionDeadlineMs : Option ℕ := none

/-- `LaunchMode` -/
inductive LaunchMode
  | ask (conversationId : String) (body : Val)
  | retry (failedGenerationId : String)
  | recover (conversationId generationId : String) (lastEventId : Option ℕ)

/-- A call of the API. -/
inductive Request
  | ask (conversationId : String) (body : Val) (idempotencyKey : String)
  | retry (failedGenerationId idempotencyKey : String)
  | events (generationId : String) (lastEventId : Option ℕ)
  | stop (generationId : String)

/-- How a call fails: without a status, or with an `ApiError`. -/
inductive Failure
  | network
  | api (status : ℕ) (code : String)

/-- Which wait for a refresh of the token the drivers are in. -/
inductive Wait
  /-- `handlePreStartFailure` -/
  | initial
  /-- The start of `driveReconnect`. -/
  | reconnect
  /-- `driveReconnect` after a 401. -/
  | reconnectAuth
  deriving DecidableEq

/-- Where `driveInitial` is, and then `driveReconnect`, which it ends with. -/
inductive Main
  /-- `driveInitial` awaits its stream. -/
  | initial (stream : ℕ)
  | initialSleep
  /-- `driveReconnect` awaits its stream. -/
  | reconnect (stream : ℕ)
  | reconnectSleep
  | refresh (wait : Wait)
  /-- The refresh has ended. -/
  | refreshed (wait : Wait) (ok : Bool)
  /-- It has returned. -/
  | done
  deriving DecidableEq

/-- Where a `driveStop` is. -/
inductive Stop
  /-- It awaits the response. -/
  | request
  | refresh
  /-- The refresh has ended. -/
  | refreshed (ok : Bool)
  deriving DecidableEq

/-- The stream that is awaited. -/
def Main.stream : Main → Option ℕ
  | .initial k => some k
  | .reconnect k => some k
  | _ => none

/-- A stream that is open, with the `Last-Event-ID` of its request and what it has delivered. -/
structure Stream where
  number : ℕ
  lastEventId : Option ℕ
  delivered : List SseEventMessage := []

/-- `GenerationSession` -/
structure Session where
  config : Config
  view : View
  mode : LaunchMode
  idempotencyKey : String
  disposed : Bool := false
  preStartAttempts : ℕ := 0
  reconnectAttempts : ℕ := 0
  disconnectAt : Option ℕ := none
  startedAt : ℕ
  inflightRefresh : Bool := false
  activeStream : Option ℕ := none
  stopRetriedAfterRefresh : Bool := false
  main : Main := .done
  /-- The calls of `driveStop` that have not returned. -/
  stops : List Stop := []
  /-- The streams that a call of `awaitTerminalOnce` awaits. -/
  listeners : List ℕ := []
  /-- The streams that `driveStop` has opened, which nothing awaits. -/
  floating : List ℕ := []
  streams : List Stream := []
  /-- How many streams have been opened. -/
  opened : ℕ := 0
  /-- What has been sent, the latest last. -/
  sent : List Request := []
  /-- What the streams have delivered, the latest last. -/
  received : List SseEventMessage := []
  /-- A refresh has failed. -/
  refreshFailed : Bool := false
  /-- A stop has been accepted. -/
  stopAccepted : Bool := false

/-- What the code reads while it runs: the clock, and the token for the stream it opens. -/
structure Reading where
  now : ℕ
  token : Option String

namespace Session

variable (s : Session) (w : Reading)

/-! ### The view and the waits -/

def setPhase (phase : Phase) : Session := { s with view := { s.view with phase } }

/-- `failAuth` -/
def failAuth : Session :=
  if s.disposed then s else { s with view := { s.view with authFailed := true } }

/-- `setRequestError` -/
def setRequestError (code : String) : Session :=
  if s.disposed then s else { s with view := { s.view with requestError := some code } }

/-- A stop comes to nothing. -/
def failStop (code : String) : Session :=
  { s with
    view := { s.view with phase := .failed, stopRequested := false, requestError := some code } }

/-- `refreshToken`, in one of the drivers -/
def refreshToken (wait : Wait) : Session :=
  { s with inflightRefresh := true, main := .refresh wait }

/-- `sleep` -/
def sleep (main : Main) : Session := if s.disposed then s else { s with main }

/-- A stream is opened. -/
def openStream (r : Request) (lastEventId : Option ℕ) : Session :=
  { s with
    activeStream := some s.opened
    opened := s.opened + 1
    streams := s.streams ++ [Stream.mk s.opened lastEventId []]
    sent := s.sent ++ [r] }

/-! ### The streams of events -/

/-- The generation whose events are asked for. -/
def generationId : Option String :=
  match s.view.start, s.mode with
  | some d, _ => some d.generationId
  | none, .recover _ generationId _ => some generationId
  | none, _ => none

/-- The `Last-Event-ID` of `openEventsStream`. -/
def lastEventId : Option ℕ := if 0 < s.view.appliedSeq then some s.view.appliedSeq else none

/-- `openEventsStream`, and what is done with the stream, or where it fails or returns at once. -/
def openEventsStream (opened : Session → Session) (failed returned : Session → Session) :
    Session :=
  match w.token with
  | none => failed s.failAuth
  | some _ =>
    match s.generationId with
    | none => returned s
    | some generationId =>
      opened (s.openStream (.events generationId s.lastEventId) s.lastEventId)

/-- The rest of `awaitTerminalOnce`. -/
def listenerEnded : Session :=
  if s.disposed || s.view.terminal.isSome || s.view.phase ≠ .stopping then s
  else s.failStop "network_error"

/-- `awaitTerminalOnce` -/
def awaitTerminalOnce : Session :=
  if s.disposed || s.view.terminal.isSome then s
  else
    s.openEventsStream w (fun t => { t with listeners := t.listeners ++ [s.opened] })
      listenerEnded listenerEnded

/-- `ensureStopTerminalListener` -/
def ensureStopTerminalListener : Session :=
  if s.disposed || s.view.terminal.isSome || s.activeStream.isSome then s
  else s.awaitTerminalOnce w

/-! ### The reconnection -/

/-- `failReconnect` -/
def failReconnect : Session :=
  if s.disposed then s else (s.setPhase .reconnectFailed).awaitTerminalOnce w

/-- `withinGrace` -/
def withinGrace : Bool :=
  match s.disconnectAt with
  | some disconnectAt => w.now < disconnectAt + s.config.gracePeriodMs
  | none => true

/-- The session of the page is over. -/
def pastDeadline : Bool :=
  match s.config.sessionDeadlineMs with
  | some deadline => s.startedAt + deadline ≤ w.now
  | none => false

/-- The limits of the reconnection, once there has been one attempt more. -/
def atLimit : Bool :=
  !s.withinGrace w || decide (s.config.maxReconnectAttempts ≤ s.reconnectAttempts + 1) ||
    s.pastDeadline w

/-- An attempt has come to nothing. -/
def retryReconnect : Session :=
  let t := { s with
    reconnectAttempts := s.reconnectAttempts + 1
    view := { s.view with reconnectAttempts := s.reconnectAttempts + 1 } }
  if s.atLimit w then t.failReconnect w else t.sleep .reconnectSleep

/-- The stream of the reconnection has ended. -/
def reconnectEnded : Session :=
  if s.disposed || s.view.terminal.isSome || s.view.authFailed then s
  else if s.view.phase = .stopping then s.ensureStopTerminalListener w
  else s.retryReconnect w

/-- The stream of the reconnection has failed. -/
def reconnectFailed (f : Failure) : Session :=
  if s.disposed || s.view.terminal.isSome || s.view.authFailed then s
  else
    match f with
    | .api 401 _ => s.refreshToken .reconnectAuth
    | _ => s.retryReconnect w

/-- The loop of `driveReconnect`, from its top. -/
def reconnectLoop : Session :=
  if s.disposed || s.view.terminal.isSome || s.view.authFailed then s
  else if s.view.phase = .stopping then s.ensureStopTerminalListener w
  else if !s.withinGrace w || s.pastDeadline w then s.failReconnect w
  else
    (s.setPhase .reconnecting).openEventsStream w (fun t => { t with main := .reconnect s.opened })
      (fun t => t.reconnectFailed w (.api 401 "invalid_token")) (fun t => t.reconnectEnded w)

/-- `enterReconnect` -/
def enterReconnect : Session :=
  if s.disposed || s.view.authFailed then s
  else
    { s with
      disconnectAt := some w.now
      reconnectAttempts := 0
      view := { s.view with phase := .reconnecting, reconnectAttempts := 0 } }.refreshToken
        .reconnect

/-! ### The first stream -/

/-- An attempt before the start has come to nothing. -/
def retryInitial : Session :=
  let t := { s with preStartAttempts := s.preStartAttempts + 1 }
  if s.config.preStartMaxRetries < s.preStartAttempts + 1 then t.setRequestError "network_error"
  else t.sleep .initialSleep

/-- The first stream has failed. -/
def initialFailed (f : Failure) : Session :=
  if s.disposed || s.view.terminal.isSome then s
  else if s.view.start.isSome then s.enterReconnect w
  else
    match f with
    | .network => s.retryInitial
    | .api 401 _ => s.refreshToken .initial
    | .api _ code => s.setRequestError code

/-- The first stream has ended. -/
def initialEnded : Session :=
  if s.disposed || s.view.terminal.isSome then s
  else if s.view.start.isSome then s.enterReconnect w
  else s.retryInitial

/-- The request of the first stream, and its `Last-Event-ID`. -/
def initialRequest : Request × Option ℕ :=
  match s.mode with
  | .ask conversationId body => (.ask conversationId body s.idempotencyKey, none)
  | .retry failedGenerationId => (.retry failedGenerationId s.idempotencyKey, none)
  | .recover _ generationId lastEventId => (.events generationId lastEventId, lastEventId)

/-- The loop of `driveInitial`, from its top. -/
def initialLoop : Session :=
  if s.disposed then s
  else
    let t := if s.view.phase = .stopping then s else s.setPhase .connecting
    match w.token with
    | none => t.failAuth.initialFailed w (.api 401 "invalid_token")
    | some _ =>
      { t.openStream t.initialRequest.1 t.initialRequest.2 with main := .initial s.opened }

/-! ### The stop -/

/-- `driveStop`, up to the response. -/
def driveStop : Session :=
  match s.view.start with
  | some d =>
    { s with sent := s.sent ++ [.stop d.generationId], stops := s.stops ++ [.request] }
  | none => s

/-- `requestStop` does nothing. -/
def stopIgnored : Bool :=
  s.disposed || s.view.terminal.isSome || s.view.start.isNone || s.view.phase = .stopping

/-- `requestStop` -/
def requestStop : Session :=
  if s.stopIgnored then s
  else { s with view := { s.view with phase := .stopping, stopRequested := true } }.driveStop

/-- The stop has been rejected. -/
def stopRejected (f : Failure) : Session :=
  if s.disposed then s
  else
    match f with
    | .api 409 _ => s
    | .api 401 code =>
      if s.stopRetriedAfterRefresh then s.failStop code
      else
        { s with
          stopRetriedAfterRefresh := true
          inflightRefresh := true
          stops := s.stops ++ [.refresh] }
    | _ =>
      if s.view.terminal.isSome || s.activeStream.isSome then s
      else
        s.openEventsStream w (fun t => { t with floating := t.floating ++ [s.opened] }) id id

/-! ### After a wait -/

/-- The stream of a driver has ended, or failed. -/
def mainEnded (failure : Option Failure) : Main → Session
  | .initial _ => failure.elim (s.initialEnded w) (s.initialFailed w)
  | .reconnect _ => failure.elim (s.reconnectEnded w) (s.reconnectFailed w)
  | _ => s

/-- The refresh that a driver awaits has ended. -/
def resumed (ok : Bool) : Wait → Session
  | .initial => if ok then s.retryInitial else s.failAuth
  | .reconnect => if ok then s.reconnectLoop w else s.failAuth
  | .reconnectAuth =>
    if ok then { s with reconnectAttempts := s.reconnectAttempts + 1 }.sleep .reconnectSleep
    else s.failAuth

/-- The refresh that a `driveStop` awaits has ended. -/
def stopResumed (ok : Bool) : Session :=
  if !ok then s.failAuth else if s.view.terminal.isSome then s else s.driveStop

end Session

/-- What may happen. -/
inductive Act
  /-- A stream delivers an event. -/
  | event (stream : ℕ) (m : SseEventMessage)
  /-- A stream ends, or fails. -/
  | ended (stream : ℕ) (failure : Option Failure)
  /-- The timer of a driver fires. -/
  | fires
  /-- The refresh ends. -/
  | refreshEnds (ok : Bool)
  /-- A driver goes on after a refresh. -/
  | resumes
  /-- The stop is answered. -/
  | stopAnswered (failure : Option Failure)
  /-- A `driveStop` goes on after a refresh. -/
  | stopResumes (ok : Bool)
  | requestStop
  | dispose

/-- What happens, with what the code reads meanwhile. -/
structure Move where
  act : Act
  reading : Reading

/-- A wait for a refresh that has ended. -/
def Main.endRefresh (ok : Bool) : Main → Main
  | .refresh wait => .refreshed wait ok
  | m => m

/-- A wait for a refresh that has ended. -/
def Stop.endRefresh (ok : Bool) : Stop → Stop
  | .refresh => .refreshed ok
  | t => t

namespace Session

variable (s : Session)

/-- A stream is no longer open. -/
def close (k : ℕ) : Session :=
  { s with
    streams := s.streams.filter fun st => st.number ≠ k
    activeStream := s.activeStream.filter fun k' => k' ≠ k }

/-- A stream has delivered an event. -/
def deliver (k : ℕ) (m : SseEventMessage) : Session :=
  { s with
    view := s.view.applyEvent m
    streams := s.streams.map fun st =>
      if st.number = k then { st with delivered := st.delivered ++ [m] } else st
    received := s.received ++ [m] }

/-- What happens to the session. -/
def step (m : Move) : Option Session :=
  match m.act with
  | .event k message =>
    if ¬ s.disposed ∧ s.streams.any fun st => st.number = k then some (s.deliver k message)
    else none
  | .ended k failure =>
    if s.main.stream = some k then
      some (({ s with main := .done }.close k).mainEnded m.reading failure s.main)
    else if k ∈ s.listeners then
      some ({ s with listeners := s.listeners.erase k }.close k).listenerEnded
    else if k ∈ s.floating then some ({ s with floating := s.floating.erase k }.close k)
    else none
  | .fires =>
    match s.main with
    | .initialSleep => some ({ s with main := .done }.initialLoop m.reading)
    | .reconnectSleep => some ({ s with main := .done }.reconnectLoop m.reading)
    | _ => none
  | .refreshEnds ok =>
    if s.inflightRefresh then
      some { s with
        inflightRefresh := false
        main := s.main.endRefresh ok
        stops := s.stops.map (Stop.endRefresh ok)
        refreshFailed := s.refreshFailed || !ok }
    else none
  | .resumes =>
    match s.main with
    | .refreshed wait ok => some ({ s with main := .done }.resumed m.reading ok wait)
    | _ => none
  | .stopAnswered failure =>
    if .request ∈ s.stops then
      let t := { s with stops := s.stops.erase .request }
      match failure with
      | none => some ({ t with stopAccepted := true }.ensureStopTerminalListener m.reading)
      | some f => some (t.stopRejected m.reading f)
    else none
  | .stopResumes ok =>
    if .refreshed ok ∈ s.stops then
      some ({ s with stops := s.stops.erase (.refreshed ok) }.stopResumed ok)
    else none
  | .requestStop => some s.requestStop
  | .dispose => some { s with disposed := true }

end Session

/-- The content of a session that has not heard anything. -/
def emptyContent (id : String) : Content := { id }

/-- `launchAsk`, `launchRetry` and `launchRecover` -/
def launch (config : Config) (mode : LaunchMode) (id idempotencyKey : String) (w : Reading) :
    Session :=
  Session.initialLoop
    { config
      view := { emptyContent id with phase := .connecting }
      mode
      idempotencyKey
      startedAt := w.now } w

end RagQs.Client
