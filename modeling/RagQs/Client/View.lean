import RagQs.Platform.Value

/-!
# What a tab shows of a generation

The view that a generation session of the browser keeps, and the handlers of the events that a
stream delivers.

## Main definitions

* `GenerationEvent`, `SseEventMessage` — the events, and one as a stream delivers it.
* `Content`, `Content.handle` — what the events say, and what a handler makes of it.
* `View`, `View.applyEvent` — the view, and what a delivered event does to it.
-/

namespace RagQs.Client

/-! ### The events -/

/-- `SseStagePhase` -/
inductive StagePhase
  | retrieving
  | retrievalRouted
  | retrievingAgain
  | rewriting
  | generating
  deriving DecidableEq

/-- `AnswerMode` -/
inductive AnswerMode
  | noContext
  | grounded
  | direct

/-- `EffortLevel` -/
inductive EffortLevel
  | quick
  | think
  | deep

/-- `StopReason` -/
inductive StopReason
  | manualRequest
  | clientDisconnected
  | authorizationRevoked

/-- The state of a step of the research. -/
inductive StepState
  | active
  | done

/-- `SseStartEventData` -/
structure Start where
  generationId : String
  messageId : String
  userMessageId : String
  attemptNumber : ℕ
  deriving DecidableEq

/-- `SseStepEventData` -/
structure Step where
  index : ℕ
  label : String
  state : StepState

/-- An answer as it is shown. -/
structure Answer where
  content : String
  citations : List Val
  answerMode : AnswerMode
  effortLevel : Option EffortLevel
  upgradedFrom : Option String

/-- `SseAnswerEventData` -/
structure AnswerEvent where
  candidate : Fin 2
  content : String
  citations : List Val
  answerMode : AnswerMode
  effortLevel : EffortLevel
  upgradedFrom : Option String

/-- The answer that the event carries. -/
def AnswerEvent.answer (d : AnswerEvent) : Answer :=
  ⟨d.content, d.citations, d.answerMode, some d.effortLevel, d.upgradedFrom⟩

/-- `SseGenerationEvent` -/
inductive GenerationEvent
  | start (data : Start)
  | stage (phase : StagePhase)
  | step (data : Step)
  | notice (data : Val)
  | abStart (pairId messageId : String)
  | delta (candidate : Fin 2) (content : String)
  | answer (data : AnswerEvent)
  | done (generationId messageId : String)
  | error (code message : String) (details : Val) (requestId : Option String)
  | stopped (generationId messageId : String) (stopReason : StopReason)

/-- An event that ends the generation. -/
def GenerationEvent.isTerminal : GenerationEvent → Bool
  | .done _ _ => true
  | .error _ _ _ _ => true
  | .stopped _ _ _ => true
  | _ => false

/-- The event that starts the generation. -/
def GenerationEvent.isStart : GenerationEvent → Bool
  | .start _ => true
  | _ => false

/-- An event as a stream delivers it, with its number. -/
structure SseEventMessage where
  id : Option ℕ
  event : GenerationEvent

/-! ### What is shown -/

/-- A candidate of an A/B comparison. -/
structure AbCandidate where
  candidate : Fin 2
  answer : Answer

/-- The status of an A/B comparison. -/
inductive AbStatus
  | none
  | pending
  | open
  | voted

/-- `AbChoice` -/
inductive AbChoice
  | candidate (candidate : Fin 2)
  | neither

/-- `GenerationAbView` -/
structure AbView where
  status : AbStatus := .none
  pairId : Option String := none
  candidates : List AbCandidate := []
  choice : Option AbChoice := none

/-- `GenerationTerminalView` -/
inductive Terminal
  | done (generationId messageId : String)
  | error (code message : String) (requestId : Option String)
  | stopped (generationId messageId : String) (stopReason : StopReason)

/-- `GenerationPhase` -/
inductive Phase
  | idle
  | connecting
  | running
  | reconnecting
  | reconnectFailed
  | stopping
  | completed
  | failed
  | stopped
  deriving DecidableEq

/-- The fields of the view that the events write. -/
structure Content where
  /-- The number of the generation, and a local one before it has started. -/
  id : String
  start : Option Start := none
  stage : Option StagePhase := none
  steps : List Step := []
  notices : List Val := []
  ab : AbView := {}
  answer : Option Answer := none
  terminal : Option Terminal := none

/-- `GenerationSessionView` -/
structure View extends Content where
  phase : Phase := .idle
  appliedSeq : ℕ := 0
  /-- The code of the error; the text that is shown is always the same. -/
  requestError : Option String := none
  authFailed : Bool := false
  reconnectAttempts : ℕ := 0
  stopRequested : Bool := false

/-! ### The handlers -/

/-- A step replaces the one with its index and label, or is the last. -/
def upsertStep (steps : List Step) (d : Step) : List Step :=
  match steps.findIdx? fun step => step.index = d.index ∧ step.label = d.label with
  | some i => steps.set i d
  | none => steps ++ [d]

/-- An answer replaces that of its candidate, or is the last. -/
def upsertCandidate (candidates : List AbCandidate) (d : AnswerEvent) : List AbCandidate :=
  match candidates.findIdx? fun candidate => candidate.candidate = d.candidate with
  | some i => candidates.set i ⟨d.candidate, d.answer⟩
  | none => candidates ++ [⟨d.candidate, d.answer⟩]

namespace Content

variable (c : Content)

/-- The handler of `ab_start`: an answer that is shown becomes the first candidate. -/
def startAb (pairId : String) : Content :=
  match c.answer with
  | some migrated =>
    { c with
      answer := none
      ab := { status := .pending, pairId := some pairId, candidates := [⟨0, migrated⟩] } }
  | none => { c with ab := { status := .pending, pairId := some pairId } }

/-- The handler of `delta`: the text goes on, outside an A/B comparison. -/
def appendDelta (content : String) : Content :=
  if c.ab.pairId.isSome then c
  else
    match c.answer with
    | some a => { c with answer := some { a with content := a.content ++ content } }
    | none => { c with answer := some ⟨content, [], .grounded, none, none⟩ }

/-- `applyAnswer` -/
def applyAnswer (d : AnswerEvent) : Content :=
  if c.ab.pairId = none then { c with answer := some d.answer }
  else
    let candidates := upsertCandidate c.ab.candidates d
    { c with
      ab := { c.ab with
        candidates
        status := if 2 ≤ candidates.length then .open else .pending } }

/-- The handler of an event. -/
def handle : GenerationEvent → Content
  | .start d => { c with id := d.generationId, start := some d }
  | .stage phase => { c with stage := some phase }
  | .step d => { c with steps := upsertStep c.steps d }
  | .notice d => { c with notices := c.notices ++ [d] }
  | .abStart pairId _ => c.startAb pairId
  | .delta _ content => c.appendDelta content
  | .answer d => c.applyAnswer d
  | .done generationId messageId => { c with terminal := some (.done generationId messageId) }
  | .error code message _ requestId =>
    { c with terminal := some (.error code message requestId) }
  | .stopped generationId messageId stopReason =>
    { c with terminal := some (.stopped generationId messageId stopReason) }

end Content

/-- The phase that a handler sets. -/
def GenerationEvent.phase : GenerationEvent → Option Phase
  | .start _ => some .running
  | .done _ _ => some .completed
  | .error _ _ _ _ => some .failed
  | .stopped _ _ _ => some .stopped
  | _ => none

namespace View

variable (v : View)

/-- The handler of an event, with the phase it sets. -/
def handle (e : GenerationEvent) : View :=
  { v with toContent := v.toContent.handle e, phase := e.phase.getD v.phase }

/-- `applyEvent` -/
def applyEvent (m : SseEventMessage) : View :=
  if v.terminal.isSome then v
  else
    match m.id with
    | some id => if id ≤ v.appliedSeq then v else { v with appliedSeq := id }.handle m.event
    | none => v.handle m.event

end View

/-! ### The handlers, field by field -/

variable {c : Content} {e : GenerationEvent}

theorem Content.terminal_handle (he : e.isTerminal = false) :
    (c.handle e).terminal = c.terminal := by
  cases e with
  | abStart pairId messageId =>
    simp only [Content.handle, Content.startAb]
    split <;> rfl
  | delta candidate content =>
    simp only [Content.handle, Content.appendDelta]
    split
    · rfl
    · split <;> rfl
  | answer d =>
    simp only [Content.handle, Content.applyAnswer]
    split <;> rfl
  | done generationId messageId => cases he
  | error code message details requestId => cases he
  | stopped generationId messageId stopReason => cases he
  | _ => rfl

theorem Content.terminal_foldl {es : List GenerationEvent} (hc : c.terminal = none)
    (h : (es.foldl Content.handle c).terminal ≠ none) : ∃ e ∈ es, e.isTerminal = true := by
  induction es generalizing c with
  | nil => exact absurd hc h
  | cons e es ih =>
    cases he : e.isTerminal with
    | true => exact ⟨e, List.mem_cons_self, he⟩
    | false =>
      obtain ⟨e', he', hterminal⟩ := ih ((Content.terminal_handle he).trans hc) h
      exact ⟨e', List.mem_cons_of_mem _ he', hterminal⟩

end RagQs.Client
