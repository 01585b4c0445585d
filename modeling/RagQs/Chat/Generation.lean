import RagQs.Chat.Events

/-!
# Asking, stopping and voting

The transactions of the generation service and of the subscription leases, and those another
domain runs on the chat tables: the revocation of a session or a user, and the expiry of the
pairs of a calibration window.  The authorization port, the calibration window with its draw,
the clock and the new identifiers are arguments of a call.

## Main definitions

* `ask`, `retry` — a new generation, its execution and its first events.
* `stop`, `applyRevocationEffects`, `consumeDurableRevocationCommands` — a running generation
  is asked to stop.
* `createLease`, `renewLease`, `invalidateLease` — the leases of the streams.
* `recordCitationClick`, `submitAbVote` — what the reader of an answer does.
* `expireWindowPairs`, `windowHasVotablePairs` — the expiry of the pairs of a window.
-/

namespace RagQs.Chat

open Txn

/-- An error of the application, with its details. -/
def refused (code message : String) (details : List (String × Val)) (statusCode : ℕ) : Err :=
  .platform { code, message, details, statusCode }

/-- `generation_not_found` -/
def generationNotFound : Err := refused "generation_not_found" "Generation was not found" [] 404

/-! ### Idempotency -/

/-- A recorded request. -/
def readIdempotency (userId kind targetId key : String) : Tx (Option IdempotencyRow) :=
  readRow (Key.idempotency userId kind targetId key)

/-- `_find_idempotency` -/
def findIdempotency (userId kind targetId key fingerprint : String) : Tx (Option String) := do
  match ← readIdempotency userId kind targetId key with
  | none => pure none
  | some row => do
    raiseIf (row.requestHash ≠ fingerprint) (refused "idempotency_key_conflict"
      "The idempotency key was already used with a different request" [] 409)
    pure (some row.responseTarget)

/-- `_record_idempotency` -/
def recordIdempotency (userId kind targetId key fingerprint responseTarget : String) : Tx Unit :=
  insert .integrity [.idempotency userId kind targetId key]
    [⟨.idempotency userId kind targetId key, some ⟨fingerprint, responseTarget⟩⟩]

/-! ### Asking -/

/-- A conversation. -/
def readConversation (id : String) : Tx (Option ConversationRow) := readRow (Key.conversation id)

/-- `_require_owned_conversation` -/
def requireOwnedConversation (conversationId userId : String) : Tx ConversationRow := do
  let error := refused "conversation_not_found" "Conversation was not found" [] 404
  let row ← readConversation conversationId
  let row ← orRaise row error
  raiseIf (row.ownerUserId ≠ userId) error
  pure row

/-- The open window of a call, as the calibration port returns it. -/
structure Window where
  windowId : String
  closeDeadlineAt : Option Time
  pairVoteTtlSeconds : Option ℕ

/-- The new identifiers of a generation. -/
structure NewIds where
  generationId : String
  executionId : String
  pairId : String

/-- What a new generation is made of. -/
structure Creation where
  ids : NewIds
  userId : String
  authSessionId : String
  requestId : Option String
  conversationId : String
  content : String
  effortLevel : String
  scope : JsonObject
  now : Time
  window : Option Window
  /-- The two configurations, when the question was drawn for a comparison of them. -/
  abConfigs : Option (String × String)

/-- The space a pair belongs to: the first one the question is narrowed to. -/
def pairSpaceId (scope : JsonObject) : String :=
  match scope.get "space_ids" with
  | .list (.str s :: _) => s
  | _ => ""

/-- The time a pair expires: the earlier of its own period and the deadline of the window. -/
def pairExpiresAt (now : Time) (w : Window) : Time :=
  let ttl := if w.pairVoteTtlSeconds.getD 0 = 0 then 3600 else w.pairVoteTtlSeconds.getD 0
  let expires := now + seconds ttl
  match w.closeDeadlineAt with
  | some t => if t < expires then t else expires
  | none => expires

/-- `_create_ab_pair` -/
def createAbPair (c : Creation) (w : Window) (configs : String × String) : Tx Unit := do
  let g := c.ids.generationId
  insert .integrity [.pair g]
    [⟨.pair g, some
      { pairId := c.ids.pairId, windowId := some w.windowId, ownerUserId := c.userId
        spaceId := pairSpaceId c.scope, status := .pending, voted := false, choice := none
        expiresAt := some (pairExpiresAt c.now w), closeDeadlineAt := w.closeDeadlineAt }⟩]
  insert .integrity [.candidate g 0, .candidate g 1]
    [⟨.candidate g 0, some ⟨some configs.1, .planned, "", [], "no_context"⟩⟩,
      ⟨.candidate g 1, some ⟨some configs.2, .planned, "", [], "no_context"⟩⟩]
  let _ ← appendEvent g .abStart
    [("pair_id", .str c.ids.pairId), ("generation_id", .str g), ("candidates", .list [.int 0, .int 1])]
  pure ()

/-- The row of a new generation. -/
def newGeneration (env : Env) (c : Creation) (parent : Option (String × GenerationRow)) :
    GenerationRow where
  conversationId := c.conversationId
  ownerUserId := c.userId
  rootGenerationId := (parent.map fun p => p.2.rootGenerationId).getD c.ids.generationId
  retryOfGenerationId := parent.map Prod.fst
  attemptNumber := (parent.map fun p => p.2.attemptNumber).getD 0 + 1
  status := .running
  stopReason := none
  requestedEffortLevel := (parent.map fun p => p.2.requestedEffortLevel).getD c.effortLevel
  effectiveEffortLevel := (parent.map fun p => p.2.requestedEffortLevel).getD c.effortLevel
  upgradedFrom := none
  absoluteDeadline := c.now + seconds env.absoluteDeadlineSeconds
  authSessionId := c.authSessionId
  requestId := c.requestId
  controlVersion := 1
  requestContent := (parent.map fun p => p.2.requestContent).getD c.content
  requestScope := (parent.map fun p => p.2.requestScope).getD c.scope
  windowId := c.window.map Window.windowId
  disconnectDeadline := none
  lastErrorCode := none
  createdAt := c.now

/-- The first execution of a generation. -/
def firstExecution (now : Time) : ExecutionRow where
  executionAttemptNumber := 1
  status := .queued
  leaseOwner := none
  leaseExpiresAt := none
  heartbeatAt := none
  fencingToken := 1
  checkpointVersion := 0
  checkpoint := none
  nextAttemptAt := some now
  lastErrorClassification := none

/-- A new execution of a generation. -/
def addExecution (g e : String) (row : ExecutionRow) : Tx Unit :=
  insert .integrity [.execution g e, .attempt g row.executionAttemptNumber]
    [⟨.execution g e, some row⟩, ⟨.attempt g row.executionAttemptNumber, some ()⟩]

/-- A retry of a question that already has a pair does not get a second one. -/
def rootHasPair (v : Db) (rootGenerationId : String) : Bool :=
  (pairs v).any fun p => ((v.get (.generation p.1) : Option GenerationRow).any
    (·.rootGenerationId = rootGenerationId))

/-- A calibration window. -/
def readWindow (windowId : String) : Tx (Option WindowRow) := readRow (Key.window windowId)

/-- The open window of a call: one that the evaluation has opened. -/
def openWindow (window : Option Window) : Tx (Option Window) :=
  match window with
  | none => pure none
  | some w => do
    let row ← readWindow w.windowId
    pure (if row.isSome then some w else none)

/-- The comparison a new generation is made for, if any. -/
def drawnPair (c : Creation) (parent : Option (String × GenerationRow)) :
    Tx (Option (Window × (String × String))) :=
  match c.window, c.abConfigs, parent with
  | some w, some configs, none => pure (some (w, configs))
  | some w, some configs, some p => do
    let existing ← Prog.select fun v : Db => rootHasPair v p.2.rootGenerationId
    pure (if existing then none else some (w, configs))
  | _, _, _ => pure none

/-- The words of a text, and the one that is being read. -/
def wordsFrom (word : List Char) : List Char → List (List Char)
  | [] => if word.isEmpty then [] else [word.reverse]
  | c :: cs =>
    if isSpace c then (if word.isEmpty then wordsFrom [] cs else word.reverse :: wordsFrom [] cs)
    else wordsFrom (c :: word) cs

/-- `_derive_title` -/
def deriveTitle (content : String) : String :=
  let collapsed := " ".intercalate ((wordsFrom [] content.toList).map String.ofList)
  if collapsed.length ≤ 80 then collapsed
  else String.ofList (collapsed.toList.take 79) ++ "…"

/-- `_touch_conversation` -/
def touchConversation (c : Creation) : Tx Unit := do
  let _ ← updateWhere (Key.conversation c.conversationId) (fun _ => true) fun r =>
    { r with
      effortLevel := c.effortLevel
      lastActiveAt := c.now
      title := if strip r.title = "" then deriveTitle c.content else r.title }
  pure ()

/-- `_create_generation`; the parent is the failed generation of a retry. -/
def createGeneration (env : Env) (c : Creation) (parent : Option (String × GenerationRow)) :
    Tx String := do
  let g := c.ids.generationId
  let window ← openWindow c.window
  let c := { c with window }
  let pair ← drawnPair c parent
  insert .integrity [.message g] [⟨.message g, some ⟨c.userId, "", none, none, [], .generating, none⟩⟩]
  insert .integrity [.generation g] [⟨.generation g, some (newGeneration env c parent)⟩]
  addExecution g c.ids.executionId (firstExecution c.now)
  let _ ← appendEvent g .start
    [("generation_id", .str g), ("attempt_number", .int (newGeneration env c parent).attemptNumber)]
  match pair with
  | some (w, configs) => createAbPair c w configs
  | none => pure ()
  if parent.isNone then touchConversation c
  pure g

/-- `_enforce_rate_limit` -/
def enforceRateLimit (env : Env) (userId : String) (now : Time) : Tx Unit := do
  let recent ← Prog.select fun v : Db =>
    ((generations v).map Prod.snd).filter fun r =>
      r.ownerUserId = userId ∧ now - seconds 60 ≤ r.createdAt
  let oldest := (recent.map (·.createdAt)).foldr min now
  let retryAfter := max 1 (min 60 ((oldest + seconds 60 - now) / 1000000))
  raiseIf (env.askRateLimitPerMinute ≤ recent.length) (.platform
    { code := "rate_limit_exceeded", message := "Too many chat requests in the current window"
      details := [("limit", .int env.askRateLimitPerMinute), ("window_seconds", .int 60),
        ("retry_after_seconds", .int retryAfter)]
      statusCode := 429, retryable := true })

/-- `_enforce_concurrency` -/
def enforceConcurrency (env : Env) (userId : String) : Tx Unit := do
  let going ← Prog.select fun v : Db =>
    ((generations v).map Prod.snd).filter fun r => r.ownerUserId = userId ∧ !r.status.terminal
  raiseIf (env.maxRunningPerUser ≤ going.length) (refused "concurrency_limit_exceeded"
    "Too many generations are already running" [("max", .int env.maxRunningPerUser)] 429)

/-- The arguments of `ask`, with what the authorization port answered, the hash of the request
and the identifier of a conversation that is created with it. -/
structure AskCall where
  creation : Creation
  verified : Except Err Unit
  conversationId : Option String
  newConversationId : String
  idempotencyKey : String
  fingerprint : String

/-- `AUTO_CONVERSATION_IDEMPOTENCY_TARGET` -/
def AUTO_CONVERSATION_IDEMPOTENCY_TARGET : String := "__auto_conversation__"

/-- `create_conversation_row` -/
def createConversationRow (id userId : String) (now : Time) : Tx Unit :=
  insert .integrity [.conversation id] [⟨.conversation id, some ⟨userId, "", "quick", now⟩⟩]

/-- `GenerationService.ask`: the identifier of the generation. -/
def ask (env : Env) (a : AskCall) : Tx String := do
  let userId := a.creation.userId
  let target := a.conversationId.getD AUTO_CONVERSATION_IDEMPOTENCY_TARGET
  check a.verified
  match a.conversationId with
  | some id => do
    let _ ← requireOwnedConversation id userId
    pure ()
  | none => pure ()
  match ← findIdempotency userId "ask" target a.idempotencyKey a.fingerprint with
  | some replay => pure replay
  | none => do
    enforceRateLimit env userId a.creation.now
    enforceConcurrency env userId
    match a.conversationId with
    | some _ => pure ()
    | none => do
      createConversationRow a.newConversationId userId a.creation.now
      let _ ← requireOwnedConversation a.newConversationId userId
      pure ()
    let conversationId := a.conversationId.getD a.newConversationId
    let g ← createGeneration env { a.creation with conversationId } none
    recordIdempotency userId "ask" target a.idempotencyKey a.fingerprint g
    pure g

/-- `_require_owned_generation` -/
def requireOwnedGeneration (generationId userId : String) : Tx GenerationRow := do
  let row ← lockGeneration generationId
  let row ← orRaise row generationNotFound
  raiseIf (row.ownerUserId ≠ userId) generationNotFound
  pure row

/-- The arguments of `retry`, with what the authorization port answered to the user and to the
scope and profile of the failed generation. -/
structure RetryCall where
  creation : Creation
  verified : Except Err Unit
  preconditions : GenerationRow → Except Err Unit
  failedGenerationId : String
  idempotencyKey : String
  fingerprint : String

/-- The retry there is of a generation. -/
def directRetry (v : Db) (generationId : String) : Option String :=
  ((generations v).find? fun r => r.2.retryOfGenerationId = some generationId).map Prod.fst

/-- `GenerationService.retry`: the identifier of the generation. -/
def retry (env : Env) (a : RetryCall) : Tx String := do
  let userId := a.creation.userId
  check a.verified
  let failed ← requireOwnedGeneration a.failedGenerationId userId
  raiseIf (failed.status ≠ .failed) (refused "generation_not_retryable"
    "Only a failed generation can be retried" [("status", .str failed.status.text)] 409)
  let direct ← Prog.select fun v : Db => directRetry v a.failedGenerationId
  match ← findIdempotency userId "retry" a.failedGenerationId a.idempotencyKey a.fingerprint with
  | some replay => pure replay
  | none =>
    match direct with
    | some g => do
      recordIdempotency userId "retry" a.failedGenerationId a.idempotencyKey a.fingerprint g
      pure g
    | none => do
      enforceConcurrency env userId
      check (a.preconditions failed)
      let _ ← requireOwnedConversation failed.conversationId userId
      let g ← createGeneration env { a.creation with conversationId := failed.conversationId }
        (some (a.failedGenerationId, failed))
      recordIdempotency userId "retry" a.failedGenerationId a.idempotencyKey a.fingerprint g
      pure g

/-! ### Stopping -/

/-- The row of a running generation that is asked to stop. -/
def GenerationRow.requestStop (r : GenerationRow) (reason : StopReason) (controlVersion : ℕ) :
    GenerationRow :=
  { r with status := .stopRequested, stopReason := some reason, controlVersion }

/-- `GenerationService.stop`: the status the caller is told. -/
def stop (userId generationId : String) (verified : Except Err Unit) : Tx GenerationStatus := do
  check verified
  let generation ← requireOwnedGeneration generationId userId
  if generation.status = .stopped then pure .stopped
  else do
    raiseIf (generation.status = .completed ∨ generation.status = .failed)
      (refused "generation_already_terminal" "The generation is already in a terminal state"
        [("status", .str generation.status.text)] 409)
    if generation.status = .running then do
      let _ ← updateWhere (Key.generation generationId) (fun r => r.status = .running)
        fun r => r.requestStop .manualRequest (r.controlVersion + 1)
      pure .stopRequested
    else pure .stopRequested

/-- The scope of a revocation: a session, or all of a user. -/
structure RevocationScope where
  userId : String
  authSessionId : Option String

/-- The generation is in the scope. -/
def RevocationScope.generation (s : RevocationScope) (r : GenerationRow) : Bool :=
  match s.authSessionId with
  | some session => r.authSessionId = session
  | none => r.ownerUserId = s.userId

/-- The lease is in the scope. -/
def RevocationScope.lease (s : RevocationScope) (v : Db) (r : LeaseRow) : Bool :=
  match s.authSessionId with
  | some session => r.authSessionId = session
  | none => (v.get (.generation r.generationId) : Option GenerationRow).any
      (·.ownerUserId = s.userId)

/-- The running generations of a revocation are asked to stop, with the control version after
the one that was read. -/
def stopEach : List (String × GenerationRow) → Tx Unit
  | [] => pure ()
  | (g, row) :: rows => do
    let _ ← updateWhere (Key.generation g) (fun r => r.status = .running)
      fun r => r.requestStop .authorizationRevoked (row.controlVersion + 1)
    stopEach rows

/-- `apply_revocation_effects` -/
def applyRevocationEffects (s : RevocationScope) : Tx Unit := do
  let running ← Prog.select fun v : Db =>
    (generations v).filter fun r => s.generation r.2 ∧ r.2.status = .running
  Prog.update (fun v : Db => ((leases v).filter fun l => s.lease v l.2).map fun l =>
    (⟨.lease l.1, none⟩ : Write Row)) fun _ => ()
  stopEach running

/-- The revocations that are accepted and were not consumed. -/
def pendingRevocations (v : Db) : List (String × RevocationRow) :=
  (table v fun
    | .revocation id, r => some (id, r)
    | _, _ => none).filter fun r => r.2.accepted ∧ (v.get (.consumption r.1)).isNone

/-- The effects of each revocation, which is consumed with them. -/
def consumeEach : List (String × RevocationRow) → Tx Unit
  | [] => pure ()
  | (id, row) :: rows => do
    applyRevocationEffects ⟨row.userId, row.authSessionId⟩
    insert .integrity [.consumption id] [⟨.consumption id, some ()⟩]
    let _ ← updateWhere (Key.revocation id) (fun r => r.accepted) fun r => { r with accepted := false }
    consumeEach rows

/-- `consume_durable_revocation_commands` -/
def consumeDurableRevocationCommands : Tx Unit := do
  let rows ← Prog.select pendingRevocations
  consumeEach rows

/-- A revocation command. -/
def readRevocation (id : String) : Tx (Option RevocationRow) := readRow (Key.revocation id)

/-- The mark of a consumed command. -/
def readConsumption (id : String) : Tx (Option Unit) := readRow (Key.consumption id)

/-- `ChatGenerationRevocationPort.revoke` in the transaction of the identity domain, which
records its command with it; an existing command is only answered. -/
def revoke (operationId : String) (s : RevocationScope) : Tx Unit := do
  match ← readRevocation operationId with
  | some _ => pure ()
  | none => do
    match ← readConsumption operationId with
    | some _ => pure ()
    | none => do
      applyRevocationEffects s
      insert .integrity [.consumption operationId] [⟨.consumption operationId, some ()⟩]
    insert .integrity [.revocation operationId]
      [⟨.revocation operationId, some ⟨s.userId, s.authSessionId, false⟩⟩]

/-- The identity domain records a command that the chat has not seen. -/
def recordRevocation (operationId : String) (s : RevocationScope) : Tx Unit :=
  insert .integrity [.revocation operationId]
    [⟨.revocation operationId, some ⟨s.userId, s.authSessionId, true⟩⟩]

/-! ### Subscription leases -/

/-- `create_lease` -/
def createLease (env : Env) (token generationId authSessionId : String) (now : Time) : Tx Unit := do
  insert .integrity [.lease token] [⟨.lease token, some
    ⟨generationId, authSessionId, now + seconds env.subscriptionLeaseSeconds⟩⟩]
  let _ ← updateWhere (Key.generation generationId) (fun _ => true)
    fun r => { r with disconnectDeadline := none }
  pure ()

/-- A lease. -/
def readLease (token : String) : Tx (Option LeaseRow) := readRow (Key.lease token)

/-- `renew_lease`: whether the lease was still live. -/
def renewLease (env : Env) (token : String) (now : Time) : Tx Bool := do
  match ← readLease token with
  | none => pure false
  | some row =>
    if row.expiresAt ≤ now then pure false
    else do
      let _ ← updateWhere (Key.lease token) (fun _ => true)
        fun r => { r with expiresAt := now + seconds env.subscriptionLeaseSeconds }
      pure true

/-- `invalidate_lease`: the last lease of a generation arms its disconnect deadline. -/
def invalidateLease (env : Env) (token : String) (now : Time) : Tx Unit := do
  match ← readLease token with
  | none => pure ()
  | some row => do
    Prog.update (fun _ => [(⟨.lease token, none⟩ : Write Row)]) fun _ => ()
    let others ← Prog.select fun v : Db =>
      (leases v).filter fun l => l.2.generationId = row.generationId
    if others.isEmpty then do
      let _ ← updateWhere (Key.generation row.generationId) (fun r => !r.status.terminal)
        fun r => { r with disconnectDeadline := some (now + seconds env.disconnectGraceSeconds) }
      pure ()
    else pure ()

/-- `generation_has_active_lease` -/
def hasActiveLease (v : Db) (generationId : String) (now : Time) : Bool :=
  (leases v).any fun l => l.2.generationId = generationId ∧ now < l.2.expiresAt

/-! ### The reader of an answer -/

/-- The assistant message of a generation. -/
def readMessage (generationId : String) : Tx (Option MessageRow) :=
  readRow (Key.message generationId)

/-- `record_citation_click` on the assistant message of a generation. -/
def recordCitationClick (userId generationId : String) (verified : Except Err Unit)
    (data : JsonObject) : Tx Unit := do
  check verified
  let error := refused "message_not_found" "Message was not found" [] 404
  let message ← readMessage generationId
  let message ← orRaise message error
  raiseIf (message.ownerUserId ≠ userId) error
  let row ← lockGeneration generationId
  let _ ← orRaise row generationNotFound
  let _ ← appendEvent generationId .citationClick data
  pure ()

/-- `_pair_vote_deadline` -/
def pairVoteDeadline (p : PairRow) (now : Time) : Time :=
  match p.expiresAt, p.closeDeadlineAt with
  | some a, some b => min a b
  | some a, none => a
  | none, some b => b
  | none, none => now + seconds (3650 * 24 * 3600)

/-- The arguments of `submit_ab_vote`, with what the authorization port answered. -/
structure VoteCall where
  userId : String
  generationId : String
  pairId : String
  choice : Choice
  idempotencyKey : String
  fingerprint : String
  verified : Except Err Unit
  /-- The spaces the voter may read, when the port names them. -/
  allowedSpaces : Option (List String)
  now : Time

/-- The pair of a message under the identifier of the call, locked. -/
def lockPair (generationId pairId : String) : Tx (Option PairRow) :=
  Prog.selectForUpdate
    (fun v : Db => ((v.get (.pair generationId) : Option PairRow).filter
      (·.pairId = pairId)).toList.map fun _ => Key.pair generationId)
    fun v => (v.get (.pair generationId) : Option PairRow).filter (·.pairId = pairId)

/-- One side of a pair. -/
def readCandidate (generationId : String) (n : ℕ) : Tx (Option CandidateRow) :=
  readRow (Key.candidate generationId n)

/-- The side of the choice, if it names one. -/
def chosenCandidate (generationId : String) (choice : Choice) : Tx (Option CandidateRow) :=
  match choice.candidate with
  | none => pure none
  | some n => do
    let candidate ← readCandidate generationId n
    let candidate ← orRaise candidate (.internal "No row was found when one was required")
    pure (some candidate)

/-- The vote on an open pair: its row, the message, the pair and the count of its window. -/
def castVote (a : VoteCall) (pair : PairRow) : Tx Unit := do
  insert .integrity [.vote a.generationId a.userId, .voteKey a.userId a.idempotencyKey]
    [⟨.vote a.generationId a.userId, some ⟨a.choice, a.idempotencyKey⟩⟩,
      ⟨.voteKey a.userId a.idempotencyKey, some ()⟩]
  let candidate ← chosenCandidate a.generationId a.choice
  let _ ← updateWhere (Key.message a.generationId) (fun _ => true) fun m =>
    { m with content := (candidate.map (·.content)).getD "", answerMode := candidate.map (·.answerMode) }
  let _ ← updateWhere (Key.pair a.generationId) (fun _ => true) fun p =>
    { p with status := .voted, voted := true, choice := some a.choice }
  match pair.windowId with
  | some windowId => do
    let _ ← updateWhere (Key.window windowId) (fun _ => true)
      fun w => { w with pairsCollected := w.pairsCollected + 1 }
    pure ()
  | none => pure ()
  recordIdempotency a.userId "ab_vote" a.generationId a.idempotencyKey a.fingerprint a.pairId

/-- `submit_ab_vote`: the choice that is recorded. -/
def submitAbVote (a : VoteCall) : Tx (Option Choice) := do
  check a.verified
  let message ← readMessage a.generationId
  let message ← orRaise message (refused "message_not_found" "Message was not found" [] 404)
  raiseIf (message.ownerUserId ≠ a.userId)
    (refused "forbidden" "This message cannot be voted on by this user" [] 403)
  let pair ← lockPair a.generationId a.pairId
  let pair ← orRaise pair (refused "ab_pair_not_found" "A/B pair was not found" [] 404)
  raiseIf (pair.spaceId ≠ "" ∧ a.allowedSpaces.any (pair.spaceId ∉ ·))
    (refused "forbidden" "This A/B pair belongs to an inaccessible space" [] 403)
  match ← findIdempotency a.userId "ab_vote" a.generationId a.idempotencyKey a.fingerprint with
  | some _ => pure pair.choice
  | none => do
    raiseIf pair.voted
      (refused "ab_vote_already_submitted" "This A/B pair has already been voted" [] 409)
    if pair.status ≠ .opened ∨ pairVoteDeadline pair a.now < a.now then do
      -- the update is rolled back with the error that follows it
      if pair.status ≠ .expired then do
        let _ ← updateWhere (Key.pair a.generationId) (fun _ => true)
          fun p => { p with status := .expired }
        throw (refused "ab_pair_expired" "This A/B pair is no longer open for voting" [] 409)
      else throw (refused "ab_pair_expired" "This A/B pair is no longer open for voting" [] 409)
    else do
      castVote a pair
      pure (some a.choice)

/-! ### The pairs of a window -/

/-- The pairs of a window that can still be voted or opened. -/
def votablePairs (v : Db) (windowId : String) : List (String × PairRow) :=
  (pairs v).filter fun p =>
    p.2.windowId = some windowId ∧ (p.2.status = .opened ∨ p.2.status = .pending)

/-- `window_has_votable_pairs` -/
def windowHasVotablePairs (windowId : String) : Tx Bool :=
  Prog.select fun v : Db => !(votablePairs v windowId).isEmpty

/-- `expire_window_pairs`: how many pairs expired. -/
def expireWindowPairs (windowId : String) : Tx ℕ :=
  Prog.update (fun v : Db => (votablePairs v windowId).map fun p =>
      (⟨.pair p.1, some { p.2 with status := .expired }⟩ : Write Row))
    fun v => (votablePairs v windowId).length

end RagQs.Chat
