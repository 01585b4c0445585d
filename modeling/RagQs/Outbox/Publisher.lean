import RagQs.Outbox.Payload

/-!
# The publisher

An event is published inside the transaction of its producer: the event, its recipients and
its pending delivery are inserted together.  Publishing a transition that has an event
already returns that event where the fingerprints agree, and raises a conflict otherwise.

## Main definitions

* `PublishCall` — one call of the publisher, with what the clock and the ports return to it.
* `prepare`, `validateRecipients` — the checks of a command.
* `publishAuthorized` — `_publish_authorized`.
* `publishAll` — the calls a producer makes in one transaction.
-/

namespace RagQs.Outbox

open Txn

/-- What a publication returns. -/
structure OutboxPublishReceipt where
  eventId : String
  fingerprint : String
  reused : Bool
  deriving DecidableEq

/-- One call of the publisher. -/
structure PublishCall where
  command : OutboxPublishCommand
  caller : String
  /-- What the clock returns. -/
  now : Time
  /-- What the graph port answers, none where it is not configured. -/
  activated : Option Bool := none
  /-- The order in which a set of three names is run through. -/
  order : List String := ["confidence", "page", "region"]
  /-- The codes of the errors the producer catches. -/
  tolerated : List String := []

/-! ### The checks -/

/-- `_assert_graph_activated_receipt` -/
def assertGraphActivatedReceipt (call : PublishCall) : Except Err Unit :=
  match call.activated with
  | none => .error (.platform {
      code := "graph_receipt_verification_unavailable"
      message := "Graph activated-receipt verification is not configured"
      details := [("retryable", .bool true)]
      statusCode := 503 })
  | some false => .error (.platform {
      code := "graph_receipt_not_activated"
      message := "The graph run has no activated indexing receipt"
      details := [("aggregate_id", .str call.command.aggregateId)]
      statusCode := 409 })
  | some true => .ok ()

/-- A graph event carries its envelope in its payload. -/
def withEnvelope (env : Env) (command : OutboxPublishCommand) :
    Except Err OutboxPublishCommand :=
  if command.eventType = .graphBuildCompleted then
    (canonicalGraphPayload env command).map fun payload => { command with payload }
  else .ok command

/-- What is checked before the recipients: payload, producer, aggregate, graph receipt. -/
def prepare (env : Env) (call : PublishCall) : Except Err OutboxPublishCommand := do
  let command ← withEnvelope env call.command
  validatePayload call.order command.eventType command.schemaVersion command.payload
  let (producers, requiredAggregate) := PRODUCER_MATRIX command.eventType
  refuseIf (call.caller ∉ producers) (.platform {
    code := "producer_not_authorized"
    message := "Caller " ++ call.caller ++ " may not publish " ++ command.eventType.text ++ " events"
    details := [("event_type", .str command.eventType.text)]
    statusCode := 403 })
  refuseIf (command.aggregateType ≠ requiredAggregate) (.platform {
    code := "invalid_aggregate_type"
    message := command.eventType.text ++ " events require aggregate " ++ requiredAggregate
    statusCode := 422 })
  if command.eventType = .graphBuildCompleted ∧ (command.payload.get "status").eqText "succeeded" then
    assertGraphActivatedReceipt call
  return command

/-- `invalid_recipients` -/
def invalidRecipients (message : String) : Err :=
  .platform { code := "invalid_recipients", message, statusCode := 422 }

/-- The kind of a recipient fits the type of the event. -/
def validateSelection (eventType : EventType) (selection : RecipientSelection) :
    Except Err Unit :=
  if eventType.roleSnapshot then
    refuseIf (selection.recipientKind ≠ .roleSnapshot ∨ selection.requiredRole ≠ some "ops")
      (invalidRecipients "This event requires active ops role snapshots")
  else
    refuseIf (selection.recipientKind ≠ .identity)
      (invalidRecipients (eventType.text ++ " events require identity recipients"))

/-- `_validate_recipients` -/
def validateRecipients (command : OutboxPublishCommand) : Except Err Unit :=
  if command.eventType.outboxOnly then
    refuseIf (!command.recipients.isEmpty)
      (invalidRecipients "Public graph source events do not have notification recipients")
  else do
    refuseIf (command.recipients.isEmpty && !command.eventType.roleSnapshot)
      (invalidRecipients "At least one recipient is required")
    refuseIf (command.eventType = .graphBuildCompleted ∧ command.recipients.length ≠ 1)
      (invalidRecipients "graph_build_completed events notify exactly one identity")
    command.recipients.forM (validateSelection command.eventType)

/-! ### The statements -/

/-- The accounts. -/
def users (v : Db) : List (String × IdentityUserRow) :=
  table v fun
    | .identityUser id, r => some (id, r)
    | _, _ => none

/-- The active operators, as recipients. -/
def activeOps (v : Db) : List RecipientSelection :=
  ((users v).filter fun e => e.2.lifecycleStatus = "active" ∧ e.2.role = "ops").map fun e => {
    recipientUserId := e.1
    recipientKind := .roleSnapshot
    requiredRole := some "ops"
    selectionReason := "active_ops_snapshot" }

/-- `_freeze_active_ops_recipients` -/
def freezeActiveOpsRecipients (command : OutboxPublishCommand) : Tx OutboxPublishCommand := do
  if command.eventType.roleSnapshot then
    let recipients ← Prog.select activeOps
    return { command with recipients }
  else return command

/-- The event of a transition. -/
def eventOf (v : Db) (key : EventKey) : Option (String × EventRow) :=
  (v.get (.eventKey key) : Option String).bind fun eventId =>
    (v.get (.event eventId) : Option EventRow).map fun row => (eventId, row)

/-- The error of a different payload for the same transition. -/
def fingerprintConflict (eventId : String) : Err :=
  .platform {
    code := "outbox_fingerprint_conflict"
    message := "Event fingerprint conflicts with the existing transition"
    details := [("event_id", .str eventId)]
    statusCode := 409 }

/-- The transition has an event already: it is the result where the fingerprints agree. -/
def reuse (command : OutboxPublishCommand) (fingerprint : String) (event : String × EventRow) :
    Tx OutboxPublishReceipt := do
  raiseIf (event.2.payloadFingerprint ≠ fingerprint) (fingerprintConflict command.eventId)
  return { eventId := event.1, fingerprint, reused := true }

/-- `_recipient_record`, for every recipient in turn. -/
def recipientRecords (now : Time) :
    List RecipientSelection → Tx (List (String × RecipientRow))
  | [] => return []
  | selection :: selections => do
    let account ← readRow (Key.identityUser selection.recipientUserId)
    let account ← orRaise (account : Option IdentityUserRow) (.platform {
      code := "recipient_account_inactive"
      message := "Recipient account is not active"
      details := [("recipient_user_id", .str selection.recipientUserId)]
      statusCode := 422 })
    raiseIf (selection.recipientKind = .roleSnapshot ∧
        selection.requiredRole.any fun role => account.role ≠ role) (.platform {
      code := "recipient_role_mismatch"
      message := "Recipient no longer satisfies the required role"
      details := [("recipient_user_id", .str selection.recipientUserId)]
      statusCode := 422 })
    let rest ← recipientRecords now selections
    return (selection.recipientUserId, {
      recipientKind := selection.recipientKind
      requiredRole := selection.requiredRole
      selectionReason := selection.selectionReason
      roleSnapshot := account.role
      lifecycleSnapshot := account.lifecycleStatus
      selectedAtUtc := now }) :: rest

/-- The row of a new event. -/
def newEvent (env : Env) (command : OutboxPublishCommand) (fingerprint : String) (now : Time) :
    EventRow where
  key := command.key
  schemaVersion := some command.schemaVersion
  occurredAtUtc := command.occurredAt
  payloadJson := some command.payload
  payloadFingerprint := fingerprint
  traceId := command.traceId
  createdAtUtc := now
  storageState := .full
  compactAfterAtUtc :=
    if command.eventType.outboxOnly then some (now + days env.retentionDays) else none
  compactedAtUtc := none
  compactedDeliverySummary := none

/-- The row of a new delivery. -/
def newDelivery (now : Time) : DeliveryRow where
  status := .pending
  version := 1
  replayGeneration := 1
  attemptNumber := 0
  cycleAttemptNumber := 0
  errorCategory := none
  errorCode := none
  nextAttemptAtUtc := some now
  leaseOwner := none
  leaseExpiresAtUtc := none
  fenceToken := none
  deliveredAtUtc := none

/-- The writes of the insertion of an event. -/
def eventWrites (eventId : String) (row : EventRow) : List (Write Row) :=
  [⟨.event eventId, some row⟩, ⟨.eventKey row.key, some eventId⟩]

/-- The writes of the insertion of recipients. -/
def recipientWrites (eventId : String) (recipients : List (String × RecipientRow)) :
    List (Write Row) :=
  recipients.map fun e => ⟨.recipient eventId e.1, some e.2⟩

/-- The writes of the insertion of a delivery. -/
def deliveryWrites (eventId : String) : Option DeliveryRow → List (Write Row)
  | none => []
  | some row => [⟨.delivery eventId v1Consumer, some row⟩]

/-- `INSERT` of the event under a savepoint, and whether no constraint was violated. -/
def insertEvent (eventId : String) (row : EventRow) : Tx Bool :=
  Prog.tryCatch
    (savepoint (insert .integrity [.event eventId, .eventKey row.key] (eventWrites eventId row))
      >>= fun _ => return true)
    fun
      | .integrity => return false
      | e => throw e

/-- `INSERT` of the recipients, in one statement. -/
def insertRecipients (eventId : String) (recipients : List (String × RecipientRow)) :
    Tx Unit := do
  raiseIf (¬ (recipients.map (·.1)).Nodup) .integrity
  insert .integrity (recipients.map fun e => Key.recipient eventId e.1)
    (recipientWrites eventId recipients)

/-- `INSERT` of the delivery, where there is one. -/
def insertDelivery (eventId : String) (delivery : Option DeliveryRow) : Tx Unit :=
  insert .integrity ((deliveryWrites eventId delivery).map Sigma.fst)
    (deliveryWrites eventId delivery)

/-- `_publish_authorized` -/
def publishAuthorized (env : Env) (call : PublishCall) : Tx OutboxPublishReceipt := do
  let command ← check (prepare env call)
  let command ← freezeActiveOpsRecipients command
  check (validateRecipients command)
  let fingerprint := env.fingerprintEvent command.eventType command.schemaVersion command.payload
  match ← Prog.select (eventOf · command.key) with
  | some event => reuse command fingerprint event
  | none => do
    let existing ← readRow (Key.event command.eventId)
    raiseIf (existing : Option EventRow).isSome (.platform {
      code := "event_id_conflict"
      message := "An event with this event_id already exists"
      statusCode := 409 })
    let recipients ← recipientRecords call.now command.recipients
    let inserted ← insertEvent command.eventId (newEvent env command fingerprint call.now)
    if inserted then
      insertRecipients command.eventId recipients
      insertDelivery command.eventId
        (if command.eventType.outboxOnly then none else some (newDelivery call.now))
      return { eventId := command.eventId, fingerprint, reused := false }
    else
      -- another transaction committed the event in between
      match ← Prog.select (eventOf · command.key) with
      | some event => reuse command fingerprint event
      | none => throw .integrity

/-- The calls a producer makes in one transaction; an error it catches leaves the others. -/
def publishAll (env : Env) : List PublishCall → Tx (List (Except Err OutboxPublishReceipt))
  | [] => return []
  | call :: calls => do
    let answer ← (publishAuthorized env call >>= fun receipt => return .ok receipt).tryCatch
      fun e => if e.code.any (· ∈ call.tolerated) then return .error e else throw e
    let answers ← publishAll env calls
    return answer :: answers

end RagQs.Outbox
