import RagQs.Outbox.Schema

/-!
# Event payloads

A payload is checked against the closed schema of its event type: no other fields, no
sensitive ones at any depth, every required field with a value of its type, and some rules of
single event types.  The fingerprint of an event is a digest of its type, its schema version
and its payload with sorted keys.

## Main definitions

* `OutboxPublishCommand` — an event to publish.
* `PAYLOAD_SCHEMAS`, `PRODUCER_MATRIX` — the fields of a payload, and who may publish it.
* `validatePayload` — the checks of a payload.
* `canonicalGraphPayload` — the payload of a graph event with its envelope.
* `Env.fingerprintEvent` — the fingerprint.
-/

namespace RagQs.Outbox

/-! ### Commands -/

/-- A recipient as the producer selects it. -/
structure RecipientSelection where
  recipientUserId : String
  recipientKind : RecipientKind := .identity
  requiredRole : Option String := none
  selectionReason : String := "direct_operator"

/-- An event to publish. -/
structure OutboxPublishCommand where
  eventId : String
  eventType : EventType
  schemaVersion : ℤ
  aggregateType : String
  aggregateId : String
  transitionVersion : ℤ
  occurredAt : Time
  payload : JsonObject
  recipients : List RecipientSelection
  traceId : Option String := none

/-- The transition the command is about. -/
def OutboxPublishCommand.key (command : OutboxPublishCommand) : EventKey where
  eventType := command.eventType
  aggregateType := command.aggregateType
  aggregateId := command.aggregateId
  transitionVersion := command.transitionVersion

/-- `invalid_event_payload` -/
def invalidPayload (message : String) (details : List (String × Val)) : Err :=
  .platform { code := "invalid_event_payload", message, details, statusCode := 422 }

/-- The library functions the outbox calls, and what its services are constructed with. -/
structure Env where
  /-- `hashlib.sha256(...).hexdigest()` -/
  sha256 : String → String
  /-- `json.dumps(..., sort_keys=True)` of a value whose keys are sorted -/
  dumps : Json → String
  /-- `datetime.isoformat` -/
  isoformat : Time → String
  retentionDays : ℤ := 30
  notificationRetentionDays : ℤ := 90
  leaseSeconds : ℤ := 60

/-- `timedelta(days=n)` -/
def days (n : ℤ) : Time := n * 86400000000

/-- `fingerprint_event` -/
def Env.fingerprintEvent (env : Env) (eventType : EventType) (schemaVersion : ℤ)
    (payload : JsonObject) : String :=
  env.sha256 ("outbox-event-v1\x00" ++ eventType.text ++ "\x00" ++ toString schemaVersion ++ "\x00"
    ++ env.dumps (Json.dict payload).sorted)

/-! ### Schemas -/

/-- `PRODUCER_MATRIX`: who may publish an event, and the type of its aggregate. -/
def PRODUCER_MATRIX : EventType → List String × String
  | .ingestionCompleted => (["ingestion"], "ingestion_job")
  | .ingestionFailed => (["ingestion"], "ingestion_job")
  | .ingestionCancelled => (["ingestion"], "ingestion_job")
  | .ocrLowConfidence => (["ingestion"], "ingestion_job")
  | .submissionApproved => (["submissions"], "knowledge_submission")
  | .submissionRejected => (["submissions"], "knowledge_submission")
  | .submissionInvalidated => (["submissions"], "knowledge_submission")
  | .quotaApproved => (["quota"], "quota_request")
  | .quotaRejected => (["quota"], "quota_request")
  | .calibrationWindowSuggested => (["calibration"], "calibration_window_suggestion")
  | .graphBuildCompleted => (["knowledge_graph"], "graph_build_run")
  | .evaluationJudgeConfigurationMissing => (["startup_configuration"], "startup_invocation")
  | .usageLedgerInvariantConflict => (["usage"], "usage_ledger_row")
  | .publicGraphSourceChanged => (["documents"], "public_graph_source")
  | .retrievalContextHardGateExceeded => (["retrieval"], "retrieval_context")

/-- A field of a schema: its type, and whether it may be null. -/
structure FieldType where
  type : JsonType
  nullable : Bool := false

/-- `PAYLOAD_SCHEMAS` -/
def PAYLOAD_SCHEMAS : EventType → List (String × FieldType)
  | .ingestionCompleted =>
    [("job_id", ⟨.str, false⟩), ("document_id", ⟨.str, false⟩),
     ("document_version_id", ⟨.str, false⟩), ("publication_id", ⟨.str, false⟩)]
  | .ingestionFailed =>
    [("job_id", ⟨.str, false⟩), ("document_id", ⟨.str, false⟩),
     ("document_version_id", ⟨.str, false⟩), ("publication_id", ⟨.str, true⟩),
     ("reason", ⟨.str, false⟩)]
  | .ingestionCancelled =>
    [("job_id", ⟨.str, false⟩), ("document_id", ⟨.str, false⟩),
     ("document_version_id", ⟨.str, false⟩), ("publication_id", ⟨.str, true⟩)]
  | .ocrLowConfidence =>
    [("job_id", ⟨.str, false⟩), ("document_id", ⟨.str, false⟩),
     ("document_version_id", ⟨.str, false⟩), ("publication_id", ⟨.str, false⟩),
     ("reason", ⟨.str, false⟩), ("status", ⟨.str, false⟩),
     ("machine_low_confidence_fact", ⟨.dict, false⟩)]
  | .submissionApproved =>
    [("submission_id", ⟨.str, false⟩), ("document_id", ⟨.str, false⟩), ("job_id", ⟨.str, false⟩)]
  | .submissionRejected => [("submission_id", ⟨.str, false⟩), ("reason", ⟨.str, true⟩)]
  | .submissionInvalidated => [("submission_id", ⟨.str, false⟩), ("reason", ⟨.str, false⟩)]
  | .quotaApproved => [("request_id", ⟨.str, false⟩)]
  | .quotaRejected => [("request_id", ⟨.str, false⟩)]
  | .calibrationWindowSuggested => [("calibration_window_suggestion_id", ⟨.str, false⟩)]
  | .graphBuildCompleted =>
    [("schema_version", ⟨.int, false⟩), ("event_id", ⟨.str, false⟩), ("event_type", ⟨.str, false⟩),
     ("aggregate_type", ⟨.str, false⟩), ("aggregate_id", ⟨.str, false⟩),
     ("transition_version", ⟨.int, false⟩), ("graph_build_id", ⟨.str, false⟩),
     ("status", ⟨.str, false⟩), ("source_revision", ⟨.int, false⟩),
     ("graph_generation_id", ⟨.str, true⟩), ("index_generation_id", ⟨.str, true⟩),
     ("failure_class", ⟨.str, true⟩), ("occurred_at", ⟨.str, false⟩)]
  | .evaluationJudgeConfigurationMissing => [("missing_variable_names", ⟨.list, false⟩)]
  | .usageLedgerInvariantConflict =>
    [("unique_key_fields", ⟨.list, false⟩), ("provider_call_id", ⟨.str, true⟩)]
  | .publicGraphSourceChanged =>
    [("source_revision", ⟨.int, false⟩), ("source_manifest_id", ⟨.str, false⟩),
     ("source_manifest_hash", ⟨.str, false⟩), ("document_id", ⟨.str, false⟩),
     ("change_type", ⟨.str, false⟩)]
  | .retrievalContextHardGateExceeded =>
    [("space_ids", ⟨.list, false⟩), ("cap_tokens", ⟨.int, false⟩), ("used_tokens", ⟨.int, false⟩),
     ("excess_tokens", ⟨.int, false⟩), ("dropped_hit_count", ⟨.int, false⟩)]

/-- `ROLE_SNAPSHOT_EVENT_TYPES`: the events that go to every active operator. -/
def EventType.roleSnapshot : EventType → Bool
  | .calibrationWindowSuggested | .evaluationJudgeConfigurationMissing
  | .usageLedgerInvariantConflict => true
  | _ => false

/-! ### Sensitive content -/

/-- `_SENSITIVE_KEYS` -/
def SENSITIVE_KEYS : List String :=
  ["snippet", "filename", "file_name", "title", "display_name", "real_name", "username",
   "user_name", "body", "content", "text", "credentials", "password", "secret", "token",
   "api_key"]

/-- `str.casefold` of one character, where what it gives is of ASCII letters only. -/
def casefoldChar (c : Char) : List Char :=
  if 'A' ≤ c ∧ c ≤ 'Z' then [Char.ofNat (c.toNat + 32)]
  else match c.toNat with
    | 0x17F => ['s']
    | 0x212A => ['k']
    | 0xDF | 0x1E9E => ['s', 's']
    | 0xFB00 => ['f', 'f']
    | 0xFB01 => ['f', 'i']
    | 0xFB02 => ['f', 'l']
    | 0xFB03 => ['f', 'f', 'i']
    | 0xFB04 => ['f', 'f', 'l']
    | 0xFB05 | 0xFB06 => ['s', 't']
    | _ => [c]

/-- `str.casefold`, as far as a comparison with an ASCII text can tell. -/
def casefold (s : String) : String := String.ofList (s.toList.flatMap casefoldChar)

mutual

/-- `_reject_sensitive_content`: no dictionary in the value has a sensitive key. -/
def rejectSensitiveContent (path : String) : Json → Except Err Unit
  | .dict l => rejectSensitiveItems path l
  | .list l => rejectSensitiveValues path 0 l
  | _ => .ok ()

/-- The entries of a dictionary. -/
def rejectSensitiveItems (path : String) : List (String × Json) → Except Err Unit
  | [] => .ok ()
  | (key, item) :: l =>
    if casefold key ∈ SENSITIVE_KEYS then
      .error (invalidPayload "Event payload must not contain sensitive or free-text fields"
        [("event_type", .str "payload"), ("field", .str (path ++ "." ++ key))])
    else do
      rejectSensitiveContent (path ++ "." ++ key) item
      rejectSensitiveItems path l

/-- The values of a list. -/
def rejectSensitiveValues (path : String) (index : ℕ) : List Json → Except Err Unit
  | [] => .ok ()
  | item :: l => do
    rejectSensitiveContent (path ++ "[" ++ toString index ++ "]") item
    rejectSensitiveValues path (index + 1) l

end

/-! ### Validation -/

/-- `raise` under a condition, in a check. -/
def refuseIf (bad : Bool) (e : Err) : Except Err Unit := if bad then .error e else .ok ()

/-- The check of one field of the schema. -/
def validateField (eventType : EventType) (payload : JsonObject) (field : String)
    (expected : FieldType) : Except Err Unit :=
  let value := payload.get field
  if value.isNull then
    refuseIf (!expected.nullable) (invalidPayload "Event payload is missing required fields"
      [("event_type", .str eventType.text), ("missing_fields", .list [.str field])])
  else
    refuseIf (!value.isInstance expected.type)
      (invalidPayload "Event payload field has an invalid type"
        [("event_type", .str eventType.text), ("field", .str field)])

/-- `isinstance(value, int) and not isinstance(value, bool)` -/
def isPlainInt : Json → Bool
  | .int _ => true
  | _ => false

/-- The confidence is a number, and no boolean. -/
def isNumber : Json → Bool
  | .int _ | .float _ => true
  | _ => false

/-- The number is finite, and between 0 and 1. -/
def isProbability : Json → Bool
  | .int n => 0 ≤ n ∧ n ≤ 1
  | .float (.finite x) => 0 ≤ x.toRat ∧ x.toRat ≤ 1
  | _ => false

/-- The low-confidence fact of an OCR event.  The required fields are a set, whose order of
iteration decides which of several missing fields is named: `order` is that order. -/
def validateOcrFact (order : List String) (payload : JsonObject) : Except Err Unit := do
  let type := ("event_type", Val.str EventType.ocrLowConfidence.text)
  match payload.get "machine_low_confidence_fact" with
  | .dict entries => do
    let fact : JsonObject := entries
    rejectSensitiveContent "payload" (.dict fact)
    let unexpected := (fact.map (·.1)).filter fun key => key ∉ ["confidence", "page", "region"]
    refuseIf (!unexpected.isEmpty)
      (invalidPayload "OCR low-confidence fact contains fields outside the closed schema"
        [type, ("extra_fields", .list (unexpected.map .str))])
    match order.find? fun field => (fact.get field).isNull with
    | some field => throw (invalidPayload "OCR low-confidence fact is missing required fields"
        [type, ("missing_fields", .list [.str field])])
    | none => do
      refuseIf (!isNumber (fact.get "confidence"))
        (invalidPayload "OCR confidence must be numeric" [type])
      refuseIf (!isProbability (fact.get "confidence"))
        (invalidPayload "OCR confidence must be a finite number between 0 and 1" [type])
      refuseIf (!isPlainInt (fact.get "page")) (invalidPayload "OCR page must be an integer" [type])
      let isRegion := match fact.get "region" with
        | .list l => l.all isPlainInt
        | _ => false
      refuseIf (!isRegion) (invalidPayload "OCR region must be a list of integers" [type])
  | _ => throw (invalidPayload
      "ocr_low_confidence requires a machine low-confidence fact object" [type])

/-- The failure classes of a graph build. -/
def graphFailureClasses : List String :=
  ["staging_error", "index_error", "cancelled", "graph_source_changed",
   "graph_stage_grant_expired", "graph_component_stage_failed", "graph_release_failed",
   "graph_provider_failed", "graph_worker_unexpected", "cancel_requested"]

/-- The rules of a graph event: its status, its generations and its failure class. -/
def validateGraph (payload : JsonObject) : Except Err Unit := do
  let type := ("event_type", Val.str EventType.graphBuildCompleted.text)
  let status := payload.get "status"
  let succeeded := status.eqText "succeeded"
  let graph := (payload.get "graph_generation_id").isNull
  let index := (payload.get "index_generation_id").isNull
  let failure := payload.get "failure_class"
  refuseIf (!(succeeded || status.eqText "failed" || status.eqText "cancelled"))
    (invalidPayload "graph_build_completed status is invalid" [type])
  refuseIf (succeeded && (graph || index))
    (invalidPayload "succeeded graph build events require both generation identifiers" [type])
  refuseIf (!succeeded && (!graph || !index))
    (invalidPayload "non-succeeded graph build events must not carry generation identifiers"
      [type])
  refuseIf ((succeeded && !failure.isNull) || (!succeeded && failure.isNull))
    (invalidPayload "graph_build_completed failure_class does not match status" [type])
  refuseIf (!failure.isNull && !graphFailureClasses.any (failure.eqText ·))
    (invalidPayload "graph_build_completed failure_class is invalid" [type])

/-- A list of texts that is not empty, has no text twice and only texts that `allowed`
accepts. -/
def isNameList (allowed : String → Bool) (value : Json) : Bool :=
  match value.texts with
  | some names => !names.isEmpty && names.all allowed && decide names.Nodup
  | none => false

/-- The rules of single event types. -/
def validateEventType (order : List String) (eventType : EventType) (payload : JsonObject) :
    Except Err Unit :=
  match eventType with
  | .ocrLowConfidence => validateOcrFact order payload
  | .graphBuildCompleted => validateGraph payload
  | .evaluationJudgeConfigurationMissing =>
    refuseIf (!isNameList
        (fun name => name ∈ ["RAG_EVALUATION_JUDGE_BASE_URL", "RAG_EVALUATION_JUDGE_API_KEY"])
        (payload.get "missing_variable_names"))
      (invalidPayload "Evaluation judge alerts may contain only unique missing variable names"
        [("event_type", .str eventType.text)])
  | .usageLedgerInvariantConflict =>
    let providerCallId := payload.get "provider_call_id"
    refuseIf (!isNameList (fun name => name ≠ "") (payload.get "unique_key_fields") ||
        (!providerCallId.isNull && !providerCallId.isInstance .str))
      (invalidPayload "Usage invariant alerts require unique key field names"
        [("event_type", .str eventType.text)])
  | _ => .ok ()

/-- `_validate_payload` -/
def validatePayload (order : List String) (eventType : EventType) (schemaVersion : ℤ)
    (payload : JsonObject) : Except Err Unit := do
  refuseIf (schemaVersion ≠ 1) (.platform {
    code := "unsupported_schema_version"
    message := "Event schema version " ++ toString schemaVersion ++ " is not supported"
    details := [("event_type", .str eventType.text), ("supported_version", .int 1)]
    statusCode := 422 })
  let schema := PAYLOAD_SCHEMAS eventType
  let extra := (payload.map (·.1)).filter fun key => key ∉ schema.map (·.1)
  refuseIf (!extra.isEmpty)
    (invalidPayload "Event payload contains fields outside the event schema"
      [("event_type", .str eventType.text), ("extra_fields", .list (extra.map .str))])
  rejectSensitiveContent "payload" (.dict payload)
  schema.forM fun (field, expected) => validateField eventType payload field expected
  validateEventType order eventType payload

/-! ### The envelope of a graph event -/

/-- The envelope fields of a graph event. -/
def graphEnvelope (env : Env) (command : OutboxPublishCommand) : JsonObject :=
  [("schema_version", .int command.schemaVersion),
   ("event_id", .str command.eventId),
   ("event_type", .str command.eventType.text),
   ("aggregate_type", .str command.aggregateType),
   ("aggregate_id", .str command.aggregateId),
   ("transition_version", .int command.transitionVersion),
   ("occurred_at", .str (env.isoformat command.occurredAt))]

/-- `supplied is not None and supplied != expected`, for an expected text or integer. -/
def differs (supplied : Json) : Json → Bool
  | .int n => !supplied.isNull && !supplied.eqInt n
  | .str s => !supplied.isNull && !supplied.eqText s
  | _ => false

/-- `_canonical_graph_payload` -/
def canonicalGraphPayload (env : Env) (command : OutboxPublishCommand) : Except Err JsonObject :=
  let envelope := graphEnvelope env command
  match envelope.find? fun e => differs (command.payload.get e.1) e.2 with
  | some e => .error (invalidPayload
      "Graph event payload envelope does not match the outbox command"
      [("event_type", .str command.eventType.text), ("field", .str e.1)])
  | none => .ok (command.payload.update envelope)

end RagQs.Outbox
