import RagQs.Usage.Quota

/-!
# Quota requests

A user asks for more pages of the current month; an operator approves the request, which
appends a credit to the quota ledger, or rejects it.  A request whose applicant is no longer
active or whose month is over is cancelled, by the review that finds it so or by one of the
bulk cancellations.  Creations and reviews are idempotent under a key of the caller.

## Main definitions

* `reserveIdempotency`, `commitIdempotency` — the rows of `platform_idempotency`.
* `create` — a new request.
* `approve`, `reject` — the reviews.
* `cancelForAccount`, `cancelClosedPeriods`, `revokeAllPending`, `cancelTransition` — the
  cancellations.
-/

namespace RagQs.Usage.Requests

open Txn

/-- A response, as it is stored with an idempotency key. -/
abbrev Response := List (String × Val)

/-! ### Idempotency keys -/

/-- The answer to a key that was used for a different request. -/
def keyReused : Err :=
  .platform { code := "idempotency_key_conflict",
              message := "Idempotency key was reused with a different request", statusCode := 409 }

/-- The answer to a key whose request is still running. -/
def keyInProgress : Err :=
  .platform { code := "idempotency_key_conflict",
              message := "Idempotency key is already in progress", statusCode := 409 }

/-- `reserve_idempotency`, as its callers use it: the stored response where the request is
a replay, none where the key is new. -/
def reserveIdempotency (scope key requestHash : String) (now : Time) : Tx (Option Response) := do
  let inserted ← insertDoNothing (.idempotency scope key) []
    [⟨.idempotency scope key, some ({
      requestHash
      status := .reserved
      responseJson := none
      createdAtUtc := now
      completedAtUtc := none } : IdempotencyRow)⟩]
  if inserted then return none
  else do
    let record ← readRow (Key.idempotency scope key)
    let record ← orRaise (record : Option IdempotencyRow)
      (.internal "no row where one is required")
    raiseIf (record.requestHash ≠ requestHash) keyReused
    match record.status with
    | .reserved => throw keyInProgress
    | .completed => do
      let result ← orRaise record.responseJson (.internal "'NoneType' object is not iterable")
      return some result

/-- `commit_idempotency` -/
def commitIdempotency (scope key requestHash : String) (result : Response) (now : Time) :
    Tx Unit := do
  let updated ← updateWhere (.idempotency scope key)
    (fun r : IdempotencyRow => r.requestHash = requestHash ∧ r.status = .reserved)
    fun r : IdempotencyRow => { r with
      status := .completed
      responseJson := some result
      completedAtUtc := some now }
  raiseIf (updated ≠ 1) keyReused

/-- `_require_idempotency_key` -/
def requireIdempotencyKey (idempotencyKey : String) : Except Err String :=
  let key := strip idempotencyKey
  if key = "" then .error (validationError "Idempotency-Key is required")
  else if 256 < key.length then
    .error (validationError "Idempotency-Key must be at most 256 characters")
  else .ok key

/-! ### Statements on requests -/

/-- What the requests use of the caller's principal. -/
structure Principal where
  userId : String
  role : String
  departmentId : Option String

/-- What the clock and the token generator return to a transaction. -/
structure Readings where
  reservedAt : Time
  calendarAt : Time
  calendarToken : String
  now : Time
  token : String
  completedAt : Time

/-- The requests. -/
def requests (v : Db) : List (String × QuotaRequestRow) :=
  table v fun
    | .quotaRequest id, r => some (id, r)
    | _, _ => none

/-- The requests that are pending and meet `cond`. -/
def pendingRequests (v : Db) (cond : QuotaRequestRow → Bool) : List (String × QuotaRequestRow) :=
  (requests v).filter fun e => e.2.status = .pending ∧ cond e.2 = true

/-- The request, where it meets `cond`. -/
def matching (requestId : String) (cond : QuotaRequestRow → Bool) (v : Db) :
    Option QuotaRequestRow :=
  (v.get (.quotaRequest requestId) : Option QuotaRequestRow).filter cond

/-- The writes of an update of a request.  A request that leaves the status pending leaves the
index of pending requests. -/
def updateWrites (requestId : String) (f : QuotaRequestRow → QuotaRequestRow) :
    Option QuotaRequestRow → List (Write Row)
  | none => []
  | some r =>
    ⟨.quotaRequest requestId, some (f r)⟩ ::
      if r.status = .pending ∧ (f r).status ≠ .pending then
        [⟨.quotaRequestPending r.applicantUserId r.quotaPeriod, none⟩]
      else []

/-- `UPDATE` of the request that meets `cond`, and the row count. -/
def updateRequest (requestId : String) (cond : QuotaRequestRow → Bool)
    (f : QuotaRequestRow → QuotaRequestRow) : Tx ℕ :=
  Prog.update (fun v => updateWrites requestId f (matching requestId cond v))
    fun v => (matching requestId cond v).toList.length

/-- `_cancel_transition`: a pending request is cancelled, and the row count. -/
def cancelTransition (requestId reason : String) (now : Time) : Tx ℕ :=
  updateRequest requestId (fun r => r.status = .pending) fun r => { r with
    version := r.version + 1
    status := .cancelled
    cancelReason := some reason
    reviewedAtUtc := some now
    updatedAtUtc := now }

/-! ### Creating a request -/

/-- The arguments of `create`. -/
structure CreateArgs where
  actor : Principal
  requestedPages : Val
  idempotencyKey : String
  readings : Readings

/-- The checks of `requested_pages`. -/
def requireRequestedPages : Val → Except Err ℤ
  | .int n =>
    if 1 ≤ n ∧ n ≤ 500 then .ok n
    else .error (validationError "requested_pages must be 1..500")
  | _ => .error (validationError "requested_pages must be an integer")

/-- Only users and ministers ask for pages. -/
def requireApplicant (actor : Principal) : Except Err Unit :=
  if actor.role ∈ ["user", "minister"] then .ok ()
  else .error (.platform {
    code := "forbidden_target"
    message := "Quota requests are not allowed for this role"
    statusCode := 403 })

/-- The input checks of `create`: the key and the pages. -/
def validateCreate (a : CreateArgs) : Except Err (String × ℤ) := do
  let key ← requireIdempotencyKey a.idempotencyKey
  requireApplicant a.actor
  let pages ← requireRequestedPages a.requestedPages
  return (key, pages)

/-- `_request_hash` -/
def requestHash (env : Env) (actor : Principal) (requestedPages : ℤ) : String :=
  env.hmacSha256 "ragqs-quota-request-v1"
    (.dict [("user_id", .str actor.userId), ("requested_pages", .int requestedPages)])

/-- The idempotency scope of the creations of a user. -/
def createScope (actor : Principal) : String := actor.userId ++ ":POST:/quota-requests:"

/-- The row of a new request. -/
def newRequest (env : Env) (a : CreateArgs) (lock : CalendarLock) (pages : ℤ) :
    QuotaRequestRow where
  applicantUserId := a.actor.userId
  applicantRoleSnapshot := a.actor.role
  applicantDepartmentIdSnapshot := a.actor.departmentId
  quotaPeriod := env.periodFor lock.timezone a.readings.now
  businessCalendarVersionId := lock.versionId
  requestedPages := pages
  idempotencyFingerprint := requestHash env a.actor pages
  createdAtUtc := a.readings.now
  version := 1
  status := .pending
  updatedAtUtc := a.readings.now

/-- The writes of the insertion of a pending request. -/
def newRequestWrites (requestId : String) (row : QuotaRequestRow) : List (Write Row) :=
  [⟨.quotaRequest requestId, some row⟩,
   ⟨.quotaRequestPending row.applicantUserId row.quotaPeriod, some requestId⟩]

/-- `create`: a user has at most one pending request for a month. -/
def create (env : Env) (a : CreateArgs) : Tx Response := do
  let (key, pages) ← check (validateCreate a)
  let hash := requestHash env a.actor pages
  match ← reserveIdempotency (createScope a.actor) key hash a.readings.reservedAt with
  | some response => return response
  | none => do
    let lock ← lockOrVerify env a.readings.calendarAt a.readings.calendarToken
    let row := newRequest env a lock pages
    let requestId := "qr_" ++ a.readings.token
    insert (.platform {
        code := "pending_request_exists"
        message := "A pending quota request already exists for this period"
        statusCode := 409 })
      [.quotaRequest requestId, .quotaRequestPending row.applicantUserId row.quotaPeriod]
      (newRequestWrites requestId row)
    -- the time is stored as its ISO text
    let response :=
      [("id", .str requestId),
       ("version", .int 1),
       ("status", .str "pending"),
       ("requested_pages", .int pages),
       ("quota_period", .str row.quotaPeriod),
       ("created_at", .datetime a.readings.now)]
    commitIdempotency (createScope a.actor) key hash response a.readings.completedAt
    return response

/-! ### Reviewing a request -/

/-- The arguments of a review; `enqueue` is what the outbox answers to the event. -/
structure ReviewArgs where
  actor : Principal
  requestId : String
  expectedVersion : Val
  idempotencyKey : String
  enqueue : Except Err Unit
  readings : Readings

/-- A review whose arguments have been checked. -/
structure Review where
  actor : Principal
  action : String
  requestId : String
  key : String
  expectedVersion : ℤ
  approvedPages : Option ℤ

/-- `_require_ops_approver` -/
def requireOpsApprover (actor : Principal) : Except Err Unit :=
  if actor.role = "ops" then .ok ()
  else .error (.platform {
    code := "forbidden_target", message := "Approval is ops-only", statusCode := 403 })

/-- `_require_expected_version` -/
def requireExpectedVersion : Val → Except Err ℤ
  | .int n =>
    if 1 ≤ n then .ok n
    else .error (validationError "expected_version must be a positive integer")
  | _ => .error (validationError "expected_version must be a positive integer")

/-- `_require_approved_pages` -/
def requireApprovedPages : Val → Except Err (Option ℤ)
  | .null => .ok none
  | .int n =>
    if 1 ≤ n then .ok (some n)
    else .error (validationError "approved_pages must be a positive integer")
  | _ => .error (validationError "approved_pages must be a positive integer")

/-- The input checks of a review. -/
def validateReview (action : String) (a : ReviewArgs) (approvedPages : Val) :
    Except Err Review := do
  requireOpsApprover a.actor
  let requestId ← requireText a.requestId "request_id" 64
  let key ← requireIdempotencyKey a.idempotencyKey
  let expectedVersion ← requireExpectedVersion a.expectedVersion
  let approvedPages ← requireApprovedPages approvedPages
  return { actor := a.actor, action, requestId, key, expectedVersion, approvedPages }

/-- `_approval_hash` -/
def Review.hash (env : Env) (r : Review) : String :=
  env.hmacSha256 "ragqs-quota-approval-v1"
    (.dict [("user_id", .str r.actor.userId),
      ("action", .str r.action),
      ("target", .str r.requestId),
      ("expected_version", .int r.expectedVersion),
      ("approved_pages", .optInt r.approvedPages)])

/-- `_approval_scope` -/
def Review.scope (env : Env) (r : Review) : String :=
  "approval:" ++ env.ledgerFingerprint "quota_approval_scope"
    (.dict [("actor_user_id", .str r.actor.userId),
      ("action", .str r.action),
      ("target_id", .str r.requestId)])

/-- `_not_approvable_error` -/
def notApprovableError (reason : String) : Err :=
  .platform {
    code := "quota_request_not_approvable"
    message :=
      if reason = "applicant_inactive" then "Applicant is frozen or deleted"
      else if reason = "period_closed" then "Target quota period is closed"
      else "Quota request is no longer approvable"
    details := [("reason", .str reason)]
    statusCode := 409 }

/-- The request has been reviewed or cancelled before. -/
def alreadyProcessed : Err :=
  .platform { code := "already_processed", message := "Quota request was already processed",
              statusCode := 409 }

/-- What a replayed review answers: the response, or the error the first one ended with
(`_raise_replayed_approval_error`). -/
def replayedApproval (result : Response) : Except Err Response :=
  match result.lookup "_approval_error_reason" with
  | some (.str reason) => .error (notApprovableError reason)
  | _ => .ok result

/-- `_require_approvable`: the request, locked, with the calendar and the reason to cancel
it, if there is one. -/
def requireApprovable (env : Env) (r : Review) (t : Readings) :
    Tx (QuotaRequestRow × CalendarLock × Option String) := do
  check (requireOpsApprover r.actor)
  let row ← lockRow (Key.quotaRequest r.requestId)
  let row ← orRaise (row : Option QuotaRequestRow) (.platform {
    code := "not_found", message := "Quota request was not found", statusCode := 404 })
  raiseIf (row.status ≠ .pending) alreadyProcessed
  raiseIf (row.version ≠ r.expectedVersion) (.platform {
    code := "version_conflict"
    message := "Quota request version is no longer current"
    statusCode := 409 })
  let lock ← lockOrVerify env t.calendarAt t.calendarToken
  let applicant ← readRow (Key.identityUser row.applicantUserId)
  if (applicant : Option IdentityUserRow).all (·.lifecycleStatus ≠ "active") then
    return (row, lock, some "applicant_inactive")
  else if env.periodFor lock.timezone t.now ≠ row.quotaPeriod then
    return (row, lock, some "period_closed")
  else return (row, lock, none)

/-- The frame of both reviews around `decide`, the decision on an approvable request.  A
review that finds the request not approvable commits its cancellation and raises after the
commit, which is the result `.error`. -/
def review (env : Env) (r : Review) (t : Readings)
    (decide : QuotaRequestRow → CalendarLock → Tx Response) : Tx (Except Err Response) := do
  match ← reserveIdempotency (r.scope env) r.key (r.hash env) t.reservedAt with
  | some replay => do
    let response ← check (replayedApproval replay)
    return .ok response
  | none => do
    let (row, lock, cancellationReason) ← requireApprovable env r t
    match cancellationReason with
    | some reason => do
      let affected ← cancelTransition r.requestId reason t.now
      raiseIf (affected ≠ 1) alreadyProcessed
      commitIdempotency (r.scope env) r.key (r.hash env)
        [("_approval_error_reason", .str reason)] t.completedAt
      return .error (notApprovableError reason)
    | none => do
      let response ← decide row lock
      commitIdempotency (r.scope env) r.key (r.hash env) response t.completedAt
      return .ok response

/-- The credit an approval appends. -/
def creditArgs (r : Review) (t : Readings) (row : QuotaRequestRow) (lock : CalendarLock)
    (pages : ℤ) : CreditArgs where
  quotaSubjectUserId := row.applicantUserId
  quotaPeriod := row.quotaPeriod
  pages
  adjustmentSourceNamespace := "quota_request"
  adjustmentSourceId := r.requestId
  ownership := {
    actorUserId := r.actor.userId
    actorRoleSnapshot := r.actor.role
    actorDepartmentIdSnapshot := r.actor.departmentId
    quotaSubjectUserId := some row.applicantUserId
    costCenterKey := "user:" ++ row.applicantUserId }
  calendarLock := lock
  now := t.now
  token := t.token

/-- The request once it is reviewed, from the row read under the lock. -/
def reviewed (r : Review) (t : Readings) (row : QuotaRequestRow) (status : RequestStatus)
    (x : QuotaRequestRow) : QuotaRequestRow :=
  { x with
    version := row.version + 1
    status
    approverUserId := some r.actor.userId
    approverRoleSnapshot := some r.actor.role
    approverDepartmentId := r.actor.departmentId
    reviewedAtUtc := some t.now
    updatedAtUtc := t.now }

/-- The request once it is approved. -/
def approvedRow (r : Review) (t : Readings) (row : QuotaRequestRow) (pages : ℤ)
    (creditId : String) (x : QuotaRequestRow) : QuotaRequestRow :=
  { reviewed r t row .approved x with
    approvedPages := some pages
    creditEntryId := some creditId }

/-- The decision of `approve`. -/
def grant (env : Env) (a : ReviewArgs) (r : Review) (row : QuotaRequestRow)
    (lock : CalendarLock) : Tx Response := do
  let pages := r.approvedPages.getD row.requestedPages
  raiseIf (¬ (1 ≤ pages ∧ pages ≤ row.requestedPages))
    (validationError "approved_pages must be 1..requested")
  let creditId ← appendCredit env (creditArgs r a.readings row lock pages)
  let _ ← updateRequest r.requestId (fun _ => true) (approvedRow r a.readings row pages creditId)
  check a.enqueue
  return [("id", .str r.requestId),
    ("version", .int (row.version + 1)),
    ("status", .str "approved"),
    ("approved_pages", .int pages),
    ("credit_entry_id", .str creditId),
    ("quota_period", .str row.quotaPeriod)]

/-- The decision of `reject`. -/
def refuse (a : ReviewArgs) (r : Review) (row : QuotaRequestRow) : Tx Response := do
  let _ ← updateRequest r.requestId (fun _ => true) (reviewed r a.readings row .rejected)
  check a.enqueue
  return [("id", .str r.requestId),
    ("version", .int (row.version + 1)),
    ("status", .str "rejected")]

/-- `approve` -/
def approve (env : Env) (a : ReviewArgs) (approvedPages : Val) : Tx (Except Err Response) := do
  let r ← check (validateReview "approve" a approvedPages)
  review env r a.readings (grant env a r)

/-- `reject` -/
def reject (env : Env) (a : ReviewArgs) : Tx (Except Err Response) := do
  let r ← check (validateReview "reject" a .null)
  review env r a.readings fun row _ => refuse a r row

/-! ### The cancellations -/

/-- `_require_cancel_reason` -/
def requireCancelReason (reason : String) : Except Err Unit :=
  if strip reason = "" then .error (.internal "cancel reason must not be empty")
  else if 64 < reason.length then
    .error (.internal "cancel reason must be at most 64 characters")
  else .ok ()

/-- The loop of the bulk cancellations: how many requests were cancelled. -/
def cancelEach (reason : String) (now : Time) : List String → Tx ℕ
  | [] => return 0
  | id :: ids => do
    let affected ← cancelTransition id reason now
    let rest ← cancelEach reason now ids
    return affected + rest

/-- `cancel_for_account`: under the locks of the pending requests of the user. -/
def cancelForAccount (userId reason : String) (now : Time) : Tx ℕ := do
  check (requireCancelReason reason)
  let pendingIds ← Prog.selectForUpdate
    (fun v => (pendingRequests v fun r => r.applicantUserId = userId).map fun e =>
      Key.quotaRequest e.1)
    fun v => (pendingRequests v fun r => r.applicantUserId = userId).map Prod.fst
  cancelEach reason now pendingIds

/-- The loop of `list_cancel_candidates`: a closed month goes before an inactive applicant. -/
def cancelCandidates (currentPeriod : String) :
    List (String × QuotaRequestRow) → Tx (List (String × String))
  | [] => return []
  | (id, row) :: rows =>
    if row.quotaPeriod < currentPeriod then do
      let rest ← cancelCandidates currentPeriod rows
      return (id, "period_closed") :: rest
    else do
      let user ← readRow (Key.identityUser row.applicantUserId)
      let rest ← cancelCandidates currentPeriod rows
      if (user : Option IdentityUserRow).all (·.lifecycleStatus ≠ "active") then
        return (id, "applicant_inactive") :: rest
      else return rest

/-- `list_cancel_candidates` -/
def listCancelCandidates (env : Env) (lock : CalendarLock) (now : Time) :
    Tx (List (String × String)) := do
  let rows ← Prog.select fun v => pendingRequests v fun _ => true
  cancelCandidates (env.periodFor lock.timezone now) rows

/-- `cancel_closed_periods` -/
def cancelClosedPeriods (env : Env) (lock : CalendarLock) (now : Time) : Tx ℕ := do
  let candidates ← listCancelCandidates env lock now
  cancelEach "period_closed" now
    ((candidates.filter fun e => e.2 = "period_closed").map Prod.fst)

/-- `revoke_all_pending` -/
def revokeAllPending (reason : String) (now : Time) : Tx ℕ := do
  check (requireCancelReason reason)
  let pendingIds ← Prog.select fun v => (pendingRequests v fun _ => true).map Prod.fst
  cancelEach reason now pendingIds

end RagQs.Usage.Requests
