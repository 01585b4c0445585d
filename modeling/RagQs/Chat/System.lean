import RagQs.Chat.Worker
import RagQs.Txn.Rely

/-!
# The chat as a system of transactions

The transactions of the chat service, of its workers, of the evaluation that opens and closes
the calibration windows, and of the identity domain that revokes sessions, as the operations the
scheduler interleaves.

## Main definitions

* `Op`, `Reply`, `body` — the transactions and what they return.
* `Op.held` — the claim a transaction of a worker checks.
* `Issued` — the worker was given the claim it checks.
-/

namespace RagQs.Chat

open Txn

/-- The transactions. -/
inductive Op
  -- the chat service
  | createConversation (id userId : String) (now : Time)
  | ask (a : AskCall)
  | retry (a : RetryCall)
  | stop (userId generationId : String) (verified : Except Err Unit)
  | click (userId generationId : String) (verified : Except Err Unit) (data : JsonObject)
  | vote (a : VoteCall)
  | createLease (token generationId authSessionId : String) (now : Time)
  | renewLease (token : String) (now : Time)
  | invalidateLease (token : String) (now : Time)
  -- the identity domain
  | revoke (operationId : String) (s : RevocationScope)
  | recordRevocation (operationId : String) (s : RevocationScope)
  -- the evaluation
  | createWindow (windowId : String)
  | expireWindowPairs (windowId : String)
  | hasVotablePairs (windowId : String)
  -- the worker
  | claim (a : ClaimArgs)
  | openExecution (generationId executionId : String)
  | heartbeat (generationId executionId : String) (fencingToken : ℕ) (now : Time)
  | stage (w : Held) (busy : Bool) (phase : String) (detail : JsonObject)
  | step (w : Held) (busy : Bool) (index : ℕ) (label state : String)
  | delta (w : Held) (busy : Bool) (content : String)
  | notice (w : Held) (busy : Bool) (kind : String) (detail : JsonObject)
  | upgrade (w : Held) (busy busyAgain : Bool) (previous upgraded : String)
  | checkpoint (w : Held) (checkpoint : JsonObject)
  | publish (w : Held) (p : Publication)
  | stopTerminal (w : Held) (busy : Bool) (reason : StopReason)
  | fail (w : Held) (busy : Bool) (now : Time) (error : Failure)
  | maintenance (newId : String → String) (busy : String → Bool) (now : Time)
  | expiry (busy : String → Bool) (now : Time)
  | reconcile (generationId executionId : String) (now : Time) (decision : Decision)

/-- What a transaction returns. -/
inductive Reply
  | nothing
  | flag (b : Bool)
  | claimed (execution : Option (String × String))
  | opened (o : Opened)

/-- The evaluation opens a window, with no pair of it voted. -/
def createWindow (windowId : String) : Tx Unit :=
  insert .integrity [.window windowId] [⟨.window windowId, some ⟨0⟩⟩]

/-- A transaction whose result nobody uses. -/
def silent {β : Type} (p : Tx β) : Tx Reply := p >>= fun _ => pure .nothing

/-- The program of each transaction. -/
def body (env : Env) : Op → Tx Reply
  | .createConversation id userId now => silent (createConversationRow id userId now)
  | .ask a => silent (ask env a)
  | .retry a => silent (retry env a)
  | .stop userId g verified => silent (stop userId g verified)
  | .click userId g verified data => silent (recordCitationClick userId g verified data)
  | .vote a => silent (submitAbVote a)
  | .createLease token g session now => silent (createLease env token g session now)
  | .renewLease token now => silent (renewLease env token now)
  | .invalidateLease token now => silent (invalidateLease env token now)
  | .revoke operationId s => silent (revoke operationId s)
  | .recordRevocation operationId s => silent (recordRevocation operationId s)
  | .createWindow windowId => silent (createWindow windowId)
  | .expireWindowPairs windowId => silent (expireWindowPairs windowId)
  | .hasVotablePairs windowId => windowHasVotablePairs windowId >>= fun b => pure (.flag b)
  | .claim a => claimExecution env a >>= fun x => pure (.claimed x)
  | .openExecution g e => openExecution g e >>= fun o => pure (.opened o)
  | .heartbeat g e token now => heartbeat env g e token now >>= fun b => pure (.flag b)
  | .stage w busy phase detail => silent (emitStage w busy phase detail)
  | .step w busy index label state => silent (emitStep w busy index label state)
  | .delta w busy content => silent (emitDelta w busy content)
  | .notice w busy kind detail => silent (emitNotice w busy kind detail)
  | .upgrade w busy busyAgain previous upgraded =>
    silent (persistEffortUpgrade w busy busyAgain previous upgraded)
  | .checkpoint w checkpoint => silent (persistCheckpoint w checkpoint)
  | .publish w p => silent (publish w p)
  | .stopTerminal w busy reason => silent (stopTerminal w busy reason)
  | .fail w busy now error => silent (failExecution env w busy now error)
  | .maintenance newId busy now => silent (runMaintenance env newId busy now)
  | .expiry busy now => silent (runExpiry busy now)
  | .reconcile g e now decision => silent (reconcileProvider g e now decision)

/-- The claim a transaction of a worker checks; what stops or fails a generation is given the
identifiers only. -/
def Op.held : Op → Option Held
  | .stage w .. => some w
  | .step w .. => some w
  | .delta w .. => some w
  | .notice w .. => some w
  | .upgrade w .. => some w
  | .checkpoint w _ => some w
  | .publish w _ => some w
  | _ => none

/-- A state of the chat. -/
abbrev System := Sys Row Op Err Reply

/-- A transaction that ended. -/
abbrev Past := Ended Op Err Reply

/-- The worker was given the claim its transaction checks: it read it when it opened the
execution. -/
def Issued (op : Op) (h : List Past) : Prop :=
  ∀ w, op.held = some w → ∃ e ∈ h, e.result = .ok (.opened (.held w))

end RagQs.Chat
