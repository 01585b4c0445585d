import RagQs.Documents.Acceptance
import RagQs.Documents.HeadProof

/-!
# The documents as a system of transactions

The transactions of the documents service and of its workers, as the operations the scheduler
interleaves.  Each makes nothing of a document but steps of the state machine, so what the steps
preserve of every document is an invariant of the committed store.

## Main definitions

* `Op`, `Reply`, `body` — the transactions and what they return.
* `Preserves` — a property of documents that the steps preserve.
* `documents` — the discipline: every document is good, and changes under its lock only.

## Main results

* `tracked_body` — every transaction makes steps.
* `Preserves.run` — what the steps preserve holds of every document after every run.
-/

namespace RagQs.Documents

open Txn Txn.Guards

variable {env : Env}

/-- The transactions. -/
inductive Op (env : Env)
  | upload (a : UploadCall env)
  | replace (a : OperationCall) (info : FileInfo env)
  | restore (a : OperationCall) (documentVersionId : String) (now : Time)
  | reindex (a : OperationCall)
  | claim (a : ClaimCall)
  | renew (a : RenewCall)
  | reclaim (now : Time) (jitter : String → ℕ) (discarded : String → Except Err Unit)
  | accept (a : ReceiptCall)
  | fail (a : FailCall)
  | cancel (a : CancelCall)
  | replay (a : ReplayCall)
  | delete (a : DeleteCall)

/-- What a transaction returns. -/
inductive Reply
  | nothing
  | flag (b : Bool)
  | response (r : JsonObject)
  | lease (l : JobLease)
  | state (s : JobState)

/-- The program of each transaction. -/
def body (env : Env) : Op env → Tx Reply
  | .upload a => createInitialUpload a >>= fun r => pure (.response r)
  | .replace a info => replaceVersion a info >>= fun r => pure (.response r)
  | .restore a v now => restoreVersion env a v now >>= fun r => pure (.response r)
  | .reindex a => reindex a >>= fun r => pure (.response r)
  | .claim a => claimJob env a >>= fun l => pure (.lease l)
  | .renew a => renewLease a >>= fun b => pure (.flag b)
  | .reclaim now jitter discarded =>
    reclaimExpired env now jitter discarded >>= fun _ => pure .nothing
  | .accept a => acceptReceipt env a >>= fun s => pure (.state s)
  | .fail a => failJob env a >>= fun s => pure (.state s)
  | .cancel a => cancelJob env a >>= fun s => pure (.state s)
  | .replay a => replayJob a >>= fun r => pure (.response r)
  | .delete a => deleteDocument env a >>= fun r => pure (.response r)

/-- A state of the documents service. -/
abbrev System (env : Env) := Sys Row (Op env) Err Reply

/-! ### The discipline -/

/-- Every document is good, and what belongs to it changes under its lock only. -/
def documents (Good : Aggregate → Prop) : Discipline Row where
  Inv c := ∀ d, Good (.of d (guards.region d c))
  guar W c c' := ∀ d, ¬ W (.document d) → guards.Agree d c c'
  refl _ _ _ _ := .refl
  trans h h' d hd := (h d hd).trans (h' d hd)
  mono hW h d hd := h d fun hd' => hd (hW _ hd')

/-- The property holds of the document under the lock. -/
def Good (P : Aggregate → Prop) (d : String) (x : Region Row) : Prop := P (.of d x)

variable {P : Aggregate → Prop}

theorem guarded : guards.Guarded (Good P) (documents P) where
  inv _ hc := hc
  guar _ _ _ h d hd := h d hd

/-- The steps of the kinds preserve the property, and a document that has it is active where it
has a dedup claim. -/
structure Preserves (env : Env) (kinds : StepKind → Prop) (P : Aggregate → Prop) : Prop where
  step : ∀ kind s t, kinds kind → P s → s.Step env kind t → P t
  claiming : ∀ s, P s → ∀ k v, s.claim k = some v →
    ∃ r, s.document = some r ∧ r.lifecycleStatus = .active

namespace Preserves

variable {kinds : StepKind → Prop} {C : List (Write Row) → Db → Prop}

theorem moves (h : Preserves env kinds P) :
    ∀ d x y, Good P d x → Documents.moves env kinds d x y → Good P d y := by
  intro d x y hx hmove
  rcases hmove with hsame | ⟨kind, hkind, hstep⟩
  · unfold Good
    rw [hsame]
    exact hx
  · exact h.step kind _ _ hkind hx hstep

end Preserves

/-! ### The transactions -/

section Transactions

variable {kinds : StepKind → Prop} {C : List (Write Row) → Db → Prop}

/-- What a commit makes of every document. -/
def Made (env : Env) (kinds : StepKind → Prop) (_ : Op env) (_ : Db) (_ : Reply) (c c' : Db) :
    Prop :=
  ∀ d, Relation.ReflTransGen (moves env kinds d) (guards.region d c) (guards.region d c')

/-- The condition lets no initial job be abandoned, or that is one of the kinds of steps. -/
def Covers (kinds : StepKind → Prop) (C : List (Write Row) → Db → Prop) : Prop :=
  (∀ kind, kind ≠ .abandon → kinds kind) ∧ (kinds .abandon ∨ ∀ ws v, C ws v → Patient ws v)

theorem covers_all : Covers (fun _ => True) C := ⟨fun _ _ => trivial, .inl trivial⟩

theorem covers_patient : Covers (· ≠ .abandon) Patient := ⟨fun _ h => h, .inr fun _ _ h => h⟩

theorem tracked_body (hP : Preserves env kinds P) (hkinds : Covers kinds C) (op : Op env) :
    Tracked (documents P) C env kinds (body env op) := by
  have hD := guarded (P := P)
  have hE := hP.moves
  obtain ⟨hall, habandon⟩ := hkinds
  have silent : ∀ {β : Type} {p : Tx β} (f : β → Reply), Tracked (documents P) C env kinds p →
      Tracked (documents P) C env kinds (p >>= fun b => pure (f b)) :=
    fun f hp => Discipline.Triple.bind hp fun _ => Tracked.free hD trivial
  cases op with
  | upload a => exact silent _ (tracked_createInitialUpload hD hE (hall _ nofun))
  | replace a info => exact silent _ (tracked_replaceVersion hD hE (hall _ nofun))
  | restore a v now => exact silent _ (tracked_restoreVersion hD hE (hall _ nofun))
  | reindex a => exact silent _ (tracked_reindex hD hE (hall _ nofun))
  | claim a => exact silent _ (tracked_claimJob hD hE (hall _ nofun))
  | renew a => exact silent _ (tracked_renewLease hD)
  | reclaim now jitter discarded =>
    exact silent _ (tracked_reclaimExpired hD hE (hall _ nofun) habandon)
  | accept a => exact silent _ (tracked_acceptReceipt hD hE (fun _ _ h => hP.claiming _ h)
      (hall _ nofun))
  | fail a => exact silent _ (tracked_failJob hD hE (hall _ nofun))
  | cancel a => exact silent _ (tracked_cancelJob hD hE (hall _ nofun))
  | replay a => exact silent _ (tracked_replayJob hD hE (hall _ nofun))
  | delete a => exact silent _ (tracked_deleteDocument hD hE (hall _ nofun))

theorem verified (hP : Preserves env kinds P) (hkinds : Covers kinds C) :
    Verified (documents P) (fun _ => onWrites C) (body env) (Made env kinds)
      fun _ _ _ _ => True := by
  refine ⟨fun op c hc => ?_⟩
  refine Discipline.Triple.commit (tracked_body hP hkinds op) hc (fun _ _ => Tracks.empty)
    fun a c d H hc h => ⟨fun g => ?_, fun g hg => h.guar hg, h.2⟩
  exact h.ok guarded hP.moves hc

end Transactions

/-! ### Runs -/

theorem allowsRun_free (ms : List (Move (Op env))) (s : System env) :
    AllowsRun (fun _ => onWrites fun _ _ => True) (body env) s ms := by
  refine (allowsRun_true (body env) ms s).mono fun _ p _ _ => ?_
  cases p <;> exact trivial

/-- A document there is nothing of. -/
def Aggregate.empty : Aggregate where
  document := none
  version _ := none
  job _ := none
  attempt _ _ := none
  publication _ := none
  claim _ := none
  debit _ := none
  item _ := none

/-- A database without documents. -/
def Fresh (db : Db) : Prop := ∀ d, Aggregate.of d (guards.region d db) = .empty

theorem fresh_empty : Fresh ∅ := fun _ => rfl

namespace Preserves

variable {kinds : StepKind → Prop} {C : List (Write Row) → Db → Prop}

/-- **What the steps preserve holds of every document after every run.** -/
theorem run (hP : Preserves env kinds P) (hkinds : Covers kinds C) (hempty : P .empty) {db : Db}
    (hdb : Fresh db) {ms : List (Move (Op env))} {s : System env}
    (hA : AllowsRun (fun _ => onWrites C) (body env) (Sys.init db) ms)
    (h : Txn.run (body env) (Sys.init db) ms = some s) :
    SysOk (documents P) (fun _ => onWrites C) (Made env kinds) (fun _ _ _ _ => True)
      (fun _ _ => True) s := by
  refine ((verified hP hkinds).run .true ms hA (.init (fun d => ?_) trivial) h).1
  rw [hdb d]
  exact hempty

/-- **Between two states of a run every document makes steps.** -/
theorem made (hP : Preserves env kinds P) (hkinds : Covers kinds C) {ms : List (Move (Op env))}
    {s t : System env}
    (hs : SysOk (documents P) (fun _ => onWrites C) (Made env kinds) (fun _ _ _ _ => True)
      (fun _ _ => True) s)
    (hA : AllowsRun (fun _ => onWrites C) (body env) s ms)
    (h : Txn.run (body env) s ms = some t) (d : String) :
    Relation.ReflTransGen (Documents.moves env kinds d) (guards.region d s.db)
      (guards.region d t.db) := by
  induction ms generalizing s with
  | nil =>
    cases h
    exact .refl
  | cons m ms ih =>
    rw [Txn.run, Option.bind_eq_some_iff] at h
    obtain ⟨u, hu, h⟩ := h
    have hok := ((verified hP hkinds).step .true hs hA.1 hu).1
    refine Relation.ReflTransGen.trans ?_ (ih hok (hA.2 u hu) h)
    rcases hs.step_db hu with hdb | ⟨op, c₀, a, hmade⟩
    · rw [hdb]
    · exact hmade d

end Preserves

/-- What a step never undoes is never undone. -/
theorem stays {kinds : StepKind → Prop} {Q : Aggregate → Prop}
    (hQ : ∀ kind s t, Q s → s.Step env kind t → Q t) {d : String} {x y : Region Row}
    (h : Relation.ReflTransGen (moves env kinds d) x y) (hx : Q (.of d x)) : Q (.of d y) := by
  induction h with
  | refl => exact hx
  | tail _ hmove ih =>
    rcases hmove with hsame | ⟨kind, -, hstep⟩
    · rw [hsame]
      exact ih
    · exact hQ kind _ _ ih hstep

end RagQs.Documents
