import RagQs.Txn.Prog

/-!
# Interleaved transactions

The database runs any number of transactions at once, one statement of one of them
at a time.  A statement reads the latest committed rows under the transaction's own
writes; the locks it takes, and those of the rows it writes, are held until the
transaction ends.  A statement that needs a lock another transaction holds does not
run until the lock is free, and then reads what is committed by then.  A commit
publishes all pending writes; an error, a deadlock or a lost connection throws them
away.

The scheduler is a list of moves, so a run is computed and a statement about every
list of moves is a statement about every interleaving.

## Main definitions

* `Session`, `Sys` — an open transaction, and the whole system.
* `Move`, `step`, `run` — the scheduler's choices and what they do.
-/

namespace Txn

open List Function

variable {K : Type} [DecidableEq K] {Row : K → Type} {Op ε α : Type}

/-- An open transaction: the operation it was started for, what is left of its
program, and its pending writes. -/
structure Session {K : Type} (Row : K → Type) (Op ε α : Type) where
  /-- The operation the transaction runs. -/
  op : Op
  /-- What is left to run. -/
  prog : Prog Row ε α
  /-- The pending writes, over the committed store. -/
  patch : Store Row
  /-- How many transactions had ended when this one was opened. -/
  opened : ℕ

/-- A transaction that ended: its operation, how many had ended when it was opened, and
its result. -/
structure Ended (Op ε α : Type) where
  op : Op
  opened : ℕ
  result : Except ε α

/-- The system: the committed store, who holds which row lock, the open
transactions, and those that ended, the latest first. -/
structure Sys {K : Type} (Row : K → Type) (Op ε α : Type) where
  /-- The committed rows. -/
  db : Store Row
  /-- The holder of each row lock. -/
  owner : K → Option ℕ
  /-- The open transactions. -/
  sessions : ℕ → Option (Session Row Op ε α)
  /-- The transactions that ended. -/
  hist : List (Ended Op ε α)

/-- A choice of the scheduler. -/
inductive Move (Op : Type)
  /-- Open a transaction under a free number. -/
  | start (i : ℕ) (op : Op)
  /-- Run the next statement of a transaction, or end it. -/
  | advance (i : ℕ)
  /-- Throw a transaction away (deadlock victim, lost connection). -/
  | abort (i : ℕ)

/-- The locks once transaction `i` has ended. -/
def release (owner : K → Option ℕ) (i : ℕ) : K → Option ℕ :=
  fun k => if owner k = some i then none else owner k

/-- The locks once transaction `i` has also taken those of `ks`. -/
def acquire (owner : K → Option ℕ) (i : ℕ) (ks : List K) : K → Option ℕ :=
  fun k => if k ∈ ks then some i else owner k

/-- Transaction `i` may take the locks of `ks`. -/
def available (owner : K → Option ℕ) (i : ℕ) (ks : List K) : Bool :=
  ks.all fun k => owner k == none || owner k == some i

/-- The keys a statement locks on a view: those it asks for and those it writes. -/
def needed (locks : Store Row → List K) (writes : Store Row → List (Write Row))
    (v : Store Row) : List K :=
  locks v ++ (writes v).map Sigma.fst

/-- The system with no transaction open. -/
def Sys.init (db : Store Row) : Sys Row Op ε α :=
  { db, owner := fun _ => none, sessions := fun _ => none, hist := [] }

/-- One move of the scheduler; `none` when it is not possible in this state. -/
def step (body : Op → Prog Row ε α) (s : Sys Row Op ε α) : Move Op → Option (Sys Row Op ε α)
  | .start i op =>
    match s.sessions i with
    | some _ => none
    | none =>
      some { s with sessions := update s.sessions i (some ⟨op, body op, ∅, s.hist.length⟩) }
  | .advance i =>
    match s.sessions i with
    | none => none
    | some ⟨op, .done a, d, n⟩ =>
      some { db := d ∪ s.db, owner := release s.owner i,
             sessions := update s.sessions i none, hist := ⟨op, n, .ok a⟩ :: s.hist }
    | some ⟨op, .fail e, _, n⟩ =>
      some { db := s.db, owner := release s.owner i,
             sessions := update s.sessions i none, hist := ⟨op, n, .error e⟩ :: s.hist }
    | some ⟨op, .stmt l w f, d, n⟩ =>
      let v := d ∪ s.db
      if available s.owner i (needed l w v) then
        some { s with
          owner := acquire s.owner i (needed l w v)
          sessions := update s.sessions i (some ⟨op, f v, d.applyAll (w v), n⟩) }
      else none
  | .abort i =>
    match s.sessions i with
    | none => none
    | some _ => some { s with owner := release s.owner i,
                              sessions := update s.sessions i none }

/-- A run: the moves in order, `none` when one of them is not possible. -/
def run (body : Op → Prog Row ε α) (s : Sys Row Op ε α) : List (Move Op) → Option (Sys Row Op ε α)
  | [] => some s
  | m :: ms => (step body s m).bind fun t => run body t ms

/-- A transaction that runs alone for `n` statements, its end included. -/
def alone (i : ℕ) (op : Op) (n : ℕ) : List (Move Op) :=
  .start i op :: replicate n (.advance i)

@[simp] theorem run_nil (body : Op → Prog Row ε α) (s : Sys Row Op ε α) :
    run body s [] = some s := rfl

theorem run_append (body : Op → Prog Row ε α) (ms ns : List (Move Op)) :
    ∀ s : Sys Row Op ε α, run body s (ms ++ ns) = (run body s ms).bind fun t => run body t ns := by
  induction ms with
  | nil => intro s; rfl
  | cons m ms ih =>
    intro s
    simp only [cons_append, run]
    cases step body s m with
    | none => rfl
    | some t => exact ih t

variable {body : Op → Prog Row ε α} {s t : Sys Row Op ε α}

/-- Only the end of a transaction changes the committed store. -/
theorem step_advance_db {i : ℕ} {x : Session Row Op ε α} (hx : s.sessions i = some x)
    (h : step body s (.advance i) = some t) :
    t.db = s.db ∨ ∃ a, x.prog = .done a ∧ t.db = x.patch ∪ s.db := by
  obtain ⟨op, prog, d, n⟩ := x
  cases prog with
  | done a =>
    simp only [step, hx] at h
    cases h
    exact .inr ⟨a, rfl, rfl⟩
  | fail e =>
    simp only [step, hx] at h
    cases h
    exact .inl rfl
  | stmt l w f =>
    simp only [step, hx] at h
    split at h <;> cases h
    exact .inl rfl

/-- A move leaves the committed store alone, or is a commit. -/
theorem step_ends {m : Move Op} (h : step body s m = some t) :
    t.db = s.db ∨ ∃ i op a d n, m = .advance i ∧
      s.sessions i = some ⟨op, .done a, d, n⟩ ∧ t.db = d ∪ s.db := by
  cases m with
  | start i op =>
    simp only [step] at h
    split at h <;> cases h
    exact .inl rfl
  | advance i =>
    cases hx : s.sessions i with
    | none => simp [step, hx] at h
    | some x =>
      obtain ⟨op, prog, d, n⟩ := x
      rcases step_advance_db hx h with hdb | ⟨a, hprog, hdb⟩
      · exact .inl hdb
      · obtain rfl : prog = .done a := hprog
        exact .inr ⟨i, op, a, d, n, rfl, hx, hdb⟩
  | abort i =>
    simp only [step] at h
    split at h <;> cases h
    exact .inl rfl

end Txn
