import RagQs.Txn.Store

/-!
# Transactions as programs

A transaction is a program whose atoms are statements.  A statement is atomic: it
reads one view of the store (the latest committed rows under the transaction's own
pending writes), asks for row locks, writes rows and goes on with what it read.
Between two statements anything may happen to the rows the transaction holds no
lock on, so a program is a tree that branches on the view each statement sees.

## Main definitions

* `Prog` — programs that end in a result, or fail with an error.
* `Prog.select`, `Prog.selectForUpdate`, `Prog.update` — the statements.
* `Prog.bind`, `Prog.tryCatch` — sequencing, and catching an error inside the
  transaction (which keeps the writes made so far).
-/

namespace Txn

variable {K : Type} {Row : K → Type} {ε α β : Type}

/-- A transaction program over stores with rows `Row`, errors `ε` and results `α`. -/
inductive Prog {K : Type} (Row : K → Type) (ε α : Type) : Type
  /-- The end of the program: the transaction commits. -/
  | done (a : α)
  /-- An error that nothing caught: the transaction rolls back. -/
  | fail (e : ε)
  /-- One statement: the keys it locks, the rows it writes (whose keys it locks as
  well) and the rest of the program, each from the view it runs on. -/
  | stmt (locks : Store Row → List K) (writes : Store Row → List (Write Row))
      (next : Store Row → Prog Row ε α)

namespace Prog

/-- Sequencing. -/
def bind : Prog Row ε α → (α → Prog Row ε β) → Prog Row ε β
  | .done a, f => f a
  | .fail e, _ => .fail e
  | .stmt l w n, f => .stmt l w fun v => (n v).bind f

/-- Catch an error inside the transaction; what was written before it stays. -/
def tryCatch : Prog Row ε α → (ε → Prog Row ε α) → Prog Row ε α
  | .done a, _ => .done a
  | .fail e, h => h e
  | .stmt l w n, h => .stmt l w fun v => (n v).tryCatch h

/-- A caller that catches the error of the program and goes on to commit what it left. -/
def attempt : Prog Row ε α → Prog Row ε (Except ε α)
  | .done a => .done (.ok a)
  | .fail e => .done (.error e)
  | .stmt l w n => .stmt l w fun v => (n v).attempt

instance : Monad (Prog Row ε) where
  pure := .done
  bind := bind

instance : MonadExcept ε (Prog Row ε) where
  throw := .fail
  tryCatch := tryCatch

/-- A statement that returns `q` of the view it ran on. -/
def statement (locks : Store Row → List K) (writes : Store Row → List (Write Row))
    (q : Store Row → β) : Prog Row ε β :=
  .stmt locks writes fun v => .done (q v)

/-- A plain read: no lock, no write. -/
def select (q : Store Row → β) : Prog Row ε β :=
  statement (fun _ => []) (fun _ => []) q

/-- A read that locks the rows it returns. -/
def selectForUpdate (locks : Store Row → List K) (q : Store Row → β) : Prog Row ε β :=
  statement locks (fun _ => []) q

/-- A writing statement; `q` is what it reports (the row count, or the row written). -/
def update (writes : Store Row → List (Write Row)) (q : Store Row → β) : Prog Row ε β :=
  statement (fun _ => []) writes q

@[simp] theorem pure_eq (a : α) : (pure a : Prog Row ε α) = .done a := rfl

@[simp] theorem throw_eq (e : ε) : (throw e : Prog Row ε α) = .fail e := rfl

@[simp] theorem tryCatch_eq (p : Prog Row ε α) (h : ε → Prog Row ε α) :
    MonadExcept.tryCatch p h = p.tryCatch h := rfl

@[simp] theorem done_bind (a : α) (f : α → Prog Row ε β) :
    (Prog.done a >>= f : Prog Row ε β) = f a := rfl

@[simp] theorem fail_bind (e : ε) (f : α → Prog Row ε β) :
    (Prog.fail e >>= f : Prog Row ε β) = .fail e := rfl

@[simp] theorem stmt_bind (l : Store Row → List K) (w : Store Row → List (Write Row))
    (n : Store Row → Prog Row ε α) (f : α → Prog Row ε β) :
    (Prog.stmt l w n >>= f : Prog Row ε β) = .stmt l w fun v => n v >>= f := rfl

@[simp] theorem map_eq_bind (f : α → β) (p : Prog Row ε α) :
    f <$> p = p >>= fun a => .done (f a) := rfl

@[simp] theorem bind_done (p : Prog Row ε α) : p >>= Prog.done = p := by
  induction p with
  | done a => rfl
  | fail e => rfl
  | stmt l w n ih =>
    rw [stmt_bind]
    congr 1
    funext v
    exact ih v

theorem bind_assoc {γ : Type} (p : Prog Row ε α) (f : α → Prog Row ε β) (g : β → Prog Row ε γ) :
    (p >>= f) >>= g = p >>= fun a => f a >>= g := by
  induction p with
  | done a => rfl
  | fail e => rfl
  | stmt l w n ih =>
    simp only [stmt_bind]
    congr 1
    funext v
    exact ih v

end Prog
end Txn
