import RagQs.Txn.Prog

/-!
# Transactions run one after another

A transaction that runs alone reads the store it was opened on under its own writes, and
leaves the store as it was when it fails.

## Main definitions

* `Prog.exec` — the result of a program run alone, and the store it leaves.
* `execAll` — a sequence of operations, each in a transaction of its own.

## Main results

* `Prog.exec_bind` — the result of a sequence.
* `execAll_induction` — what every transaction preserves holds after every sequence.
-/

namespace Txn

variable {K : Type} [DecidableEq K] {Row : K → Type} {Op ε α β : Type}

/-- The result of a program that runs alone, with the store it leaves; a failed one leaves
nothing. -/
def Prog.exec : Prog Row ε α → Store Row → Except ε (α × Store Row)
  | .done a, v => .ok (a, v)
  | .fail e, _ => .error e
  | .stmt _ w n, v => (n v).exec (v.applyAll (w v))

namespace Prog

@[simp] theorem exec_done (a : α) (v : Store Row) :
    (Prog.done a : Prog Row ε α).exec v = .ok (a, v) := rfl

@[simp] theorem exec_fail (e : ε) (v : Store Row) :
    (Prog.fail e : Prog Row ε α).exec v = .error e := rfl

@[simp] theorem exec_stmt (l : Store Row → List K) (w : Store Row → List (Write Row))
    (n : Store Row → Prog Row ε α) (v : Store Row) :
    (Prog.stmt l w n).exec v = (n v).exec (v.applyAll (w v)) := rfl

theorem exec_bind (p : Prog Row ε α) (f : α → Prog Row ε β) (v : Store Row) :
    (p >>= f).exec v = p.exec v >>= fun x => (f x.1).exec x.2 := by
  induction p generalizing v with
  | done a => rfl
  | fail e => rfl
  | stmt l w n ih => exact ih v _

/-- A program that ends with a result went through its parts. -/
theorem exec_bind_ok {p : Prog Row ε α} {f : α → Prog Row ε β} {v v' : Store Row} {b : β}
    (h : (p >>= f).exec v = .ok (b, v')) :
    ∃ a u, p.exec v = .ok (a, u) ∧ (f a).exec u = .ok (b, v') := by
  rw [exec_bind] at h
  cases hp : p.exec v with
  | error e =>
    rw [hp] at h
    cases h
  | ok x =>
    rw [hp] at h
    exact ⟨x.1, x.2, rfl, h⟩

@[simp] theorem exec_select (q : Store Row → β) (v : Store Row) :
    (select q : Prog Row ε β).exec v = .ok (q v, v) := rfl

@[simp] theorem exec_selectForUpdate (l : Store Row → List K) (q : Store Row → β)
    (v : Store Row) : (selectForUpdate l q : Prog Row ε β).exec v = .ok (q v, v) := rfl

@[simp] theorem exec_update (w : Store Row → List (Write Row)) (q : Store Row → β)
    (v : Store Row) : (update w q : Prog Row ε β).exec v = .ok (q v, v.applyAll (w v)) := rfl

end Prog

/-- The store after one operation: what it committed, or what was there before. -/
def execOne (body : Op → Prog Row ε α) (s : Store Row) (op : Op) : Store Row :=
  match (body op).exec s with
  | .ok x => x.2
  | .error _ => s

/-- The store after a sequence of operations. -/
def execAll (body : Op → Prog Row ε α) (s : Store Row) (ops : List Op) : Store Row :=
  ops.foldl (execOne body) s

@[simp] theorem execAll_nil (body : Op → Prog Row ε α) (s : Store Row) :
    execAll body s [] = s := rfl

@[simp] theorem execAll_cons (body : Op → Prog Row ε α) (s : Store Row) (op : Op)
    (ops : List Op) : execAll body s (op :: ops) = execAll body (execOne body s op) ops := rfl

theorem execAll_append (body : Op → Prog Row ε α) (s : Store Row) (ops ops' : List Op) :
    execAll body s (ops ++ ops') = execAll body (execAll body s ops) ops' :=
  List.foldl_append

variable {body : Op → Prog Row ε α} {P : Store Row → Prop}

/-- What every committed operation preserves is preserved by one operation. -/
theorem execOne_induction {s : Store Row} {op : Op}
    (hstep : ∀ a s', (body op).exec s = .ok (a, s') → P s') (h : P s) : P (execOne body s op) := by
  unfold execOne
  split
  · next x hx => exact hstep x.1 x.2 hx
  · exact h

/-- **What every committed operation preserves holds after every sequence.** -/
theorem execAll_induction (hstep : ∀ op s a s', P s → (body op).exec s = .ok (a, s') → P s')
    (ops : List Op) : ∀ s, P s → P (execAll body s ops) := by
  induction ops with
  | nil => exact fun _ h => h
  | cons op ops ih =>
    exact fun s h => ih _ (execOne_induction (fun a s' => hstep op s a s' h) h)

end Txn
