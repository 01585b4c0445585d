import RagQs.Txn.Footprint
import RagQs.Txn.StatementExec

/-!
# What a transaction yields

A transaction that runs alone and does not fail yields a result and a store.  That it does not fail
is part of what is shown.

## Main definitions

* `Prog.Yields` — the program does not fail, and its result and store have a property.
* `Prog.Preserves` — every statement keeps a property of the store.

## Main results

* `Yields.bind`, `Yields.updateWhere`, `Yields.insert` — the rules.
* `Yields.framed` — the rows it does not write are left as they are.
* `Preserves.other`, `Preserves.exec` — what every statement keeps holds at the end.
-/

namespace Txn

variable {K : Type} [DecidableEq K] {Row : K → Type} {ε α β : Type}

variable {W : K → Prop} {k : K}

/-- Rows that a program does not write are left as they are. -/
theorem Prog.get_of_exec {p : Prog Row ε α} (hp : p.Writes W) {v v' : Store Row} {a : α}
    (h : p.exec v = .ok (a, v')) (hk : ¬ W k) : v'.get k = v.get k := by
  induction p generalizing v with
  | done x =>
    cases h
    rfl
  | fail e => cases h
  | stmt l w n ih =>
    refine (ih v (hp.2 v) h).trans (Store.get_applyAll_of_notMem fun hmem => hk ?_)
    obtain ⟨x, hx, rfl⟩ := List.mem_map.mp hmem
    exact hp.1 v x hx

/-- So they are by an operation that may fail. -/
theorem Prog.get_execOne {Op : Type} {body : Op → Prog Row ε α} {op : Op} (hp : (body op).Writes W)
    {v : Store Row} (hk : ¬ W k) : (execOne body v op).get k = v.get k := by
  unfold execOne
  split
  · next x hx => exact get_of_exec hp hx hk
  · rfl

/-- The program does not fail on the store, and its result and the store it leaves have `Q`. -/
def Prog.Yields (p : Prog Row ε α) (v : Store Row) (Q : α → Store Row → Prop) : Prop :=
  ∃ a v', p.exec v = .ok (a, v') ∧ Q a v'

namespace Prog.Yields

variable {p : Prog Row ε β} {f : β → Prog Row ε α} {v : Store Row} {Q Q' : β → Store Row → Prop}
  {R : α → Store Row → Prop}

/-- **The rule of sequencing.** -/
theorem bind (hp : p.Yields v Q) (hf : ∀ x v', Q x v' → (f x).Yields v' R) :
    (p >>= f).Yields v R := by
  obtain ⟨x, u, hx, hQ⟩ := hp
  obtain ⟨a, v', ha, hR⟩ := hf x u hQ
  refine ⟨a, v', ?_, hR⟩
  rw [exec_bind, hx]
  exact ha

/-- The rule of consequence. -/
theorem mono (hp : p.Yields v Q) (h : ∀ x v', Q x v' → Q' x v') : p.Yields v Q' := by
  obtain ⟨x, v', hx, hQ⟩ := hp
  exact ⟨x, v', hx, h x v' hQ⟩

theorem done {x : β} (h : Q x v) : (Prog.done x : Prog Row ε β).Yields v Q := ⟨x, v, rfl, h⟩

/-- The rule of a plain read. -/
theorem select {q : Store Row → β} (h : Q (q v) v) : (Prog.select q : Prog Row ε β).Yields v Q :=
  ⟨_, v, rfl, h⟩

theorem lockRow {Q : Option (Row k) → Store Row → Prop} (h : Q (v.get k) v) :
    (Txn.lockRow k : Prog Row ε _).Yields v Q := ⟨_, v, rfl, h⟩

theorem check {x : Except ε β} {y : β} (hx : x = .ok y) (h : Q y v) :
    (Txn.check x : Prog Row ε β).Yields v Q := by
  subst hx
  exact ⟨y, v, exec_check_ok y, h⟩

theorem orRaise {o : Option β} {e : ε} {y : β} (ho : o = some y) (h : Q y v) :
    (Txn.orRaise o e : Prog Row ε β).Yields v Q := by
  subst ho
  exact ⟨y, v, rfl, h⟩

variable {cond : Row k → Bool}

/-- The rule of an update of one row. -/
theorem updateWhere {g : Row k → Row k} {Q : ℕ → Store Row → Prop}
    (hmiss : (∀ r, v.get k = some r → cond r = false) → Q 0 v)
    (hhit : ∀ r, v.get k = some r → cond r = true → Q 1 (v.set k (some (g r)))) :
    (Txn.updateWhere k cond g : Prog Row ε ℕ).Yields v Q := by
  by_cases h : ∃ r, v.get k = some r ∧ cond r = true
  · obtain ⟨r, hr, hcond⟩ := h
    exact ⟨1, _, exec_updateWhere_hit hr hcond, hhit r hr hcond⟩
  · have hnone : ∀ r, v.get k = some r → cond r = false := fun r hr =>
      Bool.eq_false_iff.mpr fun hcond => h ⟨r, hr, hcond⟩
    exact ⟨0, v, exec_updateWhere_miss hnone, hmiss hnone⟩

variable {ws : List (Write Row)}

/-- The rule of an insert. -/
theorem insert {e : ε} {unique : List K} {Q : Unit → Store Row → Prop}
    (hfree : taken v unique = false) (h : Q () (v.applyAll ws)) :
    (Txn.insert e unique ws : Prog Row ε Unit).Yields v Q := by
  refine ⟨(), _, ?_, h⟩
  rw [exec_insert, hfree, if_neg Bool.false_ne_true]

/-- The store after an operation that does not fail. -/
theorem execOne {Op : Type} {body : Op → Prog Row ε β} {op : Op} (h : (body op).Yields v Q) :
    ∃ x, Q x (execOne body v op) := by
  obtain ⟨x, v', hx, hQ⟩ := h
  unfold Txn.execOne
  rw [hx]
  exact ⟨x, hQ⟩

end Prog.Yields

/-- Every statement of the program keeps the property of the store. -/
def Prog.Preserves (P : Store Row → Prop) : Prog Row ε α → Prop
  | .done _ => True
  | .fail _ => True
  | .stmt _ w n => ∀ v, P v → P (v.applyAll (w v)) ∧ (n v).Preserves P

namespace Prog.Preserves

variable {P : Store Row → Prop} {p : Prog Row ε β} {f : β → Prog Row ε α}

/-- **The rule of sequencing.** -/
theorem bind (hp : p.Preserves P) (hf : ∀ x, (f x).Preserves P) : (p >>= f).Preserves P := by
  induction p with
  | done x => exact hf x
  | fail e => exact trivial
  | stmt l w n ih => exact fun v hv => ⟨(hp v hv).1, ih v (hp v hv).2⟩

/-- A program keeps what the writes of its rows keep. -/
theorem of_writes (hp : p.Writes W) (hP : ∀ v ws, (∀ x ∈ ws, W x.1) → P v → P (v.applyAll ws)) :
    p.Preserves P := by
  induction p with
  | done x => exact trivial
  | fail e => exact trivial
  | stmt l w n ih => exact fun v hv => ⟨hP v _ (hp.1 v) hv, ih v (hp.2 v)⟩

/-- A program keeps what is so of a row it does not write. -/
theorem other {P : Option (Row k) → Prop} (hp : p.Writes fun k' => k' ≠ k) :
    p.Preserves fun v => P (v.get k) := by
  refine .of_writes hp fun v ws hws hv => ?_
  rw [Store.get_applyAll_of_notMem fun hmem => ?_]
  · exact hv
  · obtain ⟨x, hx, heq⟩ := List.mem_map.mp hmem
    exact hws x hx heq

/-- The rule of an update of one row. -/
theorem updateWhere {cond : Row k → Bool} {g : Row k → Row k}
    (h : ∀ v r, P v → v.get k = some r → P (v.set k (some (g r)))) :
    (Txn.updateWhere k cond g : Prog Row ε ℕ).Preserves P := by
  refine fun v hv => ⟨?_, trivial⟩
  dsimp only
  cases hr : (v.get k).filter cond with
  | none => exact hv
  | some r => exact h v r hv (Option.filter_eq_some_iff.mp hr).1

/-- The rule of an insert. -/
theorem insert {e : ε} {unique : List K} {ws : List (Write Row)}
    (h : ∀ v, P v → taken v unique = false → P (v.applyAll ws)) :
    (Txn.insert e unique ws : Prog Row ε Unit).Preserves P := by
  intro v hv
  dsimp only
  cases ht : taken v unique with
  | true =>
    simp only [if_true]
    exact ⟨hv, trivial⟩
  | false =>
    simp only [Bool.false_eq_true, if_false]
    exact ⟨h v hv ht, trivial⟩

/-- **What every statement keeps** holds at the end. -/
theorem exec (hp : p.Preserves P) {v v' : Store Row} {x : β} (hv : P v)
    (h : p.exec v = .ok (x, v')) : P v' := by
  induction p generalizing v with
  | done y =>
    cases h
    exact hv
  | fail e => cases h
  | stmt l w n ih => exact ih v (hp v hv).2 (hp v hv).1 h

end Prog.Preserves
end Txn
