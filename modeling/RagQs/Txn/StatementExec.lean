import RagQs.Txn.Statement
import RagQs.Txn.Sequential

/-!
# The statements run alone

What each statement does when no other transaction runs.

## Main results

* `exec_updateWhere`, `exec_insert`, … — the result and the store of each statement.
-/

namespace Txn

variable {K : Type} [DecidableEq K] {Row : K → Type} {ε α : Type} {c : Store Row}

@[simp] theorem exec_check_ok (a : α) : (check (.ok a) : Prog Row ε α).exec c = .ok (a, c) := by
  unfold check
  rfl

@[simp] theorem exec_check_error (e : ε) :
    (check (.error e) : Prog Row ε α).exec c = .error e := by
  unfold check
  rfl

theorem exec_raiseIf (bad : Prop) [Decidable bad] (e : ε) :
    (raiseIf bad e : Prog Row ε Unit).exec c = if bad then .error e else .ok ((), c) := by
  unfold raiseIf
  split <;> rfl

@[simp] theorem exec_orRaise_some (a : α) (e : ε) :
    (orRaise (some a) e : Prog Row ε α).exec c = .ok (a, c) := rfl

@[simp] theorem exec_orRaise_none (e : ε) :
    (orRaise none e : Prog Row ε α).exec c = .error e := rfl

@[simp] theorem exec_readRow (k : K) : (readRow k : Prog Row ε _).exec c = .ok (c.get k, c) := rfl

@[simp] theorem exec_lockRow (k : K) : (lockRow k : Prog Row ε _).exec c = .ok (c.get k, c) := rfl

theorem exec_insert (e : ε) (unique : List K) (ws : List (Write Row)) :
    (insert e unique ws).exec c
      = if taken c unique then .error e else .ok ((), c.applyAll ws) := by
  unfold insert
  cases h : taken c unique <;> simp [h]

theorem exec_insertOrSkip (e : ε) (arbiter : K) (others : List K) (ws : List (Write Row)) :
    (insertOrSkip e arbiter others ws).exec c
      = if taken c [arbiter] then .ok (false, c)
        else if taken c others then .error e else .ok (true, c.applyAll ws) := by
  unfold insertOrSkip
  cases h : taken c [arbiter] <;> cases h' : taken c others <;> simp [h, h']

variable {k : K} {cond : Row k → Bool}

theorem exec_updateWhere_hit {f : Row k → Row k} {r : Row k} (hget : c.get k = some r)
    (hcond : cond r = true) :
    (updateWhere k cond f : Prog Row ε ℕ).exec c = .ok (1, c.set k (some (f r))) := by
  have hsome : (c.get k).filter cond = some r :=
    Option.filter_eq_some_iff.mpr ⟨hget, hcond⟩
  simp [updateWhere, hsome]

theorem exec_updateWhere_miss {f : Row k → Row k} (h : ∀ r, c.get k = some r → cond r = false) :
    (updateWhere k cond f : Prog Row ε ℕ).exec c = .ok (0, c) := by
  have hnone : (c.get k).filter cond = none := by
    cases hget : c.get k with
    | none => rfl
    | some r => simp [h r hget]
  simp [updateWhere, hnone]

/-! ### What a program that did not fail went through -/

section Inversion

variable {β : Type} {b : β} {c' : Store Row}

variable {f : α → Prog Row ε β}

theorem exec_check_bind {x : Except ε α} (h : (check x >>= f).exec c = .ok (b, c')) :
    ∃ a, x = .ok a ∧ (f a).exec c = .ok (b, c') := by
  unfold check at h
  cases x with
  | ok a => exact ⟨a, rfl, h⟩
  | error e => cases h

theorem exec_raiseIf_bind {bad : Prop} [Decidable bad] {e : ε} {f : Unit → Prog Row ε β}
    (h : (raiseIf bad e >>= f).exec c = .ok (b, c')) :
    ¬ bad ∧ (f ()).exec c = .ok (b, c') := by
  unfold raiseIf at h
  split at h
  · cases h
  · next hbad => exact ⟨hbad, h⟩

theorem exec_orRaise_bind {o : Option α} {e : ε} (h : (orRaise o e >>= f).exec c = .ok (b, c')) :
    ∃ a, o = some a ∧ (f a).exec c = .ok (b, c') := by
  cases o with
  | some a => exact ⟨a, rfl, h⟩
  | none => cases h

theorem exec_select_bind {q : Store Row → α} (h : (Prog.select q >>= f).exec c = .ok (b, c')) :
    (f (q c)).exec c = .ok (b, c') := h

theorem exec_readRow_bind {f : Option (Row k) → Prog Row ε β}
    (h : (readRow k >>= f).exec c = .ok (b, c')) : (f (c.get k)).exec c = .ok (b, c') := h

theorem exec_lockRow_bind {f : Option (Row k) → Prog Row ε β}
    (h : (lockRow k >>= f).exec c = .ok (b, c')) : (f (c.get k)).exec c = .ok (b, c') := h

theorem exec_updateWhere_bind {g : Row k → Row k} {r : Row k} {f : ℕ → Prog Row ε β}
    (hget : c.get k = some r) (hcond : cond r = true)
    (h : (updateWhere k cond g >>= f).exec c = .ok (b, c')) :
    (f 1).exec (c.set k (some (g r))) = .ok (b, c') := by
  rw [Prog.exec_bind, exec_updateWhere_hit hget hcond] at h
  exact h

variable {ws : List (Write Row)}

theorem exec_insert_bind {e : ε} {unique : List K} {f : Unit → Prog Row ε β}
    (h : (insert e unique ws >>= f).exec c = .ok (b, c')) :
    taken c unique = false ∧ (f ()).exec (c.applyAll ws) = .ok (b, c') := by
  rw [Prog.exec_bind, exec_insert] at h
  cases htaken : taken c unique with
  | true =>
    rw [htaken, if_pos rfl] at h
    cases h
  | false =>
    rw [htaken, if_neg Bool.false_ne_true] at h
    exact ⟨rfl, h⟩

theorem exec_insertOrSkip_bind {e : ε} {arbiter : K} {others : List K} {f : Bool → Prog Row ε β}
    (h : (insertOrSkip e arbiter others ws >>= f).exec c = .ok (b, c')) :
    taken c [arbiter] = true ∧ (f false).exec c = .ok (b, c') ∨
      taken c [arbiter] = false ∧ taken c others = false ∧
        (f true).exec (c.applyAll ws) = .ok (b, c') := by
  rw [Prog.exec_bind, exec_insertOrSkip] at h
  cases harbiter : taken c [arbiter] with
  | true =>
    rw [harbiter, if_pos rfl] at h
    exact .inl ⟨rfl, h⟩
  | false =>
    rw [harbiter, if_neg Bool.false_ne_true] at h
    cases hothers : taken c others with
    | true =>
      rw [hothers, if_pos rfl] at h
      cases h
    | false =>
      rw [hothers, if_neg Bool.false_ne_true] at h
      exact .inr ⟨rfl, rfl, h⟩

end Inversion

end Txn
