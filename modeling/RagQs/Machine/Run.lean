import Mathlib

/-!
# Runs of a machine

A machine is a step function that may refuse a move; a run is a list of moves.  What every allowed
move preserves holds after every run of allowed moves.

## Main definitions

* `run` — the state after a list of moves.
* `Moves` — every move of a run is allowed, in the state it is made in.
* `At` — the run makes a move between two states.
* `checks` — a test of every move of a run.

## Main results

* `run_preserves` — the run rule.
* `moves_of_checks` — a run whose moves pass a test that only allowed moves pass.
-/

namespace Machine

open List Option Function

variable {σ μ : Type}

/-- The state after the moves, `none` when one of them is not possible. -/
def run (step : σ → μ → Option σ) : σ → List μ → Option σ
  | s, [] => some s
  | s, m :: ms => (step s m).bind fun t => run step t ms

/-- `P` holds of every move of a run, in the state it is made in. -/
def Moves (step : σ → μ → Option σ) (P : σ → μ → Prop) : σ → List μ → Prop
  | _, [] => True
  | s, m :: ms => P s m ∧ ∀ t, step s m = some t → Moves step P t ms

/-- The run from `s₀` makes the move `m` from `s` to `t`. -/
def At (step : σ → μ → Option σ) (s₀ : σ) (ms : List μ) (m : μ) (s t : σ) : Prop :=
  ∃ ms₁, ms₁ ++ [m] <+: ms ∧ run step s₀ ms₁ = some s ∧ step s m = some t

/-- The run from `s₀` comes to the state `s`. -/
def Reaches (step : σ → μ → Option σ) (s₀ : σ) (ms : List μ) (s : σ) : Prop :=
  ∃ ms₁, ms₁ <+: ms ∧ run step s₀ ms₁ = some s

/-- A test of every move of a run. -/
def checks (step : σ → μ → Option σ) (test : σ → μ → Bool) : σ → List μ → Bool
  | _, [] => true
  | s, m :: ms => test s m && (step s m).all fun t => checks step test t ms

variable {step : σ → μ → Option σ} {P Q : σ → μ → Prop} {Inv : σ → Prop} {s t : σ} {m : μ}
  {ms ns : List μ}

theorem run_append : run step s (ms ++ ns) = (run step s ms).bind fun t => run step t ns := by
  induction ms generalizing s with
  | nil => rfl
  | cons m ms ih =>
    rw [cons_append, run, run]
    cases step s m with
    | none => rfl
    | some u => exact ih

/-- A run in two parts. -/
theorem moves_append (h : Moves step P s (ms ++ ns)) (ht : run step s ms = some t) :
    Moves step P s ms ∧ Moves step P t ns := by
  induction ms generalizing s with
  | nil =>
    cases ht
    exact ⟨trivial, h⟩
  | cons m ms ih =>
    rw [run, bind_eq_some_iff] at ht
    obtain ⟨u, hu, ht⟩ := ht
    refine ⟨⟨h.1, fun v hv => ?_⟩, (ih (h.2 u hu) ht).2⟩
    cases hu.symm.trans hv
    exact (ih (h.2 u hu) ht).1

/-- **The run rule**: what every allowed move preserves holds after every run of allowed moves. -/
theorem run_preserves (hstep : ∀ s m t, Inv s → P s m → step s m = some t → Inv t) (hs : Inv s)
    (h : Moves step P s ms) (ht : run step s ms = some t) : Inv t := by
  induction ms generalizing s with
  | nil =>
    cases ht
    exact hs
  | cons m ms ih =>
    rw [run, bind_eq_some_iff] at ht
    obtain ⟨u, hu, ht⟩ := ht
    exact ih (hstep s m u hs h.1 hu) (h.2 u hu) ht

/-- It holds in every state the run comes to. -/
theorem reaches_preserves (hstep : ∀ s m t, Inv s → P s m → step s m = some t → Inv t)
    (hs : Inv s) (h : Moves step P s ms) (ht : Reaches step s ms t) : Inv t := by
  obtain ⟨ms₁, ⟨ms₂, rfl⟩, ht⟩ := ht
  exact run_preserves hstep hs (moves_append h ht).1 ht

/-- It holds where a move is made, and the move is allowed. -/
theorem at_preserves {s₀ : σ} (hstep : ∀ s m t, Inv s → P s m → step s m = some t → Inv t)
    (hs : Inv s₀) (h : Moves step P s₀ ms) (hat : At step s₀ ms m s t) : Inv s ∧ P s m := by
  obtain ⟨ms₁, ⟨ms₂, rfl⟩, hrun, -⟩ := hat
  rw [append_assoc] at h
  obtain ⟨hbefore, hafter⟩ := moves_append h hrun
  exact ⟨run_preserves hstep hs hbefore hrun, hafter.1⟩

/-- A run whose moves pass a test that only allowed moves pass, where these moves preserve `Inv`. -/
theorem moves_of_checks_inv {test : σ → μ → Bool}
    (hP : ∀ s m, Inv s → test s m = true → P s m)
    (hInv : ∀ s m t, Inv s → test s m = true → step s m = some t → Inv t) (hs : Inv s)
    (h : checks step test s ms = true) : Moves step P s ms := by
  induction ms generalizing s with
  | nil => trivial
  | cons m ms ih =>
    rw [checks, Bool.and_eq_true] at h
    refine ⟨hP s m hs h.1, fun t ht => ih (hInv s m t hs h.1 ht) ?_⟩
    rw [ht] at h
    exact h.2

/-- A run whose moves pass a test that only allowed moves pass. -/
theorem moves_of_checks {test : σ → μ → Bool} (hP : ∀ s m, test s m = true → P s m)
    (h : checks step test s ms = true) : Moves step P s ms :=
  moves_of_checks_inv (fun s m (_ : True) => hP s m) (fun _ _ _ _ _ _ => trivial) trivial h

/-- What is there after one entry of a table of parties was set. -/
theorem of_update {α : Type} {f : ℕ → Option α} {i j : ℕ} {o : Option α} {x : α}
    (h : update f i o j = some x) : (j = i ∧ o = some x) ∨ (j ≠ i ∧ f j = some x) := by
  by_cases hj : j = i
  · subst hj
    rw [update_self] at h
    exact .inl ⟨rfl, h⟩
  · rw [update_of_ne hj] at h
    exact .inr ⟨hj, h⟩

end Machine
