import Mathlib

/-!
# Computations that ask a changing world

A computation that asks questions of the world around it, one after the other.  The world
may answer every question differently, also the same one, so an answer is a function of the
time at which it is asked, and asking takes time.  A computation may fail, and it need not
end.

## Main definitions

* `Clocked ε α` — a computation with errors `ε` and result `α`.
* `Clocked.ask`, `Clocked.fail`, `Clocked.attempt` — a question, an error, and the outcome of
  a computation as a value.
* `Clocked.Ends x t Q` — whatever `x`, started at time `t`, returns, `Q` holds of it and of the
  time then.

## Main results

* `Clocked.Ends.bind`, `Clocked.ends_loop` — the rules for sequences and loops.
* `Clocked.bind_run_ok`, `Clocked.bind_run_error` — a sequence goes on, or stops with an error.
-/

namespace RagQs

/-- A computation: what it returns and the time then, when started at a time; `none` when it
does not end. -/
def Clocked (ε α : Type) : Type := ℕ → Option (Except ε α × ℕ)

namespace Clocked

variable {ε α β σ : Type}

/-- The computation that returns at once. -/
protected def pure (a : α) : Clocked ε α := fun t => some (.ok a, t)

/-- One computation after the other. -/
protected def bind (x : Clocked ε α) (f : α → Clocked ε β) : Clocked ε β := fun t =>
  match x t with
  | none => none
  | some (.error e, t') => some (.error e, t')
  | some (.ok a, t') => f a t'

instance : Monad (Clocked ε) where
  pure := Clocked.pure
  bind := Clocked.bind

/-- The answer of the world now. -/
def ask (answer : ℕ → α) : Clocked ε α := fun t => some (.ok (answer t), t + 1)

/-- The computation that fails. -/
def fail (e : ε) : Clocked ε α := fun t => some (.error e, t)

/-- A result or an error that is known. -/
def ofExcept (x : Except ε α) : Clocked ε α := fun t => some (x, t)

/-- The computation that does not end. -/
def never : Clocked ε α := fun _ => none

/-- What becomes of a computation, its error included. -/
def attempt (x : Clocked ε α) : Clocked ε (Except ε α) := fun t =>
  match x t with
  | none => none
  | some (r, t') => some (.ok r, t')

/-- A loop over a list, with a state. -/
def loop (f : σ → α → Clocked ε σ) (s : σ) : List α → Clocked ε σ
  | [] => pure s
  | a :: l => do loop f (← f s a) l

/-- Whatever the computation returns, started at `t`, `Q` holds of it and of the time then. -/
def Ends (x : Clocked ε α) (t : ℕ) (Q : α → ℕ → Prop) : Prop :=
  ∀ a t', x t = some (.ok a, t') → Q a t'

/-! ### What a computation returns -/

variable {x : Clocked ε α} {f : α → Clocked ε β} {t : ℕ} {Q R : α → ℕ → Prop}

theorem Ends.mono (h : x.Ends t Q) (hQ : ∀ a t', Q a t' → R a t') : x.Ends t R :=
  fun a t' hx => hQ a t' (h a t' hx)

theorem ends_pure {a : α} (h : Q a t) : (pure a : Clocked ε α).Ends t Q := by
  intro b t' hb
  obtain ⟨rfl, rfl⟩ : a = b ∧ t = t' := by simpa [pure, Clocked.pure] using hb
  exact h

theorem ends_ask {answer : ℕ → α} (h : Q (answer t) (t + 1)) :
    (ask answer : Clocked ε α).Ends t Q := by
  intro b t' hb
  obtain ⟨rfl, rfl⟩ : answer t = b ∧ t + 1 = t' := by simpa [ask] using hb
  exact h

theorem ends_fail {e : ε} : (fail e : Clocked ε α).Ends t Q := by
  intro a t' h
  simp [fail] at h

theorem ends_never : (never : Clocked ε α).Ends t Q := by
  intro a t' h
  cases h

theorem ends_ofExcept {r : Except ε α} (h : ∀ a, r = .ok a → Q a t) :
    (ofExcept r).Ends t Q := by
  intro a t' hr
  obtain ⟨rfl, rfl⟩ : r = .ok a ∧ t = t' := by simpa [ofExcept] using hr
  exact h a rfl

theorem Ends.bind {S : β → ℕ → Prop} (h : x.Ends t fun a t' => (f a).Ends t' S) :
    (x >>= f).Ends t S := by
  intro b t' hb
  change Clocked.bind x f t = _ at hb
  unfold Clocked.bind at hb
  split at hb
  · cases hb
  · cases hb
  · rename_i a t₁ hx
    exact h a t₁ hx b t' hb

theorem ends_attempt {S : Except ε α → ℕ → Prop} (hok : x.Ends t fun a t' => S (.ok a) t')
    (herror : ∀ e t', S (.error e) t') : (attempt x).Ends t S := by
  intro r t' h
  unfold attempt at h
  split at h
  · cases h
  · rename_i r' t₁ hrun
    obtain ⟨rfl, rfl⟩ : r' = r ∧ t₁ = t' := by
      simpa only [Option.some.injEq, Prod.mk.injEq, Except.ok.injEq] using h
    cases r' with
    | ok a => exact hok a _ hrun
    | error e => exact herror e _

theorem ends_loop {g : σ → α → Clocked ε σ} {S : σ → ℕ → Prop}
    (hg : ∀ s t a, S s t → (g s a).Ends t S) {s : σ} {l : List α} (hs : S s t) :
    (loop g s l).Ends t S := by
  induction l generalizing s t with
  | nil => exact ends_pure hs
  | cons a l ih => exact .bind ((hg s t a hs).mono fun s' t' hs' => ih hs')

/-! ### What a computation does from a time on -/

theorem bind_run_ok {a : α} {t' : ℕ} (h : x t = some (.ok a, t')) : (x >>= f) t = f a t' := by
  change Clocked.bind x f t = _
  simp only [Clocked.bind, h]

theorem bind_run_error {e : ε} {t' : ℕ} (h : x t = some (.error e, t')) :
    (x >>= f) t = some (.error e, t') := by
  change Clocked.bind x f t = _
  simp only [Clocked.bind, h]

@[simp]
theorem pure_run {a : α} : (pure a : Clocked ε α) t = some (.ok a, t) := rfl

@[simp]
theorem fail_run {e : ε} : (fail e : Clocked ε α) t = some (.error e, t) := rfl

@[simp]
theorem ask_bind_run {answer : ℕ → α} : (ask answer >>= f) t = f (answer t) (t + 1) := rfl

@[simp]
theorem ok_bind_run {a : α} : (ofExcept (.ok a) >>= f) t = f a t := rfl

@[simp]
theorem error_bind_run {e : ε} : (ofExcept (.error e) >>= f) t = some (.error e, t) := rfl

theorem attempt_run {r : Except ε α} {t' : ℕ} (h : x t = some (r, t')) :
    attempt x t = some (.ok r, t') := by
  simp only [attempt, h]

end Clocked

end RagQs
