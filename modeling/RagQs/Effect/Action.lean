import Mathlib

/-!
# Actions with state and exceptions

An action reads and changes a state and ends with a result or an exception.  What it did
to the state before it raised stays, unlike in a transaction.

## Main definitions

* `Action` — the actions, a monad with exceptions.
* `Action.attempt`, `Action.onError` — `try` with the outcome as a value, and a handler that
  raises the same exception again.
* `Action.wp` — the weakest precondition, for results and for exceptions.
* `Keeps` — an action preserves an invariant, however it ends.

## Main results

* `Action.wp_bind`, `Keeps.bind` — the rules of sequencing.
-/

namespace Effect

variable {ε σ τ α β : Type}

/-- An action on states `σ` that ends with a result or an exception. -/
def Action (ε σ α : Type) : Type := σ → Except ε α × σ

namespace Action

/-- The action that ends with a result. -/
def done (a : α) : Action ε σ α := fun s => (.ok a, s)

/-- The action that raises. -/
def raise (e : ε) : Action ε σ α := fun s => (.error e, s)

/-- Sequencing; an exception skips what follows. -/
def bind (m : Action ε σ α) (f : α → Action ε σ β) : Action ε σ β := fun s =>
  match m s with
  | (.ok a, t) => f a t
  | (.error e, t) => (.error e, t)

instance : Monad (Action ε σ) where
  pure := done
  bind := bind

/-- The state. -/
def read : Action ε σ σ := fun s => (.ok s, s)

/-- A change of the state. -/
def change (f : σ → σ) : Action ε σ Unit := fun s => (.ok (), f s)

/-- `try`: the outcome as a value. -/
def attempt (m : Action ε σ α) : Action ε σ (Except ε α) := fun s =>
  match m s with
  | (r, t) => (.ok r, t)

/-- `try … except: handler; raise`: after an exception the handler, then the same exception. -/
def onError (m : Action ε σ α) (handler : Action ε σ Unit) : Action ε σ α := do
  match ← m.attempt with
  | .ok a => done a
  | .error e => do
    handler
    raise e

/-- `try … except: pass`. -/
def swallow (m : Action ε σ α) : Action ε σ Unit := do
  let _ ← m.attempt
  done ()

/-- The same action on the second part of a state. -/
def onSnd (m : Action ε σ α) : Action ε (τ × σ) α := fun s =>
  match m s.2 with
  | (r, t) => (r, (s.1, t))

/-! ### Weakest preconditions -/

/-- From the state the action ends in `Q` with a result, or in `E` with an exception. -/
def wp (m : Action ε σ α) (Q : α → σ → Prop) (E : ε → σ → Prop) (s : σ) : Prop :=
  match m s with
  | (.ok a, t) => Q a t
  | (.error e, t) => E e t

variable {m : Action ε σ α} {f : α → Action ε σ β} {Q : β → σ → Prop} {E : ε → σ → Prop} {s : σ}

/-- **The rule of sequencing.** -/
theorem wp_bind : (m >>= f).wp Q E s ↔ m.wp (fun a => (f a).wp Q E) E s := by
  show (bind m f).wp Q E s ↔ _
  unfold wp bind
  cases h : m s with
  | mk r t => cases r <;> rfl

theorem wp_attempt_bind {f : Except ε α → Action ε σ β} :
    (m.attempt >>= f).wp Q E s ↔
      m.wp (fun a => (f (.ok a)).wp Q E) (fun e => (f (.error e)).wp Q E) s := by
  rw [wp_bind]
  unfold wp attempt
  cases h : m s with
  | mk r t => cases r <;> rfl

theorem wp_change_bind {g : σ → σ} {f : Unit → Action ε σ β} :
    (change g >>= f).wp Q E s ↔ (f ()).wp Q E (g s) := wp_bind

theorem wp_read_bind {f : σ → Action ε σ β} :
    (read >>= f).wp Q E s ↔ (f s).wp Q E s := wp_bind

theorem wp_mono {Q' : β → σ → Prop} {E' : ε → σ → Prop} {m : Action ε σ β} (h : m.wp Q E s)
    (hQ : ∀ b t, Q b t → Q' b t) (hE : ∀ e t, E e t → E' e t) : m.wp Q' E' s := by
  unfold wp at *
  split <;> simp_all

end Action

open Effect.Action

/-! ### Invariants -/

/-- The action preserves the invariant, with a result or an exception. -/
def Keeps (I : σ → Prop) (m : Action ε σ α) : Prop := ∀ s, I s → I (m s).2

section Keeps

variable {I : σ → Prop} {m : Action ε σ α}

theorem Keeps.wp {Q : α → σ → Prop} {E : ε → σ → Prop} {s : σ} (h : Keeps I m) (hs : I s)
    (hQ : ∀ a t, I t → Q a t) (hE : ∀ e t, I t → E e t) : m.wp Q E s := by
  have ht := h s hs
  unfold Action.wp
  split
  · next a t heq =>
    rw [heq] at ht
    exact hQ a t ht
  · next e t heq =>
    rw [heq] at ht
    exact hE e t ht

theorem keeps_of_wp (h : ∀ s, I s → m.wp (fun _ => I) (fun _ => I) s) : Keeps I m := by
  intro s hs
  have := h s hs
  unfold Action.wp at this
  split at this <;> (next heq => rw [heq]; exact this)

@[simp] theorem keeps_pure (a : α) : Keeps I (pure a : Action ε σ α) := fun _ h => h

@[simp] theorem keeps_done (a : α) : Keeps I (done a : Action ε σ α) := fun _ h => h

@[simp] theorem keeps_raise (e : ε) : Keeps I (raise e : Action ε σ α) := fun _ h => h

@[simp] theorem keeps_read : Keeps I (read : Action ε σ σ) := fun _ h => h

theorem keeps_change {f : σ → σ} (h : ∀ s, I s → I (f s)) :
    Keeps I (change f : Action ε σ Unit) := h

/-- **The rule of sequencing.** -/
theorem Keeps.bind {f : α → Action ε σ β} (hm : Keeps I m) (hf : ∀ a, Keeps I (f a)) :
    Keeps I (m >>= f) :=
  keeps_of_wp fun _ hs => wp_bind.mpr (hm.wp hs
    (fun a _ ht => (hf a).wp ht (fun _ _ h => h) fun _ _ h => h) fun _ _ h => h)

theorem Keeps.attempt (hm : Keeps I m) : Keeps I m.attempt := hm

theorem Keeps.onError {handler : Action ε σ Unit} (hm : Keeps I m) (hh : Keeps I handler) :
    Keeps I (m.onError handler) := by
  refine hm.attempt.bind fun r => ?_
  cases r with
  | ok a => exact keeps_done a
  | error e => exact hh.bind fun _ => keeps_raise e

theorem Keeps.swallow (hm : Keeps I m) : Keeps I m.swallow :=
  hm.attempt.bind fun _ => keeps_done ()

/-- What holds of the second part of a state is kept by an action on it. -/
theorem Keeps.onSnd (hm : Keeps I m) :
    Keeps (fun s : τ × σ => I s.2) (m.onSnd : Action ε (τ × σ) α) := fun s hs => hm s.2 hs

/-- A change of the first part keeps what holds of the second. -/
theorem keeps_change_fst {f : τ × σ → τ × σ} (h : ∀ s, (f s).2 = s.2) :
    Keeps (fun s : τ × σ => I s.2) (change f : Action ε (τ × σ) Unit) :=
  keeps_change fun s hs => by rw [h]; exact hs

theorem keeps_ite {c : Prop} [Decidable c] {m' : Action ε σ α} (h : c → Keeps I m)
    (h' : ¬ c → Keeps I m') : Keeps I (if c then m else m') := by
  split
  · next hc => exact h hc
  · next hc => exact h' hc

end Keeps
end Effect
