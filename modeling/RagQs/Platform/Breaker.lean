import RagQs.Platform.Value
import Mathlib.Logic.Function.Basic

/-!
# The circuit breaker

One circuit for each provider and operation.  It opens after a number of failures; once it
has been open long enough one call is let through as a probe, which its token owns, and the
probe's result closes the circuit or opens it again.  Every call of a registry's method runs
under its lock, so the calls of any number of invocations are a sequence.

## Main definitions

* `Circuit`, `CircuitBreakerRegistry` — the state.
* `CircuitCall`, `CircuitBreakerRegistry.step` — the methods, each with its token.
* `HoldsProbe` — a call let a token through as the probe, and it has not reported since.
* `Throughout` — a property of every call of a sequence.

## Main results

* `probeInv_step` — the registry knows who holds the probe, and since when.
* `circuit_breaker_safety` — probes are exclusive, and how an open circuit closes.
-/

namespace RagQs

open List Option Function

/-- `_Circuit`; `T` are the probe tokens. -/
structure Circuit (T : Type) where
  failures : ℤ := 0
  openedAt : Option Time := none
  halfOpenProbe : Bool := false
  halfOpenProbeOwner : Option T := none

/-- What a circuit is for. -/
structure CircuitKey where
  provider : String
  operation : String
  deriving DecidableEq

/-- `CircuitBreakerRegistry`, with the circuits it has so far. -/
structure CircuitBreakerRegistry (T : Type) where
  threshold : ℤ := 5
  openSeconds : ℤ := 60
  circuits : CircuitKey → Option (Circuit T) := fun _ => none

/-- The methods of the registry, called under the token of an invocation. -/
inductive CircuitCall (T : Type)
  | allow (key : CircuitKey) (now : Time) (token : T)
  | success (key : CircuitKey) (token : T)
  | failure (key : CircuitKey) (now : Time) (token : T)
  | abortProbe (key : CircuitKey) (token : T)

/-- What a method answers. -/
inductive CircuitAnswer
  /-- `allow` lets the call through; it is the probe or not. -/
  | allowed (probe : Bool)
  /-- `CircuitOpen` -/
  | refused (message : String)
  | done

section Methods

variable {T : Type} [DecidableEq T]

/-- The circuit of a key, `_circuits.setdefault`. -/
def CircuitBreakerRegistry.circuit (r : CircuitBreakerRegistry T) (key : CircuitKey) : Circuit T :=
  (r.circuits key).getD {}

/-- The registry with another circuit under a key. -/
def CircuitBreakerRegistry.put (r : CircuitBreakerRegistry T) (key : CircuitKey) (c : Circuit T) :
    CircuitBreakerRegistry T :=
  { r with circuits := update r.circuits key (some c) }

/-- The probe is in flight and another token owns it. -/
def Circuit.foreign (c : Circuit T) (token : T) : Bool :=
  c.halfOpenProbe && c.halfOpenProbeOwner ≠ some token

/-- The probe is in flight and the token owns it. -/
def Circuit.owned (c : Circuit T) (token : T) : Bool :=
  c.halfOpenProbe && c.halfOpenProbeOwner = some token

/-- `allow`, with the circuit as it leaves it.  The time since the circuit opened is in
microseconds. -/
def Circuit.allow (openSeconds : ℤ) (key : CircuitKey) (now : Time) (token : T) (c : Circuit T) :
    CircuitAnswer × Circuit T :=
  match c.openedAt with
  | none => (.allowed false, c)
  | some openedAt =>
    if now - openedAt < openSeconds * 1000000 then
      (.refused ("circuit open for " ++ key.provider ++ ":" ++ key.operation), c)
    else if c.halfOpenProbe then
      (.refused ("circuit half-open probe already in flight for " ++ key.provider ++ ":"
        ++ key.operation), c)
    else (.allowed true, { c with halfOpenProbe := true, halfOpenProbeOwner := some token })

/-- `success`: the circuit starts anew, unless the probe is another token's. -/
def Circuit.success (token : T) (c : Circuit T) : Circuit T :=
  if c.foreign token then c else {}

/-- `failure`: the probe, if any, has ended, and the circuit opens at the threshold. -/
def Circuit.failure (threshold : ℤ) (now : Time) (token : T) (c : Circuit T) : Circuit T :=
  if c.foreign token then c
  else {
    failures := c.failures + 1
    openedAt := if threshold ≤ c.failures + 1 then some now else c.openedAt
    halfOpenProbe := false
    halfOpenProbeOwner := none }

/-- `_release_probe_owned_by_token`, which `abort_probe` ends in. -/
def Circuit.releaseProbe (token : T) (c : Circuit T) : Circuit T :=
  if c.owned token then { c with halfOpenProbe := false, halfOpenProbeOwner := none } else c

/-- One call of a method: its answer and the registry after it. -/
def CircuitBreakerRegistry.step (r : CircuitBreakerRegistry T) :
    CircuitCall T → CircuitAnswer × CircuitBreakerRegistry T
  | .allow key now token =>
    let (answer, c) := (r.circuit key).allow r.openSeconds key now token
    (answer, r.put key c)
  | .success key token => (.done, r.put key ((r.circuit key).success token))
  | .failure key now token => (.done, r.put key ((r.circuit key).failure r.threshold now token))
  | .abortProbe key token =>
    -- an abort does not create the circuit
    match r.circuits key with
    | none => (.done, r)
    | some c => (.done, r.put key (c.releaseProbe token))

/-- The calls and their answers, the latest first. -/
abbrev CircuitLog (T : Type) := List (CircuitCall T × CircuitAnswer)

end Methods

/-! ### Who holds the probe -/

/-- The circuit a call is about. -/
def CircuitCall.key {T : Type} : CircuitCall T → CircuitKey
  | .allow key _ _ => key
  | .success key _ => key
  | .failure key _ _ => key
  | .abortProbe key _ => key

/-- The token a call is made under. -/
def CircuitCall.token {T : Type} : CircuitCall T → T
  | .allow _ _ token => token
  | .success _ token => token
  | .failure _ _ token => token
  | .abortProbe _ token => token

/-- By the log the token was let through as the probe at the time `since`, and has reported
no result of it yet. -/
def HoldsProbe {T : Type} (key : CircuitKey) (token : T) (since : Time) : CircuitLog T → Prop
  | [] => False
  | (.allow key' now token', answer) :: log =>
    key' = key ∧ token' = token ∧ now = since ∧ answer = .allowed true ∨
      HoldsProbe key token since log
  | (.success key' token', _) :: log
  | (.failure key' _ token', _) :: log
  | (.abortProbe key' token', _) :: log =>
    ¬ (key' = key ∧ token' = token) ∧ HoldsProbe key token since log

section Safety

variable {T : Type} [DecidableEq T] {r : CircuitBreakerRegistry T} {log : CircuitLog T}
  {key : CircuitKey} {token : T}

/-- What the log says of one circuit is what its fields say; a probe was let through when the
circuit had been open long enough. -/
structure ProbeInv (openSeconds : ℤ) (log : CircuitLog T) (key : CircuitKey) (c : Circuit T) :
    Prop where
  holds : ∀ token since, HoldsProbe key token since log → c.halfOpenProbe = true ∧
    c.halfOpenProbeOwner = some token ∧
    ∃ openedAt, c.openedAt = some openedAt ∧ openedAt + openSeconds * 1000000 ≤ since
  held : c.halfOpenProbe = true → ∃ token since, c.halfOpenProbeOwner = some token ∧
    HoldsProbe key token since log

omit [DecidableEq T] in
theorem probeInv_nil (openSeconds : ℤ) (key : CircuitKey) :
    ProbeInv openSeconds [] key ({} : Circuit T) where
  holds _ _ h := h.elim
  held h := by cases h

theorem foreign_iff {c : Circuit T} :
    c.foreign token = true ↔ c.halfOpenProbe = true ∧ c.halfOpenProbeOwner ≠ some token := by
  simp [Circuit.foreign]

theorem owned_iff {c : Circuit T} :
    c.owned token = true ↔ c.halfOpenProbe = true ∧ c.halfOpenProbeOwner = some token := by
  simp [Circuit.owned]

variable {call : CircuitCall T}

theorem circuit_step_of_ne (h : key ≠ call.key) : (r.step call).2.circuit key = r.circuit key := by
  cases call with
  | abortProbe key' token' =>
    cases hc : r.circuits key' with
    | none => simp [CircuitBreakerRegistry.step, hc]
    | some c => simp [CircuitBreakerRegistry.step, hc, CircuitBreakerRegistry.put,
        CircuitBreakerRegistry.circuit, update_of_ne (show key ≠ key' from h)]
  | _ key' => simp [CircuitBreakerRegistry.step, CircuitBreakerRegistry.put,
      CircuitBreakerRegistry.circuit, update_of_ne (show key ≠ key' from h)]

omit [DecidableEq T] in
theorem holdsProbe_cons_of_ne {answer : CircuitAnswer} {since : Time} (h : key ≠ call.key) :
    HoldsProbe key token since ((call, answer) :: log) ↔ HoldsProbe key token since log := by
  have hne : ¬ call.key = key := fun heq => h heq.symm
  cases call with
  | allow key' now token' => simp [HoldsProbe, show ¬ key' = key from hne]
  | success key' token' => simp [HoldsProbe, show ¬ key' = key from hne]
  | failure key' now token' => simp [HoldsProbe, show ¬ key' = key from hne]
  | abortProbe key' token' => simp [HoldsProbe, show ¬ key' = key from hne]

theorem ProbeInv.report (token : T) {openSeconds : ℤ} {c c' : Circuit T} {log' : CircuitLog T}
    (h : ProbeInv openSeconds log key c)
    (hlog : ∀ t since, HoldsProbe key t since log' ↔ t ≠ token ∧ HoldsProbe key t since log)
    (hc : c' = c ∧ c.owned token = false ∨ c'.halfOpenProbe = false ∧ c.foreign token = false) :
    ProbeInv openSeconds log' key c' := by
  rcases hc with ⟨rfl, howned⟩ | ⟨hprobe, hforeign⟩
  · refine ⟨fun t since ht => h.holds t since ((hlog t since).mp ht).2, fun hprobe => ?_⟩
    obtain ⟨t, since, howner, ht⟩ := h.held hprobe
    refine ⟨t, since, howner, (hlog t since).mpr ⟨?_, ht⟩⟩
    rintro rfl
    rw [owned_iff.mpr ⟨hprobe, howner⟩] at howned
    cases howned
  · refine ⟨fun t since ht => ?_, fun h' => ?_⟩
    · -- a probe of another token would make the report foreign
      obtain ⟨hne, ht⟩ := (hlog t since).mp ht
      obtain ⟨hp, howner, _⟩ := h.holds t since ht
      have hf : c.foreign token = true := foreign_iff.mpr ⟨hp, by
        rw [howner]
        exact fun heq => hne (some.inj heq)⟩
      rw [hf] at hforeign
      cases hforeign
    · rw [hprobe] at h'
      cases h'

omit [DecidableEq T] in
theorem circuit_put (c : Circuit T) : (r.put key c).circuit key = c := by
  simp [CircuitBreakerRegistry.put, CircuitBreakerRegistry.circuit]

/-- **One call** keeps what the log says of every circuit. -/
theorem probeInv_step (h : ProbeInv r.openSeconds log key (r.circuit key)) :
    ProbeInv r.openSeconds ((call, (r.step call).1) :: log) key ((r.step call).2.circuit key) := by
  by_cases hkey : key = call.key
  · subst hkey
    cases call with
    | allow key now token =>
      simp only [CircuitBreakerRegistry.step, CircuitCall.key] at h ⊢
      rw [circuit_put]
      have hsame : ∀ answer, answer ≠ .allowed true → ProbeInv r.openSeconds
          ((.allow key now token, answer) :: log) key (r.circuit key) := by
        intro answer hne
        have hlog : ∀ t since, HoldsProbe key t since ((.allow key now token, answer) :: log) ↔
            HoldsProbe key t since log := by simp [HoldsProbe, hne]
        exact ⟨fun t since ht => h.holds t since ((hlog t since).mp ht), fun hp => by
          simpa only [hlog] using h.held hp⟩
      unfold Circuit.allow
      cases hopen : (r.circuit key).openedAt with
      | none => exact hsame _ (by simp)
      | some openedAt =>
        dsimp only
        split
        · exact hsame _ nofun
        · next hwait =>
          split
          · exact hsame _ nofun
          · next hprobe =>
            refine ⟨fun t since ht => ?_, fun _ => ⟨token, now, rfl, .inl ⟨rfl, rfl, rfl, rfl⟩⟩⟩
            rcases ht with ⟨-, rfl, rfl, -⟩ | ht
            · exact ⟨rfl, rfl, openedAt, rfl, Int.add_le_of_le_sub_left (Int.not_lt.mp hwait)⟩
            · exact absurd (h.holds t since ht).1 hprobe
    | success key token =>
      simp only [CircuitBreakerRegistry.step, CircuitCall.key] at h ⊢
      rw [circuit_put]
      refine h.report token (fun t since => by simp [HoldsProbe, eq_comm]) ?_
      unfold Circuit.success
      split
      · next hf => exact .inl ⟨rfl, by simp [Circuit.owned, (foreign_iff.mp hf).2]⟩
      · next hf => exact .inr ⟨rfl, by simpa using hf⟩
    | failure key now token =>
      simp only [CircuitBreakerRegistry.step, CircuitCall.key] at h ⊢
      rw [circuit_put]
      refine h.report token (fun t since => by simp [HoldsProbe, eq_comm]) ?_
      unfold Circuit.failure
      split
      · next hf => exact .inl ⟨rfl, by simp [Circuit.owned, (foreign_iff.mp hf).2]⟩
      · next hf => exact .inr ⟨rfl, by simpa using hf⟩
    | abortProbe key token =>
      simp only [CircuitBreakerRegistry.step, CircuitCall.key] at h ⊢
      cases hc : r.circuits key with
      | none =>
        have hnew : r.circuit key = {} := by simp [CircuitBreakerRegistry.circuit, hc]
        dsimp only
        refine h.report token (fun t since => by simp [HoldsProbe, eq_comm]) (.inl ⟨rfl, ?_⟩)
        rw [hnew]
        rfl
      | some c =>
        have hc' : r.circuit key = c := by simp [CircuitBreakerRegistry.circuit, hc]
        dsimp only
        rw [circuit_put]
        rw [hc'] at h
        refine h.report token (fun t since => by simp [HoldsProbe, eq_comm]) ?_
        unfold Circuit.releaseProbe
        split
        · next ho => exact .inr ⟨rfl, by simp [Circuit.foreign, (owned_iff.mp ho).2]⟩
        · next ho => exact .inl ⟨rfl, by simpa using ho⟩
  · rw [circuit_step_of_ne hkey]
    refine ⟨fun t since ht => h.holds t since ((holdsProbe_cons_of_ne hkey).mp ht), fun hp => ?_⟩
    obtain ⟨t, since, howner, ht⟩ := h.held hp
    exact ⟨t, since, howner, (holdsProbe_cons_of_ne hkey).mpr ht⟩

theorem step_openSeconds (call : CircuitCall T) : (r.step call).2.openSeconds = r.openSeconds := by
  cases call with
  | abortProbe key token =>
    cases hc : r.circuits key with
    | none => simp [CircuitBreakerRegistry.step, hc]
    | some c => simp [CircuitBreakerRegistry.step, hc, CircuitBreakerRegistry.put]
  | _ => rfl

/-! ### Runs -/

/-- A property of every call of a sequence, with the registry and the log it is made on. -/
def Throughout (P : CircuitBreakerRegistry T → CircuitLog T → CircuitCall T → Prop) :
    CircuitBreakerRegistry T → CircuitLog T → List (CircuitCall T) → Prop
  | _, _, [] => True
  | r, log, call :: calls =>
    P r log call ∧ Throughout P (r.step call).2 ((call, (r.step call).1) :: log) calls

/-- A property that can be decided of every call can be decided of a sequence. -/
def decidableThroughout
    {P : CircuitBreakerRegistry T → CircuitLog T → CircuitCall T → Prop}
    [∀ r log call, Decidable (P r log call)] :
    ∀ calls r log, Decidable (Throughout P r log calls)
  | [], _, _ => inferInstanceAs (Decidable True)
  | _ :: calls, _, _ => @instDecidableAnd _ _ _ (decidableThroughout calls _ _)

instance {P : CircuitBreakerRegistry T → CircuitLog T → CircuitCall T → Prop}
    [∀ r log call, Decidable (P r log call)] (calls : List (CircuitCall T)) (r log) :
    Decidable (Throughout P r log calls) := decidableThroughout calls r log

theorem throughout_of_probeInv {P : CircuitBreakerRegistry T → CircuitLog T → CircuitCall T → Prop}
    (hP : ∀ r log call, (∀ key, ProbeInv r.openSeconds log key (r.circuit key)) → P r log call)
    (calls : List (CircuitCall T)) :
    ∀ r log, (∀ key, ProbeInv r.openSeconds log key (r.circuit key)) → Throughout P r log calls := by
  induction calls with
  | nil => exact fun _ _ _ => trivial
  | cons call calls ih =>
    intro r log h
    refine ⟨hP r log call h, ih _ _ fun key => ?_⟩
    rw [step_openSeconds]
    exact probeInv_step (h key)

/-- The probe of a circuit has one holder. -/
def OneHolder (_ : CircuitBreakerRegistry T) (log : CircuitLog T) (_ : CircuitCall T) : Prop :=
  ∀ key t t' since since', HoldsProbe key t since log → HoldsProbe key t' since' log → t = t'

/-- A call under a token that does not hold the probe leaves the circuit as it is. -/
def Undisturbed (r : CircuitBreakerRegistry T) (log : CircuitLog T) (call : CircuitCall T) : Prop :=
  ∀ key t since, HoldsProbe key t since log → call.token ≠ t →
    (r.step call).2.circuit key = r.circuit key

/-- If the call closes an open circuit it is the success of the probe, which was let through
when the circuit had been open for `open_seconds`. -/
def ClosesByProbe (r : CircuitBreakerRegistry T) (log : CircuitLog T) (call : CircuitCall T) :
    Prop :=
  ∀ key openedAt, (r.circuit key).openedAt = some openedAt →
    ((r.step call).2.circuit key).openedAt = none →
    ∃ token since, call = .success key token ∧ HoldsProbe key token since log ∧
      openedAt + r.openSeconds * 1000000 ≤ since

/-- The call is not a success reported on a circuit that is open with no probe in flight. -/
def calm (r : CircuitBreakerRegistry T) : CircuitCall T → Bool
  | .success key _ => (r.circuit key).openedAt.isNone || (r.circuit key).halfOpenProbe
  | _ => true

/-- What a sequence of calls on a new registry has to satisfy. -/
structure BreakerSafe (r : CircuitBreakerRegistry T) (calls : List (CircuitCall T)) : Prop where
  oneHolder : Throughout OneHolder r [] calls
  undisturbed : Throughout Undisturbed r [] calls
  closes : Throughout ClosesByProbe r [] calls

theorem not_closed {openedAt : Time} (h : ∀ t, call ≠ .success key t)
    (hopen : (r.circuit key).openedAt = some openedAt) :
    ((r.step call).2.circuit key).openedAt ≠ none := by
  by_cases hkey : key = call.key
  · subst hkey
    cases call with
    | allow key now token =>
      simp only [CircuitBreakerRegistry.step, CircuitCall.key] at hopen ⊢
      rw [circuit_put]
      unfold Circuit.allow
      rw [hopen]
      dsimp only
      split_ifs <;> simp [hopen]
    | success key token => exact absurd rfl (h token)
    | failure key now token =>
      simp only [CircuitBreakerRegistry.step, CircuitCall.key] at hopen ⊢
      rw [circuit_put]
      unfold Circuit.failure
      split_ifs <;> simp [hopen]
    | abortProbe key token =>
      simp only [CircuitBreakerRegistry.step, CircuitCall.key] at hopen ⊢
      cases hc : r.circuits key with
      | none => simp [hopen]
      | some c =>
        have hc' : r.circuit key = c := by simp [CircuitBreakerRegistry.circuit, hc]
        dsimp only
        rw [circuit_put]
        rw [hc'] at hopen
        unfold Circuit.releaseProbe
        split_ifs <;> simp [hopen]
  · rw [circuit_step_of_ne hkey, hopen]
    exact nofun

theorem closesByProbe_iff (h : ∀ key, ProbeInv r.openSeconds log key (r.circuit key)) :
    ClosesByProbe r log call ↔ calm r call = true := by
  constructor
  · intro hcloses
    cases call with
    | success key token =>
      simp only [calm, Bool.or_eq_true, isNone_iff_eq_none]
      by_contra hlate
      rw [not_or] at hlate
      obtain ⟨openedAt, hopen⟩ := ne_none_iff_exists'.mp hlate.1
      have hclosed : (((r.step (.success key token)).2).circuit key).openedAt = none := by
        simp only [CircuitBreakerRegistry.step]
        rw [circuit_put]
        simp [Circuit.success, Circuit.foreign, hlate.2]
      obtain ⟨t, since, -, ht, -⟩ := hcloses key openedAt hopen hclosed
      exact hlate.2 ((h key).holds t since ht).1
    | _ => rfl
  · intro hcalm key openedAt hopen hclosed
    by_cases hsuccess : ∃ t, call = .success key t
    · obtain ⟨token, rfl⟩ := hsuccess
      have hprobe : (r.circuit key).halfOpenProbe = true := by
        simpa [calm, hopen] using hcalm
      obtain ⟨t, since, howner, ht⟩ := (h key).held hprobe
      obtain ⟨-, -, openedAt', hopen', hsince⟩ := (h key).holds t since ht
      cases hopen.symm.trans hopen'
      have htoken : t = token := by
        by_contra hne
        have hf : (r.circuit key).foreign token = true := foreign_iff.mpr ⟨hprobe, by
          rw [howner]
          exact fun heq => hne (some.inj heq)⟩
        simp only [CircuitBreakerRegistry.step] at hclosed
        rw [circuit_put] at hclosed
        simp [Circuit.success, hf, hopen] at hclosed
      exact ⟨t, since, by rw [htoken], ht, hsince⟩
    · exact absurd hclosed (not_closed (fun t ht => hsuccess ⟨t, ht⟩) hopen)

theorem undisturbed_of_probeInv (h : ∀ key, ProbeInv r.openSeconds log key (r.circuit key)) :
    Undisturbed r log call := by
  intro key t since ht hne
  obtain ⟨hprobe, howner, openedAt, hopen, -⟩ := (h key).holds t since ht
  by_cases hkey : key = call.key
  · subst hkey
    have hf : (r.circuit call.key).foreign call.token = true := foreign_iff.mpr ⟨hprobe, by
      rw [howner]
      exact fun heq => hne (some.inj heq).symm⟩
    have ho : (r.circuit call.key).owned call.token = false := by
      simpa [Circuit.owned] using fun _ : _ = true => (foreign_iff.mp hf).2
    cases call with
    | allow key now token =>
      simp only [CircuitBreakerRegistry.step, CircuitCall.key] at hopen hprobe ⊢
      rw [circuit_put]
      unfold Circuit.allow
      rw [hopen]
      dsimp only
      rw [if_pos hprobe]
      split_ifs <;> rfl
    | success key token =>
      simp only [CircuitBreakerRegistry.step, CircuitCall.key] at hf ⊢
      rw [circuit_put]
      exact if_pos hf
    | failure key now token =>
      simp only [CircuitBreakerRegistry.step, CircuitCall.key] at hf ⊢
      rw [circuit_put]
      exact if_pos hf
    | abortProbe key token =>
      simp only [CircuitBreakerRegistry.step, CircuitCall.key, CircuitCall.token] at ho ⊢
      cases hc : r.circuits key with
      | none => rfl
      | some c =>
        have hc' : r.circuit key = c := by simp [CircuitBreakerRegistry.circuit, hc]
        dsimp only
        rw [circuit_put]
        rw [hc'] at ho ⊢
        exact if_neg (by simp [ho])
  · exact circuit_step_of_ne hkey

theorem throughout_congr {P Q : CircuitBreakerRegistry T → CircuitLog T → CircuitCall T → Prop}
    (hPQ : ∀ r log call, (∀ key, ProbeInv r.openSeconds log key (r.circuit key)) →
      (P r log call ↔ Q r log call)) (calls : List (CircuitCall T)) :
    ∀ r log, (∀ key, ProbeInv r.openSeconds log key (r.circuit key)) →
      (Throughout P r log calls ↔ Throughout Q r log calls) := by
  induction calls with
  | nil => exact fun _ _ _ => Iff.rfl
  | cons call calls ih =>
    intro r log h
    refine and_congr (hPQ r log call h) (ih _ _ fun key => ?_)
    rw [step_openSeconds]
    exact probeInv_step (h key)

/-- **The circuit breaker is safe** along a sequence of calls, on a registry without
circuits, exactly when no call of it is a late success. -/
theorem circuit_breaker_safety (threshold openSeconds : ℤ) (calls : List (CircuitCall T)) :
    BreakerSafe { threshold, openSeconds } calls ↔
      Throughout (fun r _ call => calm r call = true) { threshold, openSeconds } [] calls := by
  have h₀ : ∀ key, ProbeInv openSeconds [] key
      (({ threshold, openSeconds } : CircuitBreakerRegistry T).circuit key) :=
    fun key => probeInv_nil openSeconds key
  have hcloses : Throughout ClosesByProbe { threshold, openSeconds } [] calls ↔
      Throughout (fun r _ call => calm r call = true) { threshold, openSeconds } [] calls :=
    throughout_congr (fun r log call h => closesByProbe_iff h) calls _ [] h₀
  refine ⟨fun h => hcloses.mp h.closes, fun h => ⟨?_, ?_, hcloses.mpr h⟩⟩
  · refine throughout_of_probeInv (fun r log call hr key t t' since since' ht ht' => ?_) calls _ _ h₀
    have howner := ((hr key).holds t since ht).2.1
    rw [((hr key).holds t' since' ht').2.1] at howner
    exact (Option.some.inj howner).symm
  · exact throughout_of_probeInv (fun r log call hr => undisturbed_of_probeInv hr) calls _ _ h₀

end Safety

/-! ### A late success -/

/-- The circuit of the runs below. -/
def sampleCircuit : CircuitKey := ⟨"openai", "chat"⟩

/-- Six calls are let through; five of them fail and open the circuit, then the sixth
succeeds. -/
def lateSuccess : List (CircuitCall ℕ) :=
  (range 6).map (CircuitCall.allow sampleCircuit 0) ++
    (range 5).map (CircuitCall.failure sampleCircuit 1) ++ [.success sampleCircuit 5]

theorem late_success_closes : ¬ ∀ calls : List (CircuitCall ℕ), BreakerSafe {} calls := by
  intro h
  have hcalm : Throughout (fun r _ call => calm r call = true) {} [] lateSuccess :=
    (throughout_congr (fun r log call hr => closesByProbe_iff hr) lateSuccess {} []
      fun key => probeInv_nil 60 key).mp (h lateSuccess).closes
  revert hcalm
  decide

end RagQs
