import RagQs.Txn.System
import Mathlib.Data.List.DropRight

/-!
# Rely and guarantee for interleaved transactions

What a transaction may assume between two of its statements is that the rows it
holds locked have not changed, that the committed store satisfies the invariant,
and that every change to it was made by transactions holding other locks.  What it
owes in return, at its commit, is the invariant and the guarantee for the locks it
holds.  `wp` computes, statement by statement, what has to hold before a program so
that it keeps its side against every such interference; `Verified.step` is the
soundness of the method, once for every system.

## Main definitions

* `Discipline` — the invariant of the committed store and the guarantee: which
  changes a transaction may make with the locks it holds.
* `Discipline.Rely` — what other transactions may do meanwhile.
* `Discipline.wp` — the weakest precondition under interference.
* `VerifiedFrom`, `Verified` — every operation's program meets its specification, when it is
  opened on a history it asks for, or always.
* `Discipline.Draft` — pending writes that could be committed as they are.

## Main results

* `Discipline.wp_bind` — the rule of sequencing.
* `VerifiedFrom.step`, `VerifiedFrom.run`, `Verified.step`, `Verified.run` — what every commit and every error preserves holds
  along every run of the interleaved system.
-/

namespace Txn

open List Option Function Store

variable {K : Type} [DecidableEq K] {Row : K → Type} {Op ε α β : Type}
variable {i : ℕ}

/-- The discipline the transactions of a system keep: an invariant of the committed
store, and a guarantee `guar W c c'` saying that the change from `c` to `c'` is one a
transaction holding the locks `W` may make. -/
structure Discipline {K : Type} (Row : K → Type) where
  /-- The invariant of every committed store. -/
  Inv : Store Row → Prop
  /-- The changes that are allowed under the locks `W`. -/
  guar : (K → Prop) → Store Row → Store Row → Prop
  refl : ∀ W c, guar W c c
  trans : ∀ {W a b c}, guar W a b → guar W b c → guar W a c
  mono : ∀ {W W' a b}, (∀ k, W k → W' k) → guar W a b → guar W' a b

namespace Discipline

variable (D : Discipline Row)

/-- What the other transactions may have done to the committed store while this one
held the locks `H`. -/
structure Rely (H : K → Prop) (c c' : Store Row) : Prop where
  rows : ∀ k, H k → c'.get k = c.get k
  inv : D.Inv c'
  guar : D.guar (fun k => ¬ H k) c c'

variable {D}

variable {H : K → Prop} {c : Store Row}

theorem Rely.refl (h : D.Inv c) : D.Rely H c c :=
  ⟨fun _ _ => rfl, h, D.refl _ _⟩

theorem Rely.trans {a b : Store Row} (h₁ : D.Rely H a b) (h₂ : D.Rely H b c) : D.Rely H a c :=
  ⟨fun k hk => (h₂.rows k hk).trans (h₁.rows k hk), h₂.inv, D.trans h₁.guar h₂.guar⟩

variable {c' : Store Row}

/-- Fewer locks allow more interference. -/
theorem Rely.mono {H' : K → Prop} (h : D.Rely H c c') (hH : ∀ k, H' k → H k) : D.Rely H' c c' :=
  ⟨fun k hk => h.rows k (hH k hk), h.inv, D.mono (fun _ hk hk' => hk (hH _ hk')) h.guar⟩

/-- A row the transaction has locked or written is the same in the view it has of
the store before and after the interference. -/
theorem Rely.view (h : D.Rely H c c') (d : Store Row) {k : K} (hk : H k) :
    (d ∪ c' : Store Row).get k = (d ∪ c : Store Row).get k :=
  get_union_congr (h.rows k hk)

/-- An assertion about a transaction between two statements: the committed store, the
pending writes and the locks it holds. -/
abbrev Assn {K : Type} (Row : K → Type) := Store Row → Store Row → (K → Prop) → Prop

variable (D)

/-- The locks held once a statement has run on the view `v`. -/
def grow (H : K → Prop) (locks : Store Row → List K) (writes : Store Row → List (Write Row))
    (v : Store Row) : K → Prop :=
  fun k => H k ∨ k ∈ needed locks writes v

/-- The weakest precondition of a program under interference: from it, whatever the
other transactions do between the statements, a normal end meets `Q` and an error
meets `E`, provided every statement runs on a view `A` allows it on. -/
def wp (A : Prog Row ε α → Store Row → Prop) :
    Prog Row ε α → (α → Assn Row) → (ε → Assn Row) → Assn Row
  | .done a, Q, _ => fun c d H => ∀ c', D.Rely H c c' → Q a c' d H
  | .fail e, _, E => fun c d H => ∀ c', D.Rely H c c' → E e c' d H
  | .stmt l w n, Q, E => fun c d H => ∀ c', D.Rely H c c' → A (.stmt l w n) (d ∪ c') →
      wp A (n (d ∪ c')) Q E c' (d.applyAll (w (d ∪ c'))) (grow H l w (d ∪ c'))

variable {D} {A : Prog Row ε α → Store Row → Prop}

variable {p : Prog Row ε α} {Q : α → Assn Row} {E : ε → Assn Row} {d : Store Row}

/-- Interference before the program starts is interference during it. -/
theorem wp_rely (h : D.wp A p Q E c d H) (hr : D.Rely H c c') : D.wp A p Q E c' d H := by
  cases p with
  | done a => exact fun c'' h' => h c'' (hr.trans h')
  | fail e => exact fun c'' h' => h c'' (hr.trans h')
  | stmt l w n => exact fun c'' h' hA => h c'' (hr.trans h') hA

/-- The rule of consequence. -/
theorem wp_conseq {Q' : α → Assn Row} {E' : ε → Assn Row} (h : D.wp A p Q E c d H)
    (hQ : ∀ a c d H, D.Inv c → Q a c d H → Q' a c d H)
    (hE : ∀ e c d H, D.Inv c → E e c d H → E' e c d H) : D.wp A p Q' E' c d H := by
  induction p generalizing c d H with
  | done a => exact fun c' hr => hQ a c' d H hr.inv (h c' hr)
  | fail e => exact fun c' hr => hE e c' d H hr.inv (h c' hr)
  | stmt l w n ih => exact fun c' hr hA => ih _ (h c' hr hA)

variable {f : β → Prog Row ε α}

/-- **The rule of sequencing.** -/
theorem wp_bind {p : Prog Row ε β}
    (h : D.wp (fun p' => A (p' >>= f)) p (fun b => D.wp A (f b) Q E) E c d H) (hc : D.Inv c) :
    D.wp A (p >>= f) Q E c d H := by
  induction p generalizing c d H with
  | done a => exact h c (.refl hc)
  | fail e => exact h
  | stmt l w n ih => exact fun c' hr hA => ih _ (h c' hr hA) hr.inv

/-- The rule of a handler: an error inside goes on with the handler, from the writes
made so far. -/
theorem wp_tryCatch_bind {p : Prog Row ε β} {g : ε → Prog Row ε β}
    (h : D.wp (fun p' => A (p'.tryCatch g >>= f)) p (fun b => D.wp A (f b) Q E)
      (fun e => D.wp A (g e >>= f) Q E) c d H) (hc : D.Inv c) :
    D.wp A (p.tryCatch g >>= f) Q E c d H := by
  induction p generalizing c d H with
  | done a => exact h c (.refl hc)
  | fail e => exact h c (.refl hc)
  | stmt l w n ih => exact fun c' hr hA => ih _ (h c' hr hA) hr.inv

/-- The rule of a caller that catches the error and commits. -/
theorem wp_attempt {A' : Prog Row ε (Except ε α) → Store Row → Prop} {Q : Except ε α → Assn Row}
    (h : D.wp (fun _ _ => True) p (fun a => Q (.ok a)) (fun e => Q (.error e)) c d H) :
    D.wp A' p.attempt Q E c d H := by
  induction p generalizing c d H with
  | done a => exact h
  | fail e => exact h
  | stmt l w n ih => exact fun c' hr _ => ih _ (h c' hr trivial)

variable {l : Store Row → List K} {w : Store Row → List (Write Row)}

/-- The rule of one statement followed by the rest of the program. -/
theorem wp_statement_bind {q : Store Row → β} (h : ∀ c', D.Rely H c c' →
      D.wp A (f (q (d ∪ c'))) Q E c' (d.applyAll (w (d ∪ c'))) (grow H l w (d ∪ c'))) :
    D.wp A (Prog.statement l w q >>= f) Q E c d H := fun c' hr _ => h c' hr

omit [DecidableEq K] in
/-- A statement that turns out to write and lock nothing changes nothing but what the
program knows. -/
theorem grow_nil {v : Store Row} (hl : l v = []) (hw : w v = []) : grow H l w v = H := by
  funext k
  simp [grow, needed, hl, hw]

/-- The rule of a plain read. -/
theorem wp_select_bind {q : Store Row → β}
    (h : ∀ c', D.Rely H c c' → D.wp A (f (q (d ∪ c'))) Q E c' d H) :
    D.wp A (Prog.select q >>= f) Q E c d H := by
  refine wp_statement_bind fun c' hr => ?_
  rw [grow_nil rfl rfl]
  exact h c' hr

end Discipline

/-! ### Pending writes -/

/-! ### Soundness -/

open Discipline

/-- What a transaction owes at its commit: the invariant and the guarantee, and the
relation `R` the operation's specification asks for between the committed store just
before, its result, and the committed store just after. -/
def Discipline.Commit (D : Discipline Row) (R : α → Store Row → Store Row → Prop) (a : α) :
    Assn Row :=
  fun c d H => D.Inv (d ∪ c) ∧ D.guar H c (d ∪ c) ∧ R a c (d ∪ c)

/-- Every operation's program meets its specification, `R` for its commits and `F` for
its errors, both relative to the store it was opened on, as long as its statements run
on views `A` allows them on. -/
structure Verified (D : Discipline Row) (A : Op → Prog Row ε α → Store Row → Prop)
    (body : Op → Prog Row ε α) (R : Op → Store Row → α → Store Row → Store Row → Prop)
    (F : Op → Store Row → ε → Store Row → Prop) : Prop where
  wp : ∀ op c, D.Inv c →
    D.wp (A op) (body op) (D.Commit (R op c)) (fun e c' _ _ => F op c e c') c ∅ (fun _ => False)

/-- Every operation's program meets its specification where it is opened on a committed store
and a history with `P` that `Pre` holds of. -/
structure VerifiedFrom (D : Discipline Row) (A : Op → Prog Row ε α → Store Row → Prop)
    (body : Op → Prog Row ε α) (Pre : Op → List (Ended Op ε α) → Prop)
    (R : Op → Store Row → α → Store Row → Store Row → Prop)
    (F : Op → Store Row → ε → Store Row → Prop) (P : Store Row → List (Ended Op ε α) → Prop) :
    Prop where
  wp : ∀ op c h, D.Inv c → P c h → Pre op h →
    D.wp (A op) (body op) (D.Commit (R op c)) (fun e c' _ _ => F op c e c') c ∅ (fun _ => False)

/-- What is known at the state `c` with the history `h` about the store `c₀` a
transaction was opened on after `n` others had ended. -/
structure Since (D : Discipline Row) (P : Store Row → List (Ended Op ε α) → Prop)
    (c₀ : Store Row) (n : ℕ) (c : Store Row) (h : List (Ended Op ε α)) : Prop where
  inv : D.Inv c₀
  guar : D.guar (fun _ => True) c₀ c
  holds : P c₀ (h.rtake n)

/-- A fact about the committed store and the history that commits and reported errors
preserve. -/
structure Preserved (D : Discipline Row) (R : Op → Store Row → α → Store Row → Store Row → Prop)
    (F : Op → Store Row → ε → Store Row → Prop)
    (P : Store Row → List (Ended Op ε α) → Prop) : Prop where
  commit : ∀ c₀ c c' h op n a, Since D P c₀ n c h → D.Inv c → D.Inv c' →
    D.guar (fun _ => True) c c' → R op c₀ a c c' → P c h → P c' (⟨op, n, .ok a⟩ :: h)
  error : ∀ c₀ c h op n e, Since D P c₀ n c h → D.Inv c → F op c₀ e c → P c h →
    P c (⟨op, n, .error e⟩ :: h)

/-- The invariant of one open transaction: it holds the locks of its pending writes,
and what is left of its program meets its specification from where it is. -/
structure SessionOk (D : Discipline Row) (A : Op → Prog Row ε α → Store Row → Prop)
    (R : Op → Store Row → α → Store Row → Store Row → Prop)
    (F : Op → Store Row → ε → Store Row → Prop) (P : Store Row → List (Ended Op ε α) → Prop)
    (db : Store Row) (h : List (Ended Op ε α)) (owner : K → Option ℕ) (i : ℕ)
    (x : Session Row Op ε α) : Prop where
  locked : ∀ k ∈ x.patch, owner k = some i
  opened : x.opened ≤ h.length
  wp : ∃ c₀, Since D P c₀ x.opened db h ∧
    D.wp (A x.op) x.prog (D.Commit (R x.op c₀)) (fun e c _ _ => F x.op c₀ e c) db x.patch
      (fun k => owner k = some i)

/-- The invariant of the whole system: the committed store is good, locks are held by
open transactions only, and every open transaction is good. -/
structure SysOk (D : Discipline Row) (A : Op → Prog Row ε α → Store Row → Prop)
    (R : Op → Store Row → α → Store Row → Store Row → Prop)
    (F : Op → Store Row → ε → Store Row → Prop) (P : Store Row → List (Ended Op ε α) → Prop)
    (s : Sys Row Op ε α) : Prop where
  inv : D.Inv s.db
  holds : P s.db s.hist
  held : ∀ k i, s.owner k = some i → s.sessions i ≠ none
  session : ∀ i x, s.sessions i = some x → SessionOk D A R F P s.db s.hist s.owner i x

/-- The move runs no statement on a view `A` forbids it on. -/
def Allows (A : Op → Prog Row ε α → Store Row → Prop) (s : Sys Row Op ε α) (m : Move Op) : Prop :=
  ∀ i x, m = .advance i → s.sessions i = some x → A x.op x.prog (x.patch ∪ s.db)

/-- Every move of a run is allowed in the state it is made in. -/
def AllowsRun (A : Op → Prog Row ε α → Store Row → Prop) (body : Op → Prog Row ε α) :
    Sys Row Op ε α → List (Move Op) → Prop
  | _, [] => True
  | s, m :: ms => Allows A s m ∧ ∀ t, step body s m = some t → AllowsRun A body t ms

/-- Where nothing is forbidden every run is allowed. -/
theorem allowsRun_true (body : Op → Prog Row ε α) (ms : List (Move Op)) :
    ∀ s, AllowsRun (fun _ _ _ => True) body s ms := by
  induction ms with
  | nil => exact fun _ => trivial
  | cons m ms ih => exact fun s => ⟨fun _ _ _ _ => trivial, fun t _ => ih t⟩

variable {ms : List (Move Op)}

variable {ns : List (Move Op)}

/-- A run in two parts. -/
theorem allowsRun_append {A : Op → Prog Row ε α → Store Row → Prop} {body : Op → Prog Row ε α}
    {s t : Sys Row Op ε α} (h : AllowsRun A body s (ms ++ ns)) (ht : run body s ms = some t) :
    AllowsRun A body s ms ∧ AllowsRun A body t ns := by
  induction ms generalizing s with
  | nil =>
    cases ht
    exact ⟨trivial, h⟩
  | cons m ms ih =>
    rw [run, bind_eq_some_iff] at ht
    obtain ⟨u, hu, ht⟩ := ht
    refine ⟨⟨h.1, fun v hv => ?_⟩, (ih (h.2 u hu) ht).2⟩
    cases hu.symm.trans hv
    exact (ih (h.2 u hu) ht).1

/-- The move opens no operation on a history that `Pre` does not hold of. -/
def Opens (Pre : Op → List (Ended Op ε α) → Prop) (s : Sys Row Op ε α) (m : Move Op) : Prop :=
  ∀ i op, m = .start i op → Pre op s.hist

/-- Every operation of a run is opened on a history it asks for. -/
def OpensRun (Pre : Op → List (Ended Op ε α) → Prop) (body : Op → Prog Row ε α) :
    Sys Row Op ε α → List (Move Op) → Prop
  | _, [] => True
  | s, m :: ms => Opens Pre s m ∧ ∀ t, step body s m = some t → OpensRun Pre body t ms

variable {Pre : Op → List (Ended Op ε α) → Prop}

/-- Less may be asked for. -/
theorem OpensRun.mono {Pre' : Op → List (Ended Op ε α) → Prop} {body : Op → Prog Row ε α}
    (hPre : ∀ op h, Pre op h → Pre' op h) {s : Sys Row Op ε α} (h : OpensRun Pre body s ms) :
    OpensRun Pre' body s ms := by
  induction ms generalizing s with
  | nil => exact trivial
  | cons m ms ih => exact ⟨fun i op hm => hPre _ _ (h.1 i op hm), fun t ht => ih (h.2 t ht)⟩

/-- More may be allowed. -/
theorem AllowsRun.mono {A A' : Op → Prog Row ε α → Store Row → Prop} {body : Op → Prog Row ε α}
    (hA : ∀ op p v, A op p v → A' op p v) {s : Sys Row Op ε α} (h : AllowsRun A body s ms) :
    AllowsRun A' body s ms := by
  induction ms generalizing s with
  | nil => exact trivial
  | cons m ms ih =>
    exact ⟨fun i x hm hx => hA _ _ _ (h.1 i x hm hx), fun t ht => ih (h.2 t ht)⟩

/-- Where nothing is asked for every run is good. -/
theorem opensRun_true (body : Op → Prog Row ε α) (ms : List (Move Op)) :
    ∀ s : Sys Row Op ε α, OpensRun (fun _ _ => True) body s ms := by
  induction ms with
  | nil => exact fun _ => trivial
  | cons m ms ih => exact fun s => ⟨fun _ _ _ => trivial, fun t _ => ih t⟩

/-- A run in two parts. -/
theorem opensRun_append {body : Op → Prog Row ε α} {s t : Sys Row Op ε α}
    (h : OpensRun Pre body s (ms ++ ns)) (ht : run body s ms = some t) :
    OpensRun Pre body s ms ∧ OpensRun Pre body t ns := by
  induction ms generalizing s with
  | nil =>
    cases ht
    exact ⟨trivial, h⟩
  | cons m ms ih =>
    rw [run, bind_eq_some_iff] at ht
    obtain ⟨u, hu, ht⟩ := ht
    refine ⟨⟨h.1, fun v hv => ?_⟩, (ih (h.2 u hu) ht).2⟩
    cases hu.symm.trans hv
    exact (ih (h.2 u hu) ht).1

section Soundness

variable {D : Discipline Row} {A : Op → Prog Row ε α → Store Row → Prop}
  {body : Op → Prog Row ε α} {R : Op → Store Row → α → Store Row → Store Row → Prop}
  {F : Op → Store Row → ε → Store Row → Prop} {P : Store Row → List (Ended Op ε α) → Prop}
  {s t : Sys Row Op ε α}

theorem SysOk.init {db : Store Row} (h : D.Inv db) (hP : P db []) :
    SysOk D A R F P (Sys.init db : Sys Row Op ε α) :=
  ⟨h, hP, fun _ _ hk => by simp [Sys.init] at hk, fun _ _ hx => by simp [Sys.init] at hx⟩

/-- A later history has the same beginning. -/
private theorem rtake_cons {β : Type} {l : List β} {n : ℕ} (a : β) (h : n ≤ l.length) :
    (a :: l).rtake n = l.rtake n := by
  unfold rtake
  rw [length_cons, Nat.succ_sub h, drop_succ_cons]

/-- The history stays or grows by one. -/
private def Grows (h h' : List (Ended Op ε α)) : Prop := h' = h ∨ ∃ x, h' = x :: h

variable {h h' : List (Ended Op ε α)}

omit [DecidableEq K] in
private theorem Since.later {c₀ c c' : Store Row} {n : ℕ} (hs : Since D P c₀ n c h)
    (hn : n ≤ h.length) (hg : D.guar (fun _ => True) c c') (hh : Grows h h') :
    Since D P c₀ n c' h' := by
  refine ⟨hs.inv, D.trans hs.guar hg, ?_⟩
  rcases hh with rfl | ⟨x, rfl⟩
  · exact hs.holds
  · rw [rtake_cons x hn]
    exact hs.holds

variable {owner : K → Option ℕ}

variable {owner' : K → Option ℕ} {x : Session Row Op ε α}

/-- An open transaction stays good while the others keep the discipline and leave its
locks alone. -/
private theorem SessionOk.rely {db db' : Store Row} (hx : SessionOk D A R F P db h owner i x)
    (hh : Grows h h') (hdb : D.Rely (fun k => owner k = some i) db db')
    (howner : ∀ k, owner' k = some i ↔ owner k = some i) :
    SessionOk D A R F P db' h' owner' i x := by
  have hH : (fun k => owner' k = some i) = fun k => owner k = some i :=
    funext fun k => propext (howner k)
  obtain ⟨c₀, hsince, hwp⟩ := hx.wp
  refine ⟨fun k hk => (howner k).mpr (hx.locked k hk), ?_, c₀, ?_, ?_⟩
  · rcases hh with rfl | ⟨y, rfl⟩
    · exact hx.opened
    · exact hx.opened.trans (Nat.le_succ _)
  · exact hsince.later hx.opened (D.mono (fun _ _ => trivial) hdb.guar) hh
  · rw [hH]
    exact wp_rely hwp hdb

variable {hist' : List (Ended Op ε α)}

/-- A move of transaction `i` keeps the system good when its change to the committed
store is interference the others allow for, and it leaves itself good. -/
private theorem SysOk.move (h : SysOk D A R F P s) (i : ℕ) {db' : Store Row}
    {o : Option (Session Row Op ε α)} (hinv : D.Inv db') (hP : P db' hist')
    (hhist : Grows s.hist hist') (hheld : ∀ k, owner' k = some i → o ≠ none)
    (howner : ∀ j, j ≠ i → ∀ k, owner' k = some j ↔ s.owner k = some j)
    (hdb : ∀ j, j ≠ i → D.Rely (fun k => s.owner k = some j) s.db db')
    (hself : ∀ x, o = some x → SessionOk D A R F P db' hist' owner' i x) :
    SysOk D A R F P ⟨db', owner', update s.sessions i o, hist'⟩ := by
  refine ⟨hinv, hP, fun k j hk => ?_, fun j x hx => ?_⟩
  · by_cases hj : j = i
    · subst hj
      simpa using hheld k hk
    · simpa [update_of_ne hj] using h.held k j ((howner j hj k).mp hk)
  · by_cases hj : j = i
    · subst hj
      exact hself x (by simpa using hx)
    · replace hx : s.sessions j = some x := by simpa [update_of_ne hj] using hx
      exact (h.session j x hx).rely hhist (hdb j hj) (howner j hj)

omit [DecidableEq K] in
private theorem release_iff {j : ℕ} (hj : j ≠ i) (k : K) :
    release owner i k = some j ↔ owner k = some j := by
  unfold release
  by_cases hk : owner k = some i
  · simp [hk, Ne.symm hj]
  · simp [hk]

omit [DecidableEq K] in
private theorem release_self (owner : K → Option ℕ) (i : ℕ) (k : K) :
    release owner i k ≠ some i := by
  unfold release
  by_cases hk : owner k = some i <;> simp [hk]

private theorem acquire_iff {j : ℕ} {ks : List K} (hj : j ≠ i) (hfree : available owner i ks = true)
    (k : K) : acquire owner i ks k = some j ↔ owner k = some j := by
  unfold acquire
  by_cases hk : k ∈ ks
  · have ho : owner k = none ∨ owner k = some i := by
      have := List.all_eq_true.mp hfree k hk
      simpa using this
    rcases ho with ho | ho <;> simp [hk, ho, Ne.symm hj]
  · simp [hk]

private theorem acquire_self (owner : K → Option ℕ) (i : ℕ) (ks : List K) (k : K) :
    acquire owner i ks k = some i ↔ owner k = some i ∨ k ∈ ks := by
  unfold acquire
  by_cases hk : k ∈ ks <;> simp [hk]

/-- Ending transaction `i` without a change to the committed store. -/
private theorem SysOk.discard (h : SysOk D A R F P s) (i : ℕ) (hP : P s.db hist')
    (hhist : Grows s.hist hist') :
    SysOk D A R F P ⟨s.db, release s.owner i, update s.sessions i none, hist'⟩ :=
  h.move i h.inv hP hhist (fun k hk => absurd hk (release_self s.owner i k))
    (fun _ hj => release_iff hj) (fun _ _ => .refl h.inv) (fun _ hx => by cases hx)

/-- A commit is interference the other transactions have allowed for. -/
private theorem SysOk.publish (h : SysOk D A R F P s) (hx : s.sessions i = some x)
    (hinv : D.Inv (x.patch ∪ s.db))
    (hguar : D.guar (fun k => s.owner k = some i) s.db (x.patch ∪ s.db))
    (hP : P (x.patch ∪ s.db) hist') (hhist : Grows s.hist hist') :
    SysOk D A R F P ⟨x.patch ∪ s.db, release s.owner i, update s.sessions i none, hist'⟩ := by
  refine h.move i hinv hP hhist (fun k hk => absurd hk (release_self s.owner i k))
    (fun _ hj => release_iff hj) (fun j hj => ⟨fun k hk => ?_, hinv, ?_⟩) (fun _ hx => by cases hx)
  · -- a row locked by `j` has no pending write of `i`
    refine get_union_of_notMem fun hmem => hj ?_
    exact some.inj (hk.symm.trans ((h.session i x hx).locked k hmem))
  · refine D.mono (fun k hk hk' => hj ?_) hguar
    exact some.inj (hk'.symm.trans hk)

/-- Running one statement of transaction `i`. -/
private theorem SysOk.statement (h : SysOk D A R F P s) {n : ℕ} {op : Op} {d : Store Row}
    {l : Store Row → List K} {w : Store Row → List (Write Row)} {f : Store Row → Prog Row ε α}
    (hx : s.sessions i = some ⟨op, .stmt l w f, d, n⟩) (hA : A op (.stmt l w f) (d ∪ s.db))
    (hfree : available s.owner i (needed l w (d ∪ s.db)) = true) :
    SysOk D A R F P ⟨s.db, acquire s.owner i (needed l w (d ∪ s.db)),
      update s.sessions i (some ⟨op, f (d ∪ s.db), d.applyAll (w (d ∪ s.db)), n⟩),
      s.hist⟩ := by
  refine h.move i h.inv h.holds (.inl rfl) (fun _ _ hn => by cases hn)
    (fun _ hj => acquire_iff hj hfree) (fun _ _ => .refl h.inv) fun y hy => ?_
  cases hy
  obtain ⟨c₀, hsince, hwp⟩ := (h.session i _ hx).wp
  refine ⟨fun k hk => (acquire_self s.owner i _ k).mpr ?_, (h.session i _ hx).opened, c₀, hsince,
    ?_⟩
  · rcases mem_applyAll.mp hk with hk | hk
    · exact Or.inr (mem_append_right _ hk)
    · exact Or.inl ((h.session i _ hx).locked k hk)
  · have hH : (fun k => acquire s.owner i (needed l w (d ∪ s.db)) k = some i)
        = grow (fun k => s.owner k = some i) l w (d ∪ s.db) :=
      funext fun k => propext (acquire_self s.owner i _ k)
    rw [hH]
    exact hwp s.db (.refl h.inv) hA

/-- Opening a transaction. -/
private theorem SysOk.begin (h : SysOk D A R F P s) (hx : s.sessions i = none) (op : Op)
    (hwp : D.wp (A op) (body op) (D.Commit (R op s.db)) (fun e c' _ _ => F op s.db e c') s.db ∅
      (fun _ => False)) :
    SysOk D A R F P ⟨s.db, s.owner,
      update s.sessions i (some ⟨op, body op, ∅, s.hist.length⟩), s.hist⟩ := by
  refine h.move i h.inv h.holds (.inl rfl) (fun _ _ hn => by cases hn) (fun _ _ _ => Iff.rfl)
    (fun _ _ => .refl h.inv) fun y hy => ?_
  cases hy
  have hH : (fun k => s.owner k = some i) = fun _ => False :=
    funext fun k => propext ⟨fun hk => h.held k i hk hx, False.elim⟩
  refine ⟨fun k hk => absurd hk (AList.notMem_empty k), le_rfl, s.db,
    ⟨h.inv, D.refl _ _, ?_⟩, ?_⟩
  · have hall : s.hist.rtake s.hist.length = s.hist := by simp [rtake]
    rw [hall]
    exact h.holds
  · rw [hH]
    exact hwp

variable {m : Move Op}

/-- **One move of a verified system** keeps it good, and changes the committed store as
the guarantee allows. -/
theorem VerifiedFrom.step (hv : VerifiedFrom D A body Pre R F P) (hp : Preserved D R F P)
    (h : SysOk D A R F P s) (hA : Allows A s m) (hpre : Opens Pre s m)
    (hm : Txn.step body s m = some t) : SysOk D A R F P t ∧ D.guar (fun _ => True) s.db t.db := by
  cases m with
  | start i op =>
    simp only [Txn.step] at hm
    split at hm
    · cases hm
    · next hx =>
      cases hm
      exact ⟨h.begin hx op (hv.wp op s.db s.hist h.inv h.holds (hpre i op rfl)), D.refl _ _⟩
  | advance i =>
    simp only [Txn.step] at hm
    split at hm
    · cases hm
    · next op a d n hx =>
      cases hm
      obtain ⟨c₀, hsince, hwp⟩ := (h.session i _ hx).wp
      obtain ⟨hinv, hguar, hR⟩ := hwp s.db (.refl h.inv)
      have hall := D.mono (fun _ _ => trivial) hguar
      refine ⟨h.publish hx hinv hguar ?_ (.inr ⟨_, rfl⟩), hall⟩
      exact hp.commit c₀ _ _ _ op n a hsince h.inv hinv hall hR h.holds
    · next op e d n hx =>
      cases hm
      obtain ⟨c₀, hsince, hwp⟩ := (h.session i _ hx).wp
      refine ⟨h.discard i ?_ (.inr ⟨_, rfl⟩), D.refl _ _⟩
      exact hp.error c₀ _ _ op n e hsince h.inv (hwp s.db (.refl h.inv)) h.holds
    · next op l w f d n hx =>
      split at hm
      · next hfree =>
        cases hm
        exact ⟨h.statement hx (hA i _ rfl hx) hfree, D.refl _ _⟩
      · cases hm
  | abort i =>
    simp only [Txn.step] at hm
    split at hm
    · cases hm
    · cases hm
      exact ⟨h.discard i h.holds (.inl rfl), D.refl _ _⟩

/-- A transaction that has come to its end has met its specification. -/
theorem SysOk.committed (h : SysOk D A R F P s) {n : ℕ} {op : Op} {a : α} {d : Store Row}
    (hx : s.sessions i = some ⟨op, .done a, d, n⟩) :
    ∃ c₀, D.Inv c₀ ∧ R op c₀ a s.db (d ∪ s.db) := by
  obtain ⟨c₀, hsince, hwp⟩ := (h.session i _ hx).wp
  exact ⟨c₀, hsince.inv, (hwp s.db (.refl h.inv)).2.2⟩

/-- A move leaves the committed store alone, or is a commit that meets its specification. -/
theorem SysOk.step_commit (h : SysOk D A R F P s) (hm : Txn.step body s m = some t) :
    t.db = s.db ∨ ∃ i op c₀ a d n, m = .advance i ∧
      s.sessions i = some ⟨op, .done a, d, n⟩ ∧ t.db = d ∪ s.db ∧ R op c₀ a s.db t.db := by
  rcases step_ends hm with hdb | ⟨i, op, a, d, n, hi, hx, hdb⟩
  · exact .inl hdb
  · obtain ⟨c₀, -, hR⟩ := h.committed hx
    rw [hdb]
    exact .inr ⟨i, op, c₀, a, d, n, hi, hx, rfl, hR⟩

/-- The same without the transaction. -/
theorem SysOk.step_db (h : SysOk D A R F P s) (hm : Txn.step body s m = some t) :
    t.db = s.db ∨ ∃ op c₀ a, R op c₀ a s.db t.db := by
  rcases h.step_commit hm with hdb | ⟨-, op, c₀, a, -, -, -, -, -, hR⟩
  · exact .inl hdb
  · exact .inr ⟨op, c₀, a, hR⟩

/-- **The run rule**: what the commits and the reported errors preserve of the
committed store and the history holds after every run. -/
theorem VerifiedFrom.run (hv : VerifiedFrom D A body Pre R F P) (hp : Preserved D R F P)
    (ms : List (Move Op)) {s t : Sys Row Op ε α} (hA : AllowsRun A body s ms)
    (hpre : OpensRun Pre body s ms) (hs : SysOk D A R F P s) (hrun : Txn.run body s ms = some t) :
    SysOk D A R F P t ∧ D.guar (fun _ => True) s.db t.db := by
  induction ms generalizing s with
  | nil =>
    cases hrun
    exact ⟨hs, D.refl _ _⟩
  | cons m ms ih =>
    rw [Txn.run, bind_eq_some_iff] at hrun
    obtain ⟨u, hu, hrun⟩ := hrun
    obtain ⟨hok, hg⟩ := hv.step hp hs hA.1 hpre.1 hu
    obtain ⟨hok', hg'⟩ := ih (hA.2 u hu) (hpre.2 u hu) hok hrun
    exact ⟨hok', D.trans hg hg'⟩

/-- A specification that asks for nothing is one from every history. -/
theorem Verified.from (hv : Verified D A body R F) :
    VerifiedFrom D A body (fun _ _ => True) R F P :=
  ⟨fun op c _ hc _ _ => hv.wp op c hc⟩

theorem Verified.step (hv : Verified D A body R F) (hp : Preserved D R F P) (h : SysOk D A R F P s)
    (hA : Allows A s m) (hm : Txn.step body s m = some t) :
    SysOk D A R F P t ∧ D.guar (fun _ => True) s.db t.db :=
  hv.from.step hp h hA (fun _ _ _ => trivial) hm

theorem Verified.run (hv : Verified D A body R F) (hp : Preserved D R F P) (ms : List (Move Op))
    {s t : Sys Row Op ε α} (hA : AllowsRun A body s ms) (hs : SysOk D A R F P s)
    (hrun : Txn.run body s ms = some t) :
    SysOk D A R F P t ∧ D.guar (fun _ => True) s.db t.db :=
  hv.from.run hp ms hA (opensRun_true body ms s) hs hrun

omit [DecidableEq K] in
/-- Nothing is preserved without being asked for. -/
theorem Preserved.true :
    Preserved D R F (fun (_ : Store Row) (_ : List (Ended Op ε α)) => True) where
  commit _ _ _ _ _ _ _ _ _ _ _ _ _ := trivial
  error _ _ _ _ _ _ _ _ _ _ := trivial

end Soundness
end Txn
