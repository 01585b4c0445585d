import RagQs.Evaluation.Calibration
import RagQs.Txn.Footprint

/-!
# How the windows change

The windows of a database go through three stages.  A commit opens a window, or moves one window
on, or changes nothing but its other columns.

## Main definitions

* `stage` — how far a window is.
* `WindowsOk` — at most one window is in use, and the index knows it.
* `WindowChange` — what the commits of others may do, under their locks.
* `Moved` — what one commit does.
* `Steps` — one window moves on.

## Main results

* `commit_elsewhere`, `commit_opens` — a change of other tables, and a new window.
* `Steps.ok`, `Steps.change` — one window moves on.
-/

namespace RagQs.Evaluation

open Txn Option Store

variable {M S : Type} {c c' : Db M S} {W : Key → Prop}

/-- How far a window is: there is none yet, it is open, closing, or closed. -/
def stage (c : Db M S) (id : String) : ℕ :=
  match (c.get (Key.window id) : Option WindowRow) with
  | none => 0
  | some w => match w.status with
    | .isOpen => 1
    | .closing => 2
    | .closed => 3

theorem stage_eq_zero {id : String} : stage c id = 0 ↔ c.get (Key.window id) = none := by
  unfold stage
  cases c.get (Key.window id) with
  | none => simp
  | some w =>
    obtain ⟨status, _⟩ := w
    cases status <;> simp

theorem stage_eq_one {id : String} :
    stage c id = 1 ↔ ∃ w : WindowRow, c.get (Key.window id) = some w ∧ w.status = .isOpen := by
  unfold stage
  cases c.get (Key.window id) with
  | none => simp
  | some w =>
    obtain ⟨status, _⟩ := w
    cases status <;> simp

theorem stage_eq_two {id : String} :
    stage c id = 2 ↔ ∃ w : WindowRow, c.get (Key.window id) = some w ∧ w.status = .closing := by
  unfold stage
  cases c.get (Key.window id) with
  | none => simp
  | some w =>
    obtain ⟨status, _⟩ := w
    cases status <;> simp

theorem stage_of_get {id : String} (h : c'.get (Key.window id) = c.get (Key.window id)) :
    stage c' id = stage c id := by
  unfold stage
  rw [h]

/-- At most one window is in use, and the index entry is of the one that is open. -/
structure WindowsOk (c : Db M S) : Prop where
  index : ∀ id, c.get Key.openWindow = some id ↔ stage c id = 1
  apart : ∀ id, stage c id = 2 → c.get Key.openWindow = none
  single : ∀ id id', stage c id = 2 → stage c id' = 2 → id = id'
  deadline : ∀ id (w : WindowRow), c.get (Key.window id) = some w → w.status = .closing →
    w.closeDeadlineAt.isSome = true

/-- What commits may do to the windows and the commands under the locks `W`. -/
structure WindowChange (W : Key → Prop) (c c' : Db M S) : Prop where
  forward : ∀ id, stage c id ≤ stage c' id
  /-- The deadline of a window that is not open any more stays. -/
  deadline : ∀ id (w w' : WindowRow), c.get (Key.window id) = some w →
    c'.get (Key.window id) = some w' → w.status ≠ .isOpen → w'.closeDeadlineAt = w.closeDeadlineAt
  /-- A window starts closing under the lock of the index entry. -/
  closing : ∀ id, stage c' id = 2 → stage c id = 2 ∨ W .openWindow
  command : ∀ u k (r : CommandRow), c.get (Key.command u k) = some r →
    c'.get (Key.command u k) = some r

theorem WindowChange.refl : WindowChange W c c :=
  ⟨fun _ => le_rfl, fun _ _ _ h h' _ => by rw [h] at h'; cases h'; rfl, fun _ h => .inl h,
    fun _ _ _ h => h⟩

theorem WindowChange.trans {c'' : Db M S} (h : WindowChange W c c') (h' : WindowChange W c' c'') :
    WindowChange W c c'' := by
  refine ⟨fun id => (h.forward id).trans (h'.forward id), ?_, fun id h2 => ?_,
    fun u k r hr => h'.command u k r (h.command u k r hr)⟩
  · intro id w w'' hw hw'' hstatus
    have hbetween : stage c' id ≠ 0 ∧ stage c' id ≠ 1 := by
      have hforward := h.forward id
      have hpast : 2 ≤ stage c id := by
        unfold stage
        rw [hw]
        obtain ⟨status, _⟩ := w
        cases status
        · exact absurd rfl hstatus
        · exact le_rfl
        · exact Nat.le_succ 2
      omega
    cases hw' : c'.get (Key.window id) with
    | none => exact absurd (stage_eq_zero.mpr hw') hbetween.1
    | some w' =>
      have hopen : w'.status ≠ .isOpen := fun he => hbetween.2 (stage_eq_one.mpr ⟨w', hw', he⟩)
      exact (h'.deadline id w' w'' hw' hw'' hopen).trans (h.deadline id w w' hw hw' hstatus)
  · rcases h'.closing id h2 with h2 | hW
    · exact h.closing id h2
    · exact .inr hW

theorem WindowChange.mono {W' : Key → Prop} (h : WindowChange W c c') (hW : ∀ k, W k → W' k) :
    WindowChange W' c c' :=
  ⟨h.forward, h.deadline, fun id h2 => (h.closing id h2).imp_right (hW _), h.command⟩

/-- The key of the command a transaction is for. -/
def Op.commandKey : Op M → Option (String × String)
  | .openWindow call => some (call.userId, call.idempotencyKey)
  | .closeWindow call => some (call.userId, call.idempotencyKey)
  | _ => none

/-- What one commit does to the windows and the commands. -/
structure Moved (op : Op M) (a : Result) (c c' : Db M S) : Prop where
  edge : ∀ id, stage c' id = stage c id ∨ stage c' id = stage c id + 1
  /-- A window is opened and closed by a command whose key was not used before. -/
  named : ∀ id, stage c' id ≠ stage c id → stage c' id ≠ 3 →
    ∃ u k w status, op.commandKey = some (u, k) ∧ a = .answer ((id, w), status) ∧
      c.get (Key.command u k) = none
  answered : ∀ u k x, op.commandKey = some (u, k) → a = .answer x →
    ∃ r : CommandRow, c'.get (Key.command u k) = some r ∧ r.response = x.1
  /-- The worker closes a window for good. -/
  finished : ∀ id, stage c id = 2 → stage c' id = 3 → ∃ now, op = .closeWorker now

/-! ### The changes -/

/-- The rows of windows, their index and the commands. -/
def Key.windowed : Key → Prop
  | .window _ | .openWindow | .command _ _ => True
  | _ => False

theorem commit_elsewhere {op : Op M} {a : Result} (hc : WindowsOk c)
    (h : ∀ k : Key, k.windowed → c'.get k = c.get k)
    (hanswer : ∀ u k x, op.commandKey = some (u, k) → a = .answer x →
      ∃ r : CommandRow, c.get (Key.command u k) = some r ∧ r.response = x.1) :
    WindowsOk c' ∧ WindowChange W c c' ∧ Moved op a c c' := by
  have hstage : ∀ id, stage c' id = stage c id := fun id => stage_of_get (h _ trivial)
  have hopen : c'.get Key.openWindow = c.get Key.openWindow := h _ trivial
  have hwindow : ∀ id, c'.get (Key.window id) = c.get (Key.window id) := fun id => h _ trivial
  have hcommand : ∀ u k, c'.get (Key.command u k) = c.get (Key.command u k) :=
    fun u k => h _ trivial
  refine ⟨⟨fun id => ?_, fun id => ?_, fun id id' => ?_, fun id w => ?_⟩,
    ⟨fun id => (hstage id).ge, fun id w w' hw hw' _ => ?_, fun id h2 => .inl ?_,
      fun u k r hr => ?_⟩,
    ⟨fun id => .inl (hstage id), fun id hne => absurd (hstage id) hne, fun u k x hkey hx => ?_,
      fun id h2 h3 => ?_⟩⟩
  · rw [hstage, hopen]
    exact hc.index id
  · rw [hstage, hopen]
    exact hc.apart id
  · rw [hstage, hstage]
    exact hc.single id id'
  · rw [hwindow]
    exact hc.deadline id w
  · rw [hwindow, hw] at hw'
    cases hw'
    rfl
  · rw [← hstage]
    exact h2
  · rw [hcommand]
    exact hr
  · obtain ⟨r, hr, hresponse⟩ := hanswer u k x hkey hx
    exact ⟨r, (hcommand u k).trans hr, hresponse⟩
  · rw [hstage] at h3
    omega

theorem commit_opens {op : Op M} {id u k : String} {w : WindowRow} {r : CommandRow} {status : ℕ}
    (hc : WindowsOk c) (hnew : c.get (Key.window id) = none) (hfree : c.get Key.openWindow = none)
    (hnone : ∀ id, stage c id ≠ 2) (hcommand : c.get (Key.command u k) = none)
    (hkey : op.commandKey = some (u, k)) (hstatus : w.status = .isOpen)
    (hresponse : r.response = (id, w)) (hW : W .openWindow)
    (h : ∀ k' : Key, k'.windowed → c'.get k' = (c.applyAll
      [⟨.window id, some w⟩, ⟨.openWindow, some id⟩, ⟨.command u k, some r⟩]).get k') :
    WindowsOk c' ∧ WindowChange W c c' ∧ Moved op (.answer ((id, w), status)) c c' := by
  have hid : c'.get (Key.window id) = some w := by
    rw [h (.window id) trivial]
    simp [get_set_of_ne]
  have hother : ∀ id', id' ≠ id → c'.get (Key.window id') = c.get (Key.window id') := by
    intro id' hne
    rw [h (.window id') trivial]
    simp [get_set_of_ne, hne]
  have hindex : c'.get Key.openWindow = some id := by
    rw [h .openWindow trivial]
    simp [get_set_of_ne]
  have hr : c'.get (Key.command u k) = some r := by
    rw [h (.command u k) trivial]
    simp
  have hcommands : ∀ u' k', (u', k') ≠ (u, k) →
      c'.get (Key.command u' k') = c.get (Key.command u' k') := by
    intro u' k' hne
    rw [h (.command u' k') trivial]
    have hne' : Key.command u' k' ≠ .command u k := by
      intro he
      cases he
      exact hne rfl
    simp [get_set_of_ne, hne']
  have hone : stage c' id = 1 := stage_eq_one.mpr ⟨w, hid, hstatus⟩
  have hzero : stage c id = 0 := stage_eq_zero.mpr hnew
  have hstage : ∀ id', id' ≠ id → stage c' id' = stage c id' :=
    fun id' hne => stage_of_get (hother id' hne)
  have hnone' : ∀ id', stage c' id' ≠ 2 := by
    intro id'
    by_cases hne : id' = id
    · subst hne
      omega
    · rw [hstage id' hne]
      exact hnone id'
  refine ⟨⟨fun id' => ?_, fun id' h2 => absurd h2 (hnone' id'),
      fun id' _ h2 => absurd h2 (hnone' id'), fun id' w' hw' hclosing => ?_⟩,
    ⟨fun id' => ?_, fun id' w₁ w₂ h₁ h₂ _ => ?_, fun _ _ => .inr hW, fun u' k' r' hr' => ?_⟩,
    ⟨fun id' => ?_, fun id' hne h3 => ?_, fun u' k' x hkey' hx => ?_, fun id' h2 => ?_⟩⟩
  · rw [hindex]
    by_cases hne : id' = id
    · subst hne
      simp [hone]
    · have hnot : stage c id' ≠ 1 := fun h1 => by
        have := (hc.index id').mpr h1
        rw [hfree] at this
        cases this
      rw [hstage id' hne]
      simp [hnot, Ne.symm hne]
  · exact absurd (stage_eq_two.mpr ⟨w', hw', hclosing⟩) (hnone' id')
  · by_cases hne : id' = id
    · subst hne
      omega
    · exact (hstage id' hne).ge
  · by_cases hne : id' = id
    · subst hne
      rw [hnew] at h₁
      cases h₁
    · rw [hother id' hne, h₁] at h₂
      cases h₂
      rfl
  · by_cases hne : (u', k') = (u, k)
    · cases hne
      rw [hcommand] at hr'
      cases hr'
    · rw [hcommands u' k' hne]
      exact hr'
  · by_cases hne : id' = id
    · subst hne
      omega
    · exact .inl (hstage id' hne)
  · by_cases hne' : id' = id
    · subst hne'
      exact ⟨u, k, w, status, hkey, rfl, hcommand⟩
    · exact absurd (hstage id' hne') hne
  · rw [hkey] at hkey'
    cases hkey'
    cases hx
    exact ⟨r, hr, hresponse⟩
  · exact absurd h2 (hnone id')

/-- One window moves on, or only its other columns change. -/
structure Steps (W : Key → Prop) (id : String) (w w' : WindowRow) (c c' : Db M S) : Prop where
  before : c.get (Key.window id) = some w
  after : c'.get (Key.window id) = some w'
  others : ∀ id', id' ≠ id → c'.get (Key.window id') = c.get (Key.window id')
  index : c'.get Key.openWindow =
    if w.status = .isOpen ∧ w'.status ≠ .isOpen then none else c.get Key.openWindow
  status : w'.status = w.status ∨ (w.status = .isOpen ∧ w'.status = .closing) ∨
    (w.status = .closing ∧ w'.status = .closed)
  deadline : w.status ≠ .isOpen → w'.closeDeadlineAt = w.closeDeadlineAt
  hasDeadline : w.status = .isOpen → w'.status = .closing → w'.closeDeadlineAt.isSome = true
  lock : w.status = .isOpen → w'.status = .closing → W .openWindow
  command : ∀ u k (r : CommandRow), c.get (Key.command u k) = some r →
    c'.get (Key.command u k) = some r

namespace Steps

variable {id : String} {w w' : WindowRow} (h : Steps W id w w' c c')
include h

theorem stage_of_ne {id' : String} (hne : id' ≠ id) : stage c' id' = stage c id' :=
  stage_of_get (h.others id' hne)

theorem stage_self : stage c' id = stage c id ∨
    (stage c id = 1 ∧ stage c' id = 2 ∧ w.status = .isOpen ∧ w'.status = .closing) ∨
    (stage c id = 2 ∧ stage c' id = 3) := by
  have hbefore := h.before
  have hafter := h.after
  unfold stage
  rw [hbefore, hafter]
  rcases h.status with hs | ⟨h₁, h₂⟩ | ⟨h₁, h₂⟩
  · exact .inl (by simp [hs])
  · exact .inr (.inl (by simp [h₁, h₂]))
  · exact .inr (.inr (by simp [h₁, h₂]))

theorem edge (id' : String) : stage c' id' = stage c id' ∨ stage c' id' = stage c id' + 1 := by
  by_cases hne : id' = id
  · subst hne
    rcases h.stage_self with hs | ⟨h₁, h₂, -⟩ | ⟨h₁, h₂⟩ <;> omega
  · exact .inl (h.stage_of_ne hne)

theorem index_eq : c'.get Key.openWindow = none ∧ stage c id = 1 ∧ stage c' id = 2 ∨
    c'.get Key.openWindow = c.get Key.openWindow ∧ (stage c' id = 1 ↔ stage c id = 1) := by
  have hindex := h.index
  rcases h.stage_self with hs | ⟨h₁, h₂, ho, hn⟩ | ⟨h₁, h₂⟩
  · have hsame : w'.status = .isOpen ↔ w.status = .isOpen := by
      have hone : stage c' id = 1 ↔ stage c id = 1 := by rw [hs]
      rw [stage_eq_one, stage_eq_one] at hone
      have hbefore := h.before
      have hafter := h.after
      simp only [hbefore, hafter, some.injEq, exists_eq_left'] at hone
      exact hone
    refine .inr ⟨?_, by rw [hs]⟩
    rw [hindex, if_neg fun hx => hx.2 (hsame.mpr hx.1)]
  · refine .inl ⟨?_, h₁, h₂⟩
    rw [hindex, if_pos ⟨ho, by rw [hn]; simp⟩]
  · refine .inr ⟨?_, by omega⟩
    have hopen : w.status ≠ .isOpen := fun ho => by
      have hone : stage c id = 1 := stage_eq_one.mpr ⟨w, h.before, ho⟩
      omega
    rw [hindex, if_neg fun hx => hopen hx.1]

theorem ok (hc : WindowsOk c) : WindowsOk c' := by
  have hstage : ∀ id', id' ≠ id → stage c' id' = stage c id' := fun id' hne => h.stage_of_ne hne
  have hself := h.stage_self
  have hfree : stage c id = 1 → ∀ id', stage c id' ≠ 2 := by
    intro h1 id' h2
    have hopen := (hc.index id).mpr h1
    rw [hc.apart id' h2] at hopen
    cases hopen
  refine ⟨fun id' => ?_, fun id' h2 => ?_, fun id₁ id₂ h₁ h₂ => ?_, fun id' r hr hclosing => ?_⟩
  · rcases h.index_eq with ⟨hnone, h1, h2⟩ | ⟨hsame, hiff⟩
    · rw [hnone]
      by_cases hne : id' = id
      · subst hne
        simp [h2]
      · rw [hstage id' hne]
        have hopen := (hc.index id).mpr h1
        have hindex := hc.index id'
        rw [hopen] at hindex
        simp only [some.injEq, Ne.symm hne, false_iff] at hindex
        simp [hindex]
    · rw [hsame, hc.index id']
      by_cases hne : id' = id
      · subst hne
        exact hiff.symm
      · rw [hstage id' hne]
  · rcases h.index_eq with ⟨hnone, -⟩ | ⟨hsame, hiff⟩
    · exact hnone
    · rw [hsame]
      by_cases hne : id' = id
      · subst hne
        exact hc.apart id' (by omega)
      · rw [hstage id' hne] at h2
        exact hc.apart id' h2
  · by_cases hne₁ : id₁ = id
    · by_cases hne₂ : id₂ = id
      · rw [hne₁, hne₂]
      · subst hne₁
        rw [hstage id₂ hne₂] at h₂
        rcases hself with hs | ⟨h1, -⟩ | ⟨-, h3⟩
        · exact hc.single id₁ id₂ (by omega) h₂
        · exact absurd h₂ (hfree h1 id₂)
        · omega
    · rw [hstage id₁ hne₁] at h₁
      by_cases hne₂ : id₂ = id
      · subst hne₂
        rcases hself with hs | ⟨h1, -⟩ | ⟨-, h3⟩
        · exact hc.single id₁ id₂ h₁ (by omega)
        · exact absurd h₁ (hfree h1 id₁)
        · omega
      · rw [hstage id₂ hne₂] at h₂
        exact hc.single id₁ id₂ h₁ h₂
  · by_cases hne : id' = id
    · subst hne
      have hafter := h.after
      rw [hr] at hafter
      cases hafter
      rcases h.status with hs | ⟨ho, hn⟩ | ⟨-, hn⟩
      · rw [h.deadline (by rw [← hs, hclosing]; nofun)]
        exact hc.deadline id' w h.before (by rw [← hs, hclosing])
      · exact h.hasDeadline ho hn
      · rw [hclosing] at hn
        cases hn
    · rw [h.others id' hne] at hr
      exact hc.deadline id' r hr hclosing

theorem change : WindowChange W c c' := by
  refine ⟨fun id' => ?_, fun id' r r' hr hr' hopen => ?_, fun id' h2 => ?_, h.command⟩
  · rcases h.edge id' with hs | hs <;> omega
  · by_cases hne : id' = id
    · subst hne
      have hbefore := h.before
      have hafter := h.after
      rw [hr] at hbefore
      rw [hr'] at hafter
      cases hbefore
      cases hafter
      exact h.deadline hopen
    · rw [h.others id' hne, hr] at hr'
      cases hr'
      rfl
  · by_cases hne : id' = id
    · subst hne
      rcases h.stage_self with hs | ⟨-, -, ho, hn⟩ | ⟨-, h3⟩
      · exact .inl (by omega)
      · exact .inr (h.lock ho hn)
      · omega
    · rw [h.stage_of_ne hne] at h2
      exact .inl h2

end Steps

end RagQs.Evaluation
