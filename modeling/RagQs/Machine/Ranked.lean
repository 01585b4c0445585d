import Mathlib

/-!
# The first of a list in strict order

A list in strict order has the greatest first.  An element is among the first `k` if and only if
fewer than `k` come before it.

## Main results

* `mem_take_iff_countP` — the elements among the first `k`.
* `before_of_mem_take` — these come before the others.
* `countP_le_of_subset` — a longer list has more elements before one.
-/

namespace Machine

open List

variable {α : Type} {before : α → α → Prop} [DecidableRel before] {l l' : List α} {x y : α} {k : ℕ}

/-- **An element is among the first `k`** if and only if fewer than `k` come before it. -/
theorem mem_take_iff_countP (hasymm : ∀ x y, before x y → ¬ before y x) (hl : l.Pairwise before)
    (hx : x ∈ l) : x ∈ l.take k ↔ l.countP (fun y => before y x) < k := by
  induction l generalizing k with
  | nil => cases hx
  | cons y l ih =>
    obtain ⟨hy, hl⟩ := pairwise_cons.mp hl
    cases k with
    | zero => simp
    | succ k =>
      by_cases heq : x = y
      · subst heq
        have hself : ¬ before x x := fun h => hasymm x x h h
        have hnone : l.countP (fun y => before y x) = 0 := by
          rw [countP_eq_zero]
          intro z hz
          simpa using hasymm x z (hy z hz)
        simp [hself, hnone]
      · have hmem : x ∈ l := (mem_cons.mp hx).resolve_left heq
        rw [take_succ_cons, mem_cons, countP_cons, or_iff_right heq, ih hl hmem]
        simp [hy x hmem]

omit [DecidableRel before] in
/-- The first elements come before the others. -/
theorem before_of_mem_take (hl : l.Pairwise before) (hy : y ∈ l.take k) (hx : x ∈ l)
    (hnot : x ∉ l.take k) : before y x := by
  rw [← take_append_drop k l] at hl hx
  exact (pairwise_append.mp hl).2.2 y hy x ((mem_append.mp hx).resolve_left hnot)

/-- A list with more elements has more of a kind. -/
theorem countP_le_of_subset {p : α → Bool} (hl : l.Nodup) (hsub : ∀ x ∈ l, p x = true → x ∈ l') :
    l.countP p ≤ l'.countP p := by
  rw [countP_eq_length_filter, countP_eq_length_filter]
  refine (subperm_of_subset (Nodup.filter p hl) fun x hx => ?_).length_le
  obtain ⟨hx, hp⟩ := mem_filter.mp hx
  exact mem_filter.mpr ⟨hsub x hx hp, hp⟩

end Machine
