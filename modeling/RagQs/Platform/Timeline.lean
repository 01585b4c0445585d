import Mathlib

/-!
# Intervals one after another

A list of items that hold half-open intervals, each of which ends before the next one
starts; only the last may be open.

## Main definitions

* `Timeline` — the intervals are not empty and follow each other.
* `Within` — an instant is in the interval of an item.

## Main results

* `Timeline.unique` — an instant is in the interval of at most one item.
* `Timeline.open_last` — an open item is the last.
* `Timeline.append`, `Timeline.replaceLast` — a new item, and another end of the last one.
-/

namespace RagQs

open List

variable {α T : Type} [LinearOrder T] {start : α → T} {stop : α → Option T}

/-- An item whose interval is not empty ends before another one starts. -/
def Follows (start : α → T) (stop : α → Option T) (a b : α) : Prop :=
  ∃ t, stop a = some t ∧ start a < t ∧ t ≤ start b

/-- The intervals are not empty and follow each other. -/
structure Timeline (start : α → T) (stop : α → Option T) (l : List α) : Prop where
  follows : l.Pairwise (Follows start stop)
  interval : ∀ a ∈ l, ∀ t, stop a = some t → start a < t

/-- The instant is in the interval of the item. -/
def Within (start : α → T) (stop : α → Option T) (a : α) (at_ : T) : Prop :=
  start a ≤ at_ ∧ ∀ t, stop a = some t → at_ < t

theorem Follows.lt {a b : α} (h : Follows start stop a b) : start a < start b := by
  obtain ⟨t, _, hlt, hle⟩ := h
  exact lt_of_lt_of_le hlt hle

theorem Follows.trans {a b c : α} (h : Follows start stop a b) (h' : Follows start stop b c) :
    Follows start stop a c := by
  obtain ⟨t, hstop, hlt, hle⟩ := h
  exact ⟨t, hstop, hlt, hle.trans h'.lt.le⟩

theorem Follows.not_within {a b : α} {at_ : T} (h : Follows start stop a b)
    (ha : Within start stop a at_) : ¬ Within start stop b at_ := by
  obtain ⟨t, hstop, _, hle⟩ := h
  intro hb
  exact absurd (lt_of_lt_of_le (ha.2 t hstop) hle) (not_lt.mpr hb.1)

theorem Timeline.nil : Timeline start stop [] :=
  ⟨List.Pairwise.nil, fun _ ha => absurd ha not_mem_nil⟩

variable {l : List α}

/-- **An instant is in the interval of at most one item.** -/
theorem Timeline.unique (h : Timeline start stop l) {at_ : T} :
    ∀ a ∈ l, ∀ b ∈ l, Within start stop a at_ → Within start stop b at_ → a = b := by
  have hpairs := h.follows
  induction hpairs with
  | nil => exact fun a ha => absurd ha not_mem_nil
  | @cons x l hx _ ih =>
    have htail := ih ⟨‹_›, fun a ha => h.interval a (mem_cons_of_mem _ ha)⟩
    intro a ha b hb hwa hwb
    rcases mem_cons.mp ha with heq | hal
    · rcases mem_cons.mp hb with heq' | hbl
      · exact heq.trans heq'.symm
      · exact absurd hwb ((hx b hbl).not_within (heq ▸ hwa))
    · rcases mem_cons.mp hb with heq' | hbl
      · exact absurd hwa ((hx a hal).not_within (heq' ▸ hwb))
      · exact htail a hal b hbl hwa hwb

theorem Timeline.open_last (h : Timeline start stop l) {a : α} (ha : a ∈ l) (hopen : stop a = none) :
    ∃ l', l = l' ++ [a] := by
  obtain ⟨l₁, l₂, rfl⟩ := append_of_mem ha
  cases l₂ with
  | nil => exact ⟨l₁, rfl⟩
  | cons b l₂ =>
    have hcons := (pairwise_append.mp h.follows).2.1
    obtain ⟨t, hstop, _⟩ := (pairwise_cons.mp hcons).1 b mem_cons_self
    rw [hopen] at hstop
    cases hstop

theorem Timeline.append (h : Timeline start stop l) {b : α}
    (hlast : ∀ a ∈ l.getLast?, Follows start stop a b) (hb : ∀ t, stop b = some t → start b < t) :
    Timeline start stop (l ++ [b]) := by
  constructor
  · rw [pairwise_append]
    refine ⟨h.follows, pairwise_singleton _ _, fun a ha x hx => ?_⟩
    obtain rfl := mem_singleton.mp hx
    -- An item before the last one ends before that one starts.
    cases l using reverseRecOn with
    | nil => exact absurd ha not_mem_nil
    | append_singleton l' last =>
      have hend : Follows start stop last x := hlast last (by simp)
      rcases mem_append.mp ha with hmem | hmem
      · have hbefore := (pairwise_append.mp h.follows).2.2 a hmem last
          (mem_singleton_self _)
        exact hbefore.trans hend
      · obtain rfl := mem_singleton.mp hmem
        exact hend
  · intro a ha
    rcases mem_append.mp ha with hmem | hmem
    · exact h.interval a hmem
    · obtain rfl := mem_singleton.mp hmem
      exact hb

theorem Timeline.replaceLast {a a' : α} (h : Timeline start stop (l ++ [a]))
    (hstart : start a' = start a) (ha' : ∀ t, stop a' = some t → start a' < t) :
    Timeline start stop (l ++ [a']) := by
  obtain ⟨hl, _, hlast⟩ := pairwise_append.mp h.follows
  constructor
  · rw [pairwise_append]
    refine ⟨hl, pairwise_singleton _ _, fun x hx y hy => ?_⟩
    obtain rfl := mem_singleton.mp hy
    obtain ⟨t, hstop, hlt, hle⟩ := hlast x hx a (mem_singleton_self _)
    exact ⟨t, hstop, hlt, hstart ▸ hle⟩
  · intro x hx
    rcases mem_append.mp hx with hmem | hmem
    · exact h.interval x (mem_append_left _ hmem)
    · obtain rfl := mem_singleton.mp hmem
      exact ha'

theorem Timeline.nodup (h : Timeline start stop l) : l.Nodup :=
  h.follows.imp fun hfollows heq => absurd (heq ▸ hfollows.lt) (lt_irrefl _)

theorem Timeline.getLast (h : Timeline start stop l) {a : α} (ha : a ∈ l)
    (hmax : ∀ b ∈ l, start b ≤ start a) : ∃ l', l = l' ++ [a] := by
  obtain ⟨l₁, l₂, rfl⟩ := append_of_mem ha
  cases l₂ with
  | nil => exact ⟨l₁, rfl⟩
  | cons b l₂ =>
    have hcons := (pairwise_append.mp h.follows).2.1
    have hfollows := (pairwise_cons.mp hcons).1 b mem_cons_self
    exact absurd (hmax b (by simp)) (not_le.mpr hfollows.lt)

end RagQs
