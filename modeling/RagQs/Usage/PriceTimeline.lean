import RagQs.Platform.Timeline
import RagQs.Usage.Price

/-!
# The history of the prices of a scope

The versions of a scope are a timeline in which each supersedes the one before it.  A
writer closes the last version, adds one after it, or does both.

## Main definitions

* `ScopeHistory` — the versions of a scope in their order.
* `Revised` — what a writer may do to the history of its scope.
* `SameSelection` — the same version, up to the end of its interval.

## Main results

* `covering_eq_some` — the version in force is the one of the history that holds the time.
* `Revised.history`, `Revised.selection` — a revision is a history again, and selects the
  same version before the time it is about.
-/

namespace RagQs.Usage.Catalog

open Txn List Option

/-- A version with its identifier. -/
abbrev Version := String × PriceRow

/-- The start of the interval of a version. -/
def start (x : Version) : Time := x.2.effectiveFromUtc

/-- The end of the interval of a version. -/
def stop (x : Version) : Option Time := x.2.effectiveToUtc

/-- The versions of a scope in their order: a timeline, in which every version but the first
supersedes the one before it. -/
structure ScopeHistory (c : Db) (scope : Scope) (l : List Version) : Prop where
  rows : ∀ x : Version, x ∈ l ↔ c.get (.price x.1) = some x.2 ∧ x.2.scope = scope
  timeline : Timeline start stop l
  chain : l.IsChain fun x y => y.2.supersedesVersionId = some x.1
  first : ∀ x ∈ l.head?, x.2.supersedesVersionId = none

/-- The versions of every scope have a history. -/
def CatalogInv (c : Db) : Prop := ∀ scope, ∃ l, ScopeHistory c scope l

variable {c c' : Db} {scope : Scope} {l l' : List Version} {x : Version} {at_ b : Time}

theorem within_iff : Within start stop x at_ ↔ x.2.contains at_ = true :=
  PriceRow.contains_iff.symm

/-! ### Queries -/

/-- **The version in force is the one of the history that holds the time.** -/
theorem covering_eq_some (h : ScopeHistory c scope l) :
    covering c scope at_ = some x ↔ x ∈ l ∧ x.2.contains at_ = true := by
  have hforward : ∀ y, covering c scope at_ = some y → y ∈ l ∧ y.2.contains at_ = true := by
    intro y hy
    obtain ⟨hget, hscope, hcontains⟩ := covering_some hy
    exact ⟨(h.rows y).mpr ⟨hget, hscope⟩, hcontains⟩
  constructor
  · exact hforward x
  · rintro ⟨hmem, hcontains⟩
    cases hcov : covering c scope at_ with
    | none =>
      obtain ⟨hget, hscope⟩ := (h.rows x).mp hmem
      rw [covering_none hcov hget hscope] at hcontains
      cases hcontains
    | some y =>
      obtain ⟨hmem', hcontains'⟩ := hforward y hcov
      rw [h.timeline.unique x hmem y hmem' (within_iff.mpr hcontains)
        (within_iff.mpr hcontains')]

theorem newest_eq_last (h : ScopeHistory c scope l) (hnew : newest (versions c scope) = some x) :
    ∃ l', l = l' ++ [x] := by
  obtain ⟨hget, hscope⟩ := mem_versions.mp (mem_of_newest hnew)
  apply h.timeline.getLast ((h.rows x).mpr ⟨hget, hscope⟩)
  intro y hy
  have hle := le_of_mem_argmax (f := fun x : Version => x.2.effectiveFromUtc)
    (mem_versions.mpr ((h.rows y).mp hy)) hnew
  exact hle

/-! ### What a writer may do -/

/-- The version with its interval ended. -/
def closed (x : Version) (t : Time) : Version := (x.1, { x.2 with effectiveToUtc := some t })

/-- The history of a scope after a writer with the time `b`: the last version is closed
then, or a new one starts then, or both. -/
inductive Revised (b : Time) (l : List Version) : List Version → Prop
  | same : Revised b l l
  | close (l₀ : List Version) (x : Version) (history : l = l₀ ++ [x])
    (isOpen : x.2.effectiveToUtc = none) (later : x.2.effectiveFromUtc < b) :
    Revised b l (l₀ ++ [closed x b])
  | add (l₁ : List Version) (y : Version) (revised : Revised b l l₁)
    (follows : ∀ x ∈ l₁.getLast?, y.2.supersedesVersionId = some x.1 ∧ Follows start stop x y)
    (first : l₁ = [] → y.2.supersedesVersionId = none) (starts : y.2.effectiveFromUtc = b)
    (isOpen : y.2.effectiveToUtc = none) : Revised b l (l₁ ++ [y])

theorem Revised.ordered (h : Revised b l l') (ht : Timeline start stop l)
    (hc : l.IsChain fun x y => y.2.supersedesVersionId = some x.1)
    (hf : ∀ x ∈ l.head?, x.2.supersedesVersionId = none) :
    Timeline start stop l' ∧ l'.IsChain (fun x y => y.2.supersedesVersionId = some x.1) ∧
      ∀ x ∈ l'.head?, x.2.supersedesVersionId = none := by
  induction h with
  | same => exact ⟨ht, hc, hf⟩
  | close l₀ x history isOpen later =>
    subst history
    refine ⟨ht.replaceLast rfl fun t hstop => ?_, ?_, ?_⟩
    · cases hstop
      exact later
    · rw [isChain_append] at hc ⊢
      exact ⟨hc.1, isChain_singleton _, fun y hy z hz => by
        cases hz
        exact hc.2.2 y hy x rfl⟩
    · cases l₀ with
      | nil =>
        intro y hy
        cases hy
        exact hf x rfl
      | cons z l₀ => exact hf
  | add l₁ y revised follows first starts isOpen ih =>
    obtain ⟨ht₁, hc₁, hf₁⟩ := ih
    refine ⟨ht₁.append (fun x hx => (follows x hx).2) fun t hstop => ?_, ?_, ?_⟩
    · rw [stop, isOpen] at hstop
      cases hstop
    · rw [isChain_append]
      refine ⟨hc₁, isChain_singleton _, fun x hx z hz => ?_⟩
      cases hz
      exact (follows x hx).1
    · cases l₁ with
      | nil =>
        intro z hz
        cases hz
        exact first rfl
      | cons z l₁ => exact hf₁

/-- Of a version only the end may change, from open to the time of the writer. -/
def Ended (b : Time) (x y : Version) : Prop :=
  y.1 = x.1 ∧ y.2.toPriceFacts = x.2.toPriceFacts ∧
    (y.2.effectiveToUtc = x.2.effectiveToUtc ∨
      x.2.effectiveToUtc = none ∧ y.2.effectiveToUtc = some b)

theorem Ended.refl (b : Time) (x : Version) : Ended b x x := ⟨rfl, rfl, .inl rfl⟩

theorem Ended.contains {y : Version} (h : Ended b x y) (hb : at_ < b) :
    y.2.contains at_ = x.2.contains at_ := by
  obtain ⟨_, hfacts, hend⟩ := h
  have hfrom : y.2.effectiveFromUtc = x.2.effectiveFromUtc :=
    congrArg PriceFacts.effectiveFromUtc hfacts
  unfold PriceRow.contains
  rw [hfrom]
  rcases hend with heq | ⟨hopen, hclosed⟩
  · rw [heq]
  · rw [hopen, hclosed]
    simp [hb]

theorem Revised.forward (h : Revised b l l') : ∀ x ∈ l, ∃ y ∈ l', Ended b x y := by
  induction h with
  | same => exact fun x hx => ⟨x, hx, .refl b x⟩
  | close l₀ x history isOpen later =>
    subst history
    intro z hz
    rcases mem_append.mp hz with hmem | hmem
    · exact ⟨z, mem_append_left _ hmem, .refl b z⟩
    · obtain rfl := mem_singleton.mp hmem
      exact ⟨closed z b, by simp, rfl, rfl, .inr ⟨isOpen, rfl⟩⟩
  | add l₁ y revised follows first starts isOpen ih =>
    intro x hx
    obtain ⟨z, hz, hended⟩ := ih x hx
    exact ⟨z, mem_append_left _ hz, hended⟩

theorem Revised.backward (h : Revised b l l') :
    ∀ y ∈ l', y.2.effectiveFromUtc < b → ∃ x ∈ l, Ended b x y := by
  induction h with
  | same => exact fun y hy _ => ⟨y, hy, .refl b y⟩
  | close l₀ x history isOpen later =>
    subst history
    intro z hz _
    rcases mem_append.mp hz with hmem | hmem
    · exact ⟨z, mem_append_left _ hmem, .refl b z⟩
    · obtain rfl := mem_singleton.mp hmem
      exact ⟨x, by simp, rfl, rfl, .inr ⟨isOpen, rfl⟩⟩
  | add l₁ y revised follows first starts isOpen ih =>
    intro z hz hlt
    rcases mem_append.mp hz with hmem | hmem
    · exact ih z hmem hlt
    · obtain rfl := mem_singleton.mp hmem
      exact absurd starts (ne_of_lt hlt)

/-- The same version, or none, up to the end of its interval. -/
inductive SameSelection (b : Time) : Option Version → Option Version → Prop
  | none : SameSelection b none none
  | some (x y : Version) (ended : Ended b x y) : SameSelection b (some x) (some y)

theorem SameSelection.refl (b : Time) (o : Option Version) : SameSelection b o o := by
  cases o with
  | none => exact .none
  | some x => exact .some x x (.refl b x)

/-- **A revision selects the same version before its time.** -/
theorem Revised.selection (h : Revised b l l') (hc : ScopeHistory c scope l)
    (hc' : ScopeHistory c' scope l') (hb : at_ < b) :
    SameSelection b (covering c scope at_) (covering c' scope at_) := by
  cases hcov : covering c scope at_ with
  | some x =>
    obtain ⟨hmem, hcontains⟩ := (covering_eq_some hc).mp hcov
    obtain ⟨y, hy, hended⟩ := h.forward x hmem
    have hcov' := (covering_eq_some hc').mpr ⟨hy, (hended.contains hb).trans hcontains⟩
    rw [hcov']
    exact .some x y hended
  | none =>
    cases hcov' : covering c' scope at_ with
    | none => exact .none
    | some y =>
      obtain ⟨hmem, hcontains⟩ := (covering_eq_some hc').mp hcov'
      have hstart := (PriceRow.contains_iff.mp hcontains).1
      obtain ⟨x, hx, hended⟩ := h.backward y hmem (lt_of_le_of_lt hstart hb)
      have hcov'' := (covering_eq_some hc).mpr ⟨hx, (hended.contains hb).symm.trans hcontains⟩
      rw [hcov] at hcov''
      cases hcov''

end RagQs.Usage.Catalog
