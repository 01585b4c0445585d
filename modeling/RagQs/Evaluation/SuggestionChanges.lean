import RagQs.Evaluation.Suggestion

/-!
# How the suggestions change

A scope is a space with a comparator key.  In a scope with suggestions one of them is actionable,
and its source run completed last of all their source runs; a run that completed later is the
source of none.

## Main definitions

* `IsLatest` — a run is the latest succeeded one of its scope.
* `ScopeOk` — what holds of the suggestions of a scope.
* `Shape` — the keys of the suggestions, and their events.
* `Kept` — what stays of a store.
* `Published` — what making a suggestion changes.

## Main results

* `ScopeOk.publish` — a suggestion of the latest run, where it has none yet.
* `ScopeOk.carry` — a change of other scopes.
-/

namespace RagQs.Evaluation

open Txn List Option

variable {M S : Type} {v v' b : Db M S} {sp ck : String}

/-! ### Scopes -/

/-- The suggestion is one of the scope. -/
def SuggestionRow.within (r : SuggestionRow S) (sp ck : String) : Prop :=
  r.spaceId = sp ∧ r.comparatorKey = some ck

/-- The run is a succeeded one of the scope. -/
def RunRow.succeededIn (r : RunRow) (sp ck : String) : Prop :=
  r.spaceId = sp ∧ r.comparatorKey = some ck ∧ r.state = .succeeded

/-- The stores have the same suggestions and succeeded runs of the scope. -/
structure SameScope (sp ck : String) (v v' : Db M S) : Prop where
  suggestion : ∀ id (r : SuggestionRow S), r.within sp ck →
    (v.get (.suggestion id) = some r ↔ v'.get (.suggestion id) = some r)
  run : ∀ id (r : RunRow), r.succeededIn sp ck →
    (v.get (.run id) = some r ↔ v'.get (.run id) = some r)

/-- No succeeded run of the scope completed later. -/
def IsLatest (v : Db M S) (sp ck run : String) : Prop :=
  ∃ r : RunRow, v.get (.run run) = some r ∧ r.succeededIn sp ck ∧
    ∀ id (r' : RunRow), v.get (.run id) = some r' → r'.succeededIn sp ck →
      completion (id, r') ≤ completion (run, r)

/-- The succeeded runs of the scope completed at different times. -/
def Distinct (v : Db M S) (sp ck : String) : Prop :=
  ∀ id id' (r r' : RunRow), v.get (.run id) = some r → r.succeededIn sp ck →
    v.get (.run id') = some r' → r'.succeededIn sp ck →
    completion (id, r) = completion (id', r') → id = id'

theorem mem_succeededRuns {id : String} {r : RunRow} :
    (id, r) ∈ succeededRuns sp ck v ↔ v.get (.run id) = some r ∧ r.succeededIn sp ck := by
  unfold succeededRuns
  rw [mem_table]
  constructor
  · rintro ⟨k, r', hget, hpick⟩
    cases k with
    | run id' =>
      simp only [ite_none_right_eq_some, some.injEq, Prod.mk.injEq] at hpick
      obtain ⟨hsucceeded, rfl, rfl⟩ := hpick
      exact ⟨hget, hsucceeded⟩
    | _ => cases hpick
  · rintro ⟨hget, hsucceeded⟩
    exact ⟨.run id, r, hget, if_pos hsucceeded⟩

theorem isLatest_of_read {run : String} (h : latestSucceededRun sp ck v = some run) :
    IsLatest v sp ck run := by
  obtain ⟨⟨run, r⟩, hmax, rfl⟩ := map_eq_some_iff.mp h
  obtain ⟨hget, hsucceeded⟩ := mem_succeededRuns.mp (argmax_mem hmax)
  exact ⟨r, hget, hsucceeded, fun id r' hget' hsucceeded' =>
    le_of_mem_argmax (mem_succeededRuns.mpr ⟨hget', hsucceeded'⟩) hmax⟩

theorem IsLatest.congr {run : String} (h : IsLatest v sp ck run)
    (hrun : ∀ id (r : RunRow), r.succeededIn sp ck →
      (v.get (.run id) = some r ↔ v'.get (.run id) = some r)) : IsLatest v' sp ck run := by
  obtain ⟨r, hget, hsucceeded, hmax⟩ := h
  exact ⟨r, (hrun run r hsucceeded).mp hget, hsucceeded, fun id r' hget' hsucceeded' =>
    hmax id r' ((hrun id r' hsucceeded').mpr hget') hsucceeded'⟩

variable {r : SuggestionRow S}

theorem latestActionable_none (h : latestActionable sp ck v = none) {id : String}
    (hget : v.get (.suggestion id) = some r) (hr : r.within sp ck) : r.status ≠ .actionable := by
  intro hstatus
  have hempty := argmax_eq_none.mp h
  have hmem : r ∈ ([] : List (SuggestionRow S)) := by
    rw [← hempty]
    exact mem_table.mpr ⟨.suggestion id, r, hget, if_pos ⟨hr.1, hr.2, hstatus⟩⟩
  cases hmem

theorem latestActionable_some (h : latestActionable sp ck v = some r) :
    ∃ id, v.get (.suggestion id) = some r ∧ r.within sp ck ∧ r.status = .actionable := by
  obtain ⟨k, r', hget, hpick⟩ := mem_table.mp (argmax_mem h)
  cases k with
  | suggestion id =>
    simp only [ite_none_right_eq_some, some.injEq] at hpick
    obtain ⟨⟨hspace, hkey, hstatus⟩, rfl⟩ := hpick
    exact ⟨id, hget, ⟨hspace, hkey⟩, hstatus⟩
  | _ => cases hpick

/-! ### What holds of the suggestions -/

/-- What holds of the suggestions of a scope. -/
structure ScopeOk (v : Db M S) (sp ck : String) : Prop where
  source : ∀ id (r : SuggestionRow S), v.get (.suggestion id) = some r → r.within sp ck →
    ∃ run : RunRow, v.get (.run r.rankSummary.sourceRunId) = some run ∧ run.succeededIn sp ck
  once : ∀ id id' (r r' : SuggestionRow S), v.get (.suggestion id) = some r → r.within sp ck →
    v.get (.suggestion id') = some r' → r'.within sp ck →
    r.rankSummary.sourceRunId = r'.rankSummary.sourceRunId → id = id'
  single : ∀ id id' (r r' : SuggestionRow S), v.get (.suggestion id) = some r → r.within sp ck →
    v.get (.suggestion id') = some r' → r'.within sp ck → r.status = .actionable →
    r'.status = .actionable → id = id'
  /-- The source run of the actionable suggestion completed last. -/
  top : ∀ id (r : SuggestionRow S), v.get (.suggestion id) = some r → r.within sp ck →
    ∃ id', ∃ r' : SuggestionRow S, v.get (.suggestion id') = some r' ∧ r'.within sp ck ∧
      r'.status = .actionable ∧ ∀ run run' : RunRow,
        v.get (.run r.rankSummary.sourceRunId) = some run →
        v.get (.run r'.rankSummary.sourceRunId) = some run' →
        completion (r.rankSummary.sourceRunId, run) ≤
          completion (r'.rankSummary.sourceRunId, run')

/-- Suggestions have keys, and an event is that of a suggestion, of its second version. -/
structure Shape (v : Db M S) : Prop where
  keyed : ∀ id (r : SuggestionRow S), v.get (.suggestion id) = some r →
    ∃ ck, r.comparatorKey = some ck
  event : ∀ id n e, v.get (.event (id, n)) = some e →
    n = 2 ∧ ∃ r : SuggestionRow S, v.get (.suggestion id) = some r

/-- What stays of a store: the runs that are over, and what the suggestions are about. -/
structure Kept (b v : Db M S) : Prop where
  run : ∀ id (r : RunRow), b.get (.run id) = some r → r.state.terminal = true →
    v.get (.run id) = some r
  suggestion : ∀ id (r : SuggestionRow S), b.get (.suggestion id) = some r →
    ∃ r' : SuggestionRow S, v.get (.suggestion id) = some r' ∧ r'.spaceId = r.spaceId ∧
      r'.comparatorKey = r.comparatorKey ∧ r'.rankSummary = r.rankSummary

theorem Kept.refl : Kept v v :=
  ⟨fun _ _ h _ => h, fun _ r h => ⟨r, h, rfl, rfl, rfl⟩⟩

theorem Kept.trans {v'' : Db M S} (h : Kept v v') (h' : Kept v' v'') : Kept v v'' := by
  refine ⟨fun id r hr ht => h'.run id r (h.run id r hr ht) ht, fun id r hr => ?_⟩
  obtain ⟨r', hr', hspace, hkey, hsummary⟩ := h.suggestion id r hr
  obtain ⟨r'', hr'', hspace', hkey', hsummary'⟩ := h'.suggestion id r' hr'
  exact ⟨r'', hr'', hspace'.trans hspace, hkey'.trans hkey, hsummary'.trans hsummary⟩

theorem ScopeOk.carry (h : ScopeOk b sp ck) (hkept : Kept b v)
    (hsame : ∀ id (r : SuggestionRow S), r.within sp ck → v.get (.suggestion id) = some r →
      b.get (.suggestion id) = some r)
    (hback : ∀ id (r : SuggestionRow S), r.within sp ck → b.get (.suggestion id) = some r →
      v.get (.suggestion id) = some r) : ScopeOk v sp ck := by
  have hrun : ∀ id (r : RunRow), b.get (.run id) = some r → r.succeededIn sp ck →
      v.get (.run id) = some r := fun id r hget hr => hkept.run id r hget (by rw [hr.2.2]; rfl)
  constructor
  case source =>
    intro id r hget hr
    obtain ⟨run, hrunget, hsucceeded⟩ := h.source id r (hsame id r hr hget) hr
    exact ⟨run, hrun _ run hrunget hsucceeded, hsucceeded⟩
  case once =>
    intro id id' r r' hget hr hget' hr'
    exact h.once id id' r r' (hsame id r hr hget) hr (hsame id' r' hr' hget') hr'
  case single =>
    intro id id' r r' hget hr hget' hr'
    exact h.single id id' r r' (hsame id r hr hget) hr (hsame id' r' hr' hget') hr'
  case top =>
    intro id r hget hr
    have hbefore := hsame id r hr hget
    obtain ⟨id', r', hget', hr', hstatus, hle⟩ := h.top id r hbefore hr
    refine ⟨id', r', hback id' r' hr' hget', hr', hstatus, fun run run' hrunget hrunget' => ?_⟩
    obtain ⟨run₀, hrun₀, hsucceeded⟩ := h.source id r hbefore hr
    obtain ⟨run₁, hrun₁, hsucceeded'⟩ := h.source id' r' hget' hr'
    cases (hrun _ run₀ hrun₀ hsucceeded).symm.trans hrunget
    cases (hrun _ run₁ hrun₁ hsucceeded').symm.trans hrunget'
    exact hle _ _ hrun₀ hrun₁

/-! ### Making a suggestion -/

/-- The suggestion once it is actionable. -/
def SuggestionRow.activated (r : SuggestionRow S) : SuggestionRow S :=
  { r with status := .actionable, version := r.version + 1 }

/-- The suggestion once it is superseded. -/
def SuggestionRow.supersede (r : SuggestionRow S) (now : Time) : SuggestionRow S :=
  { r with status := .superseded, version := r.version + 1, invalidatedAt := some now }

/-- Some of the actionable suggestions of a scope are superseded. -/
structure Superseded (sp ck : String) (v v' : Db M S) : Prop where
  others : ∀ k, (∀ id, k ≠ .suggestion id) → v'.get k = v.get k
  suggestion : ∀ id, v'.get (.suggestion id) = v.get (.suggestion id) ∨
    ∃ (r : SuggestionRow S) (now : Time), v.get (.suggestion id) = some r ∧ r.within sp ck ∧
      v'.get (.suggestion id) = some (r.supersede now)

/-- A suggestion of the scope is made: others of the scope may be superseded, and its event may be
published. -/
structure Published (sp ck id₀ : String) (r₀ : SuggestionRow S) (v v' : Db M S) : Prop where
  others : ∀ k, (∀ id, k ≠ .suggestion id) → k ≠ .event (id₀, 2) → v'.get k = v.get k
  fresh : v.get (.suggestion id₀) = none
  made : v'.get (.suggestion id₀) = some r₀.activated
  suggestion : ∀ id, id ≠ id₀ → v'.get (.suggestion id) = v.get (.suggestion id) ∨
    ∃ (r : SuggestionRow S) (now : Time), v.get (.suggestion id) = some r ∧ r.within sp ck ∧
      v'.get (.suggestion id) = some (r.supersede now)

theorem Superseded.publish {v₁ : Db M S} {id₀ : String} {r₀ : SuggestionRow S}
    (h : Superseded sp ck v v₁) (hfree : v₁.get (.suggestion id₀) = none)
    (hmade : v'.get (.suggestion id₀) = some r₀.activated)
    (hothers : ∀ k, k ≠ .suggestion id₀ → k ≠ .event (id₀, 2) → v'.get k = v₁.get k) :
    Published sp ck id₀ r₀ v v' := by
  constructor
  case others =>
    intro k hk hevent
    exact (hothers k (hk id₀) hevent).trans (h.others k hk)
  case fresh =>
    rcases h.suggestion id₀ with hsame | ⟨r, now, -, -, hafter⟩
    · exact hsame.symm.trans hfree
    · rw [hfree] at hafter
      cases hafter
  case made => exact hmade
  case suggestion =>
    intro id hne
    rw [hothers (.suggestion id) (fun he => hne (Key.suggestion.inj he)) nofun]
    exact h.suggestion id

namespace Published

variable {id₀ : String} {r₀ : SuggestionRow S} (h : Published sp ck id₀ r₀ v v')
include h

theorem run (id : String) : v'.get (.run id) = v.get (.run id) := h.others _ nofun nofun

theorem kept : Kept v v' := by
  refine ⟨fun id r hget _ => (h.run id).trans hget, fun id r hget => ?_⟩
  have hne : id ≠ id₀ := by
    rintro rfl
    rw [h.fresh] at hget
    cases hget
  rcases h.suggestion id hne with hsame | ⟨r', now, hget', -, hafter⟩
  · exact ⟨r, hsame.trans hget, rfl, rfl, rfl⟩
  · rw [hget] at hget'
    cases hget'
    exact ⟨_, hafter, rfl, rfl, rfl⟩

theorem before {id : String} (hne : id ≠ id₀) (hget : v'.get (.suggestion id) = some r) :
    ∃ r' : SuggestionRow S, v.get (.suggestion id) = some r' ∧ r'.spaceId = r.spaceId ∧
      r'.comparatorKey = r.comparatorKey ∧ r'.rankSummary = r.rankSummary ∧
      (r.status = .actionable → r' = r) := by
  rcases h.suggestion id hne with hsame | ⟨r', now, hget', -, hafter⟩
  · rw [hsame] at hget
    exact ⟨r, hget, rfl, rfl, rfl, fun _ => rfl⟩
  · rw [hafter] at hget
    cases hget
    exact ⟨r', hget', rfl, rfl, rfl, nofun⟩

theorem elsewhere {sp' ck' : String} (hr₀ : r₀.within sp ck) (hne : (sp', ck') ≠ (sp, ck))
    (hok : ScopeOk v sp' ck') : ScopeOk v' sp' ck' := by
  have hscope : ∀ r : SuggestionRow S, r.within sp' ck' → ¬ r.within sp ck := by
    intro r hr hr'
    refine hne ?_
    rw [← hr.1, hr'.1, some.inj (hr.2.symm.trans hr'.2)]
  have hother : ∀ id, id ≠ id₀ → ∀ r : SuggestionRow S, r.within sp' ck' →
      (v'.get (.suggestion id) = some r ↔ v.get (.suggestion id) = some r) := by
    intro id hid r hr
    rcases h.suggestion id hid with hsame | ⟨r', now, hget', hr', hafter⟩
    · rw [hsame]
    · constructor
      · intro hget
        rw [hafter] at hget
        cases hget
        exact absurd hr' (hscope _ hr)
      · intro hget
        rw [hget'] at hget
        cases hget
        exact absurd hr' (hscope _ hr)
  refine hok.carry h.kept (fun id r hr hget => ?_) fun id r hr hget => ?_
  · by_cases hid : id = id₀
    · subst hid
      rw [h.made] at hget
      cases hget
      exact absurd hr₀ (hscope _ hr)
    · exact (hother id hid r hr).mp hget
  · have hid : id ≠ id₀ := by
      rintro rfl
      rw [h.fresh] at hget
      cases hget
    exact (hother id hid r hr).mpr hget

/-- **The latest run is made the source of a suggestion**, where the actionable one is of another
run. -/
theorem publish (hr₀ : r₀.within sp ck) (hok : ScopeOk v sp ck)
    (hlatest : IsLatest v sp ck r₀.rankSummary.sourceRunId) (hdistinct : Distinct v sp ck)
    (hnone : ∀ id (r : SuggestionRow S), id ≠ id₀ → v'.get (.suggestion id) = some r →
      r.within sp ck → r.status ≠ .actionable)
    (hnew : ∀ id (r : SuggestionRow S), v.get (.suggestion id) = some r → r.within sp ck →
      r.status = .actionable → r.rankSummary.sourceRunId ≠ r₀.rankSummary.sourceRunId) :
    ScopeOk v' sp ck := by
  obtain ⟨run₀, hrun₀, hsucceeded₀, hmax⟩ := hlatest
  have hbefore : ∀ id (r : SuggestionRow S), id ≠ id₀ → v'.get (.suggestion id) = some r →
      r.within sp ck → ∃ r' : SuggestionRow S, v.get (.suggestion id) = some r' ∧
        r'.within sp ck ∧ r'.rankSummary = r.rankSummary := by
    intro id r hne hget hr
    obtain ⟨r', hget', hspace, hkey, hsummary, -⟩ := h.before hne hget
    exact ⟨r', hget', ⟨hspace.trans hr.1, hkey.trans hr.2⟩, hsummary⟩
  -- the source runs so far completed before the new one
  have hearlier : ∀ id (r : SuggestionRow S), v.get (.suggestion id) = some r → r.within sp ck →
      r.rankSummary.sourceRunId ≠ r₀.rankSummary.sourceRunId := by
    intro id r hget hr hsame
    obtain ⟨id', r', hget', hr', hstatus, hle⟩ := hok.top id r hget hr
    obtain ⟨run', hrun', hsucceeded'⟩ := hok.source id' r' hget' hr'
    have hle' := hle run₀ run' (by rw [hsame]; exact hrun₀) hrun'
    have hge := hmax _ run' hrun' hsucceeded'
    refine hnew id' r' hget' hr' hstatus (hdistinct _ _ run' run₀ hrun' hsucceeded' hrun₀
      hsucceeded₀ (le_antisymm hge ?_))
    rw [hsame] at hle'
    exact hle'
  have hfresh : ∀ id (r : SuggestionRow S), id ≠ id₀ → v'.get (.suggestion id) = some r →
      r.within sp ck → r.rankSummary.sourceRunId ≠ r₀.rankSummary.sourceRunId := by
    intro id r hne hget hr
    obtain ⟨r', hget', hr', hsummary⟩ := hbefore id r hne hget hr
    rw [← hsummary]
    exact hearlier id r' hget' hr'
  have hself : ∀ r : SuggestionRow S, v'.get (.suggestion id₀) = some r → r = r₀.activated :=
    fun r hget => some.inj (hget.symm.trans h.made)
  constructor
  case source =>
    intro id r hget hr
    rw [h.run]
    by_cases hne : id = id₀
    · subst hne
      rw [hself r hget]
      exact ⟨run₀, hrun₀, hsucceeded₀⟩
    · obtain ⟨r', hget', hr', hsummary⟩ := hbefore id r hne hget hr
      rw [← hsummary]
      exact hok.source id r' hget' hr'
  case once =>
    intro id id' r r' hget hr hget' hr' hsame
    by_cases hne : id = id₀
    · by_cases hne' : id' = id₀
      · rw [hne, hne']
      · subst hne
        rw [hself r hget] at hsame
        exact absurd hsame.symm (hfresh id' r' hne' hget' hr')
    · by_cases hne' : id' = id₀
      · subst hne'
        rw [hself r' hget'] at hsame
        exact absurd hsame (hfresh id r hne hget hr)
      · obtain ⟨s, hs, hsr, hsummary⟩ := hbefore id r hne hget hr
        obtain ⟨s', hs', hsr', hsummary'⟩ := hbefore id' r' hne' hget' hr'
        exact hok.once id id' s s' hs hsr hs' hsr' (by rw [hsummary, hsummary', hsame])
  case single =>
    intro id id' r r' hget hr hget' hr' hstatus hstatus'
    by_cases hne : id = id₀
    · by_cases hne' : id' = id₀
      · rw [hne, hne']
      · exact absurd hstatus' (hnone id' r' hne' hget' hr')
    · exact absurd hstatus (hnone id r hne hget hr)
  case top =>
    intro id r hget hr
    refine ⟨id₀, r₀.activated, h.made, hr₀, rfl, fun run run' hrunget hrunget' => ?_⟩
    rw [h.run] at hrunget hrunget'
    cases hrun₀.symm.trans hrunget'
    by_cases hne : id = id₀
    · subst hne
      rw [hself r hget] at hrunget ⊢
      exact hmax _ run hrunget (by rw [← some.inj (hrun₀.symm.trans hrunget)]; exact hsucceeded₀)
    · obtain ⟨r', hget', hr', hsummary⟩ := hbefore id r hne hget hr
      obtain ⟨run₁, hrun₁, hsucceeded₁⟩ := hok.source id r' hget' hr'
      rw [hsummary] at hrun₁
      obtain rfl := some.inj (hrun₁.symm.trans hrunget)
      exact hmax _ run₁ hrun₁ hsucceeded₁

theorem shape (hr₀ : r₀.within sp ck) (hv : Shape v) : Shape v' := by
  refine ⟨fun id r hget => ?_, fun id n e hget => ?_⟩
  · by_cases hne : id = id₀
    · subst hne
      rw [h.made] at hget
      cases hget
      exact ⟨ck, hr₀.2⟩
    · obtain ⟨r', hget', -, hkey, -⟩ := h.before hne hget
      rw [← hkey]
      exact hv.keyed id r' hget'
  · by_cases hnew : (id, n) = (id₀, 2)
    · obtain ⟨rfl, rfl⟩ := Prod.mk.inj hnew
      exact ⟨rfl, _, h.made⟩
    · have hother : Key.event (id, n) ≠ .event (id₀, 2) := fun he => hnew (Key.event.inj he)
      rw [h.others (.event (id, n)) (fun _ he => by cases he) hother] at hget
      obtain ⟨hn, r, hr⟩ := hv.event id n e hget
      obtain ⟨r', hr', -⟩ := h.kept.suggestion id r hr
      exact ⟨hn, r', hr'⟩

end Published
end RagQs.Evaluation
