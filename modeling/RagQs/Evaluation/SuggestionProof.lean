import RagQs.Evaluation.SuggestionChanges
import RagQs.Txn.AsOf
import Mathlib.Logic.Relation

/-!
# What the producers of suggestions commit

A call of a producer makes suggestions one after the other.  As of its commit each is one of the
latest run of its scope, and the actionable one is of another run, where the scope is still as the
call saw it.

## Main definitions

* `FromLatest` — what is asked of the statement that inserts a suggestion of the leaderboard.
* `Makes`, `Leaves` — what a call does to the view, one suggestion at a time.

## Main results

* `asOf_suggest`, `asOf_computeSuggestion`, `asOf_leaderboardSuggestions` — the calls, as of
  their commit.
-/

namespace RagQs.Evaluation

open Txn Option Store

variable {M S : Type}
variable {sourceRunId space key : Option String}

/-- The rows of suggestions and their events. -/
def Key.suggested : Key → Prop
  | .suggestion _ | .event _ => True
  | _ => False

section Writes

variable {env : Env M S} {spaceId comparatorKey suggestionId runId : String} {now : Time}
  {call : SuggestCall} {run : RunRow} {policy : PolicyRow}

theorem writes_supersedeActionable :
    (supersedeActionable spaceId comparatorKey now : Tx M S ℕ).Writes Key.suggested := by
  refine .statement fun v x hx => ?_
  obtain ⟨k, r, -, hpick⟩ := mem_table.mp hx
  obtain ⟨o, ho, rfl⟩ := map_eq_some_iff.mp hpick
  cases k with
  | suggestion id => exact trivial
  | _ => cases ho

theorem writes_makeActionable :
    (makeActionable suggestionId : Tx M S ℕ).Writes Key.suggested := by
  unfold makeActionable
  refine .bind (.updateWhere trivial) fun n => ?_
  refine .ite (fun _ => ?_) fun _ => .done
  exact .bind .readRow fun _ => .bind .orRaise fun _ => .done

theorem writes_suggest {row : SuggestionRow S} :
    (suggest env spaceId comparatorKey suggestionId row now).Writes Key.suggested := by
  unfold suggest
  refine .bind .select fun actionable => ?_
  refine .ite (fun _ => .done) fun _ => ?_
  have hsupersede : (supersedeFound actionable spaceId comparatorKey now : Tx M S ℕ).Writes
      Key.suggested := .ite (fun _ => writes_supersedeActionable) fun _ => .done
  have hpublish : ∀ n, (publishActionable env suggestionId n now : Tx M S Unit).Writes
      Key.suggested := by
    refine fun n => .ite (fun _ => .insert fun x hx => ?_) fun _ => .done
    rw [List.mem_singleton.mp hx]
    exact trivial
  refine hsupersede.bind fun _ => ?_
  refine .bind (.insert fun x hx => ?_) fun _ => writes_makeActionable.bind fun n => ?_
  · rw [List.mem_singleton.mp hx]
    exact trivial
  · exact (hpublish n).bind fun _ => .done

theorem writes_computeSuggestion :
    (computeSuggestion env call runId).Writes Key.suggested := by
  unfold computeSuggestion
  refine .bind .readRow fun row => ?_
  cases row with
  | none => exact .done
  | some run =>
    refine .ite (fun _ => .bind .select fun latest => ?_) fun _ => .done
    refine .ite (fun _ => .bind .readRow fun policy => ?_) fun _ => .done
    cases policy with
    | none => exact .done
    | some policy =>
      show (suggestFor env call runId run policy).Writes _
      unfold suggestFor
      refine .bind .check fun _ => .bind .select fun results => ?_
      split
      · exact .done
      · exact writes_suggest.bind fun _ => .done

theorem writes_suggestOf :
    (suggestOf env call policy spaceId comparatorKey sourceRunId).Writes Key.suggested := by
  cases sourceRunId with
  | none => exact .done
  | some runId =>
    unfold suggestOf
    refine .bind .readRow fun row => ?_
    cases row with
    | none => exact .done
    | some run =>
      refine .ite (fun _ => ?_) fun _ => .done
      unfold suggestFrom
      refine .bind .readRow fun own => .bind .check fun _ =>
        .bind .select fun results => ?_
      split
      · exact .done
      · exact writes_suggest

theorem writes_suggestAll (rows : List (String × ActiveDefaultRow)) :
    ∀ seen, (suggestAll env call policy rows seen).Writes Key.suggested := by
  induction rows with
  | nil => exact fun _ => .done
  | cons row rows ih =>
    intro seen
    rw [suggestAll_cons]
    split
    · exact ih seen
    · refine .ite (fun _ => ih seen) fun _ => ?_
      exact writes_suggestOf.bind fun created => (ih _).bind fun others => .done

theorem writes_leaderboardSuggestions :
    (leaderboardSuggestions env call space key).Writes Key.suggested := by
  unfold leaderboardSuggestions
  exact .bind .select fun _ => .bind .check fun _ =>
    .bind .select fun rows => writes_suggestAll rows []

end Writes

/-! ### One suggestion -/

/-- A suggestion of the leaderboard is inserted for the latest succeeded run of its scope. -/
def FromLatest (ws : List (Write (Row M S))) (v : Db M S) : Prop :=
  ∀ id (r : SuggestionRow S) ck, (⟨.suggestion id, some r⟩ : Write (Row M S)) ∈ ws →
    r.status = .notActionable → r.rankSummary.source.isSome = true → r.comparatorKey = some ck →
    IsLatest v r.spaceId ck r.rankSummary.sourceRunId

/-- No run is pending. -/
def NoRuns (d : Db M S) : Prop := ∀ id, Key.run id ∉ d

/-- No suggestion of the scope is actionable. -/
def NoneActionable (sp ck : String) (v : Db M S) : Prop :=
  ∀ id (r : SuggestionRow S), v.get (.suggestion id) = some r → r.within sp ck →
    r.status ≠ .actionable

variable {env : Env M S} {C : OnStatement (Row M S) Err} {R : Db M S → Db M S → Prop} {b d₀ : Db M S}
  {G : Db M S → Prop} {sp ck id₀ : String} {r₀ : SuggestionRow S} {now : Time}

variable {c d : Db M S}

theorem SameScope.view (h : SameScope sp ck c b) {id : String} {r : SuggestionRow S}
    (hr : r.within sp ck) :
    (d ∪ c : Db M S).get (.suggestion id) = some r ↔
      (d ∪ b : Db M S).get (.suggestion id) = some r := by
  by_cases hmem : Key.suggestion id ∈ d
  · rw [get_union_of_mem hmem, get_union_of_mem hmem]
  · rw [get_union_of_notMem hmem, get_union_of_notMem hmem]
    exact h.suggestion id r hr

theorem NoRuns.get (h : NoRuns d) (id : String) :
    (d ∪ c : Db M S).get (.run id) = c.get (.run id) := get_union_of_notMem (h id)

theorem asOf_noRuns {α : Type} {p : Tx M S α} (hp : p.Writes Key.suggested) :
    AsOf C R b G NoRuns p fun _ => NoRuns := by
  refine .inside hp fun d ws hws h id hmem => ?_
  rcases mem_applyAll.mp hmem with hmem | hmem
  · obtain ⟨x, hx, hkey⟩ := List.mem_map.mp hmem
    have hsuggested := hws x hx
    rw [hkey] at hsuggested
    exact hsuggested
  · exact h id hmem

theorem asOf_supersedeFound {o : Option (SuggestionRow S)} :
    AsOf C R b G (· = d₀) (supersedeFound o sp ck now : Tx M S ℕ) fun _ d =>
      Superseded sp ck (d₀ ∪ b) (d ∪ b) ∧ ((∀ c, G c → SameScope sp ck c b) →
        (o = none → NoneActionable sp ck (d₀ ∪ b)) → NoneActionable sp ck (d ∪ b)) := by
  unfold supersedeFound
  cases o with
  | none =>
    refine .done fun d hd => ?_
    subst hd
    exact ⟨⟨fun _ _ => rfl, fun _ => .inl rfl⟩, fun _ h => h rfl⟩
  | some s =>
    refine .updateAll fun d c n d' hG hd hrows => ?_
    subst hd
    refine ⟨⟨fun k hk => ?_, fun id => ?_⟩, fun hsame _ id r hget hr hstatus => ?_⟩
    · rcases hrows k with ⟨-, hkeep, -⟩ | ⟨r, o, -, hpick, -⟩
      · exact hkeep
      · cases k with
        | suggestion id => exact absurd rfl (hk id)
        | _ => cases hpick
    · rcases hrows (.suggestion id) with ⟨-, hkeep, -⟩ | ⟨r, o, hget, hpick, hafter⟩
      · exact .inl hkeep
      · simp only [ite_none_right_eq_some, some.injEq] at hpick
        obtain ⟨⟨hspace, hkey, -⟩, rfl⟩ := hpick
        exact .inr ⟨r, now, hget, ⟨hspace, hkey⟩, hafter⟩
    · -- an actionable suggestion of the scope would have been hit
      rcases hrows (.suggestion id) with ⟨-, hkeep, hmiss⟩ | ⟨r', o, -, hpick, hafter⟩
      · rw [hkeep] at hget
        have hnone : (if r.spaceId = sp ∧ r.comparatorKey = some ck ∧ r.status = .actionable then
            some (some (r.supersede now)) else none : Option (Option (SuggestionRow S))) = none :=
          hmiss r (((hsame c hG).view hr).mpr hget)
        rw [if_pos ⟨hr.1, hr.2, hstatus⟩] at hnone
        cases hnone
      · simp only [ite_none_right_eq_some, some.injEq] at hpick
        obtain ⟨-, rfl⟩ := hpick
        rw [hafter] at hget
        cases hget
        cases hstatus

theorem asOf_createSuggestion :
    AsOf C R b G (fun d => d = d₀ ∧ NoRuns d₀) (createSuggestion id₀ r₀ : Tx M S Unit) fun _ d =>
      d = d₀.set (.suggestion id₀) (some r₀) ∧ (d₀ ∪ b : Db M S).get (.suggestion id₀) = none ∧
        ∃ c, G c ∧ NoRuns d₀ ∧ taken (d₀ ∪ c : Db M S) [.suggestion id₀] = false ∧
          C.holds (createSuggestion id₀ r₀ : Tx M S Unit) (d₀ ∪ c) := by
  unfold createSuggestion
  refine .insert fun d c hG hd htaken hrow hC => ?_
  obtain ⟨rfl, hruns⟩ := hd
  refine ⟨rfl, ?_, c, hG, hruns, htaken, hC⟩
  have hfree : (d ∪ c : Db M S).get (.suggestion id₀) = none := by simpa [taken] using htaken
  rw [← hfree]
  exact get_union_congr (hrow _ List.mem_cons_self)

theorem asOf_makeActionable (hstatus : r₀.status = .notActionable) :
    AsOf C R b G (· = d₀.set (.suggestion id₀) (some r₀)) (makeActionable id₀ : Tx M S ℕ) fun n d =>
      n = r₀.version + 1 ∧ d = (d₀.set (.suggestion id₀) (some r₀)).set (.suggestion id₀)
        (some r₀.activated) := by
  have hview : ∀ (d c : Db M S) (r : SuggestionRow S),
      (d.set (.suggestion id₀) (some r) ∪ c : Db M S).get (.suggestion id₀) = some r := by
    intro d c r
    rw [set_union, get_set_self]
  unfold makeActionable
  refine (AsOf.updateWhere (ψ := fun n d => n = 1 ∧
    d = (d₀.set (.suggestion id₀) (some r₀)).set (.suggestion id₀) (some r₀.activated))
    (fun d c _ hd hmiss => ?_) fun d c r _ hd _ hget _ => ?_).bind fun n => ?_
  · subst hd
    have hfalse := hmiss r₀ (hview _ _ _)
    rw [hstatus] at hfalse
    cases hfalse
  · subst hd
    rw [hview] at hget
    cases hget
    exact ⟨rfl, rfl⟩
  · refine .of_fact (fun _ h => h.1) fun hn => ?_
    subst hn
    rw [if_pos rfl]
    refine (AsOf.select (ψ := fun o d => o = some r₀.activated ∧
      d = (d₀.set (.suggestion id₀) (some r₀)).set (.suggestion id₀) (some r₀.activated))
      fun d c _ hd => ?_).bind fun o => ?_
    · obtain ⟨-, rfl⟩ := hd
      exact ⟨hview _ _ _, rfl⟩
    · refine (AsOf.orRaise (ψ := fun s d => s = r₀.activated ∧
        d = (d₀.set (.suggestion id₀) (some r₀)).set (.suggestion id₀) (some r₀.activated))
        fun s hs d hd => ?_).bind fun s => .done fun d hd => ?_
      · rw [hs] at hd
        exact ⟨some.inj hd.1, hd.2⟩
      · obtain ⟨rfl, hd⟩ := hd
        exact ⟨rfl, hd⟩

theorem asOf_publishActionable {n : ℕ} :
    AsOf C R b G (· = d₀) (publishActionable env id₀ n now : Tx M S Unit) fun _ d =>
      d = d₀ ∨ d = d₀.set (.event (id₀, n)) (some ⟨id₀, n, now⟩) := by
  unfold publishActionable
  by_cases hcond : 1 < n ∧ env.calibrationOutbox = true
  · rw [if_pos hcond]
    refine .insert fun d c _ hd _ _ _ => ?_
    subst hd
    exact .inr rfl
  · rw [if_neg hcond]
    exact .done fun d hd => .inl hd

/-! ### A call -/

/-- A suggestion is made.  If the scope is as the call saw it, it is of the latest run, the one
that was actionable, if any, is of another run, and no other is actionable any more. -/
def Makes (G : Db M S → Prop) (b v v' : Db M S) : Prop :=
  ∃ sp ck id₀, ∃ r₀ : SuggestionRow S, r₀.within sp ck ∧ Published sp ck id₀ r₀ v v' ∧
    ((∀ c, G c → SameScope sp ck c b) → IsLatest b sp ck r₀.rankSummary.sourceRunId ∧
      (∀ id (r : SuggestionRow S), id ≠ id₀ → v'.get (.suggestion id) = some r → r.within sp ck →
        r.status ≠ .actionable) ∧
      (NoneActionable sp ck v ∨ ∃ id, ∃ r : SuggestionRow S, v.get (.suggestion id) = some r ∧
        r.within sp ck ∧ r.status = .actionable ∧
          r.rankSummary.sourceRunId ≠ r₀.rankSummary.sourceRunId))

/-- The rows of suggestions, their events and the runs stay. -/
def Rests (v v' : Db M S) : Prop :=
  ∀ k : Key, (k.suggested ∨ ∃ id, k = .run id) → v'.get k = v.get k

/-- What a call leaves: suggestions are made, one after the other. -/
def Leaves (G : Db M S → Prop) (b v v' : Db M S) : Prop :=
  Relation.ReflTransGen (fun v v' => Makes G b v v' ∨ Rests v v') v v'

theorem Rests.kept {v v' : Db M S} (h : Rests v v') : Kept v v' := by
  refine ⟨fun id r hget _ => ?_, fun id r hget => ⟨r, ?_, rfl, rfl, rfl⟩⟩
  · rw [h _ (.inr ⟨id, rfl⟩)]
    exact hget
  · rw [h (.suggestion id) (.inl trivial)]
    exact hget

namespace Leaves

variable {v v' : Db M S}

theorem run (h : Leaves G b v v') (id : String) : v'.get (.run id) = v.get (.run id) := by
  induction h with
  | refl => rfl
  | tail _ hstep ih =>
    rcases hstep with ⟨sp, ck, id₀, r₀, -, hpublished, -⟩ | hrests
    · exact (hpublished.run id).trans ih
    · exact (hrests _ (.inr ⟨id, rfl⟩)).trans ih

theorem kept (h : Leaves G b v v') : Kept v v' := by
  induction h with
  | refl => exact .refl
  | tail _ hstep ih =>
    rcases hstep with ⟨sp, ck, id₀, r₀, -, hpublished, -⟩ | hrests
    · exact ih.trans hpublished.kept
    · exact ih.trans (Rests.kept hrests)

theorem shape (h : Leaves G b v v') (hv : Shape v) : Shape v' := by
  induction h with
  | refl => exact hv
  | tail _ hstep ih =>
    rcases hstep with ⟨sp, ck, id₀, r₀, hr₀, hpublished, -⟩ | hrests
    · exact hpublished.shape hr₀ ih
    · refine ⟨fun id r hget => ?_, fun id n e hget => ?_⟩
      · rw [hrests (.suggestion id) (.inl trivial)] at hget
        exact ih.keyed id r hget
      · rw [hrests (.event (id, n)) (.inl trivial)] at hget
        obtain ⟨hn, r, hr⟩ := ih.event id n e hget
        exact ⟨hn, r, (hrests (.suggestion id) (.inl trivial)).trans hr⟩

/-- **In a scope that is as the call saw it**, all is well, and a suggestion that became actionable
is of the latest run. -/
theorem scope (h : Leaves G b b v) (hok : ScopeOk b sp ck) (hdistinct : Distinct b sp ck)
    (hsame : ∀ c, G c → SameScope sp ck c b) :
    ScopeOk v sp ck ∧ ∀ id (r : SuggestionRow S), v.get (.suggestion id) = some r →
      r.within sp ck → r.status = .actionable →
        b.get (.suggestion id) = some r ∨ IsLatest b sp ck r.rankSummary.sourceRunId := by
  induction h with
  | refl => exact ⟨hok, fun id r hget _ _ => .inl hget⟩
  | tail hrest hstep ih =>
    next v₁ v₂ =>
    obtain ⟨hok₁, hnew₁⟩ := ih
    rcases hstep with ⟨sp', ck', id₀, r₀, hr₀, hpublished, hmakes⟩ | hrests
    · by_cases hscope : (sp, ck) = (sp', ck')
      · obtain ⟨rfl, rfl⟩ := Prod.mk.inj hscope
        obtain ⟨hlatest, hnone, hbefore⟩ := hmakes hsame
        have hruns : ∀ id, v₁.get (.run id) = b.get (.run id) := fun id => run hrest id
        refine ⟨hpublished.publish hr₀ hok₁ (hlatest.congr fun id r _ => by rw [hruns id]) ?_ hnone
          fun id r hget hr hstatus => ?_, fun id r hget hr hstatus => ?_⟩
        · intro id id' r r' hget hr hget' hr'
          rw [hruns] at hget hget'
          exact hdistinct id id' r r' hget hr hget' hr'
        · rcases hbefore with hno | ⟨id', r', hget', hr', hstatus', hne⟩
          · exact absurd hstatus (hno id r hget hr)
          · obtain rfl := hok₁.single id id' r r' hget hr hget' hr' hstatus hstatus'
            rw [hget] at hget'
            cases hget'
            exact hne
        · by_cases hid : id = id₀
          · subst hid
            rw [hpublished.made] at hget
            cases hget
            exact .inr hlatest
          · exact absurd hstatus (hnone id r hid hget hr)
      · refine ⟨hpublished.elsewhere hr₀ hscope hok₁, fun id r hget hr hstatus => ?_⟩
        have hid : id ≠ id₀ := by
          rintro rfl
          rw [hpublished.made] at hget
          cases hget
          refine hscope ?_
          rw [← hr.1, ← hr₀.1]
          exact Prod.ext rfl (some.inj (hr.2.symm.trans hr₀.2))
        obtain ⟨r', hget', -, -, -, hstay⟩ := hpublished.before hid hget
        rw [hstay hstatus] at hget'
        exact hnew₁ id r hget' hr hstatus
    · have hsug : ∀ id, v₂.get (.suggestion id) = v₁.get (.suggestion id) :=
        fun id => hrests (.suggestion id) (.inl trivial)
      refine ⟨hok₁.carry (Rests.kept hrests) (fun id r _ hget => ?_) fun id r _ hget => ?_,
        fun id r hget => ?_⟩
      · rw [← hsug]
        exact hget
      · rw [hsug]
        exact hget
      · rw [hsug] at hget
        exact hnew₁ id r hget

end Leaves

/-- What is known of the pending writes of a call. -/
def Calls (G : Db M S → Prop) (b d : Db M S) : Prop := Leaves G b b (d ∪ b) ∧ NoRuns d

/-- **One suggestion**, if it is of the latest run as of the commit. -/
theorem asOf_suggest (hr₀ : r₀.within sp ck) (hstatus : r₀.status = .notActionable)
    (hversion : r₀.version = 1)
    (hlatest : (∀ c, G c → SameScope sp ck c b) → ∀ d c, NoRuns d → G c →
      taken (d ∪ c : Db M S) [.suggestion id₀] = false →
      C.holds (createSuggestion id₀ r₀ : Tx M S Unit) (d ∪ c) →
      IsLatest b sp ck r₀.rankSummary.sourceRunId) :
    AsOf C R b G (Calls G b) (suggest env sp ck id₀ r₀ now) fun _ => Calls G b := by
  refine .of_each fun d₀ hd₀ => ?_
  obtain ⟨hleaves, hruns⟩ := hd₀
  unfold suggest
  refine (AsOf.select (ψ := fun o d => d = d₀ ∧ ((∀ c, G c → SameScope sp ck c b) →
    (o = none → NoneActionable sp ck (d₀ ∪ b)) ∧ ∀ s, o = some s → ∃ id,
      (d₀ ∪ b : Db M S).get (.suggestion id) = some s ∧ s.within sp ck ∧
        s.status = .actionable)) fun d c hG hd => ?_).bind fun o => ?_
  · subst hd
    refine ⟨rfl, fun hsame => ⟨fun hnone id r hget hr => ?_, fun s hs => ?_⟩⟩
    · exact latestActionable_none hnone (((hsame c hG).view hr).mpr hget) hr
    · obtain ⟨id, hget, hr, hactionable⟩ := latestActionable_some hs
      exact ⟨id, ((hsame c hG).view hr).mp hget, hr, hactionable⟩
  by_cases hdone : (o.any fun s => s.rankSummary.sourceRunId = r₀.rankSummary.sourceRunId) = true
  · rw [if_pos hdone]
    refine .done fun d hd => ?_
    obtain ⟨rfl, -⟩ := hd
    exact ⟨hleaves, hruns⟩
  rw [if_neg hdone]
  refine .of_fact (fun _ h => h.2) fun hread => ?_
  have hruns' : AsOf C R b G NoRuns (supersedeFound o sp ck now : Tx M S ℕ) fun _ => NoRuns :=
    asOf_noRuns (.ite (fun _ => writes_supersedeActionable) fun _ => .done)
  have hstart : ∀ d, d = d₀ → d = d₀ ∧ NoRuns d := fun d hd => ⟨hd, by rw [hd]; exact hruns⟩
  refine ((asOf_supersedeFound.and hruns').pre fun d hd => hstart d hd.1).bind fun _ => ?_
  refine .of_each fun d₁ hd₁ => ?_
  obtain ⟨⟨hsuperseded, hnone⟩, hruns₁⟩ := hd₁
  refine (asOf_createSuggestion.pre fun d hd => ⟨hd, hruns₁⟩).bind fun _ => ?_
  refine .of_fact (fun _ h => h.2) fun hinsert => ?_
  obtain ⟨hfree, c, hG, -, hC⟩ := hinsert
  refine ((asOf_makeActionable hstatus).pre fun d hd => hd.1).bind fun n => ?_
  refine .of_fact (fun _ h => h.1) fun hn => ?_
  subst hn
  rw [hversion]
  refine (asOf_publishActionable.pre fun d hd => hd.2).bind fun _ => .done fun d hd => ?_
  -- the pending writes have the suggestion, actionable, and perhaps its event
  have hmade : (d ∪ b : Db M S).get (.suggestion id₀) = some r₀.activated := by
    rcases hd with rfl | rfl
    · rw [set_union, get_set_self]
    · rw [set_union, get_set_of_ne (fun he => by cases he), set_union,
        get_set_self]
  have hothers : ∀ k, k ≠ .suggestion id₀ → k ≠ .event (id₀, 2) →
      (d ∪ b : Db M S).get k = (d₁ ∪ b : Db M S).get k := by
    intro k hk hevent
    rcases hd with rfl | rfl
    · rw [set_union, get_set_of_ne hk, set_union,
        get_set_of_ne hk]
    · rw [set_union, get_set_of_ne hevent, set_union,
        get_set_of_ne hk, set_union, get_set_of_ne hk]
  have hpublished : Published sp ck id₀ r₀ (d₀ ∪ b) (d ∪ b) :=
    hsuperseded.publish hfree hmade hothers
  refine ⟨hleaves.tail (.inl ⟨sp, ck, id₀, r₀, hr₀, hpublished, fun hsame => ?_⟩), ?_⟩
  · refine ⟨hlatest hsame d₁ c hruns₁ hG hC.1 hC.2, fun id r hne hget hr => ?_, ?_⟩
    · rw [hothers _ (fun he => hne (Key.suggestion.inj he)) (fun he => by cases he)] at hget
      exact hnone hsame (hread hsame).1 id r hget hr
    · cases ho : o with
      | none => exact .inl ((hread hsame).1 ho)
      | some s =>
        obtain ⟨id, hget, hr, hactionable⟩ := (hread hsame).2 s ho
        refine .inr ⟨id, s, hget, hr, hactionable, fun he => hdone ?_⟩
        rw [ho]
        simpa using he
  · have hruns₂ : NoRuns (d₁.set (.suggestion id₀) (some r₀)) := by
      intro id hmem
      rcases (mem_set ..).mp hmem with he | hmem
      · cases he
      · exact hruns₁ id hmem
    intro id hmem
    rcases hd with rfl | rfl
    · rcases (mem_set ..).mp hmem with he | hmem
      · cases he
      · exact hruns₂ id hmem
    · rcases (mem_set ..).mp hmem with he | hmem
      · cases he
      · rcases (mem_set ..).mp hmem with he | hmem
        · cases he
        · exact hruns₂ id hmem

theorem asOf_rests {α : Type} {p : Tx M S α}
    (hp : p.Writes fun k => ¬ (k.suggested ∨ ∃ id, k = .run id)) :
    AsOf C R b G (Calls G b) p fun _ => Calls G b := by
  refine .inside hp fun d ws hws hd => ?_
  have hout : ∀ k : Key, (k.suggested ∨ ∃ id, k = .run id) → k ∉ ws.map Sigma.fst := by
    intro k hk hmem
    obtain ⟨x, hx, rfl⟩ := List.mem_map.mp hmem
    exact hws x hx hk
  refine ⟨hd.1.tail (.inr fun k hk => ?_), fun id hmem => ?_⟩
  · rw [applyAll_union, get_applyAll_of_notMem (hout k hk)]
  · rcases mem_applyAll.mp hmem with hmem | hmem
    · exact hout _ (.inr ⟨id, rfl⟩) hmem
    · exact hd.2 id hmem

/-! ### The producers -/

theorem asOf_suggestFor {call : SuggestCall} {runId : String} {run : RunRow} {policy : PolicyRow}
    (hkey : run.comparatorKey = some ck)
    (hlatest : (∀ c, G c → SameScope run.spaceId ck c b) → IsLatest b run.spaceId ck runId) :
    AsOf C R b G (Calls G b) (suggestFor env call runId run policy) fun _ => Calls G b := by
  unfold suggestFor
  refine .bind (.check (ψ := fun _ => Calls G b) fun _ _ _ h => h) fun _ => ?_
  refine .bind (.select (ψ := fun _ => Calls G b) fun _ _ _ h => h) fun results => ?_
  split
  · exact .done fun _ h => h
  · next rankings _ =>
    rw [hkey]
    refine .bind (ψ := fun _ => Calls G b) (asOf_suggest ⟨rfl, rfl⟩ rfl rfl ?_)
      fun _ => .done fun _ h => h
    exact fun hsame _ _ _ _ _ _ => hlatest hsame

theorem IsLatest.committed {run : String} (hd : NoRuns d) (h : IsLatest (d ∪ c) sp ck run) :
    IsLatest c sp ck run :=
  h.congr fun id r _ => by rw [hd.get id]

/-- **`compute_suggestion`**, where the runs that were over still are as they were. -/
theorem asOf_computeSuggestion {call : SuggestCall} {runId : String}
    (hover : ∀ c, G c → ∀ id (r : RunRow), c.get (.run id) = some r → r.state.terminal = true →
      b.get (.run id) = some r) :
    AsOf C R b G (Calls G b) (computeSuggestion env call runId) fun _ => Calls G b := by
  unfold computeSuggestion
  refine (AsOf.select (ψ := fun (o : Option RunRow) d => Calls G b d ∧ ∀ r, o = some r →
    ∃ c, G c ∧ c.get (.run runId) = some r) fun d c hG hd => ⟨hd, fun r hr => ⟨c, hG, ?_⟩⟩).bind
    fun row => ?_
  · rw [← hd.2.get runId]
    exact hr
  cases row with
  | none => exact .done fun _ h => h.1
  | some run =>
    by_cases hstate : run.state = .succeeded
    swap
    · simp only [if_neg hstate]
      exact .done fun _ h => h.1
    simp only [if_pos hstate]
    refine .of_fact (fun _ h => h.2 run rfl) fun hread => ?_
    obtain ⟨c₁, hG₁, hget₁⟩ := hread
    have hrun : b.get (.run runId) = some run := hover c₁ hG₁ runId run hget₁ (by rw [hstate]; rfl)
    refine (AsOf.select (ψ := fun (o : Option String) d => Calls G b d ∧ (o = some runId →
      ∃ c, G c ∧ IsLatest c run.spaceId (run.comparatorKey.getD "") runId))
      fun d c hG hd => ⟨hd.1, fun hlatest => ⟨c, hG, ?_⟩⟩).bind fun latest => ?_
    · exact (isLatest_of_read hlatest).committed hd.1.2
    by_cases hlatest : latest = some runId
    swap
    · rw [if_neg hlatest]
      exact .done fun _ h => h.1
    rw [if_pos hlatest]
    refine .of_fact (fun _ h => h.2 hlatest) fun hread => ?_
    obtain ⟨c₂, hG₂, hmax⟩ := hread
    -- the latest run is the one that was read, so its key is not missing
    have hkey : run.comparatorKey = some (run.comparatorKey.getD "") := by
      obtain ⟨r, hget, hsucceeded, -⟩ := hmax
      have hr := hover c₂ hG₂ runId r hget (by rw [hsucceeded.2.2]; rfl)
      rw [hrun] at hr
      cases hr
      exact hsucceeded.2.1
    refine .bind (.select (ψ := fun _ => Calls G b) fun _ _ _ h => h.1) fun policy => ?_
    cases policy with
    | none => exact .done fun _ h => h
    | some policy =>
      exact asOf_suggestFor hkey fun hsame => hmax.congr (hsame c₂ hG₂).run

theorem asOf_suggestFrom {call : SuggestCall} {policy : PolicyRow} {runId : String} {run : RunRow} :
    AsOf (.writes FromLatest) R b G (Calls G b) (suggestFrom env call policy sp ck runId run)
      fun _ => Calls G b := by
  unfold suggestFrom
  refine .bind (.select (ψ := fun _ => Calls G b) fun _ _ _ h => h) fun own => ?_
  refine .bind (.check (ψ := fun _ => Calls G b) fun _ _ _ h => h) fun _ => ?_
  refine .bind (.select (ψ := fun _ => Calls G b) fun _ _ _ h => h) fun results => ?_
  split
  · exact .done fun _ h => h
  · refine asOf_suggest ⟨rfl, rfl⟩ rfl rfl fun hsame d c hd hG htaken hC => ?_
    have hlatest := OnStatement.of_insert htaken hC _ _ ck List.mem_cons_self rfl rfl rfl
    exact (hlatest.committed hd).congr (hsame c hG).run

theorem asOf_suggestOf {call : SuggestCall} {policy : PolicyRow} :
    AsOf (.writes FromLatest) R b G (Calls G b) (suggestOf env call policy sp ck sourceRunId)
      fun _ => Calls G b := by
  cases sourceRunId with
  | none => exact .done fun _ h => h
  | some runId =>
    unfold suggestOf
    refine .bind (.select (ψ := fun _ => Calls G b) fun _ _ _ h => h) fun row => ?_
    cases row with
    | none => exact .done fun _ h => h
    | some run =>
      by_cases hscope : run.state = .succeeded ∧ run.spaceId = sp ∧ run.comparatorKey.getD "" = ck
      · simp only [if_pos hscope]
        exact asOf_suggestFrom
      · simp only [if_neg hscope]
        exact .done fun _ h => h

theorem asOf_suggestAll {call : SuggestCall} {policy : PolicyRow}
    (rows : List (String × ActiveDefaultRow)) :
    ∀ seen, AsOf (.writes FromLatest) R b G (Calls G b) (suggestAll env call policy rows seen)
      fun _ => Calls G b := by
  induction rows with
  | nil => exact fun _ => .done fun _ h => h
  | cons row rows ih =>
    intro seen
    rw [suggestAll_cons]
    split
    · exact ih seen
    · next ck _ =>
      by_cases hseen : (row.1, ck) ∈ seen
      · rw [if_pos hseen]
        exact ih seen
      · rw [if_neg hseen]
        exact asOf_suggestOf.bind fun created => (ih _).bind fun others => .done fun _ h => h

/-- **The leaderboard's suggestions.** -/
theorem asOf_leaderboardSuggestions {call : SuggestCall} :
    AsOf (.writes FromLatest) R b G (Calls G b) (leaderboardSuggestions env call space key)
      fun _ => Calls G b := by
  unfold leaderboardSuggestions
  refine .bind (.select (ψ := fun _ => Calls G b) fun _ _ _ h => h) fun latest => ?_
  refine .bind (.check (ψ := fun _ => Calls G b) fun _ _ _ h => h) fun _ => ?_
  refine .bind (.select (ψ := fun _ => Calls G b) fun _ _ _ h => h) fun rows => ?_
  exact asOf_suggestAll rows []

end RagQs.Evaluation
