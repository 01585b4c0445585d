import RagQs.Indexing.Tables
import Mathlib.Data.List.Forall2

/-!
# Continued tables

Which rows and which pages the tables of a document have after their continuations are
appended.

## Main definitions

* `parts` — the tables that each merged table is made of.
* `Joined` — no row is lost but repeated headers, and the pages are those of the parts.
* `RepeatsHeader` — what a continuation must be for that.

## Main results

* `joined_iff` — a document is put together well just when its continuations are so.
* `not_mergeKeepsRows` — a continuation without header row loses its first row.
-/

namespace RagQs.Indexing

open List

variable {similar : List Text → List Text → Bool} {tables pre : List Table} {t : Table}

/-- The parts with one more table, which goes to the last ones if it continues them. -/
def addPart (similar : List Text → List Text → Bool) (merged : List MergedTable)
    (parts : List (List Table)) (t : Table) : List (List Table) :=
  if merged.getLast?.any (tablesContinuation similar · t) then
    parts.dropLast ++ [parts.getLastD [] ++ [t]]
  else parts ++ [[t]]

/-- The parts after the tables that are left. -/
def partsFrom (similar : List Text → List Text → Bool) (merged : List MergedTable)
    (parts : List (List Table)) : List Table → List (List Table)
  | [] => parts
  | t :: tables =>
    partsFrom similar (mergeTable similar merged t) (addPart similar merged parts t) tables

/-- The tables of each merged table: one is a part of the table before just when it passes
the continuation test. -/
def parts (similar : List Text → List Text → Bool) (tables : List Table) : List (List Table) :=
  partsFrom similar [] [] tables

/-- The page range goes from the first to the last page of the parts. -/
def MergedTable.Spans (m : MergedTable) (parts : List Table) : Prop :=
  (∃ t ∈ parts, t.page = m.pageStart) ∧ (∃ t ∈ parts, t.page = m.pageEnd) ∧
    ∀ t ∈ parts, m.pageStart ≤ t.page ∧ t.page ≤ m.pageEnd

/-- The tables are put together well: the rows are all there, less the first rows that repeat
a header, and every merged table has the pages of its parts. -/
structure Joined (similar : List Text → List Text → Bool) (tables : List Table) : Prop where
  rows : (mergeContinuationTables similar tables).flatMap (·.rows) =
    tables.flatMap fun t => stripHeaderRow similar t.headers t.rows
  pages : Forall₂ MergedTable.Spans (mergeContinuationTables similar tables)
    (parts similar tables)

/-- If the table continues the last one, then its first row repeats its header just when the
two headers are similar, and it comes on no earlier page. -/
def RepeatsHeader (similar : List Text → List Text → Bool) (merged : List MergedTable)
    (t : Table) : Prop :=
  ∀ previous ∈ merged.getLast?, tablesContinuation similar previous t →
    (t.rows ≠ [] → similar t.headers previous.headers = t.rows.head?.any (similar t.headers)) ∧
      previous.pageEnd ≤ t.page

theorem parts_concat : parts similar (pre ++ [t]) =
    addPart similar (mergeContinuationTables similar pre) (parts similar pre) t := by
  have hfrom : ∀ merged l, partsFrom similar merged l (pre ++ [t]) =
      addPart similar (pre.foldl (mergeTable similar) merged) (partsFrom similar merged l pre) t := by
    induction pre with
    | nil => exact fun _ _ => rfl
    | cons a pre ih => exact fun _ _ => ih _ _
  exact hfrom [] []

theorem merge_concat : mergeContinuationTables similar (pre ++ [t]) =
    mergeTable similar (mergeContinuationTables similar pre) t := by
  simp [mergeContinuationTables]

theorem forall₂_concat_left {α β : Type} {R : α → β → Prop} {l : List α} {a : α} {k : List β} :
    Forall₂ R (l ++ [a]) k ↔ ∃ k' b, Forall₂ R l k' ∧ R a b ∧ k = k' ++ [b] := by
  rw [← forall₂_reverse_iff, reverse_concat, forall₂_cons_left_iff]
  constructor
  · rintro ⟨b, k', hab, hl, hk⟩
    refine ⟨k'.reverse, b, ?_, hab, ?_⟩
    · rw [← forall₂_reverse_iff, reverse_reverse]
      exact hl
    · rw [← reverse_reverse k, hk, reverse_cons]
  · rintro ⟨k', b, hl, hab, rfl⟩
    exact ⟨b, k'.reverse, hab, forall₂_reverse_iff.mpr hl, reverse_concat ..⟩

theorem tail_eq_stripHeaderRow_iff {headers : List Text} {rows : List (List Text)} {p : Bool} :
    (if rows ≠ [] && p then rows.tail else rows) = stripHeaderRow similar headers rows ↔
      (rows ≠ [] → p = rows.head?.any (similar headers)) := by
  cases rows with
  | nil => simp [stripHeaderRow]
  | cons row rows =>
    have hne : rows ≠ row :: rows := fun h => by simpa using congrArg length h
    cases p <;> cases hrow : similar headers row <;> simp [stripHeaderRow, hrow, hne, hne.symm]

theorem MergedTable.Spans.concat_iff {m : MergedTable} {l : List Table}
    {rows : List (List Text)} (h : m.Spans l) :
    MergedTable.Spans { m with rows, pageEnd := t.page } (l ++ [t]) ↔ m.pageEnd ≤ t.page := by
  obtain ⟨⟨first, hfirst, hstart⟩, ⟨last, hlast, hend⟩, hall⟩ := h
  constructor
  · intro hspans
    exact hend ▸ (hspans.2.2 last (mem_append_left _ hlast)).2
  · intro hle
    refine ⟨⟨first, mem_append_left _ hfirst, hstart⟩, ⟨t, by simp, rfl⟩, fun a ha => ?_⟩
    rcases mem_append.mp ha with ha | ha
    · exact ⟨(hall a ha).1, (hall a ha).2.trans hle⟩
    · obtain rfl := mem_singleton.mp ha
      exact ⟨((hall last hlast).1.trans_eq hend).trans hle, le_rfl⟩

theorem MergedTable.Spans.single {headers : List Text} {rows : List (List Text)} {title : Text} :
    MergedTable.Spans ⟨headers, rows, t.page, t.page, title⟩ [t] := by
  simp [MergedTable.Spans]

/-- **One more table**: it is put together well with those before just when it repeats the
header as a continuation should. -/
theorem Joined.concat_iff (h : Joined similar pre) : Joined similar (pre ++ [t]) ↔
    RepeatsHeader similar (mergeContinuationTables similar pre) t := by
  obtain ⟨hrows, hpages⟩ := h
  have hnew : ∀ hnot : (mergeContinuationTables similar pre).getLast?.any
      (tablesContinuation similar · t) = false,
      mergeContinuationTables similar (pre ++ [t]) = mergeContinuationTables similar pre ++
        [⟨t.headers, stripHeaderRow similar t.headers t.rows, t.page, t.page, t.title⟩] →
      Joined similar (pre ++ [t]) := fun hnot heq => by
    refine ⟨?_, ?_⟩
    · rw [heq, flatMap_append, hrows, flatMap_append]
      simp
    · rw [heq, parts_concat, addPart, if_neg (by simp [hnot]), forall₂_concat_left]
      exact ⟨_, _, hpages, .single, rfl⟩
  rcases eq_nil_or_concat (mergeContinuationTables similar pre) with hnil | ⟨init, previous, hlast⟩
  · refine iff_of_true (hnew (by simp [hnil]) ?_) fun p hp => ?_
    · rw [merge_concat, hnil]
      rfl
    · simp [hnil] at hp
  · rw [concat_eq_append] at hlast
    by_cases hcont : tablesContinuation similar previous t
    · have hmerge : mergeContinuationTables similar (pre ++ [t]) = init ++
          [{ previous with
            rows := previous.rows ++ if t.rows ≠ [] && similar t.headers previous.headers then
              t.rows.tail else t.rows
            pageEnd := t.page }] := by
        rw [merge_concat, hlast, mergeTable]
        simp [hcont]
      rw [hlast, forall₂_concat_left] at hpages
      obtain ⟨l, last, hinit, hspans, hparts⟩ := hpages
      have hrows' : (mergeContinuationTables similar (pre ++ [t])).flatMap (·.rows) =
            (pre ++ [t]).flatMap (fun t => stripHeaderRow similar t.headers t.rows) ↔
          (t.rows ≠ [] → similar t.headers previous.headers =
            t.rows.head?.any (similar t.headers)) := by
        rw [← tail_eq_stripHeaderRow_iff, hmerge, flatMap_append, flatMap_append, ← hrows, hlast,
          flatMap_append]
        simp only [flatMap_cons, flatMap_nil, append_nil, append_assoc, append_cancel_left_eq]
      have hpages' : Forall₂ MergedTable.Spans (mergeContinuationTables similar (pre ++ [t]))
          (parts similar (pre ++ [t])) ↔ previous.pageEnd ≤ t.page := by
        have hadd : parts similar (pre ++ [t]) = l ++ [last ++ [t]] := by
          rw [parts_concat, addPart, if_pos (by simp [hlast, hcont]), hparts, dropLast_concat,
            getLastD_concat]
        rw [hmerge, hadd, forall₂_concat_left]
        refine ⟨?_, fun hle => ⟨_, _, hinit, hspans.concat_iff.mpr hle, rfl⟩⟩
        rintro ⟨l', last', -, hspans', heq⟩
        obtain ⟨-, rfl⟩ := concat_inj.mp (by simpa using heq)
        exact hspans.concat_iff.mp hspans'
      rw [RepeatsHeader, hlast]
      simp only [getLast?_concat, Option.mem_def, Option.some.injEq, forall_eq', hcont,
        forall_const]
      exact ⟨fun h => ⟨hrows'.mp h.1, hpages'.mp h.2⟩, fun h => ⟨hrows'.mpr h.1, hpages'.mpr h.2⟩⟩
    · refine iff_of_true (hnew (by simp [hlast, hcont]) ?_) fun p hp => ?_
      · rw [merge_concat, mergeTable, hlast]
        simp [hcont]
      · simp only [hlast, getLast?_concat, Option.mem_def, Option.some.injEq] at hp
        exact fun h => absurd (hp ▸ h) hcont

theorem joined_iff : (∀ pre, pre <+: tables → Joined similar pre) ↔
    ∀ pre t, pre ++ [t] <+: tables →
      RepeatsHeader similar (mergeContinuationTables similar pre) t := by
  constructor
  · exact fun h pre t hpre => (h pre ((prefix_append ..).trans hpre)).concat_iff.mp (h _ hpre)
  · intro h pre hpre
    induction pre using reverseRecOn with
    | nil => exact ⟨rfl, .nil⟩
    | append_singleton pre t ih =>
      exact (ih ((prefix_append ..).trans hpre)).concat_iff.mpr (h pre t hpre)

theorem not_mergeKeepsRows : ¬∀ similar tables, Joined similar tables := fun h => by
  have hrows := (h (fun a b => a = b)
    [⟨[['a'], ['b']], [[['1'], ['2']]], 1, []⟩, ⟨[['a'], ['b']], [[['3'], ['4']]], 2, []⟩]).rows
  exact absurd hrows (by decide +kernel)

end RagQs.Indexing
