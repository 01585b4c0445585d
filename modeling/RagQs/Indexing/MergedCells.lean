import RagQs.Indexing.Sections
import Mathlib.Data.List.InsertIdx
import Mathlib.Data.List.Nodup
import Mathlib.Data.List.Pairwise

/-!
# Merged cells of a sheet

A sheet is read row by row, and the merged ranges that cover the current row are kept sorted
by their first column, so that a lookup is one bisection.

## Main definitions

* `MergedRange`, `covering` — a merged range, and the range that covers a cell.
* `MergedCellResolver.advance`, `MergedCellResolver.originAt` — the sweep over the rows.
* `renderedRows` — the rows of a sheet with merged cells filled in.

## Main results

* `sweep_eq_lookup` — the sweep finds the covering range of every cell, and a cell of a merged
  range shows its origin's value where the origin was read.
* `not_cellsRenderOrigins` — a cell whose origin was not read keeps its own value.
-/

namespace RagQs.Indexing

open List Function

/-- `_MergedRange`, with what makes it a range: rows and columns count from one. -/
structure MergedRange where
  minColumn : ℕ
  minRow : ℕ
  maxColumn : ℕ
  maxRow : ℕ
  pos : 0 < minRow ∧ 0 < minColumn := by decide
  rows : minRow ≤ maxRow := by decide
  columns : minColumn ≤ maxColumn := by decide
  deriving DecidableEq

/-- The cell, given by its row and its column, is in the range. -/
def MergedRange.Contains (m : MergedRange) (cell : ℕ × ℕ) : Prop :=
  (m.minRow ≤ cell.1 ∧ cell.1 ≤ m.maxRow) ∧ m.minColumn ≤ cell.2 ∧ cell.2 ≤ m.maxColumn
  deriving Decidable

/-- The top left cell of the range. -/
def MergedRange.origin (m : MergedRange) : ℕ × ℕ := (m.minRow, m.minColumn)

/-- No cell is in two of the ranges. -/
def Disjoint (ranges : List MergedRange) : Prop :=
  ranges.Pairwise fun m n => ∀ cell, m.Contains cell → ¬n.Contains cell

/-- The range that contains the cell. -/
def covering (ranges : List MergedRange) (cell : ℕ × ℕ) : Option MergedRange :=
  ranges.find? fun m => m.Contains cell

/-- `bisect_left` on a sorted list. -/
def bisectLeft (starts : List ℕ) (x : ℕ) : ℕ := (starts.takeWhile (· < x)).length

/-- `bisect_right` on a sorted list. -/
def bisectRight (starts : List ℕ) (x : ℕ) : ℕ := (starts.takeWhile (· ≤ x)).length

/-- `_MergedCellResolver`; a row without entry in `_starting` or `_ending` has no ranges. -/
structure MergedCellResolver where
  activeRanges : List MergedRange := []
  activeStarts : List ℕ := []
  starting : ℕ → List MergedRange
  ending : ℕ → List MergedRange

namespace MergedCellResolver

/-- `__init__` -/
def init (ranges : List MergedRange) : MergedCellResolver where
  starting row := ranges.filter (·.minRow = row)
  ending row := ranges.filter (·.maxRow + 1 = row)

/-- One round of the first loop of `advance`; it fails where Python runs off the list. -/
def removed (s : MergedCellResolver) (merged : MergedRange) : Option MergedCellResolver :=
  let first := bisectLeft s.activeStarts merged.minColumn
  let index := first + (s.activeRanges.drop first).idxOf merged
  if index < s.activeRanges.length ∧ index < s.activeStarts.length then
    some { s with
      activeRanges := s.activeRanges.eraseIdx index
      activeStarts := s.activeStarts.eraseIdx index }
  else none

/-- One round of the second loop of `advance`. -/
def inserted (s : MergedCellResolver) (merged : MergedRange) : MergedCellResolver :=
  let index := bisectRight s.activeStarts merged.minColumn
  { s with
    activeStarts := s.activeStarts.take index ++ merged.minColumn :: s.activeStarts.drop index
    activeRanges := s.activeRanges.take index ++ merged :: s.activeRanges.drop index }

/-- `advance` -/
def advance (s : MergedCellResolver) (row : ℕ) : Option MergedCellResolver := do
  let s ← (s.ending row).foldlM removed { s with ending := update s.ending row [] }
  some ((s.starting row).foldl inserted { s with starting := update s.starting row [] })

/-- `advance` for the rows `1` to `row`. -/
def advanced (ranges : List MergedRange) (row : ℕ) : Option MergedCellResolver :=
  (range' 1 row).foldlM advance (init ranges)

/-- `origin_at`, which fails where Python runs off the list. -/
def originAt (s : MergedCellResolver) (column : ℕ) : Option (Option (ℕ × ℕ)) :=
  match bisectRight s.activeStarts column with
  | 0 => some none
  | index + 1 => s.activeRanges[index]?.map fun merged =>
      if merged.maxColumn < column then none else some merged.origin

end MergedCellResolver

/-- The body of the loop over the cells of a row; `origins` is `origin_values`. -/
def renderCell (origin : Option (ℕ × ℕ)) (cell : ℕ × ℕ) (own : Text)
    (origins : ℕ × ℕ → Option Text) : Text × (ℕ × ℕ → Option Text) :=
  match origin with
  | none => (own, origins)
  | some o =>
    if o = cell then (own, update origins cell (some own)) else ((origins o).getD own, origins)

/-- The cells of a row that are left, the next in `column`. -/
def renderRow (s : MergedCellResolver) (row column : ℕ) (origins : ℕ × ℕ → Option Text) :
    List (Option Text) → Option (List Text × (ℕ × ℕ → Option Text))
  | [] => some ([], origins)
  | value :: values => do
    let (text, origins) :=
      renderCell (← s.originAt column) (row, column) (value.getD []) origins
    let (texts, origins) ← renderRow s row (column + 1) origins values
    some (text :: texts, origins)

/-- The loop of `_xlsx_chunks` over the rows that are left, the next of number `row`. -/
def renderRows (s : MergedCellResolver) (row : ℕ) (origins : ℕ × ℕ → Option Text) :
    List (List (Option Text)) → Option (List (List Text))
  | [] => some []
  | values :: rows => do
    let s ← s.advance row
    let (texts, origins) ← renderRow s row 1 origins values
    return texts :: (← renderRows s (row + 1) origins rows)

/-- The rows of a sheet with its merged cells filled in; a cell is `None` or what `str` makes
of its value. -/
def renderedRows (ranges : List MergedRange) (rows : List (List (Option Text))) :
    Option (List (List Text)) :=
  renderRows (.init ranges) 1 (fun _ => none) rows

/-- What `str` makes of a cell, if the sheet has it; rows and columns count from one. -/
def cellText (rows : List (List (Option Text))) (cell : ℕ × ℕ) : Option Text :=
  rows[cell.1 - 1]?.bind fun values => values[cell.2 - 1]?.map (·.getD [])

/-- What a cell with its own text shows: the text of the origin of the range it is in, if the
sheet has that cell. -/
def shown (ranges : List MergedRange) (rows : List (List (Option Text))) (cell : ℕ × ℕ)
    (own : Text) : Text :=
  match covering ranges cell with
  | none => own
  | some m => (cellText rows m.origin).getD own

/-- The cells of a row that are left, each looked up on its own. -/
def shownRow (ranges : List MergedRange) (rows : List (List (Option Text))) (row column : ℕ)
    (values : List (Option Text)) : List Text :=
  (values.zipIdx column).map fun (value, c) => shown ranges rows (row, c) (value.getD [])

/-- The rows of a sheet, each cell looked up on its own. -/
def shownRows (ranges : List MergedRange) (rows : List (List (Option Text))) :
    List (List Text) :=
  (rows.zipIdx 1).map fun (values, row) => shownRow ranges rows row 1 values

/-! ### Sorted lists of ranges -/

variable {ranges : List MergedRange} {rows : List (List (Option Text))} {s : MergedCellResolver}
  {m n : MergedRange} {l : List MergedRange} {row column : ℕ}

theorem exists_split {p : ℕ → Bool} (hp : ∀ a b, a < b → p b → p a)
    (h : l.Pairwise (·.minColumn < ·.minColumn)) :
    ∃ before after, l = before ++ after ∧
      ((l.map (·.minColumn)).takeWhile p).length = before.length ∧
      (∀ a ∈ before, p a.minColumn) ∧ ∀ a ∈ after, ¬p a.minColumn := by
  rw [takeWhile_map, length_map]
  refine ⟨_, _, takeWhile_append_dropWhile.symm, rfl, fun a => mem_takeWhile_imp, ?_⟩
  induction l with
  | nil => simp
  | cons b l ih =>
    rw [pairwise_cons] at h
    by_cases hb : (p ∘ (·.minColumn)) b
    · rw [dropWhile_cons_of_pos hb]
      exact ih h.2
    · rw [dropWhile_cons_of_neg hb]
      intro a ha hpa
      rcases mem_cons.mp ha with rfl | ha
      · exact hb hpa
      · exact hb (hp _ _ (h.1 a ha) hpa)

theorem MergedRange.contains_origin (m : MergedRange) : m.Contains m.origin :=
  ⟨⟨le_rfl, m.rows⟩, le_rfl, m.columns⟩

theorem Disjoint.eq (h : Disjoint ranges) (hm : m ∈ ranges) (hn : n ∈ ranges) {cell : ℕ × ℕ}
    (hmc : m.Contains cell) (hnc : n.Contains cell) : m = n := by
  by_contra hne
  have : Std.Symm fun m n : MergedRange => ∀ cell, m.Contains cell → ¬n.Contains cell :=
    ⟨fun m n h cell hn hm => h cell hm hn⟩
  exact List.Pairwise.forall h hm hn hne cell hmc hnc

theorem Disjoint.nodup (h : Disjoint ranges) : ranges.Nodup :=
  h.imp fun hmn heq => hmn _ (heq ▸ MergedRange.contains_origin _) (MergedRange.contains_origin _)

theorem Disjoint.eq_of_start (h : Disjoint ranges) (hm : m ∈ ranges) (hn : n ∈ ranges)
    (hmr : m.minRow ≤ row ∧ row ≤ m.maxRow) (hnr : n.minRow ≤ row ∧ row ≤ n.maxRow)
    (hle : m.minColumn ≤ n.minColumn) (hreach : n.minColumn ≤ m.maxColumn) : m = n :=
  h.eq hm hn (show m.Contains (row, n.minColumn) from ⟨hmr, hle, hreach⟩) ⟨hnr, le_rfl, n.columns⟩

theorem covering_eq_some (h : Disjoint ranges) (hm : m ∈ ranges) {cell : ℕ × ℕ}
    (hmc : m.Contains cell) : covering ranges cell = some m := by
  cases hc : covering ranges cell with
  | none => simpa [hmc] using find?_eq_none.mp hc m hm
  | some n => rw [h.eq (mem_of_find?_eq_some hc) hm (by simpa using find?_some hc) hmc]

namespace MergedCellResolver

/-- The two lists go together, sorted by the first column. -/
def Sorted (s : MergedCellResolver) : Prop :=
  s.activeStarts = s.activeRanges.map (·.minColumn) ∧
    s.activeRanges.Pairwise (·.minColumn < ·.minColumn)

theorem Sorted.remove (h : s.Sorted) (hm : m ∈ s.activeRanges) :
    ∃ s', s.removed m = some s' ∧ s'.Sorted ∧
      (∀ n, n ∈ s'.activeRanges ↔ n ∈ s.activeRanges ∧ n ≠ m) ∧
      s'.starting = s.starting ∧ s'.ending = s.ending := by
  obtain ⟨l, starts, starting, ending⟩ := s
  obtain ⟨hstarts, hsorted⟩ := h
  dsimp only at hstarts hsorted hm
  subst hstarts
  have hnodup : l.Nodup := hsorted.imp fun hlt heq => by simp [heq] at hlt
  obtain ⟨before, after, rfl, hfirst, hbefore, -⟩ :=
    exists_split (p := (· < m.minColumn)) (by simp; omega) hsorted
  have hnotMem : m ∉ before := fun hmem => by simpa using hbefore m hmem
  have hindex : before.length + after.idxOf m = (before ++ after).idxOf m := by
    rw [idxOf_append_of_notMem hnotMem]
  have hlt := idxOf_lt_length_of_mem hm
  refine ⟨⟨(before ++ after).erase m, ((before ++ after).erase m).map (·.minColumn), starting,
    ending⟩, ?_, ⟨rfl, hsorted.sublist (erase_sublist ..)⟩, fun n => ?_, rfl, rfl⟩
  · simp only [removed, bisectLeft, hfirst, drop_left, hindex, length_map]
    rw [if_pos ⟨hlt, hlt⟩, eraseIdx_map, eraseIdx_idxOf_eq_erase]
  · rw [hnodup.mem_erase_iff, and_comm]

theorem Sorted.insert (h : s.Sorted) (hm : ∀ n ∈ s.activeRanges, n.minColumn ≠ m.minColumn) :
    (s.inserted m).Sorted ∧
      ∀ n, n ∈ (s.inserted m).activeRanges ↔ n ∈ s.activeRanges ∨ n = m := by
  obtain ⟨l, starts, starting, ending⟩ := s
  obtain ⟨hstarts, hsorted⟩ := h
  dsimp only at hstarts hsorted hm
  subst hstarts
  obtain ⟨before, after, rfl, hindex, hbefore, hafter⟩ :=
    exists_split (p := (· ≤ m.minColumn)) (by simp; omega) hsorted
  simp only [decide_eq_true_eq, not_le] at hbefore hafter
  have hlt : ∀ n ∈ before, n.minColumn < m.minColumn := fun n hn =>
    (hbefore n hn).lt_of_ne (hm n (mem_append_left _ hn))
  rw [pairwise_append] at hsorted
  obtain ⟨hleft, hright, -⟩ := hsorted
  simp only [inserted, bisectRight, hindex, drop_left, take_left, ← map_take, ← map_drop]
  refine ⟨⟨by simp, pairwise_append.mpr ⟨hleft, pairwise_cons.mpr ⟨hafter, hright⟩, ?_⟩⟩, ?_⟩
  · rintro a ha b (_ | ⟨_, hb⟩)
    · exact hlt a ha
    · exact (hlt a ha).trans (hafter b hb)
  · intro n
    simp [or_assoc, or_comm (a := n = m)]

theorem Sorted.foldlM_remove (h : s.Sorted) (hl : l.Nodup) (hmem : ∀ m ∈ l, m ∈ s.activeRanges) :
    ∃ s', l.foldlM removed s = some s' ∧ s'.Sorted ∧
      (∀ n, n ∈ s'.activeRanges ↔ n ∈ s.activeRanges ∧ n ∉ l) ∧
      s'.starting = s.starting ∧ s'.ending = s.ending := by
  induction l generalizing s with
  | nil => exact ⟨s, rfl, h, by simp, rfl, rfl⟩
  | cons m l ih =>
    rw [nodup_cons] at hl
    obtain ⟨s₁, hs₁, hsorted, hactive, hstarting, hending⟩ :=
      h.remove (hmem m mem_cons_self)
    obtain ⟨s₂, hs₂, hsorted₂, hactive₂, hstarting₂, hending₂⟩ := ih hsorted hl.2 fun n hn =>
      (hactive n).mpr ⟨hmem n (mem_cons_of_mem _ hn), fun heq => hl.1 (heq ▸ hn)⟩
    refine ⟨s₂, by rw [foldlM_cons, hs₁]; exact hs₂, hsorted₂, fun n => ?_,
      hstarting₂.trans hstarting, hending₂.trans hending⟩
    rw [hactive₂, hactive, mem_cons, not_or, and_assoc]

theorem Sorted.foldl_insert (h : s.Sorted)
    (hl : l.Pairwise fun m n => m.minColumn ≠ n.minColumn)
    (hnew : ∀ m ∈ l, ∀ n ∈ s.activeRanges, n.minColumn ≠ m.minColumn) :
    (l.foldl inserted s).Sorted ∧
      (∀ n, n ∈ (l.foldl inserted s).activeRanges ↔ n ∈ s.activeRanges ∨ n ∈ l) ∧
      (l.foldl inserted s).starting = s.starting ∧ (l.foldl inserted s).ending = s.ending := by
  induction l generalizing s with
  | nil => exact ⟨h, by simp, rfl, rfl⟩
  | cons m l ih =>
    rw [pairwise_cons] at hl
    obtain ⟨hsorted, hactive⟩ := h.insert (hnew m mem_cons_self)
    obtain ⟨hsorted₂, hactive₂, hsame⟩ := ih hsorted hl.2 fun n hn a ha => by
      rcases (hactive a).mp ha with ha | rfl
      · exact hnew n (mem_cons_of_mem _ hn) a ha
      · exact hl.1 n hn
    refine ⟨hsorted₂, fun n => ?_, hsame⟩
    rw [foldl_cons, hactive₂, hactive, mem_cons, or_assoc]

/-! ### The sweep -/

/-- The sweep has come to the row: the ranges that have it are active. -/
structure Swept (ranges : List MergedRange) (row : ℕ) (s : MergedCellResolver) : Prop where
  sorted : s.Sorted
  active : ∀ m, m ∈ s.activeRanges ↔ m ∈ ranges ∧ m.minRow ≤ row ∧ row ≤ m.maxRow
  starting : ∀ r, row < r → s.starting r = ranges.filter (·.minRow = r)
  ending : ∀ r, row < r → s.ending r = ranges.filter (·.maxRow + 1 = r)

theorem swept_init : Swept ranges 0 (init ranges) where
  sorted := ⟨rfl, .nil⟩
  active m := by
    have hpos := m.pos.1
    simp only [init, not_mem_nil, false_iff]
    omega
  starting _ _ := rfl
  ending _ _ := rfl

/-- **The next row**: `advance` does not fail, and the ranges of the row are active. -/
theorem Swept.advance (h : Swept ranges row s) (hd : Disjoint ranges) :
    ∃ s', s.advance (row + 1) = some s' ∧ Swept ranges (row + 1) s' := by
  have hcolumn : ∀ {m n}, m ∈ ranges → n ∈ ranges → m.minRow ≤ row + 1 ∧ row + 1 ≤ m.maxRow →
      n.minRow ≤ row + 1 ∧ row + 1 ≤ n.maxRow → m.minColumn = n.minColumn → m = n :=
    fun hm hn hmr hnr heq => hd.eq_of_start hm hn hmr hnr heq.le (heq ▸ MergedRange.columns _)
  have hended := h.ending _ row.lt_succ_self
  have hsorted : Sorted { s with ending := update s.ending (row + 1) [] } := h.sorted
  obtain ⟨s₁, hs₁, hsorted₁, hactive₁, hstarting₁, hending₁⟩ :=
    hsorted.foldlM_remove (l := s.ending (row + 1)) (hended ▸ hd.nodup.filter _) fun m hm => by
      rw [hended, mem_filter, decide_eq_true_eq] at hm
      have hrows := m.rows
      exact (h.active m).mpr ⟨hm.1, by omega, by omega⟩
  have hactive : ∀ n, n ∈ s₁.activeRanges ↔
      n ∈ ranges ∧ n.minRow ≤ row ∧ row + 1 ≤ n.maxRow := fun n => by
    rw [hactive₁, h.active, hended, mem_filter, decide_eq_true_eq]
    constructor
    · rintro ⟨⟨hn, hmin, hmax⟩, hnot⟩
      exact ⟨hn, hmin, by_contra fun hlt => hnot ⟨hn, by omega⟩⟩
    · rintro ⟨hn, hmin, hmax⟩
      exact ⟨⟨hn, hmin, by omega⟩, fun hend => by omega⟩
  have hstarted : s₁.starting (row + 1) = ranges.filter (·.minRow = row + 1) := by
    rw [hstarting₁]
    exact h.starting _ row.lt_succ_self
  have hsorted₂ : Sorted { s₁ with starting := update s₁.starting (row + 1) [] } := hsorted₁
  obtain ⟨hsorted₃, hactive₃, hstarting₃, hending₃⟩ :=
    hsorted₂.foldl_insert (l := s₁.starting (row + 1))
    (by
      rw [hstarted]
      refine (hd.nodup.filter _).pairwise_of_forall_ne fun m hm n hn hne heq => hne ?_
      rw [mem_filter, decide_eq_true_eq] at hm hn
      have hmrows := m.rows
      have hnrows := n.rows
      exact hcolumn hm.1 hn.1 (by omega) (by omega) heq)
    (fun m hm n hn heq => by
      rw [hstarted, mem_filter, decide_eq_true_eq] at hm
      have hn := (hactive n).mp hn
      have hrows := m.rows
      have := hcolumn hn.1 hm.1 (by omega) (by omega) heq
      subst this
      omega)
  refine ⟨_, by rw [MergedCellResolver.advance, hs₁]; rfl, hsorted₃, fun m => ?_, fun r hr => ?_,
    fun r hr => ?_⟩
  · rw [hactive₃, hactive, hstarted, mem_filter, decide_eq_true_eq]
    have hrows := m.rows
    constructor
    · rintro (⟨hm, hmin, hmax⟩ | ⟨hm, hmin⟩)
      · exact ⟨hm, by omega, hmax⟩
      · exact ⟨hm, by omega, by omega⟩
    · rintro ⟨hm, hmin, hmax⟩
      by_cases hlt : m.minRow ≤ row
      · exact .inl ⟨hm, hlt, hmax⟩
      · exact .inr ⟨hm, by omega⟩
  · rw [hstarting₃]
    change update s₁.starting (row + 1) [] r = _
    rw [update_of_ne (by omega), hstarting₁]
    exact h.starting r (by omega)
  · rw [hending₃]
    change s₁.ending r = _
    rw [hending₁]
    change update s.ending (row + 1) [] r = _
    rw [update_of_ne (by omega)]
    exact h.ending r (by omega)

/-- **A lookup** finds the range that covers the cell. -/
theorem Swept.originAt (h : Swept ranges row s) (hd : Disjoint ranges) (column : ℕ) :
    s.originAt column = some ((covering ranges (row, column)).map (·.origin)) := by
  obtain ⟨before, after, heq, hindex, hbefore, hafter⟩ :=
    exists_split (p := (· ≤ column)) (by simp; omega) h.sorted.2
  simp only [decide_eq_true_eq, not_le] at hbefore hafter
  have hcover : ∀ m ∈ ranges, m.Contains (row, column) → m ∈ before := fun m hm hc => by
    have hactive := (h.active m).mpr ⟨hm, hc.1⟩
    rw [heq, mem_append] at hactive
    refine hactive.resolve_right fun hin => ?_
    have hlt := hafter m hin
    have hle := hc.2.1
    omega
  unfold MergedCellResolver.originAt bisectRight
  rw [h.sorted.1, hindex]
  rcases before.eq_nil_or_concat with rfl | ⟨init, m, rfl⟩
  · have hnone : covering ranges (row, column) = none :=
      find?_eq_none.mpr fun m hm hc => not_mem_nil (hcover m hm (by simpa using hc))
    rw [hnone]
    rfl
  · have hget : s.activeRanges[init.length]? = some m := by simp [heq]
    have hm := (h.active m).mp (by simp [heq])
    have hle : m.minColumn ≤ column := hbefore m (by simp)
    rw [concat_eq_append, length_append, length_singleton]
    dsimp only
    rw [hget, Option.map_some]
    split
    · next hlt =>
      have hnone : covering ranges (row, column) = none := find?_eq_none.mpr fun n hn hc => by
        have hc : n.Contains (row, column) := by simpa using hc
        have hlt' : n.minColumn ≤ m.minColumn := by
          have hsorted := h.sorted.2
          rw [heq, pairwise_append, concat_eq_append, pairwise_append] at hsorted
          rcases mem_append.mp (concat_eq_append ▸ hcover n hn hc) with hin | hin
          · exact (hsorted.1.2.2 n hin m (mem_singleton_self m)).le
          · rw [mem_singleton.mp hin]
        have hcolumns := hc.2.2
        have := hd.eq_of_start hn hm.1 hc.1 hm.2 hlt' (hle.trans hcolumns)
        subst this
        omega
      rw [hnone]
      rfl
    · next hle' =>
      rw [covering_eq_some hd hm.1 ⟨hm.2, hle, by omega⟩]
      rfl

theorem swept_advanced (hd : Disjoint ranges) (row : ℕ) :
    ∃ s, advanced ranges row = some s ∧ Swept ranges row s := by
  induction row with
  | zero => exact ⟨_, rfl, swept_init⟩
  | succ row ih =>
    obtain ⟨s, hs, h⟩ := ih
    obtain ⟨s', hs', h'⟩ := h.advance hd
    refine ⟨s', ?_, h'⟩
    unfold advanced at hs ⊢
    rw [range'_concat, foldlM_append, hs, Nat.one_mul, Nat.add_comm 1 row]
    simpa using hs'

end MergedCellResolver

/-! ### Reading the cells -/

variable {origins : ℕ × ℕ → Option Text} {own : Text}

/-- The reading has come to the cell: it knows the texts of the origins before it. -/
def Known (ranges : List MergedRange) (rows : List (List (Option Text))) (row column : ℕ)
    (origins : ℕ × ℕ → Option Text) : Prop :=
  ∀ m ∈ ranges, origins m.origin =
    if m.minRow < row ∨ m.minRow = row ∧ m.minColumn < column then cellText rows m.origin
    else none

theorem Known.of_ne (h : Known ranges rows row column origins) (hm : m ∈ ranges)
    (hne : m.origin ≠ (row, column)) : origins m.origin =
      if m.minRow < row ∨ m.minRow = row ∧ m.minColumn < column + 1 then cellText rows m.origin
      else none := by
  rw [h m hm]
  refine if_congr ?_ rfl rfl
  have : ¬(m.minRow = row ∧ m.minColumn = column) := fun heq => hne (Prod.ext heq.1 heq.2)
  omega

/-- **One cell** shows what it should, and its text is known if it is an origin. -/
theorem Known.renderCell (h : Known ranges rows row column origins) (hd : Disjoint ranges)
    (hown : cellText rows (row, column) = some own) :
    ∃ origins', renderCell ((covering ranges (row, column)).map (·.origin)) (row, column) own
        origins = (shown ranges rows (row, column) own, origins') ∧
      Known ranges rows row (column + 1) origins' := by
  have hcover : ∀ {m}, m ∈ ranges → m.origin = (row, column) →
      covering ranges (row, column) = some m := fun hm heq =>
    covering_eq_some hd hm (heq ▸ MergedRange.contains_origin _)
  cases hc : covering ranges (row, column) with
  | none =>
    refine ⟨origins, by simp [Indexing.renderCell, shown, hc], fun n hn => h.of_ne hn fun heq => ?_⟩
    simp [hcover hn heq] at hc
  | some m =>
    have hm := mem_of_find?_eq_some hc
    have hin : m.Contains (row, column) := by simpa using find?_some hc
    by_cases horigin : m.origin = (row, column)
    · refine ⟨update origins (row, column) (some own), ?_, fun n hn => ?_⟩
      · simp [Indexing.renderCell, shown, hc, horigin, hown]
      · by_cases hn' : n.origin = (row, column)
        · rw [hn', update_self, ← hown]
          obtain ⟨hrow, hcolumn⟩ := Prod.ext_iff.mp hn'
          exact (if_pos (.inr ⟨hrow, hcolumn.trans_lt column.lt_succ_self⟩)).symm
        · rw [update_of_ne hn']
          exact h.of_ne hn hn'
    · have hbefore : m.minRow < row ∨ m.minRow = row ∧ m.minColumn < column := by
        have hrow := hin.1.1
        have hcolumn := hin.2.1
        have : ¬(m.minRow = row ∧ m.minColumn = column) := fun heq =>
          horigin (Prod.ext heq.1 heq.2)
        dsimp only at hrow hcolumn
        omega
      refine ⟨origins, ?_, fun n hn => h.of_ne hn fun heq => horigin ?_⟩
      · have hread := h m hm
        rw [if_pos hbefore] at hread
        simp [Indexing.renderCell, shown, hc, horigin, hread]
      · rw [← Option.some.inj ((hcover hn heq).symm.trans hc), heq]

/-- **One row**: every cell that is left shows what it should. -/
theorem Known.renderRow (h : Known ranges rows row column origins) (hd : Disjoint ranges)
    (hs : s.Swept ranges row) {values : List (Option Text)}
    (hvalues : ∀ i, cellText rows (row, column + i) = values[i]?.map (·.getD [])) :
    ∃ origins', renderRow s row column origins values =
        some (shownRow ranges rows row column values, origins') ∧
      Known ranges rows row (column + values.length) origins' := by
  induction values generalizing column origins with
  | nil => exact ⟨origins, rfl, h⟩
  | cons value values ih =>
    have hown : cellText rows (row, column) = some (value.getD []) := hvalues 0
    obtain ⟨origins₁, hcell, h₁⟩ := h.renderCell hd hown
    obtain ⟨origins₂, hrow, h₂⟩ := ih h₁ fun i => by
      rw [Nat.add_assoc, Nat.add_comm 1 i, hvalues (i + 1)]
      rfl
    refine ⟨origins₂, ?_, ?_⟩
    · simp only [Indexing.renderRow, hs.originAt hd, Option.bind_eq_bind, Option.bind_some,
        hcell, hrow]
      simp [shownRow]
    · rw [length_cons, Nat.add_comm values.length, ← Nat.add_assoc]
      exact h₂

/-- **The rows**: every cell of the rows that are left shows what it should. -/
theorem Known.renderRows (h : Known ranges rows (row + 1) 1 origins) (hd : Disjoint ranges)
    (hs : s.Swept ranges row) {rest : List (List (Option Text))}
    (hrest : ∀ i column, cellText rows (row + 1 + i, column) =
      rest[i]?.bind fun values => values[column - 1]?.map (·.getD [])) :
    renderRows s (row + 1) origins rest =
      some ((rest.zipIdx (row + 1)).map fun (values, r) => shownRow ranges rows r 1 values) := by
  induction rest generalizing row s origins with
  | nil => rfl
  | cons values rest ih =>
    obtain ⟨s₁, hadvance, hs₁⟩ := hs.advance hd
    have hrow : ∀ column, cellText rows (row + 1, column) =
        values[column - 1]?.map (·.getD []) := fun column => hrest 0 column
    obtain ⟨origins₁, hrendered, h₁⟩ := h.renderRow hd hs₁ fun i => by
      rw [hrow, Nat.add_sub_cancel_left]
    have hnext : Known ranges rows (row + 1 + 1) 1 origins₁ := fun m hm => by
      rw [h₁ m hm]
      by_cases hlast : m.minRow = row + 1 ∧ 1 + values.length ≤ m.minColumn
      · -- the row ends before the origin, and so the sheet does not have it
        have hnone : cellText rows m.origin = none := by
          rw [MergedRange.origin, hlast.1, hrow, getElem?_eq_none (by omega)]
          rfl
        rw [hnone, ite_self, ite_self]
      · have hpos := m.pos.2
        exact if_congr (by omega) rfl rfl
    simp only [Indexing.renderRows, hadvance, Option.bind_eq_bind, Option.bind_some, hrendered]
    rw [ih hnext hs₁ fun i column => by
      rw [Nat.add_assoc _ 1 i, Nat.add_comm 1 i, hrest (i + 1) column]
      rfl]
    rfl

theorem sweep_eq_lookup (hd : Disjoint ranges) :
    (∀ row, ∃ s, MergedCellResolver.advanced ranges row = some s ∧
      ∀ column, s.originAt column = some ((covering ranges (row, column)).map (·.origin))) ∧
    ∀ rows, renderedRows ranges rows = some (shownRows ranges rows) := by
  refine ⟨fun row => ?_, fun rows => ?_⟩
  · obtain ⟨s, hs, h⟩ := MergedCellResolver.swept_advanced hd row
    exact ⟨s, hs, h.originAt hd⟩
  · have hknown : Known ranges rows 1 1 fun _ => none := fun m _ => by
      have hpos := m.pos
      rw [if_neg (by omega)]
    refine hknown.renderRows hd MergedCellResolver.swept_init fun i column => ?_
    rw [cellText, Nat.zero_add, Nat.add_sub_cancel_left]

/-- Two ranges side by side, of which the one on the right ends a row earlier. -/
def sideBySide : List MergedRange :=
  [{ minColumn := 1, minRow := 1, maxColumn := 2, maxRow := 3 },
    { minColumn := 3, minRow := 2, maxColumn := 4, maxRow := 2 }]

theorem sweep_eq_lookup_sideBySide :
    (∀ row, ∃ s, MergedCellResolver.advanced sideBySide row = some s ∧
      ∀ column, s.originAt column = some ((covering sideBySide (row, column)).map (·.origin))) ∧
    ∀ rows, renderedRows sideBySide rows = some (shownRows sideBySide rows) :=
  sweep_eq_lookup (by
    simp only [Disjoint, sideBySide, pairwise_cons, mem_singleton, forall_eq, not_mem_nil,
      IsEmpty.forall_iff, implies_true, Pairwise.nil, and_true]
    rintro ⟨row, column⟩ hm hn
    exact absurd (hm.2.2.trans_lt hn.2.1) (lt_irrefl _))

theorem not_cellsRenderOrigins : ¬∀ ranges rows, Disjoint ranges → ∀ m ∈ ranges,
    ∀ cell, m.Contains cell → ∀ texts, renderedRows ranges rows = some texts →
      ∀ row ∈ texts[cell.1 - 1]?, ∀ text ∈ row[cell.2 - 1]?,
        text = (cellText rows m.origin).getD [] := fun h => by
  have hshown := h [{ minColumn := 1, minRow := 1, maxColumn := 2, maxRow := 2 }]
    [[], [none, some ['x']]] (pairwise_singleton ..) _ (mem_singleton_self _) (2, 2) (by decide)
    [[], [[], ['x']]] (by decide) _ rfl _ rfl
  exact absurd hshown (by decide)

end RagQs.Indexing
