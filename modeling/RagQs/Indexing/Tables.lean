import RagQs.Indexing.Sections
import Mathlib.Data.Rat.Defs
import Mathlib.Algebra.Order.Field.Rat
import Mathlib.Algebra.Order.Group.Unbundled.Abs

/-!
# Tables

How the rows of a table are cut into groups, and how the tables that go over several pages
are put together first.

## Main definitions

* `splitRows` — the row groups of a table: bounded, and not across two categories.
* `splitLinesPreservingRows` — an overlong group is cut between lines only.
* `mergeContinuationTables` — the tables of a document, with continuations appended.
* `plannedBlocks` — the row groups of all tables of a document.

## Main results

* `plannedBlocks_eq_nil_iff` — there is no row group just when every table lacks its header
  or its rows.
-/

namespace RagQs.Indexing

/-- The value of a row in a column, without the white space around it. -/
def cellValue (row : List Text) (column : ℕ) : Text := stripText (row.getD column [])

/-- `_category_column`: the first column in which a value occurs twice. -/
def categoryColumn (rows : List (List Text)) (width : ℕ) : Option ℕ :=
  (List.range width).find? fun column =>
    let values := (rows.map (cellValue · column)).filter (· ≠ [])
    values ≠ [] && values.dedup.length < values.length

/-- Whether the category changes between two rows. -/
def categoryChanges (width : ℕ) (category : Option ℕ) (previous current : List Text) : Bool :=
  match category with
  | none => false
  | some column =>
    width ≠ 0 && previous ≠ [] && current ≠ [] && cellValue previous column ≠ [] &&
      cellValue previous column ≠ cellValue current column

/-- The loop of `_split_rows`: `index` is the row after `previous`, and `start` the first row
of the group. -/
def splitRowsFrom (size width : ℕ) (category : Option ℕ) (start index : ℕ)
    (previous : List Text) : List (List Text) → List (ℕ × ℕ)
  | [] => [(start, index)]
  | current :: rows =>
    if size ≤ index - start || categoryChanges width category previous current then
      (start, index) :: splitRowsFrom size width category index (index + 1) current rows
    else splitRowsFrom size width category start (index + 1) current rows

/-- `_split_rows`: the first row of every group and the row after it. -/
def splitRows (rows : List (List Text)) (width : ℕ) : List (ℕ × ℕ) :=
  match rows with
  | [] => []
  | row :: rest =>
    let size := if width < 20 then 30 else 20
    splitRowsFrom size width (categoryColumn rows width) 0 1 row rest

/-- The loop of `_split_lines_preserving_rows`, with the part being filled and its length. -/
def partLines (maximum : ℕ) (current : List Text) (used : ℕ) : List Text → List (List Text)
  | [] => if current = [] then [] else [current]
  | line :: lines =>
    let step := line.length + if current = [] then 0 else 1
    if current ≠ [] && maximum < used + step then
      current :: partLines maximum [line] line.length lines
    else partLines maximum (current ++ [line]) (used + step) lines

/-- `_split_lines_preserving_rows` -/
def splitLinesPreservingRows (lines : List Text) (maximum : ℕ) : List (List Text) :=
  partLines maximum [] 0 lines

/-- `str(header).replace("|", "\\|")` -/
def escapeBars (t : Text) : Text := t.flatMap fun c => if c = '|' then ['\\', '|'] else [c]

/-- `_markdown_table` -/
def markdownTable (headers : List Text) (rows : List (List Text)) : Text :=
  let row (cells : List Text) : Text := "| ".toList ++ joinText " | " cells ++ " |".toList
  let values (r : List Text) : List Text :=
    (List.range headers.length).map fun i => escapeBars (r.getD i [])
  joinText "\n" (row (headers.map escapeBars) :: row (headers.map fun _ => "---".toList) ::
    rows.map fun r => row (values r))

/-- One line of `_key_value_rows`. -/
def keyValueRow (headers : List Text) (row : List Text) : Text :=
  joinText " | " (headers.zipIdx.map fun (header, i) => header ++ ": ".toList ++ row.getD i [])

/-- `_key_value_rows` -/
def keyValueRows (headers : List Text) (rows : List (List Text)) : Text :=
  joinText "\n" (rows.map (keyValueRow headers))

/-- A table that the layout parser found on one page. -/
structure Table where
  headers : List Text
  rows : List (List Text)
  page : ℕ := 1
  title : Text := []

/-- A table of `merge_continuation_tables`, which may go over several pages. -/
structure MergedTable where
  headers : List Text
  rows : List (List Text)
  pageStart : ℕ
  pageEnd : ℕ
  title : Text

/-- `_tables_continuation`; `similar` tells whether the similarity of two headers reaches
`CONTINUATION_HEADER_SIMILARITY`. -/
def tablesContinuation (similar : List Text → List Text → Bool) (left : MergedTable)
    (right : Table) : Bool :=
  if left.headers = [] || left.headers.length ≠ right.headers.length then false
  else if !similar left.headers right.headers then false
  else
    let leftRatio : ℚ := left.rows.length / (max left.headers.length 1 : ℕ)
    let rightRatio : ℚ := right.rows.length / (max right.headers.length 1 : ℕ)
    decide (|leftRatio - rightRatio| ≤ max (max leftRatio rightRatio) 1)

/-- `_strip_header_row` -/
def stripHeaderRow (similar : List Text → List Text → Bool) (headers : List Text)
    (rows : List (List Text)) : List (List Text) :=
  if (rows.head?).any (similar headers) then rows.tail else rows

/-- One table of `merge_continuation_tables`: it continues the one before, or is new. -/
def mergeTable (similar : List Text → List Text → Bool) (merged : List MergedTable)
    (table : Table) : List MergedTable :=
  match merged.getLast? with
  | none => [⟨table.headers, stripHeaderRow similar table.headers table.rows, table.page,
      table.page, table.title⟩]
  | some previous =>
    if tablesContinuation similar previous table then
      -- a continuation repeats the header, and so its first row is taken for the header
      let incoming := if table.rows ≠ [] && similar table.headers previous.headers then
        table.rows.tail else table.rows
      merged.dropLast ++
        [{ previous with rows := previous.rows ++ incoming, pageEnd := table.page }]
    else merged ++ [⟨table.headers, stripHeaderRow similar table.headers table.rows, table.page,
      table.page, table.title⟩]

/-- `merge_continuation_tables`: the tables of a document. -/
def mergeContinuationTables (similar : List Text → List Text → Bool) (tables : List Table) :
    List MergedTable :=
  tables.foldl (mergeTable similar) []

/-- `planned`: the row groups of the tables that have a header. -/
def plannedBlocks (tables : List MergedTable) : List (MergedTable × ℕ × ℕ) :=
  tables.flatMap fun table =>
    if table.headers = [] then []
    else (splitRows table.rows table.headers.length).map fun group => (table, group)

/-- `_flatten_multilevel_header`: the names of one column, from the top header row down. -/
def headerParts (headerRows : List (List Text)) (column : ℕ) : List Text :=
  (headerRows.map (cellValue · column)).foldl
    (fun parts value => if value ≠ [] && value ∉ parts then parts ++ [value] else parts) []

/-- The loop of `_flatten_multilevel_header`, with how often each name was given. -/
def flattenColumns (headerRows : List (List Text)) (seen : List (Text × ℕ)) :
    List ℕ → List Text
  | [] => []
  | column :: columns =>
    let joined := joinText "_" (headerParts headerRows column)
    let name := if joined = [] then ("column_" ++ toString (column + 1)).toList else joined
    match seen.lookup name with
    | some n =>
      let name' := name ++ ("_" ++ toString (n + 1)).toList
      name' :: flattenColumns headerRows ((name, n + 1) :: seen) columns
    | none => name :: flattenColumns headerRows ((name, 1) :: seen) columns

/-- `_flatten_multilevel_header` -/
def flattenMultilevelHeader (headerRows : List (List Text)) : List Text :=
  match headerRows with
  | [] => []
  | [row] => row.map stripText
  | rows => flattenColumns rows [] (List.range ((rows.map List.length).foldl max 0))

/-! ### Row groups -/

theorem splitRowsFrom_ne_nil {size width start index : ℕ} {category : Option ℕ}
    {previous : List Text} {rows : List (List Text)} :
    splitRowsFrom size width category start index previous rows ≠ [] := by
  induction rows generalizing start index previous with
  | nil => simp [splitRowsFrom]
  | cons row rows ih =>
    unfold splitRowsFrom
    split
    · simp
    · exact ih

theorem splitRows_eq_nil_iff {rows : List (List Text)} {width : ℕ} :
    splitRows rows width = [] ↔ rows = [] := by
  cases rows with
  | nil => simp [splitRows]
  | cons row rows => simp [splitRows, splitRowsFrom_ne_nil]

theorem plannedBlocks_eq_nil_iff {tables : List MergedTable} :
    plannedBlocks tables = [] ↔ ∀ t ∈ tables, t.headers = [] ∨ t.rows = [] := by
  unfold plannedBlocks
  rw [List.flatMap_eq_nil_iff]
  refine forall₂_congr fun t _ => ?_
  by_cases hheaders : t.headers = []
  · simp [hheaders]
  · simp [hheaders, splitRows_eq_nil_iff]

end RagQs.Indexing
