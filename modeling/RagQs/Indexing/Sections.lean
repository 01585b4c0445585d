import RagQs.Platform.Value
import Mathlib.Data.List.DropRight

/-!
# Sections and blocks of a text

How a text is cut before it is indexed: into sections at its headings, a section into
paragraphs, paragraphs into blocks of bounded size, and the blocks of a text without
structure into larger parent blocks.

## Main definitions

* `Text`, `splitLines`, `splitParagraphs` — texts and the two ways of splitting one.
* `Unicode` — the character tables of the interpreter, a parameter of everything here.
* `heading`, `numberedHeadingNumber`, `numberContinuesOutline`, `sections` — the sections.
* `packSectionParagraphs` — the blocks of a section.
* `packChildParent` — the parents of the blocks.

## Main results

* `exists_paragraph` — splitting into paragraphs loses white space only.
* `sections_inked` — a section is never blank.
* `packSectionParagraphs_ne_nil` — a section with a paragraph has a block.
* `packChildParent_covers` — the parents share the blocks out, in order.
-/

namespace RagQs.Indexing

open List

/-- A text, as the list of its characters. -/
abbrev Text := List Char

/-- What the character tables of the interpreter say: `islower`, `isupper` and `isalpha` of
a character, `isupper`, `title` and `casefold` of a text, and the value of a digit. -/
structure Unicode where
  isLower : Char → Bool
  isUpper : Char → Bool
  isAlpha : Char → Bool
  isUpperText : Text → Bool
  title : Text → Text
  casefold : Text → Text
  digit : Char → Option ℕ

/-- `str.strip` -/
def stripText (t : Text) : Text := (t.dropWhile isSpace).rdropWhile isSpace

/-- A text with a character that is not white space. -/
def Inked (t : Text) : Prop := ∃ c ∈ t, isSpace c = false

/-- `sep.join(parts)` -/
def joinText (sep : String) (parts : List Text) : Text := sep.toList.intercalate parts

/-- The characters `str.splitlines` splits at. -/
def isLineBreak (c : Char) : Bool :=
  let n := c.toNat
  (0x0A ≤ n && n ≤ 0x0D) || (0x1C ≤ n && n ≤ 0x1E) || n == 0x85 || n == 0x2028 || n == 0x2029

/-- `str.splitlines`, with the characters of the line that is being read. -/
def splitLinesFrom (line : Text) : Text → List Text
  | [] => if line = [] then [] else [line.reverse]
  | '\r' :: '\n' :: cs => line.reverse :: splitLinesFrom [] cs
  | c :: cs => if isLineBreak c then line.reverse :: splitLinesFrom [] cs
      else splitLinesFrom (c :: line) cs

/-- `str.splitlines` -/
def splitLines (t : Text) : List Text := splitLinesFrom [] t

/-- How many characters `\s*\n` takes, up to the last line end of the white space. -/
def breakLength : Text → Option ℕ
  | [] => none
  | c :: cs =>
    if isSpace c then
      match breakLength cs with
      | some k => some (k + 1)
      | none => if c = '\n' then some 1 else none
    else none

/-- `re.split(r"\n\s*\n", text)`, with the characters of the paragraph that is being read
and the number of characters of a separator still to be left out. -/
def splitParagraphsFrom (paragraph : Text) : ℕ → Text → List Text
  | _, [] => [paragraph.reverse]
  | k + 1, _ :: cs => splitParagraphsFrom paragraph k cs
  | 0, c :: cs =>
    if c = '\n' then
      match breakLength cs with
      | some k => paragraph.reverse :: splitParagraphsFrom [] k cs
      | none => splitParagraphsFrom (c :: paragraph) 0 cs
    else splitParagraphsFrom (c :: paragraph) 0 cs

/-- `[p for p in re.split(r"\n\s*\n", section) if p.strip()]` -/
def sectionParagraphs (t : Text) : List Text :=
  (splitParagraphsFrom [] 0 t).filter (stripText · ≠ [])

/-! ### Headings -/

/-- `re.match(r"^#{1,6}\s+[^\s].*$", stripped)`, on one line. -/
def hashHeading (stripped : Text) : Bool :=
  let rest := stripped.dropWhile (· = '#')
  let level := stripped.length - rest.length
  1 ≤ level && level ≤ 6 && rest.head?.any isSpace && rest.dropWhile isSpace ≠ []

/-- `_heading` -/
def heading (u : Unicode) (line : Text) : Bool :=
  let stripped := stripText line
  if stripped.head? = some '|' then false
  else
    hashHeading stripped ||
      (stripped ≠ [] && stripped.length ≤ 96 &&
        stripped.any (fun c => u.isLower c || u.isUpper c) && stripped == u.title stripped) ||
      (stripped ≠ [] && stripped.length ≤ 96 && u.isUpperText stripped &&
        stripped.all fun c => !u.isAlpha c || u.isLower c || u.isUpper c)

/-- `[…].split(".")` -/
def splitDots : Text → List Text
  | [] => [[]]
  | c :: cs =>
    if c = '.' then [] :: splitDots cs
    else match splitDots cs with
      | [] => [[c]]
      | part :: parts => (c :: part) :: parts

/-- `int(part)` of a part that `\d+` matches. -/
def digits (u : Unicode) (part : Text) : Option ℕ :=
  if part = [] then none
  else part.foldl (fun n c => n.bind fun n => (u.digit c).map (10 * n + ·)) (some 0)

/-- The numbers of `\d+\.(?:\d+(?:\.\d+)*)?\.?`, when it matches the whole prefix. -/
def prefixNumber (u : Unicode) (numbering : Text) : Option (List ℕ) :=
  match splitDots numbering with
  | first :: second :: rest => do
    let first ← digits u first
    let parts := if (second :: rest).getLast? = some [] then (second :: rest).dropLast
      else second :: rest
    -- the last point may be doubled where no other number follows the first one
    if parts = [[]] then return [first]
    let parts ← parts.mapM (digits u)
    return first :: parts
  | _ => none

/-- The numbering prefix of a line: its digits and points. -/
def numbering (u : Unicode) (stripped : Text) : Text :=
  stripped.takeWhile fun c => c = '.' || (u.digit c).isSome

/-- `_numbered_heading_number` -/
def numberedHeadingNumber (u : Unicode) (stripped : Text) : Option (List ℕ) :=
  let rest := stripped.drop (numbering u stripped).length
  if rest.head?.any isSpace && rest.dropWhile isSpace ≠ [] then
    prefixNumber u (numbering u stripped)
  else none

/-- `_number_continues_outline` -/
def numberContinuesOutline (outline number : List ℕ) : Bool :=
  if number.length = outline.length + 1 then
    number.take outline.length == outline && number.getLast? == some 1
  else if number.length ≤ outline.length then
    number.dropLast == outline.take (number.length - 1) &&
      number.getLast? == (outline[number.length - 1]?).map (· + 1)
  else false

/-- `_isolated_paragraph_line` -/
def isolatedParagraphLine (previous next : Option Text) : Bool :=
  previous.all (stripText · = []) && next.all (stripText · = [])

/-! ### Sections -/

/-- The variables of `_sections`. -/
structure SectionState where
  sections : List (Text × Text) := []
  path : List Text := []
  body : List Text := []
  sawHeading : Bool := false
  placeholderNumber : ℕ := 0
  outline : List ℕ := []
  inTable : Bool := false

namespace SectionState

/-- `flush`: the lines read so far become a section, unless they are blank. -/
def flush (s : SectionState) : SectionState :=
  let value := stripText (joinText "\n" s.body)
  let sectionPath := joinText " / " s.path
  if value = [] then s
  else if sectionPath = [] && s.sawHeading then
    { s with
      placeholderNumber := s.placeholderNumber + 1
      sections := s.sections ++
        [(("Unsectioned " ++ toString (s.placeholderNumber + 1)).toList, value)]
      body := [] }
  else { s with sections := s.sections ++ [(sectionPath, value)], body := [] }

/-- An empty line ends the paragraph, when there is one that is not ended. -/
def endParagraph (s : SectionState) : SectionState :=
  if s.body ≠ [] && s.body.getLast? ≠ some [] then { s with body := s.body ++ [[]] } else s

/-- A line of text: a table is one paragraph, every other line is one of its own. -/
def textLine (s : SectionState) (line : Text) : SectionState :=
  let isTableLine := (stripText line).head? = some '|'
  let s := if isTableLine != s.inTable then s.endParagraph else s
  let s := { s with inTable := isTableLine }
  let s := if isTableLine then s else s.endParagraph
  { s with body := s.body ++ [line.rdropWhile isSpace] }

/-- A heading opens a section under the headings above it. -/
def openSection (s : SectionState) (level : ℕ) (title : Text) : SectionState :=
  let s := s.flush
  { s with
    inTable := false
    path := s.path.take (level - 1) ++ [title]
    sawHeading := true }

/-- One line of `_sections`, with the lines around it. -/
def line (u : Unicode) (s : SectionState) (previous next : Option Text) (line : Text) :
    SectionState :=
  let stripped := stripText line
  match numberedHeadingNumber u stripped with
  | some number =>
    if isolatedParagraphLine previous next && numberContinuesOutline s.outline number then
      let title := stripText (stripped.drop (numbering u stripped).length)
      { s with outline := number }.openSection number.length title
    else s.textLine line
  | none =>
    if heading u line then
      if (line.dropWhile isSpace).head? = some '#' then
        let title := stripText (stripped.dropWhile (· = '#'))
        s.openSection (line.length - (line.dropWhile (· = '#')).length) title
      else s.openSection 1 stripped
    else if stripped ≠ [] then s.textLine line
    else { s with inTable := false }

/-- The lines of `_sections`, the first of them after `previous`. -/
def lines (u : Unicode) (s : SectionState) (previous : Option Text) : List Text → SectionState
  | [] => s
  | line :: rest => (s.line u previous rest.head? line).lines u (some line) rest

end SectionState

/-- `_sections`: the path and the body of every section. -/
def sections (u : Unicode) (t : Text) : List (Text × Text) :=
  (SectionState.lines u {} none (splitLines t)).flush.sections

/-! ### Blocks -/

/-- `_is_table_block` -/
def isTableBlock (block : Text) : Bool :=
  let lines := splitLines block
  2 ≤ lines.length && lines.all fun line => (line.dropWhile isSpace).head? = some '|'

/-- `re.split(r"\|", …)`: the texts between the bars. -/
def splitBars : Text → List Text
  | [] => [[]]
  | c :: cs =>
    if c = '|' then [] :: splitBars cs
    else match splitBars cs with
      | [] => [[c]]
      | part :: parts => (c :: part) :: parts

/-- `\s*:?-+:?\s*`, on a whole cell. -/
def isSeparatorCell (cell : Text) : Bool :=
  let cell := stripText cell
  let cell := if cell.head? = some ':' then cell.tail else cell
  let cell := if cell.getLast? = some ':' then cell.dropLast else cell
  cell ≠ [] && cell.all (· = '-')

/-- `_TABLE_SEPARATOR_ROW.match(line)` -/
def isTableSeparatorRow (line : Text) : Bool :=
  match splitBars (stripText line) with
  | [] :: cells => 2 ≤ cells.length && cells.getLast? = some [] && cells.dropLast.all isSeparatorCell
  | _ => false

/-- The rows of `_split_table_rows`, with the group that is being filled. -/
def groupTableRows (header : List Text) (maximum : ℕ) : List Text → List Text → List (List Text)
  | current, [] => if current = [] then [] else [current]
  | current, row :: rows =>
    if current ≠ [] && maximum < (joinText "\n" (header ++ current ++ [row])).length then
      current :: groupTableRows header maximum [row] rows
    else groupTableRows header maximum (current ++ [row]) rows

/-- `_split_table_rows` -/
def splitTableRows (table : Text) (maximum : ℕ) : List Text :=
  let lines := splitLines table
  let headerSize := if (lines[1]?).any isTableSeparatorRow then 2 else 1
  let header := lines.take headerSize
  let groups := groupTableRows header maximum [] (lines.drop headerSize)
  if groups = [] then [table] else groups.map fun group => joinText "\n" (header ++ group)

/-- The parts of an overlong paragraph: `extra` of them one character longer than `base`. -/
def evenPieces (base : ℕ) : (extra pieces : ℕ) → Text → List Text
  | _, 0, _ => []
  | extra, pieces + 1, paragraph =>
    let size := base + if 0 < extra then 1 else 0
    paragraph.take size :: evenPieces base (extra - 1) pieces (paragraph.drop size)

/-- The variables of `_pack_section_paragraphs`. -/
structure Packing where
  packed : List (Text × ℕ) := []
  buffer : List Text := []
  firstNumber : ℕ := 0

/-- `flush`: the paragraphs in the buffer become one block. -/
def Packing.flush (s : Packing) : Packing :=
  if s.buffer = [] then s
  else { s with packed := s.packed ++ [(joinText "\n\n" s.buffer, s.firstNumber)], buffer := [] }

/-- One paragraph of `_pack_section_paragraphs`. -/
def Packing.paragraph (target maximum : ℕ) (s : Packing) (number : ℕ) (paragraph : Text) :
    Packing :=
  if isTableBlock paragraph then
    let s := s.flush
    let parts := if maximum < paragraph.length then splitTableRows paragraph maximum
      else [paragraph]
    { s with packed := s.packed ++ parts.map (·, number) }
  else if maximum < paragraph.length then
    let s := s.flush
    -- the number of parts is the quotient of the lengths, rounded up
    let pieces := (paragraph.length + maximum - 1) / maximum
    let parts := evenPieces (paragraph.length / pieces) (paragraph.length % pieces) pieces paragraph
    { s with packed := s.packed ++ parts.map (·, number) }
  else
    let overflow := s.buffer ≠ [] &&
      min target maximum < (joinText "\n\n" (s.buffer ++ [paragraph])).length
    let s := if overflow then s.flush else s
    { s with
      buffer := s.buffer ++ [paragraph]
      firstNumber := if s.buffer = [] then number else s.firstNumber }

/-- The paragraphs of `_pack_section_paragraphs`, the first of them with the given number. -/
def Packing.paragraphs (target maximum : ℕ) (s : Packing) (number : ℕ) : List Text → Packing
  | [] => s
  | p :: ps => (s.paragraph target maximum number p).paragraphs target maximum (number + 1) ps

/-- `_pack_section_paragraphs`: the blocks, each with the number of its first paragraph. -/
def packSectionParagraphs (paragraphs : List Text) (target maximum : ℕ) : List (Text × ℕ) :=
  (Packing.paragraphs target maximum {} 1 paragraphs).flush.packed

/-- The variables of `_pack_child_parent`. -/
structure Parenting where
  parents : List (Text × ℕ × ℕ) := []
  buffer : List Text := []
  first : ℕ := 0

/-- `flush`: the children in the buffer become one parent. -/
def Parenting.flush (s : Parenting) (last : ℕ) : Parenting :=
  if s.buffer = [] then s
  else { s with parents := s.parents ++ [(joinText "\n\n" s.buffer, s.first, last)], buffer := [] }

/-- One child of `_pack_child_parent`: a table is a parent of its own. -/
def Parenting.child (target : ℕ) (s : Parenting) (index : ℕ) (body : Text) : Parenting :=
  if isTableBlock body then
    let s := s.flush (index - 1)
    { s with parents := s.parents ++ [(body, index, index)] }
  else
    let overflow := s.buffer ≠ [] && target < (joinText "\n\n" (s.buffer ++ [body])).length
    let s := if overflow then s.flush (index - 1) else s
    { s with
      first := if s.buffer = [] then index else s.first
      buffer := s.buffer ++ [body] }

/-- The children of `_pack_child_parent`, the first of them with the given index. -/
def Parenting.children (target : ℕ) (s : Parenting) (index : ℕ) : List (Text × ℕ) → Parenting
  | [] => s
  | c :: cs => (s.child target index c.1).children target (index + 1) cs

/-- `_pack_child_parent`: the parents, each with the indices of its first and last child. -/
def packChildParent (children : List (Text × ℕ)) (target : ℕ) : List (Text × ℕ × ℕ) :=
  ((Parenting.children target {} 1 children).flush children.length).parents

variable {t : Text}

theorem mem_dropWhile {p : Char → Bool} {c : Char} (hc : c ∈ t) (hp : p c = false) :
    c ∈ t.dropWhile p := by
  induction t with
  | nil => cases hc
  | cons d t ih =>
    rw [dropWhile_cons]
    split
    · rename_i hd
      cases hc with
      | head => simp [hp] at hd
      | tail _ hc => exact ih hc
    · exact hc

theorem mem_stripText {c : Char} (hc : c ∈ t) (hp : isSpace c = false) : c ∈ stripText t := by
  have hfront : c ∈ t.dropWhile isSpace := mem_dropWhile hc hp
  have hback : c ∈ (t.dropWhile isSpace).reverse.dropWhile isSpace :=
    mem_dropWhile (mem_reverse.mpr hfront) hp
  exact mem_reverse.mpr hback

theorem stripText_ne_nil_iff : stripText t ≠ [] ↔ Inked t := by
  constructor
  · intro h
    by_contra hblank
    have hspace : ∀ c ∈ t, isSpace c = true := by
      intro c hc
      by_contra hp
      exact hblank ⟨c, hc, by simpa using hp⟩
    apply h
    have hfront : t.dropWhile isSpace = [] := dropWhile_eq_nil_iff.mpr hspace
    rw [stripText, hfront, rdropWhile_nil]
  · rintro ⟨c, hc, hp⟩
    exact ne_nil_of_mem (mem_stripText hc hp)

theorem Inked.strip (h : Inked t) : Inked (stripText t) := by
  obtain ⟨c, hc, hp⟩ := h
  exact ⟨c, mem_stripText hc hp, hp⟩

theorem isSpace_of_breakLength {k : ℕ} (h : breakLength t = some k) :
    ∀ c ∈ t.take k, isSpace c = true := by
  induction t generalizing k with
  | nil => cases h
  | cons d t ih =>
    unfold breakLength at h
    split at h
    · rename_i hd
      split at h
      · rename_i j hj
        obtain rfl : j + 1 = k := by simpa using h
        simp only [take_succ_cons, forall_mem_cons]
        exact ⟨hd, ih hj⟩
      · split at h
        · obtain rfl : 1 = k := by simpa using h
          simpa using hd
        · cases h
    · cases h

/-- Splitting into paragraphs loses white space only: every other character of the text, or
of the paragraph being read, is in a paragraph. -/
theorem exists_paragraph {c : Char} (hp : isSpace c = false) {paragraph : Text} {k : ℕ}
    (hc : c ∈ paragraph ∨ c ∈ t.drop k) : ∃ p ∈ splitParagraphsFrom paragraph k t, c ∈ p := by
  induction t generalizing paragraph k with
  | nil =>
    have hmem : c ∈ paragraph := by simpa using hc
    exact ⟨paragraph.reverse, by cases k <;> simp [splitParagraphsFrom], by simpa using hmem⟩
  | cons d t ih =>
    cases k with
    | succ k =>
      have hmem : c ∈ paragraph ∨ c ∈ t.drop k := by simpa using hc
      simpa [splitParagraphsFrom] using ih hmem
    | zero =>
      have hmem : c ∈ paragraph ∨ c = d ∨ c ∈ t := by simpa using hc
      have hread : c ∈ d :: paragraph ∨ c ∈ t.drop 0 := by
        simpa [or_assoc, or_left_comm] using hmem
      unfold splitParagraphsFrom
      split
      · rename_i hd
        split
        · rename_i k hk
          -- a separator begins here: it holds neither `d` nor what it skips
          have hne : c ≠ d := by
            rintro rfl
            rw [hd] at hp
            exact absurd hp (by decide)
          rcases hmem with hmem | rfl | hmem
          · exact ⟨_, mem_cons_self, by simpa using hmem⟩
          · exact absurd rfl hne
          · have hskip : c ∉ t.take k := by
              intro hin
              rw [isSpace_of_breakLength hk c hin] at hp
              cases hp
            have hrest : c ∈ t.drop k := by
              rw [← take_append_drop k t] at hmem
              exact (mem_append.mp hmem).resolve_left hskip
            have hmem : c ∈ [] ∨ c ∈ t.drop k := Or.inr hrest
            obtain ⟨p, hmemp, hcp⟩ := ih hmem
            exact ⟨p, mem_cons_of_mem _ hmemp, hcp⟩
        · exact ih hread
      · exact ih hread

theorem sectionParagraphs_ne_nil (h : Inked t) : sectionParagraphs t ≠ [] := by
  obtain ⟨c, hc, hp⟩ := h
  have hc : c ∈ [] ∨ c ∈ t.drop 0 := Or.inr hc
  obtain ⟨p, hmem, hcp⟩ := exists_paragraph hp hc
  have hinked : stripText p ≠ [] := stripText_ne_nil_iff.mpr ⟨c, hcp, hp⟩
  exact ne_nil_of_mem (mem_filter.mpr ⟨hmem, by simpa using hinked⟩)

/-! ### No section is blank -/

/-- The bodies of the sections so far are not blank. -/
def SectionState.Inked (s : SectionState) : Prop := ∀ x ∈ s.sections, Indexing.Inked x.2

namespace SectionState

variable {u : Unicode} {s : SectionState}

theorem Inked.flush (h : s.Inked) : s.flush.Inked := by
  unfold SectionState.flush
  simp only
  split
  · exact h
  · rename_i hvalue
    have hbody : Indexing.Inked (stripText (joinText "\n" s.body)) :=
      (stripText_ne_nil_iff.mp hvalue).strip
    split <;>
    · intro x hx
      rcases mem_append.mp hx with hx | hx
      · exact h x hx
      · obtain rfl := mem_singleton.mp hx
        exact hbody

@[simp] theorem sections_endParagraph : s.endParagraph.sections = s.sections := by
  unfold endParagraph
  split <;> rfl

@[simp] theorem sections_textLine {l : Text} : (s.textLine l).sections = s.sections := by
  unfold textLine
  simp only
  split <;> split <;> simp

theorem Inked.openSection {level : ℕ} {title : Text} (h : s.Inked) :
    (s.openSection level title).Inked := h.flush

theorem Inked.line {previous next : Option Text} {l : Text} (h : s.Inked) :
    (s.line u previous next l).Inked := by
  have htext : (s.textLine l).Inked := by
    unfold SectionState.Inked
    rw [sections_textLine]
    exact h
  unfold SectionState.line
  simp only
  split
  · split
    · rename_i number _ _
      have hs : ({ s with outline := number } : SectionState).Inked := h
      exact hs.openSection
    · exact htext
  · split
    · split
      · exact h.openSection
      · exact h.openSection
    · split
      · exact htext
      · exact h

theorem Inked.lines {previous : Option Text} {ls : List Text} (h : s.Inked) :
    (s.lines u previous ls).Inked := by
  induction ls generalizing s previous with
  | nil => exact h
  | cons l ls ih => exact ih h.line

end SectionState

/-- A section is never blank. -/
theorem sections_inked {u : Unicode} {x : Text × Text} (hx : x ∈ sections u t) : Inked x.2 := by
  have hinit : ({} : SectionState).Inked := by
    intro x hx
    cases hx
  exact hinit.lines.flush x hx

/-! ### Every paragraph has a block -/

theorem splitTableRows_ne_nil {table : Text} {maximum : ℕ} :
    splitTableRows table maximum ≠ [] := by
  unfold splitTableRows
  simp only
  generalize groupTableRows _ maximum [] _ = groups
  by_cases hgroups : groups = []
  · rw [if_pos hgroups]
    simp
  · rw [if_neg hgroups]
    simpa using hgroups

theorem evenPieces_ne_nil {base extra pieces : ℕ} {paragraph : Text} (h : 0 < pieces) :
    evenPieces base extra pieces paragraph ≠ [] := by
  cases pieces with
  | zero => omega
  | succ n => simp [evenPieces]

/-- Something is packed, or waits in the buffer. -/
def Packing.Filled (s : Packing) : Prop := s.packed ≠ [] ∨ s.buffer ≠ []

namespace Packing

variable {s : Packing} {target maximum number : ℕ} {p : Text}

theorem Filled.flush (h : s.Filled) : s.flush.packed ≠ [] := by
  unfold Packing.flush
  split
  · rename_i hbuffer
    exact h.resolve_right (not_not_intro hbuffer)
  · simp

theorem filled_paragraph (hmax : 0 < maximum) :
    (s.paragraph target maximum number p).Filled := by
  unfold paragraph
  simp only
  split
  · left
    split
    · simp [splitTableRows_ne_nil]
    · simp
  · split
    · rename_i hlong
      left
      have hpieces : 0 < (p.length + maximum - 1) / maximum :=
        Nat.div_pos (by omega) hmax
      simp [evenPieces_ne_nil hpieces]
    · right
      simp

theorem filled_paragraphs (hmax : 0 < maximum) {ps : List Text} (h : s.Filled ∨ ps ≠ []) :
    (s.paragraphs target maximum number ps).Filled := by
  induction ps generalizing s number with
  | nil => exact h.resolve_right (not_not_intro rfl)
  | cons p ps ih => exact ih (Or.inl (filled_paragraph hmax))

end Packing

/-- A section with a paragraph has a block. -/
theorem packSectionParagraphs_ne_nil {paragraphs : List Text} {target maximum : ℕ}
    (hmax : 0 < maximum) (h : paragraphs ≠ []) :
    packSectionParagraphs paragraphs target maximum ≠ [] :=
  (Packing.filled_paragraphs hmax (Or.inr h)).flush

/-! ### The parents share the blocks out -/

/-- The children of a parent: `packed[first - 1 : last]`. -/
def childrenOf {α : Type} (children : List α) (first last : ℕ) : List α :=
  (children.take last).drop (first - 1)

/-- After `n` children the parents share out all of them but those in the buffer, of which
`first` is the first. -/
structure Parenting.Covers {α : Type} (children : List α) (s : Parenting) (n : ℕ) : Prop where
  room : s.buffer.length ≤ n
  shared : s.parents.flatMap (fun x => childrenOf children x.2.1 x.2.2) =
    children.take (n - s.buffer.length)
  first : s.buffer ≠ [] → s.first = n - s.buffer.length + 1

namespace Parenting

variable {α : Type} {children : List α} {s : Parenting} {n target : ℕ} {body : Text}

@[simp] theorem buffer_flush : (s.flush n).buffer = [] := by
  unfold Parenting.flush
  split
  · assumption
  · rfl

theorem Covers.flush (h : s.Covers children n) : (s.flush n).Covers children n := by
  refine ⟨by simp, ?_, by simp⟩
  have hshared := h.shared
  unfold Parenting.flush
  split
  · rename_i hbuffer
    simpa [hbuffer] using hshared
  · rename_i hbuffer
    have hfirst := h.first hbuffer
    have hroom := h.room
    have hlast : childrenOf children s.first n = (children.take n).drop (n - s.buffer.length) := by
      rw [childrenOf, hfirst, Nat.add_sub_cancel]
    have hfront : children.take (n - s.buffer.length) =
        (children.take n).take (n - s.buffer.length) := by
      rw [take_take, Nat.min_eq_left (Nat.sub_le _ _)]
    simp only [flatMap_append, flatMap_singleton, length_nil, Nat.sub_zero]
    rw [hshared, hlast, hfront, take_append_drop]

theorem Covers.child (h : s.Covers children n) :
    (s.child target (n + 1) body).Covers children (n + 1) := by
  have hflush := h.flush
  unfold Parenting.child
  simp only [Nat.add_sub_cancel]
  split
  · -- a table closes the parent before it and is one by itself
    refine ⟨by simp, ?_, by simp⟩
    have hshared : (s.flush n).parents.flatMap (fun x => childrenOf children x.2.1 x.2.2) =
        children.take n := by simpa using hflush.shared
    have hself : childrenOf children (n + 1) (n + 1) = (children.take (n + 1)).drop n := rfl
    have hfront : children.take n = (children.take (n + 1)).take n := by
      rw [take_take, Nat.min_eq_left (Nat.le_succ n)]
    simp only [flatMap_append, flatMap_singleton, buffer_flush, length_nil,
      Nat.sub_zero]
    rw [hshared, hself, hfront, take_append_drop]
  · -- any other child joins the buffer, which may have been closed before
    have hjoin : ∀ t : Parenting, t.Covers children n →
        ({ t with
            first := if t.buffer = [] then n + 1 else t.first
            buffer := t.buffer ++ [body] } : Parenting).Covers children (n + 1) := by
      intro t ht
      have hroom := ht.room
      refine ⟨by simpa using hroom, ?_, ?_⟩
      · simpa using ht.shared
      · intro _
        by_cases hbuffer : t.buffer = []
        · simp [hbuffer]
        · simpa [hbuffer] using ht.first hbuffer
    split
    · exact hjoin _ hflush
    · exact hjoin _ h

theorem Covers.run {cs : List (Text × ℕ)} (h : s.Covers children n) :
    (s.children target (n + 1) cs).Covers children (n + cs.length) := by
  induction cs generalizing s n with
  | nil => exact h
  | cons c cs ih =>
    have hstep : (s.child target (n + 1) c.1).Covers children (n + 1) := h.child
    have := ih hstep
    rwa [length_cons, Nat.add_comm cs.length 1, ← Nat.add_assoc]

end Parenting

/-- **The parents share the blocks out**: read one after the other, the children of the
parents are the blocks. -/
theorem packChildParent_covers {children : List (Text × ℕ)} {target : ℕ} :
    (packChildParent children target).flatMap
      (fun x => childrenOf children x.2.1 x.2.2) = children := by
  have hinit : ({} : Parenting).Covers children 0 :=
    ⟨by simp, by simp, by simp⟩
  have hrun : (Parenting.children target {} (0 + 1) children).Covers children
      (0 + children.length) := hinit.run
  have hend := hrun.flush.shared
  simpa [packChildParent] using hend

end RagQs.Indexing
