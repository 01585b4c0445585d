import RagQs.Indexing.Chunk
import RagQs.Indexing.Tables
import RagQs.Platform.Json

/-!
# Content processing

`ContentProcessor` turns the content of a document version into index chunks and the receipt
of the processing: the media kind chooses the chunker, a laid out document may have tables
besides its text, and the receipt names a stage resource for every chunk.

## Main definitions

* `Ports`, `ContentProcessor` — what the processor calls, and its sizes.
* `textChunks`, `csvChunks`, `markdownTableChunks`, `xlsxChunks`, `tableChunks`, `codeChunks`,
  `structuredChunks`, `imageChunks` — the chunkers.
* `layoutChunks` — the chunks of a document that the layout parser reads.
* `process` — the chunks and the receipt.
* `recordPublishedChunks` — what publication stores of them.
-/

namespace RagQs.Indexing

/-- A staging request: what the processor reads of it and the receipt repeats. -/
structure StagingRequest where
  jobId : String
  attemptId : String
  fencingToken : ℕ
  publicationId : String
  documentId : String
  documentVersionId : String
  spaceId : String
  expectedGenerationId : String
  inputManifestHash : String
  processingProfileVersion : String

/-- A statement of a Python module: its lines, and its name when it is a function or class. -/
structure PythonNode where
  symbol : Option Text
  lineno : ℕ
  decoratorLines : List ℕ := []
  endLineno : ℕ

/-- A worksheet: the rows that are not blank, with the cells of a merged range filled in, and
the first and the last row of every merged range. -/
structure Sheet where
  title : Text
  mergedRows : List (ℕ × ℕ)
  collected : List (ℕ × List Text)

/-- What the layout parser returns; an entry of `tables` that is no mapping is `none`. -/
structure Parsed where
  text : Text
  structureClass : String := "tree"
  hasTextLayer : Option Bool := none
  tables : List (Option Table) := []

/-- `ImageDescriptionResult` -/
structure ImageDescription where
  text : Text
  degraded : Bool
  reason : String

/-- The context of an image; `dimensions` are the ones read from its bytes. -/
structure ImageContext where
  decorative : Bool := false
  caption : Text := []
  ocrText : Text := []
  pageArea : Option ℕ := none
  dimensions : Option (ℕ × ℕ) := none

/-- What the contextual retrieval service returns: a context for some chunk identities. -/
structure Enhancement where
  contexts : String → Option Text
  degradations : List String := []

/-- What the processor calls: the parsers of the formats, the services, and texts of values. -/
structure Ports where
  unicode : Unicode
  similar : List Text → List Text → Bool
  csvReader : Text → Except Err (List (List Text))
  loadWorkbook : ByteArray → Except Err (List Sheet)
  loads : (kind : String) → Text → Except Err Json
  str : Json → Text
  dumps : Json → Text
  parsePython : Text → Option (List PythonNode)
  findSymbols : Text → List (ℕ × Text)
  tokenCount : Text → ℕ
  /-- `compress`, with what it is told about the text. -/
  compress : (context : List (String × Text)) → Text → Text
  /-- The outcome of each attempt at parsing a document. -/
  mineru : Option (ByteArray → ℕ → Except Err Parsed) := none
  imageDescriber : Option (ByteArray → ImageContext → Except Err ImageDescription) := none
  imageOcr : Option (ByteArray → ImageContext → Text) := none
  contextual : Option (List IndexChunk → Except Err Enhancement) := none

/-- `ContentProcessor`, with its sizes as the settings bound them. -/
structure ContentProcessor extends Ports where
  textChunkMaxChars : ℕ := 8000
  textChunkTargetChars : ℕ := 640
  textTreeChunkTargetChars : ℕ := 2000
  textChildChunkMaxChars : ℕ := 1600
  textParentChunkTargetChars : ℕ := 2560
  maxChars_pos : 0 < textChunkMaxChars := by decide
  childMaxChars_pos : 0 < textChildChunkMaxChars := by decide

/-- The part of `processing_summary` that code reads. -/
structure Summary where
  chunkCount : ℕ
  tableCount : ℕ := 0
  treeIndexed : Bool := false
  contextualInputReady : Bool := true

/-- What a chunker returns; a degradation is given by its code. -/
structure Chunked where
  chunks : List IndexChunk
  summary : Summary
  degradations : List String := []

/-- A chunk of the request before its identity is known. -/
def draft (request : StagingRequest) (manifestHash : String) (text embedding : Text)
    (sparse : Option Text) (snippet : Option Text) (mediaKind : String) (metadata : Metadata)
    (id : String) : IndexChunk :=
  { chunkId := id
    generationId := request.expectedGenerationId
    publicationId := request.publicationId
    documentId := request.documentId
    documentVersionId := request.documentVersionId
    spaceId := request.spaceId
    text := String.ofList text
    embeddingText := String.ofList embedding
    sparseText := sparse.map String.ofList
    snippet := snippet.map String.ofList
    mediaKind
    manifestHash
    metadata }

/-- `chunks.append(IndexChunk(chunk_id=f"chunk_{len(chunks) + 1}", …))`, draft after draft. -/
def appendChunks (chunks : List IndexChunk) : List (String → IndexChunk) →
    Except Err (List IndexChunk)
  | [] => .ok chunks
  | make :: drafts => do
    let chunk ← (make (chunkId (chunks.length + 1))).validated
    appendChunks (chunks ++ [chunk]) drafts

/-! ### Text -/

/-- A block of a text, with its section and its parent. -/
structure TextBlock where
  path : Text
  body : Text
  crParentGroup : String
  parent : Option (String × Text) := none

/-- The blocks of the sections of a text, the first of them with the given number, after
`parentCount` parents. -/
def textBlocks (p : ContentProcessor) (parentChild : Bool) (parentCount sectionIndex : ℕ) :
    List (Text × Text) → List TextBlock
  | [] => []
  | (path, body) :: rest =>
    let packed := packSectionParagraphs (sectionParagraphs body)
      (if parentChild then p.textChunkTargetChars else p.textTreeChunkTargetChars)
      (if parentChild then p.textChildChunkMaxChars else p.textChunkMaxChars)
    let groups := if parentChild then packChildParent packed p.textParentChunkTargetChars
      else packed.zipIdx.map fun (block, i) => (block.1, i + 1, i + 1)
    let blocks := groups.zipIdx.flatMap fun ((parentText, first, last), k) =>
      let parentId := "parent_" ++ toString (parentCount + k + 1)
      (childrenOf packed first last).map fun (body, _) =>
        { path, body
          crParentGroup := if parentChild then parentId
            else toString sectionIndex ++ ":" ++ toString (k + 1)
          parent := if parentChild then some (parentId, parentText) else none : TextBlock }
    blocks ++ textBlocks p parentChild (parentCount + if parentChild then groups.length else 0)
      (sectionIndex + 1) rest

/-- The sections `_text_chunks` goes through: a text without sections is one. -/
def textSections (u : Unicode) (text : Text) : List (Text × Text) :=
  if sections u text = [] && stripText text ≠ [] then [([], stripText text)] else sections u text

/-- The chunk of a block of text. -/
def textDraft (p : ContentProcessor) (request : StagingRequest) (mediaKind manifestHash : String)
    (block : TextBlock) : String → IndexChunk :=
  -- only the leaf of a tree is compressed with its section in view
  let context := if block.parent.isSome then [] else [("section_path", block.path)]
  draft request manifestHash block.body (p.compress context block.body)
    (some (if block.path ≠ [] then block.path ++ ['\n'] ++ block.body else block.body))
    (some block.body) mediaKind
    { sectionPath := String.ofList block.path
      crUnit := "chunk"
      crParentGroup := block.crParentGroup
      parentId := block.parent.map (·.1)
      parentText := block.parent.map fun x => String.ofList x.2 }

/-- `_text_chunks` -/
def textChunks (p : ContentProcessor) (request : StagingRequest) (text : Text)
    (mediaKind manifestHash : String) (structureClass : Option String := none) :
    Except Err Chunked := do
  let treeIndexed := structureClass ≠ some "basic" &&
    (sections p.unicode text).any (·.1 ≠ [])
  let parentChild := structureClass = some "basic" || (structureClass = none && !treeIndexed)
  let blocks := textBlocks p parentChild 0 1 (textSections p.unicode text)
  let chunks ← appendChunks [] (blocks.map (textDraft p request mediaKind manifestHash))
  return { chunks, summary := { chunkCount := chunks.length, treeIndexed } }

/-! ### Tables -/

/-- The lines of a row group, with the name of the column before each value. -/
def rowLines (headers : List Text) (rows : List (List Text)) : List Text :=
  rows.map (keyValueRow headers)

/-- The rows of a group: `data[start:end]`. -/
def rowGroup {α : Type} (rows : List α) (group : ℕ × ℕ) : List α :=
  (rows.take group.2).drop group.1

/-- The chunk of a part of a table. -/
def rowsDraft (request : StagingRequest) (mediaKind manifestHash : String) (body : Text) :
    String → IndexChunk :=
  draft request manifestHash body body (some body) none mediaKind { table := true }

/-- `_csv_chunks` -/
def csvChunks (p : ContentProcessor) (request : StagingRequest) (text : Text)
    (manifestHash : String) : Except Err Chunked := do
  let rows ← p.csvReader text
  match rows with
  | [] | [] :: _ => throw (refusal "table_parse_failed" "CSV has no header" 422)
  | header :: data =>
    let headers := header.map stripText
    let parts := (splitRows data headers.length).flatMap fun group =>
      splitLinesPreservingRows (rowLines headers (rowGroup data group)) p.textChunkMaxChars
    let chunks ← appendChunks []
      (parts.map fun part => rowsDraft request "text/csv" manifestHash (joinText "\n" part))
    return { chunks, summary := { chunkCount := chunks.length, tableCount := chunks.length } }

/-- The chunk of a row group of a laid out table. -/
def markdownDraft (request : StagingRequest) (manifestHash : String)
    (block : MergedTable × ℕ × ℕ) : String → IndexChunk :=
  let table := block.1
  let rows := rowGroup table.rows block.2
  let markdown := markdownTable table.headers rows
  let keyValues := keyValueRows table.headers rows
  draft request manifestHash markdown
    (if table.title ≠ [] then table.title ++ ['\n'] ++ keyValues else keyValues)
    (some keyValues) (some (markdown.take 500)) "table/markdown" { table := true }

/-- `_markdown_table_chunks`; its summary has no `chunk_count`. -/
def markdownTableChunks (request : StagingRequest) (tables : List MergedTable)
    (manifestHash : String) : Except Err (List IndexChunk × ℕ × List String) := do
  let chunks ← appendChunks [] ((plannedBlocks tables).map (markdownDraft request manifestHash))
  let headless := tables.filter (·.headers = [])
  return (chunks, tables.length, headless.map fun _ => "table_parse_failed")

/-- `header_depth`: merged cells that reach below the first row make the header deeper. -/
def headerDepth (headerStart : ℕ) (mergedRows : List (ℕ × ℕ)) : ℕ :=
  mergedRows.foldl (fun depth (minRow, maxRow) =>
    if minRow < maxRow && minRow ≤ headerStart + 2 then max depth (maxRow - headerStart + 1)
    else depth) 1

/-- The texts of the row groups of a worksheet. -/
def sheetBodies (sheet : Sheet) : Except Err (List Text) :=
  match sheet.collected with
  | [] => .error (refusal "table_parse_failed" "Excel sheet has no header" 422)
  | (headerStart, _) :: _ =>
    let depth := headerDepth headerStart sheet.mergedRows
    let headers := flattenMultilevelHeader ((List.range' headerStart depth).map fun number =>
      (sheet.collected.lookup number).getD [])
    let data := (sheet.collected.filter fun row => headerStart + depth ≤ row.1).map (·.2)
    let bodies := (splitRows data headers.length).map fun group =>
      keyValueRows headers (rowGroup data group)
    .ok (bodies.filter (stripText · ≠ []))

/-- The media kind of a workbook. -/
def workbookKind : String :=
  "application/vnd.openxmlformats-officedocument.spreadsheetml.sheet"

/-- `_xlsx_chunks` -/
def xlsxChunks (p : ContentProcessor) (request : StagingRequest) (content : ByteArray)
    (manifestHash : String) : Except Err Chunked := do
  let sheets ← p.loadWorkbook content
  let bodies ← sheets.mapM sheetBodies
  let chunks ← appendChunks [] (bodies.flatten.map (rowsDraft request workbookKind manifestHash))
  return { chunks, summary := { chunkCount := chunks.length, tableCount := chunks.length } }

/-- `_table_chunks` -/
def tableChunks (request : StagingRequest) (headers : List Text) (rows : List (List Text))
    (manifestHash mediaKind : String) : Except Err Chunked := do
  let bodies := (splitRows rows headers.length).map fun group =>
    joinText "\n" (rowLines headers (rowGroup rows group))
  let chunks ← appendChunks [] (bodies.map (rowsDraft request mediaKind manifestHash))
  return { chunks, summary := { chunkCount := chunks.length, tableCount := chunks.length } }

/-! ### Code and structured data -/

/-- `_split_text`, with a bound on the number of parts. -/
def splitTextFuel (maximum : ℕ) : ℕ → Text → List Text
  | 0, _ => []
  | _, [] => []
  | fuel + 1, text => text.take maximum :: splitTextFuel maximum fuel (text.drop maximum)

/-- `_split_text`: parts of `maximum` characters; there are no more parts than characters. -/
def splitText (text : Text) (maximum : ℕ) : List Text := splitTextFuel maximum text.length text

/-- The lines of a statement, from its first decorator on. -/
def symbolLines (lines : List Text) (node : PythonNode) : List Text :=
  (lines.take node.endLineno).drop (node.decoratorLines.foldl min node.lineno - 1)

/-- The symbols of a Python module, each with its text, after what is not in one. -/
def pythonSymbols (lines : List Text) (body : List PythonNode) : List (Text × Text) :=
  let moduleText := stripText (joinText "\n" ((body.filter (·.symbol.isNone)).flatMap
    fun node => (lines.take node.endLineno).drop (node.lineno - 1)))
  (if moduleText ≠ [] then [("module".toList, moduleText)] else []) ++
    body.filterMap fun node => node.symbol.map (·, joinText "\n" (symbolLines lines node))

/-- The texts from each match to the next one. -/
def matchedSymbols (text : Text) : List (ℕ × Text) → List (Text × Text)
  | [] => []
  | [(start, name)] => [(name, stripText (text.drop start))]
  | (start, name) :: (stop, next) :: rest =>
    (name, stripText ((text.take stop).drop start)) :: matchedSymbols text ((stop, next) :: rest)

/-- The symbols of a source text, each with its name. -/
def codeSymbols (p : ContentProcessor) (text : Text) : List (Text × Text) :=
  let symbols := match p.parsePython text with
    | some body => pythonSymbols (splitLines text) body
    | none =>
      if "function ".toList <:+: text || "class ".toList <:+: text then
        matchedSymbols text (p.findSymbols text)
      else []
  if symbols = [] then [("module".toList, stripText text)] else symbols

/-- The chunk of a part of a symbol. -/
def codeDraft (p : ContentProcessor) (request : StagingRequest) (manifestHash : String)
    (part : Text × Text) : String → IndexChunk :=
  let (name, body) := part
  draft request manifestHash body (p.compress [("symbol", name)] body)
    (some (name ++ ['\n'] ++ body))
    (some (body.take 500)) "code" { sectionPath := String.ofList name, crUnit := "symbol" }

/-- `_code_chunks` -/
def codeChunks (p : ContentProcessor) (request : StagingRequest) (text : Text)
    (manifestHash : String) : Except Err Chunked := do
  let parts := ((codeSymbols p text).filter (stripText ·.2 ≠ [])).flatMap fun (name, symbol) =>
    (splitText symbol p.textChunkMaxChars).map fun body => (name, body)
  let chunks ← appendChunks [] (parts.map (codeDraft p request manifestHash))
  return { chunks, summary := { chunkCount := chunks.length } }

mutual

/-- `_nesting_depth` -/
def nestingDepth : Json → ℕ
  | .dict l => 1 + nestingDepthEntries l
  | .list l => nestingDepthList l
  | _ => 0

def nestingDepthEntries : List (String × Json) → ℕ
  | [] => 0
  | (_, x) :: l => max (nestingDepth x) (nestingDepthEntries l)

def nestingDepthList : List Json → ℕ
  | [] => 0
  | x :: l => max (nestingDepth x) (nestingDepthList l)

end

mutual

/-- `_flatten` -/
def flatten (str dumps : Json → Text) (namePrefix : Text) : Json → List (Text × Text)
  | .dict l => flattenEntries str dumps namePrefix l
  | .list l => l.zipIdx.map fun (item, i) =>
      (namePrefix ++ ("[" ++ toString i ++ "]").toList, dumps item)
  | value => [(namePrefix, str value)]

def flattenEntries (str dumps : Json → Text) (namePrefix : Text) :
    List (String × Json) → List (Text × Text)
  | [] => []
  | (key, child) :: l =>
    let name := if namePrefix ≠ [] then namePrefix ++ ['.'] ++ key.toList else key.toList
    flatten str dumps name child ++ flattenEntries str dumps namePrefix l

end

/-- `_STRUCTURED_SCHEMA_KEYS` -/
def structuredSchemaKeys : List String :=
  ["$schema", "schema", "properties", "required", "definitions", "$defs"]

/-- `STRUCTURED_NESTING_DEPTH_THRESHOLD` -/
def structuredNestingDepthThreshold : ℕ := 3

/-- The entries of the items of a list, when it is a list of mappings that is not empty. -/
def mappings : Json → Option (List JsonObject)
  | .list (x :: l) => (x :: l).mapM fun
    | .dict entries => some entries
    | _ => none
  | _ => none

/-- `body or "{}"` -/
def orBraces (body : Text) : Text := if body = [] then ['{', '}'] else body

/-- `schema_like`: a mapping with one of the keys of a schema. -/
def schemaLike : Json → Bool
  | .dict entries => entries.any fun entry => entry.1 ∈ structuredSchemaKeys
  | _ => false

/-- `deeply_nested`: a mapping of mappings down to the threshold. -/
def deeplyNested : Json → Bool
  | .dict entries => structuredNestingDepthThreshold ≤ nestingDepth (.dict entries)
  | _ => false

/-- The header and the rows of a list of mappings. -/
def mappingTable (p : Ports) (items : List JsonObject) : List Text × List (List Text) :=
  let keys : List String := items.flatMap fun item => item.map Prod.fst
  let headers := keys.dedup.insertionSort (· ≤ ·)
  (headers.map String.toList, items.map fun item => headers.map fun header =>
    ((item.lookup header).map p.str).getD [])

/-- The chunk of a value that is neither a table nor a schema. -/
def structuredDraft (p : ContentProcessor) (request : StagingRequest) (value : Json)
    (kind manifestHash : String) (large : Bool) : String → IndexChunk :=
  let pairs := flatten p.str p.dumps [] value
  let body := joinText "\n" (pairs.map fun (key, item) => key ++ ": ".toList ++ item)
  let embedding := if large then p.compress [("kind", "structured".toList)] body else body
  draft request manifestHash (orBraces body) (orBraces embedding) (some (orBraces body))
    (some (orBraces (body.take 500))) kind { crUnit := if large then "chunk" else "key_path" }

/-- `_structured_chunks` -/
def structuredChunks (p : ContentProcessor) (request : StagingRequest) (text : Text)
    (kind manifestHash : String) : Except Err Chunked := do
  let value ← p.loads kind text
  let large := decide (500 < p.tokenCount text)
  match mappings value with
  | some items =>
    let (headers, rows) := mappingTable p.toPorts items
    tableChunks request headers rows manifestHash kind
  | none =>
    if schemaLike value || deeplyNested value then
      let code ← codeChunks p request text manifestHash
      return { code with summary := { code.summary with contextualInputReady := large } }
    else
      let chunk ← (structuredDraft p request value kind manifestHash large "chunk_1").validated
      return { chunks := [chunk], summary := { chunkCount := 1, contextualInputReady := large } }

/-! ### Images -/

/-- `is_decorative` -/
def isDecorative (width height : ℕ) (pageArea : Option ℕ) : Bool :=
  if width < 100 || height < 100 then true
  else pageArea.any fun area => 0 < area && decide ((width * height : ℚ) / area < 2 / 100)

/-- The description of an image, when there is a describer. -/
def imageDescription (p : Ports) (content : ByteArray) (context : ImageContext) :
    Except Err (Option ImageDescription) :=
  match p.imageDescriber with
  | some describe => (describe content context).map some
  | none => .ok none

/-- The text an image is indexed under: its caption, its description and the text in it. -/
def imageText (context : ImageContext) (result : Option ImageDescription) : Text :=
  let description := stripText ((result.map (·.text)).getD [])
  let parts := [stripText context.caption, description, stripText context.ocrText]
  joinText "\n" (parts.filter (· ≠ []))

/-- `_image_chunks` -/
def imageChunks (p : ContentProcessor) (request : StagingRequest) (content : ByteArray)
    (manifestHash : String) (context : ImageContext) : Except Err Chunked :=
  let without (degradation : String) : Chunked :=
    { chunks := [], summary := { chunkCount := 0 }, degradations := [degradation] }
  if context.decorative then .ok (without "image_not_indexable")
  else do
    let result ← imageDescription p.toPorts content context
    let indexText := imageText context result
    if result.any fun r => r.degraded && r.reason = "degraded_no_text" then
      return without "degraded_no_text"
    else if indexText = [] then
      return without "image_not_indexable"
    else
      let chunk ← (draft request manifestHash indexText indexText (some indexText) none "image" {}
        "chunk_1").validated
      return { chunks := [chunk], summary := { chunkCount := 1 },
               degradations := if result.any (·.degraded) then ["image_degraded"] else [] }

/-! ### Documents with a layout -/

/-- `MINERU_PROVIDER_ATTEMPTS` -/
def mineruProviderAttempts : ℕ := 5

/-- Another attempt follows a failed one, while there are more. -/
def parseAttempts (parse : ℕ → Except Err Parsed) (attempt : ℕ) : ℕ → Except Err Parsed
  | 0 => parse attempt
  | more + 1 =>
    match parse attempt with
    | .ok parsed => .ok parsed
    | .error e =>
      if e.code = some "mineru_parse_failed" then parseAttempts parse (attempt + 1) more
      else .error e

/-- `raw.decode("latin-1")` -/
def latin1 (raw : ByteArray) : Text := raw.toList.map fun b => Char.ofNat b.toNat

/-- The parsed document, and whether all attempts failed and its bytes stand in for it. -/
def parseLayout (parse : ℕ → Except Err Parsed) (raw : ByteArray) : Except Err (Parsed × Bool) :=
  match parseAttempts parse 1 (mineruProviderAttempts - 1) with
  | .ok parsed => .ok (parsed, false)
  | .error e =>
    if e.code = some "mineru_parse_failed" then
      .ok ({ text := latin1 raw, structureClass := "basic", hasTextLayer := some false }, true)
    else .error e

/-- The tables of a parsed document, with continuations appended. -/
def Parsed.mergedTables (p : Ports) (parsed : Parsed) : List MergedTable :=
  mergeContinuationTables p.similar (parsed.tables.filterMap id)

/-- What the structure of the document makes of the section path of a chunk. -/
def layoutSectionPath (structureClass sectionPath : String) : String :=
  if structureClass = "basic" then ""
  else if structureClass = "partial" && sectionPath = "" then "此章未能分类"
  else sectionPath

/-- The media kinds of a PDF. -/
def pdfKinds : List String := ["application/pdf", "pdf"]

/-- What the route of a laid out document changes in a chunk of its text. -/
def layoutChunk (kind : String) (parsed : Parsed) (hasTextLayer : Bool) (chunk : IndexChunk) :
    IndexChunk :=
  let chunk := { chunk with metadata := { chunk.metadata with
    sectionPath := layoutSectionPath parsed.structureClass chunk.metadata.sectionPath } }
  if kind ∉ pdfKinds then { chunk with snippet := none }
  else if parsed.structureClass = "basic" then chunk
  else { chunk with snippet := if hasTextLayer then chunk.snippet else none }

/-- `contextual_target` -/
def contextualTarget (chunk : IndexChunk) : Bool :=
  (chunk.metadata.crUnit = "chunk" || chunk.metadata.crUnit = "symbol") && !chunk.metadata.table

/-- The chunks of the text of a parsed document. -/
def layoutText (p : ContentProcessor) (request : StagingRequest) (parsed : Parsed)
    (mediaKind kind manifestHash : String) (hasTextLayer : Option Bool) : Except Err Chunked := do
  let text ← textChunks p request parsed.text mediaKind manifestHash (some parsed.structureClass)
  let hasTextLayer := (parsed.hasTextLayer.or hasTextLayer).getD false
  return { text with chunks := text.chunks.map (layoutChunk kind parsed hasTextLayer) }

/-- The chunks of the tables of a parsed document come after those of its text. -/
def withTables (p : ContentProcessor) (request : StagingRequest) (parsed : Parsed)
    (manifestHash : String) (text : Chunked) : Except Err Chunked :=
  if parsed.tables = [] then .ok text
  else do
    let (tableChunks, tableCount, degradations) ←
      markdownTableChunks request (parsed.mergedTables p.toPorts) manifestHash
    let chunks := text.chunks ++ tableChunks
    return { chunks
             summary := { text.summary with
               chunkCount := chunks.length, tableCount := text.summary.tableCount + tableCount }
             degradations := text.degradations ++ degradations }

/-- A document that no attempt could parse is not enhanced. -/
def withProbe (probeFailed : Bool) (r : Chunked) : Chunked :=
  if probeFailed then
    { r with
      summary := { r.summary with contextualInputReady := false }
      degradations := r.degradations ++
        (r.chunks.filter contextualTarget).map fun _ => "contextual_retrieval_degraded" }
  else r

/-- The chunks of a laid out document. -/
def layoutChunks (p : ContentProcessor) (request : StagingRequest) (raw : ByteArray)
    (mediaKind kind manifestHash : String) (hasTextLayer : Option Bool) : Except Err Chunked :=
  match p.mineru with
  | none => .error (refusal "processor_unavailable" "MinerU processor is not configured" 503)
  | some mineru => do
    let (parsed, probeFailed) ← parseLayout (mineru raw) raw
    if stripText parsed.text = [] then
      throw (refusal "processing_failed" "MinerU returned no text" 422)
    else
      let text ← layoutText p request parsed mediaKind kind manifestHash hasTextLayer
      let result ← withTables p request parsed manifestHash text
      return withProbe probeFailed result

/-! ### Processing -/

/-- Content as it is passed: bytes or a text. -/
inductive Content
  | bytes (b : ByteArray)
  | str (t : Text)

/-- The bytes of the content. -/
def Content.raw : Content → ByteArray
  | .bytes b => b
  | .str t => (String.ofList t).toUTF8

/-- `_text`: bytes are decoded. -/
def Content.text : Content → Except Err Text
  | .bytes b => match String.fromUTF8? b with
    | some s => .ok s.toList
    | none => .error (.internal "UnicodeDecodeError")
  | .str t => .ok t

def textKinds : List String := ["text/plain", "text/markdown", "txt", "md", "markdown"]

/-- `kind in {"text/csv", "csv"} or kind.endswith("csv")` -/
def isCsvKind (kind : String) : Bool := "csv".toList <:+ kind.toList

def workbookKinds : List String := [workbookKind, "application/vnd.ms-excel", "xlsx", "excel"]

def structuredKinds : List String :=
  ["application/json", "json", "application/yaml", "text/yaml", "yaml", "application/toml", "toml",
    "application/xml", "text/xml", "xml"]

def codeKinds : List String := ["text/x-python", "python", "code", "text/javascript", "javascript"]

def layoutKinds : List String :=
  ["application/pdf", "pdf", "application/msword",
    "application/vnd.openxmlformats-officedocument.wordprocessingml.document", "docx", "word",
    "application/vnd.ms-powerpoint",
    "application/vnd.openxmlformats-officedocument.presentationml.presentation", "ppt", "pptx",
    "powerpoint", "text/html", "html", "url", "web_url"]

def isImageKind (kind : String) : Bool :=
  "image/".toList <+: kind.toList || kind = "image" || kind = "图片"

/-- The routes of `process`. -/
inductive Route
  | text
  | csv
  | workbook
  | structured
  | code
  | layout
  | image
  | unsupported
  deriving DecidableEq

/-- The route of a media kind: the first that takes it. -/
def route (kind : String) : Route :=
  if kind ∈ textKinds then .text
  else if isCsvKind kind then .csv
  else if kind ∈ workbookKinds then .workbook
  else if kind ∈ structuredKinds then .structured
  else if kind ∈ codeKinds then .code
  else if kind ∈ layoutKinds then .layout
  else if isImageKind kind then .image
  else .unsupported

/-- `media_kind.strip().casefold()` -/
def normalizedKind (u : Unicode) (mediaKind : String) : String :=
  String.ofList (u.casefold (stripText mediaKind.toList))

/-- What `process` is called with. -/
structure Input where
  content : Content
  mediaKind : String
  contentManifestId : String
  contentManifestHash : String
  hasTextLayer : Option Bool := none
  image : ImageContext := {}

/-- The context of an image: its size decides whether it is decorative, and its text is read
when none came with it. -/
def completeContext (p : Ports) (raw : ByteArray) (image : ImageContext) : ImageContext :=
  let image := match image.dimensions with
    | some (width, height) =>
      { image with decorative := image.decorative || isDecorative width height image.pageArea }
    | none => image
  match p.imageOcr with
  | some ocr => if image.ocrText = [] then { image with ocrText := ocr raw image } else image
  | none => image

/-- The chunks of the content, by its route. -/
def routedChunks (p : ContentProcessor) (request : StagingRequest) (input : Input) :
    Except Err Chunked := do
  let raw := input.content.raw
  let manifestHash := input.contentManifestHash
  let kind := normalizedKind p.unicode input.mediaKind
  match route kind with
  | .text => textChunks p request (← input.content.text) input.mediaKind manifestHash
  | .csv => csvChunks p request (← input.content.text) manifestHash
  | .workbook => xlsxChunks p request raw manifestHash
  | .structured => structuredChunks p request (← input.content.text) kind manifestHash
  | .code => codeChunks p request (← input.content.text) manifestHash
  | .layout => layoutChunks p request raw input.mediaKind kind manifestHash input.hasTextLayer
  | .image => imageChunks p request raw manifestHash (completeContext p.toPorts raw input.image)
  | .unsupported => throw (refusal "unsupported_media_type" "Media type is not supported" 415)

/-- What the contextual retrieval service adds to a chunk. -/
def enhanceChunk (enhancement : Enhancement) (chunk : IndexChunk) : IndexChunk :=
  match enhancement.contexts chunk.chunkId with
  | some context => { chunk with
      embeddingText := "CONTEXTUAL RETRIEVAL\n" ++ String.ofList context ++
        "\n\nORIGINAL CHUNK\n" ++ chunk.embeddingText }
  | none => chunk

/-- `_apply_contextual_retrieval` -/
def applyContextualRetrieval (p : Ports) (chunked : Chunked) : Except Err Chunked :=
  match p.contextual with
  | none => .ok chunked
  | some enhance =>
    if (chunked.chunks.filter contextualTarget).isEmpty || !chunked.summary.contextualInputReady
    then .ok chunked
    else do
      let enhancement ← enhance chunked.chunks
      return { chunked with
        chunks := chunked.chunks.map (enhanceChunk enhancement)
        degradations := chunked.degradations ++ enhancement.degradations }

/-- A stage resource of a receipt. -/
structure StageResource where
  backendKind : String := "index_chunk"
  resourceId : String
  attemptId : String
  publicationId : String
  fencingToken : ℕ
  documentId : String
  documentVersionId : String
  generationId : String
  spaceId : String

/-- The identity of the stage resource of a chunk. -/
def resourceId (request : StagingRequest) (chunk : IndexChunk) : String :=
  request.attemptId ++ ":" ++ request.publicationId ++ ":" ++ chunk.chunkId

/-- The stage resource of a chunk. -/
def stageResource (request : StagingRequest) (chunk : IndexChunk) : StageResource :=
  { resourceId := resourceId request chunk
    attemptId := request.attemptId
    publicationId := request.publicationId
    fencingToken := request.fencingToken
    documentId := request.documentId
    documentVersionId := request.documentVersionId
    generationId := request.expectedGenerationId
    spaceId := request.spaceId }

/-- `IndexProcessingReceipt`: what `validate_against` reads of it. -/
structure Receipt where
  jobId : String
  attemptId : String
  fencingToken : ℕ
  publicationId : String
  documentId : String
  documentVersionId : String
  generationId : String
  spaceId : String
  stageResources : List StageResource
  stageResourceIds : List String
  processingSummary : Summary
  inputManifestHash : String
  processingProfileVersion : String
  contentManifestId : String
  contentManifestHash : String

/-- The error of a receipt that does not belong to the request. -/
def receiptConflict : Err :=
  refusal "processing_receipt_conflict"
    "Processing receipt does not match the staging request" 409

/-- `IndexProcessingReceipt.validate_against` -/
def Receipt.validateAgainst (r : Receipt) (request : StagingRequest) : Except Err Unit := do
  if r.jobId ≠ request.jobId ∨ r.attemptId ≠ request.attemptId ∨
      r.fencingToken ≠ request.fencingToken ∨ r.publicationId ≠ request.publicationId ∨
      r.documentId ≠ request.documentId ∨ r.documentVersionId ≠ request.documentVersionId then
    throw receiptConflict
  if r.generationId ≠ request.expectedGenerationId then
    throw (refusal "generation_conflict"
      "The processing receipt generation is no longer current" 409)
  if r.spaceId ≠ request.spaceId then
    throw receiptConflict
  if r.stageResources.any fun x =>
      x.attemptId ≠ request.attemptId || x.publicationId ≠ request.publicationId ||
        x.fencingToken ≠ request.fencingToken || x.documentId ≠ request.documentId ||
        x.documentVersionId ≠ request.documentVersionId ||
        x.generationId ≠ request.expectedGenerationId then
    throw receiptConflict
  if r.stageResourceIds ≠ r.stageResources.map (·.resourceId) ∨
      r.processingSummary.chunkCount ≠ r.stageResources.length ∨
      r.inputManifestHash ≠ request.inputManifestHash ∨
      r.processingProfileVersion ≠ request.processingProfileVersion then
    throw receiptConflict

/-- The receipt of the processing. -/
def receipt (request : StagingRequest) (input : Input) (chunked : Chunked) : Receipt :=
  { jobId := request.jobId
    attemptId := request.attemptId
    fencingToken := request.fencingToken
    publicationId := request.publicationId
    documentId := request.documentId
    documentVersionId := request.documentVersionId
    generationId := request.expectedGenerationId
    spaceId := request.spaceId
    stageResources := chunked.chunks.map (stageResource request)
    stageResourceIds := (chunked.chunks.map (stageResource request)).map (·.resourceId)
    processingSummary := chunked.summary
    inputManifestHash := request.inputManifestHash
    processingProfileVersion := request.processingProfileVersion
    contentManifestId := input.contentManifestId
    contentManifestHash := input.contentManifestHash }

/-- `ProcessingOutput` -/
structure ProcessingOutput where
  chunks : List IndexChunk
  receipt : Receipt

/-- The content manifest is named, and is the one the request was made for. -/
def checkManifest (request : StagingRequest) (input : Input) : Except Err Unit :=
  if input.contentManifestId = "" ∨ input.contentManifestHash = "" then
    .error (validationError "content manifest identity is required")
  else if request.inputManifestHash ≠ input.contentManifestHash then
    .error (refusal "processing_receipt_conflict"
      "content manifest does not match the staging request" 409)
  else .ok ()

/-- `ContentProcessor.process` -/
def process (p : ContentProcessor) (request : StagingRequest) (input : Input) :
    Except Err ProcessingOutput := do
  checkManifest request input
  let chunked ← routedChunks p request input
  let chunked ← applyContextualRetrieval p.toPorts chunked
  (receipt request input chunked).validateAgainst request
  return { chunks := chunked.chunks, receipt := receipt request input chunked }

/-! ### Publication -/

/-- Whether a stored chunk has the identity of a chunk of the request. -/
def IndexChunk.isStoredAs (row : IndexChunk) (request : StagingRequest) (id : String) : Bool :=
  row.chunkId = id && row.generationId = request.expectedGenerationId &&
    row.publicationId = request.publicationId

/-- `record_published_chunks`: the rows of the chunk table afterwards. -/
def recordPublishedChunks (request : StagingRequest) (rows : List IndexChunk) :
    List IndexChunk → Except Err (List IndexChunk)
  | [] => .ok rows
  | chunk :: chunks =>
    match rows.find? (·.isStoredAs request chunk.chunkId) with
    | some existing =>
      if existing.manifestHash ≠ chunk.manifestHash then
        .error (refusal "idempotency_key_conflict" "published chunk conflicts" 409)
      else recordPublishedChunks request rows chunks
    | none => recordPublishedChunks request (rows ++ [chunk]) chunks

end RagQs.Indexing
