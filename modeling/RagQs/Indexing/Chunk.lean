import RagQs.Platform.Value

/-!
# Index chunks

The unit that the processors derive from a document, that publication stores and that a
search returns.

## Main definitions

* `Metadata`, `IndexChunk` — a chunk, with the part of its metadata that code reads.
* `IndexChunk.validated` — the checks of `IndexChunk.__post_init__`.
* `chunkId` — the identity a processor gives its `n`-th chunk.

## Main results

* `chunkId_injective` — chunks with different numbers have different identities.
-/

namespace RagQs.Indexing

/-- A refusal of the application: its code, its message and its status. -/
def refusal (code message : String) (statusCode : ℕ) : Err :=
  .platform { code, message, statusCode }

/-- The entries of `IndexChunk.metadata` that are read after the chunk is built. -/
structure Metadata where
  sectionPath : String := ""
  crUnit : String := ""
  crParentGroup : String := ""
  table : Bool := false
  parentId : Option String := none
  parentText : Option String := none
  deriving DecidableEq

/-- `IndexChunk` -/
structure IndexChunk where
  chunkId : String
  generationId : String
  publicationId : String
  documentId : String
  documentVersionId : String
  spaceId : String
  text : String
  embeddingText : String
  sparseText : Option String := none
  snippet : Option String := none
  mediaKind : String
  manifestHash : String
  metadata : Metadata := {}
  indexable : Bool := true
  deriving DecidableEq

/-- `_required`: the value may not be blank. -/
def required (value name : String) : Except Err Unit :=
  if strip value = "" then .error (validationError (name ++ " is required")) else .ok ()

/-- `IndexChunk.__post_init__`: the chunk, when its identity and its texts are there. -/
def IndexChunk.validated (chunk : IndexChunk) : Except Err IndexChunk := do
  required chunk.chunkId "chunk_id"
  required chunk.generationId "generation_id"
  required chunk.publicationId "publication_id"
  required chunk.documentId "document_id"
  required chunk.documentVersionId "document_version_id"
  required chunk.spaceId "space_id"
  required chunk.mediaKind "media_kind"
  required chunk.manifestHash "manifest_hash"
  required chunk.text "chunk text"
  required chunk.embeddingText "embedding text"
  return chunk

/-- `IndexChunk.dedupe_key` -/
def IndexChunk.dedupeKey (chunk : IndexChunk) : String × String × String :=
  (chunk.generationId, chunk.publicationId, chunk.chunkId)

theorem IndexChunk.eq_of_validated {chunk c : IndexChunk} (h : chunk.validated = .ok c) :
    c = chunk := by
  unfold validated at h
  -- the eight identities, then the two texts
  iterate 10 obtain ⟨_, _, h⟩ := exists_of_bind_ok h
  cases h
  rfl

/-- The identity of the `n`-th chunk of a processor: `f"chunk_{n}"`. -/
def chunkId (n : ℕ) : String := "chunk_" ++ toString n

theorem chunkId_injective : Function.Injective chunkId := by
  intro m n h
  have hrepr : m.repr = n.repr := by
    simpa [chunkId] using h
  have hdigits : Nat.toDigits 10 m = Nat.toDigits 10 n := by
    simpa using congrArg String.toList hrepr
  simpa using congrArg (fun ds => Nat.ofDigitChars 10 ds 0) hdigits

end RagQs.Indexing
