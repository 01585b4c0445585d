import RagQs.Indexing.Processing
import Mathlib.Data.List.Nodup
import Mathlib.Data.List.Range

/-!
# The identities of processed chunks

Every chunker numbers its chunks from one.  The chunks of a document with a layout are those
of its text followed by those of its tables, both numbered from one, so that the identities
are distinct just when no table contributes a chunk.

## Main definitions

* `Numbered`, `Built` — chunks numbered in turn, that belong to the request.
* `Chunked.Sound` — what every chunker but that of laid out documents guarantees.
* `laidOutTables` — the tables the layout parser found in the content.
* `WellIdentified` — what publication relies on.

## Main results

* `sound_routedChunks` — the chunkers of the other routes number their chunks in turn.
* `layoutChunks_split` — the chunks of a laid out document are two numbered lists.
* `process_wellIdentified_iff` — the outputs are well identified just when no table of the
  document has both a header and a row.
-/

namespace RagQs.Indexing

open List

variable {text : Text} {mediaKind kind : String} {chunks : List IndexChunk} {r : Chunked} {parsed :
  Parsed} {c : IndexChunk} {input : Input} {e : Enhancement}

variable {make : String → IndexChunk} {result front back rows : List IndexChunk} {structureClass :
  Option String} {content : ByteArray} {parentChild probeFailed : Bool} {tables : List MergedTable}
  {hasTextLayer : Option Bool}

/-- The chunks are numbered in turn, from one. -/
def Numbered (chunks : List IndexChunk) : Prop :=
  chunks.map (·.chunkId) = (range' 1 chunks.length).map chunkId

/-- The chunks are numbered in turn and belong to the publication of the request. -/
structure Built (request : StagingRequest) (chunks : List IndexChunk) : Prop where
  numbered : Numbered chunks
  generation : ∀ c ∈ chunks, c.generationId = request.expectedGenerationId
  publication : ∀ c ∈ chunks, c.publicationId = request.publicationId

/-- A draft takes the identity it is given, and belongs to the publication of the request. -/
structure IsDraft (request : StagingRequest) (make : String → IndexChunk) : Prop where
  chunkId : ∀ id, (make id).chunkId = id
  generation : ∀ id, (make id).generationId = request.expectedGenerationId
  publication : ∀ id, (make id).publicationId = request.publicationId

/-- What a chunker guarantees: its chunks are numbered in turn, and counted. -/
structure Chunked.Sound (request : StagingRequest) (r : Chunked) : Prop where
  built : Built request r.chunks
  counted : r.summary.chunkCount = r.chunks.length

variable {request : StagingRequest} {p : ContentProcessor} {manifestHash : String}

theorem isDraft_draft {embedding : Text} {sparse snippet : Option Text} {metadata : Metadata} :
    IsDraft request (draft request manifestHash text embedding sparse snippet mediaKind metadata) :=
  ⟨fun _ => rfl, fun _ => rfl, fun _ => rfl⟩

/-! ### Numbering -/

theorem built_nil : Built request [] := ⟨rfl, by simp, by simp⟩

theorem Built.append_one (h : Built request chunks) (hmake : IsDraft request make) :
    Built request (chunks ++ [make (Indexing.chunkId (chunks.length + 1))]) := by
  have hnumbered : chunks.map (·.chunkId) = (range' 1 chunks.length).map Indexing.chunkId :=
    h.numbered
  refine ⟨?_, ?_, ?_⟩
  · unfold Numbered
    simp only [map_append, length_append, length_singleton, map_singleton]
    rw [hnumbered, hmake.chunkId, range'_1_concat, map_append, map_singleton,
      Nat.add_comm 1]
  · intro c hc
    rcases mem_append.mp hc with hc | hc
    · exact h.generation c hc
    · obtain rfl := mem_singleton.mp hc
      exact hmake.generation _
  · intro c hc
    rcases mem_append.mp hc with hc | hc
    · exact h.publication c hc
    · obtain rfl := mem_singleton.mp hc
      exact hmake.publication _

theorem Built.appendChunks {drafts : List (String → IndexChunk)} (h : Built request chunks)
    (hdrafts : ∀ make ∈ drafts, IsDraft request make) (hr : appendChunks chunks drafts = .ok result) :
    Built request result ∧ result.length = chunks.length + drafts.length := by
  induction drafts generalizing chunks with
  | nil =>
    cases hr
    exact ⟨h, rfl⟩
  | cons make drafts ih =>
    obtain ⟨chunk, hchunk, hr⟩ := exists_of_bind_ok hr
    obtain rfl := IndexChunk.eq_of_validated hchunk
    obtain ⟨hbuilt, hlength⟩ := ih (h.append_one (hdrafts make mem_cons_self))
      (fun m hm => hdrafts m (mem_cons_of_mem _ hm)) hr
    refine ⟨hbuilt, ?_⟩
    simp only [length_append, length_cons, length_nil] at hlength ⊢
    omega

theorem built_of_map {α : Type} {f : α → String → IndexChunk} {xs : List α}
    (hf : ∀ x ∈ xs, IsDraft request (f x)) (hr : appendChunks [] (xs.map f) = .ok result) :
    Built request result ∧ result.length = xs.length := by
  have hdrafts : ∀ make ∈ xs.map f, IsDraft request make := by
    intro make hmake
    obtain ⟨x, hx, rfl⟩ := mem_map.mp hmake
    exact hf x hx
  obtain ⟨hbuilt, hlength⟩ := built_nil.appendChunks hdrafts hr
  exact ⟨hbuilt, by simpa using hlength⟩

theorem built_one {chunk : IndexChunk} (hmake : IsDraft request make)
    (h : (make "chunk_1").validated = .ok chunk) : Built request [chunk] := by
  obtain rfl := IndexChunk.eq_of_validated h
  exact built_nil.append_one hmake

theorem Numbered.nodup (h : Numbered chunks) : (chunks.map (·.chunkId)).Nodup := by
  have hnumbered : chunks.map (·.chunkId) = _ := h
  rw [hnumbered]
  exact (nodup_range' ..).map chunkId_injective

theorem Numbered.first_mem (h : Numbered chunks) (hne : chunks ≠ []) :
    chunkId 1 ∈ chunks.map (·.chunkId) := by
  have hnumbered : chunks.map (·.chunkId) = _ := h
  rw [hnumbered]
  refine mem_map.mpr ⟨1, ?_, rfl⟩
  have := length_pos_iff.mpr hne
  simp only [mem_range'_1]
  omega

/-- **Two numbered lists together** have distinct identities only when one of them is empty. -/
theorem nodup_append_iff (hfront : Numbered front) (hne : front ≠ []) (hback : Numbered back) :
    ((front ++ back).map (·.chunkId)).Nodup ↔ back = [] := by
  constructor
  · intro h
    by_contra hback'
    rw [map_append, nodup_append] at h
    exact h.2.2 _ (hfront.first_mem hne) _ (hback.first_mem hback') rfl
  · rintro rfl
    rw [append_nil]
    exact hfront.nodup

theorem Built.map {f : IndexChunk → IndexChunk} (h : Built request chunks)
    (hid : ∀ c, (f c).chunkId = c.chunkId) (hgeneration : ∀ c, (f c).generationId = c.generationId)
    (hpublication : ∀ c, (f c).publicationId = c.publicationId) : Built request (chunks.map f) := by
  refine ⟨?_, ?_, ?_⟩
  · have hnumbered : chunks.map (·.chunkId) = _ := h.numbered
    unfold Numbered
    rw [map_map, length_map, ← hnumbered]
    exact map_congr_left fun c _ => hid c
  · intro c hc
    obtain ⟨d, hd, rfl⟩ := mem_map.mp hc
    rw [hgeneration]
    exact h.generation d hd
  · intro c hc
    obtain ⟨d, hd, rfl⟩ := mem_map.mp hc
    rw [hpublication]
    exact h.publication d hd

/-! ### The chunkers -/

theorem sound_textChunks
    (h : textChunks p request text mediaKind manifestHash structureClass = .ok r) :
    r.Sound request := by
  obtain ⟨chunks, hchunks, hr⟩ := exists_of_bind_ok h
  cases hr
  exact ⟨(built_of_map (fun _ _ => isDraft_draft) hchunks).1, rfl⟩

theorem sound_csvChunks (h : csvChunks p request text manifestHash = .ok r) : r.Sound request := by
  obtain ⟨rows, -, h⟩ := exists_of_bind_ok h
  rcases rows with _ | ⟨_ | ⟨cell, cells⟩, data⟩
  · cases h
  · cases h
  · obtain ⟨chunks, hchunks, hr⟩ := exists_of_bind_ok h
    cases hr
    exact ⟨(built_of_map (fun _ _ => isDraft_draft) hchunks).1, rfl⟩

theorem sound_xlsxChunks (h : xlsxChunks p request content manifestHash = .ok r) :
    r.Sound request := by
  obtain ⟨sheets, -, h⟩ := exists_of_bind_ok h
  obtain ⟨bodies, -, h⟩ := exists_of_bind_ok h
  obtain ⟨chunks, hchunks, hr⟩ := exists_of_bind_ok h
  cases hr
  exact ⟨(built_of_map (fun _ _ => isDraft_draft) hchunks).1, rfl⟩

theorem sound_tableChunks {headers : List Text} {rows : List (List Text)}
    (h : tableChunks request headers rows manifestHash mediaKind = .ok r) : r.Sound request := by
  obtain ⟨chunks, hchunks, hr⟩ := exists_of_bind_ok h
  cases hr
  exact ⟨(built_of_map (fun _ _ => isDraft_draft) hchunks).1, rfl⟩

theorem sound_codeChunks (h : codeChunks p request text manifestHash = .ok r) :
    r.Sound request := by
  obtain ⟨chunks, hchunks, hr⟩ := exists_of_bind_ok h
  cases hr
  exact ⟨(built_of_map (fun _ _ => isDraft_draft) hchunks).1, rfl⟩

theorem sound_structuredChunks (h : structuredChunks p request text kind manifestHash = .ok r) :
    r.Sound request := by
  obtain ⟨value, -, h⟩ := exists_of_bind_ok h
  cases hmappings : mappings value with
  | some items =>
    simp only [hmappings] at h
    exact sound_tableChunks h
  | none =>
    simp only [hmappings] at h
    split at h
    · obtain ⟨code, hcode, hr⟩ := exists_of_bind_ok h
      cases hr
      have hsound := sound_codeChunks hcode
      exact ⟨hsound.built, hsound.counted⟩
    · obtain ⟨chunk, hchunk, hr⟩ := exists_of_bind_ok h
      cases hr
      exact ⟨built_one isDraft_draft hchunk, rfl⟩

theorem sound_imageChunks {context : ImageContext}
    (h : imageChunks p request content manifestHash context = .ok r) : r.Sound request := by
  unfold imageChunks at h
  split at h
  · cases h
    exact ⟨built_nil, rfl⟩
  · obtain ⟨result, -, h⟩ := exists_of_bind_ok h
    simp only at h
    split at h
    · cases h
      exact ⟨built_nil, rfl⟩
    · split at h
      · cases h
        exact ⟨built_nil, rfl⟩
      · obtain ⟨chunk, hchunk, hr⟩ := exists_of_bind_ok h
        cases hr
        exact ⟨built_one isDraft_draft hchunk, rfl⟩

/-! ### Laid out documents -/

theorem groups_cover {target : ℕ} {packed : List (Text × ℕ)} :
    ((if parentChild then packChildParent packed target
      else packed.zipIdx.map fun (block, i) => (block.1, i + 1, i + 1)).flatMap
        fun x => childrenOf packed x.2.1 x.2.2) = packed := by
  cases parentChild with
  | true => exact packChildParent_covers
  | false =>
    have hone : ∀ x ∈ packed.zipIdx,
        childrenOf packed (x.2 + 1) (x.2 + 1) = [x.1] := by
      rintro ⟨block, i⟩ hx
      have hi : packed[i]? = some block := List.mk_mem_zipIdx_iff_getElem?.mp hx
      obtain ⟨hlt, -⟩ := List.getElem?_eq_some_iff.mp hi
      have hfront : (packed.take i).length = i := by
        rw [length_take, Nat.min_eq_left hlt.le]
      rw [childrenOf, Nat.add_sub_cancel, take_add_one, hi, Option.toList_some,
        drop_append_of_le_length hfront.ge, drop_eq_nil_of_le hfront.le, nil_append]
    have hflat : (packed.zipIdx.map fun (block, i) => (block.1, i + 1, i + 1)).flatMap
        (fun x => childrenOf packed x.2.1 x.2.2) = packed.zipIdx.flatMap fun x => [x.1] := by
      rw [flatMap_map]
      exact flatMap_congr fun x hx => hone x hx
    have hfst : packed.zipIdx.flatMap (fun x => [x.1]) = packed := by
      rw [← map_eq_flatMap, zipIdx_map_fst]
    simpa using hflat.trans hfst

theorem textBlocks_ne_nil {parentCount sectionIndex : ℕ} {x : Text × Text} {xs : List (Text × Text)}
    (hx : Inked x.2) : textBlocks p parentChild parentCount sectionIndex (x :: xs) ≠ [] := by
  obtain ⟨path, body⟩ := x
  unfold textBlocks
  simp only
  have hmax : 0 < if parentChild then p.textChildChunkMaxChars else p.textChunkMaxChars := by
    split
    · exact p.childMaxChars_pos
    · exact p.maxChars_pos
  generalize hpacked : packSectionParagraphs (sectionParagraphs body) _ _ = packed
  have hne : packed ≠ [] := by
    rw [← hpacked]
    exact packSectionParagraphs_ne_nil hmax (sectionParagraphs_ne_nil hx)
  intro hnil
  -- a block is a child of some group
  obtain ⟨block, hblock⟩ := exists_mem_of_ne_nil _ hne
  rw [← @groups_cover parentChild p.textParentChunkTargetChars packed] at hblock
  obtain ⟨group, hgroup, hchild⟩ := mem_flatMap.mp hblock
  obtain ⟨k, hk⟩ := List.mem_iff_getElem?.mp hgroup
  have hzip := List.mk_mem_zipIdx_iff_getElem?.mpr hk
  have hblocks := (append_eq_nil_iff.mp hnil).1
  have hnone := flatMap_eq_nil_iff.mp hblocks _ hzip
  rw [map_eq_nil_iff] at hnone
  rw [hnone] at hchild
  cases hchild

theorem exists_textSections (h : Inked text) :
    ∃ x xs, textSections p.unicode text = x :: xs ∧ Inked x.2 := by
  unfold textSections
  have hstrip : stripText text ≠ [] := stripText_ne_nil_iff.mpr h
  cases hsections : sections p.unicode text with
  | nil =>
    rw [if_pos (by simp [hstrip])]
    exact ⟨_, _, rfl, h.strip⟩
  | cons x xs =>
    rw [if_neg (by simp)]
    refine ⟨x, xs, rfl, sections_inked (u := p.unicode) (t := text) ?_⟩
    rw [hsections]
    exact mem_cons_self

theorem textChunks_ne_nil (hinked : Inked text)
    (h : textChunks p request text mediaKind manifestHash structureClass = .ok r) :
    r.chunks ≠ [] := by
  obtain ⟨chunks, hchunks, hr⟩ := exists_of_bind_ok h
  cases hr
  obtain ⟨x, xs, hsections, hx⟩ := exists_textSections (p := p) hinked
  rw [hsections] at hchunks
  have hlength := (built_of_map (fun _ _ => isDraft_draft) hchunks).2
  intro hnil
  rw [show chunks = [] from hnil, length_nil] at hlength
  exact textBlocks_ne_nil hx (length_eq_zero_iff.mp hlength.symm)

@[simp] theorem layoutChunk_chunkId {b : Bool} :
    (layoutChunk kind parsed b c).chunkId = c.chunkId := by
  unfold layoutChunk
  simp only
  split
  · rfl
  · split <;> rfl

@[simp] theorem layoutChunk_generationId {b : Bool} :
    (layoutChunk kind parsed b c).generationId = c.generationId := by
  unfold layoutChunk
  simp only
  split
  · rfl
  · split <;> rfl

@[simp] theorem layoutChunk_publicationId {b : Bool} :
    (layoutChunk kind parsed b c).publicationId = c.publicationId := by
  unfold layoutChunk
  simp only
  split
  · rfl
  · split <;> rfl

theorem built_markdownTableChunks {count : ℕ} {degradations : List String}
    (h : markdownTableChunks request tables manifestHash = .ok (chunks, count, degradations)) :
    Built request chunks ∧ chunks.length = (plannedBlocks tables).length := by
  obtain ⟨cs, hcs, hr⟩ := exists_of_bind_ok h
  cases hr
  exact built_of_map (fun _ _ => isDraft_draft) hcs

/-- The tables of the content, when the layout parser reads it. -/
def laidOutTables (p : ContentProcessor) (input : Input) : List MergedTable :=
  if route (normalizedKind p.unicode input.mediaKind) = .layout then
    match p.mineru with
    | none => []
    | some mineru =>
      match parseLayout (mineru input.content.raw) input.content.raw with
      | .ok (parsed, _) => parsed.mergedTables p.toPorts
      | .error _ => []
  else []

/-- The chunks of a laid out document: numbered chunks of its text, at least one, and after
them numbered chunks of its tables, one for each row group. -/
structure Laid (request : StagingRequest) (tables : List MergedTable) (r : Chunked)
    (front back : List IndexChunk) : Prop where
  chunks : r.chunks = front ++ back
  counted : r.summary.chunkCount = r.chunks.length
  builtFront : Built request front
  builtBack : Built request back
  text : front ≠ []
  blocks : back.length = (plannedBlocks tables).length

theorem sound_layoutText (hinked : Inked parsed.text)
    (h : layoutText p request parsed mediaKind kind manifestHash hasTextLayer = .ok r) :
    r.Sound request ∧ r.chunks ≠ [] := by
  obtain ⟨text, htext, hr⟩ := exists_of_bind_ok h
  cases hr
  have hsound := sound_textChunks htext
  have hne := textChunks_ne_nil hinked htext
  refine ⟨⟨hsound.built.map (by simp) (by simp) (by simp), ?_⟩, by simpa using hne⟩
  simpa using hsound.counted

theorem laid_withTables {text : Chunked} (hsound : text.Sound request) (hne : text.chunks ≠ [])
    (h : withTables p request parsed manifestHash text = .ok r) :
    ∃ back, Laid request (parsed.mergedTables p.toPorts) r text.chunks back := by
  unfold withTables at h
  split at h
  · rename_i htables
    cases h
    have hnone : plannedBlocks (parsed.mergedTables p.toPorts) = [] := by
      simp [Parsed.mergedTables, htables, mergeContinuationTables, plannedBlocks]
    refine ⟨[], by simp, hsound.counted, hsound.built, built_nil, hne, ?_⟩
    simp [hnone]
  · obtain ⟨⟨tableChunks, tableCount, degradations⟩, htable, hr⟩ := exists_of_bind_ok h
    cases hr
    obtain ⟨hbuilt, hlength⟩ := built_markdownTableChunks htable
    exact ⟨tableChunks, rfl, rfl, hsound.built, hbuilt, hne, hlength⟩

theorem Laid.withProbe (h : Laid request tables r front back) :
    Laid request tables (withProbe probeFailed r) front back := by
  unfold Indexing.withProbe
  split
  · exact ⟨h.chunks, h.counted, h.builtFront, h.builtBack, h.text, h.blocks⟩
  · exact h

/-- **The chunks of a laid out document are two numbered lists.** -/
theorem layoutChunks_split {raw : ByteArray} {mineru : ByteArray → ℕ → Except Err Parsed}
    (hmineru : p.mineru = some mineru)
    (hparse : parseLayout (mineru raw) raw = .ok (parsed, probeFailed))
    (h : layoutChunks p request raw mediaKind kind manifestHash hasTextLayer = .ok r) :
    ∃ front back, Laid request (parsed.mergedTables p.toPorts) r front back := by
  unfold layoutChunks at h
  simp only [hmineru] at h
  obtain ⟨x, hx, h⟩ := exists_of_bind_ok h
  obtain rfl : (parsed, probeFailed) = x := by
    rw [hparse] at hx
    exact Except.ok.inj hx
  simp only at h
  split at h
  · cases h
  · rename_i hinked
    obtain ⟨text, htext, h⟩ := exists_of_bind_ok h
    obtain ⟨result, hresult, hr⟩ := exists_of_bind_ok h
    cases hr
    obtain ⟨hsound, hne⟩ := sound_layoutText (stripText_ne_nil_iff.mp hinked) htext
    obtain ⟨back, hlaid⟩ := laid_withTables hsound hne hresult
    exact ⟨text.chunks, back, hlaid.withProbe⟩

/-! ### Processing -/

/-- **The routes of `process`**: a laid out document gives two numbered lists, and every other
content one. -/
theorem routedChunks_split (h : routedChunks p request input = .ok r) :
    (∃ front back, Laid request (laidOutTables p input) r front back) ∨
      (r.Sound request ∧ laidOutTables p input = []) := by
  unfold routedChunks at h
  simp only at h
  unfold laidOutTables
  cases hroute : route (normalizedKind p.unicode input.mediaKind) with
  | text =>
    rw [hroute] at h
    obtain ⟨text, -, h⟩ := exists_of_bind_ok h
    exact Or.inr ⟨sound_textChunks h, by simp⟩
  | csv =>
    rw [hroute] at h
    obtain ⟨text, -, h⟩ := exists_of_bind_ok h
    exact Or.inr ⟨sound_csvChunks h, by simp⟩
  | workbook =>
    rw [hroute] at h
    exact Or.inr ⟨sound_xlsxChunks h, by simp⟩
  | structured =>
    rw [hroute] at h
    obtain ⟨text, -, h⟩ := exists_of_bind_ok h
    exact Or.inr ⟨sound_structuredChunks h, by simp⟩
  | code =>
    rw [hroute] at h
    obtain ⟨text, -, h⟩ := exists_of_bind_ok h
    exact Or.inr ⟨sound_codeChunks h, by simp⟩
  | image =>
    rw [hroute] at h
    exact Or.inr ⟨sound_imageChunks h, by simp⟩
  | unsupported =>
    rw [hroute] at h
    cases h
  | layout =>
    rw [hroute] at h
    left
    cases hmineru : p.mineru with
    | none =>
      simp only [layoutChunks, hmineru] at h
      cases h
    | some mineru =>
      cases hparse : parseLayout (mineru input.content.raw) input.content.raw with
      | error e =>
        simp only [layoutChunks, hmineru, hparse] at h
        cases h
      | ok x =>
        obtain ⟨front, back, hlaid⟩ := layoutChunks_split hmineru hparse h
        exact ⟨front, back, by simpa [hparse] using hlaid⟩

theorem routedChunks_nodup_iff (h : routedChunks p request input = .ok r) :
    (r.chunks.map (·.chunkId)).Nodup ↔
      ∀ t ∈ laidOutTables p input, t.headers = [] ∨ t.rows = [] := by
  rw [← plannedBlocks_eq_nil_iff]
  rcases routedChunks_split h with ⟨front, back, hlaid⟩ | ⟨hsound, hnone⟩
  · rw [hlaid.chunks, nodup_append_iff hlaid.builtFront.numbered hlaid.text
      hlaid.builtBack.numbered, ← length_eq_zero_iff, hlaid.blocks, length_eq_zero_iff]
  · rw [hnone]
    simpa [plannedBlocks] using hsound.built.numbered.nodup

theorem routedChunks_belong (h : routedChunks p request input = .ok r) :
    r.summary.chunkCount = r.chunks.length ∧
      (∀ c ∈ r.chunks, c.generationId = request.expectedGenerationId) ∧
      ∀ c ∈ r.chunks, c.publicationId = request.publicationId := by
  rcases routedChunks_split h with ⟨front, back, hlaid⟩ | ⟨hsound, -⟩
  · refine ⟨hlaid.counted, ?_, ?_⟩
    · intro c hc
      rw [hlaid.chunks] at hc
      exact (mem_append.mp hc).elim (hlaid.builtFront.generation c)
        (hlaid.builtBack.generation c)
    · intro c hc
      rw [hlaid.chunks] at hc
      exact (mem_append.mp hc).elim (hlaid.builtFront.publication c)
        (hlaid.builtBack.publication c)
  · exact ⟨hsound.counted, hsound.built.generation, hsound.built.publication⟩

@[simp] theorem enhanceChunk_chunkId : (enhanceChunk e c).chunkId = c.chunkId := by
  unfold enhanceChunk
  split <;> rfl

@[simp] theorem enhanceChunk_generationId : (enhanceChunk e c).generationId = c.generationId := by
  unfold enhanceChunk
  split <;> rfl

@[simp] theorem enhanceChunk_publicationId :
    (enhanceChunk e c).publicationId = c.publicationId := by
  unfold enhanceChunk
  split <;> rfl

theorem exists_enhance {r' : Chunked} (h : applyContextualRetrieval p.toPorts r = .ok r') :
    ∃ f : IndexChunk → IndexChunk, r'.chunks = r.chunks.map f ∧ r'.summary = r.summary ∧
      (∀ c, (f c).chunkId = c.chunkId) ∧ (∀ c, (f c).generationId = c.generationId) ∧
      ∀ c, (f c).publicationId = c.publicationId := by
  have hsame : ∃ f : IndexChunk → IndexChunk, r.chunks = r.chunks.map f ∧
      r.summary = r.summary ∧ (∀ c, (f c).chunkId = c.chunkId) ∧
      (∀ c, (f c).generationId = c.generationId) ∧ ∀ c, (f c).publicationId = c.publicationId :=
    ⟨id, by simp, rfl, by simp, by simp, by simp⟩
  unfold applyContextualRetrieval at h
  split at h
  · cases h
    exact hsame
  · split at h
    · cases h
      exact hsame
    · obtain ⟨e, -, hr⟩ := exists_of_bind_ok h
      cases hr
      exact ⟨enhanceChunk e, rfl, rfl, by simp, by simp, by simp⟩

/-- What `process` returns comes from the chunks of the content. -/
theorem exists_of_process {out : ProcessingOutput} (h : process p request input = .ok out) :
    ∃ r r', routedChunks p request input = .ok r ∧
      applyContextualRetrieval p.toPorts r = .ok r' ∧
      out = { chunks := r'.chunks, receipt := receipt request input r' } := by
  obtain ⟨_, -, h⟩ := exists_of_bind_ok h
  obtain ⟨r, hr, h⟩ := exists_of_bind_ok h
  obtain ⟨r', hr', h⟩ := exists_of_bind_ok h
  obtain ⟨_, -, hout⟩ := exists_of_bind_ok h
  cases hout
  exact ⟨r, r', hr, hr', rfl⟩

/-! ### Publication -/

/-- No chunk of the publication is stored in the generation. -/
def Unpublished (request : StagingRequest) (rows : List IndexChunk) : Prop :=
  ∀ row ∈ rows, row.generationId = request.expectedGenerationId →
    row.publicationId ≠ request.publicationId

theorem recordPublishedChunks_eq (hnodup : (chunks.map (·.chunkId)).Nodup)
    (hnew : ∀ c ∈ chunks, rows.find? (·.isStoredAs request c.chunkId) = none) :
    recordPublishedChunks request rows chunks = .ok (rows ++ chunks) := by
  induction chunks generalizing rows with
  | nil => simp [recordPublishedChunks]
  | cons c cs ih =>
    rw [map_cons, nodup_cons] at hnodup
    have hrest : ∀ d ∈ cs, (rows ++ [c]).find? (·.isStoredAs request d.chunkId) = none := by
      intro d hd
      rw [List.find?_append, hnew d (mem_cons_of_mem _ hd)]
      -- the chunk just stored has another identity
      have hne : c.chunkId ≠ d.chunkId := by
        intro heq
        exact hnodup.1 (heq ▸ mem_map_of_mem hd)
      simp [IndexChunk.isStoredAs, hne]
    rw [recordPublishedChunks, hnew c mem_cons_self]
    simp only
    rw [ih hnodup.2 hrest, append_assoc, singleton_append]

theorem find_eq_none_of_unpublished (h : Unpublished request rows) (id : String) :
    rows.find? (·.isStoredAs request id) = none := by
  rw [List.find?_eq_none]
  intro row hrow hstored
  simp only [IndexChunk.isStoredAs, Bool.and_eq_true, decide_eq_true_eq] at hstored
  exact h row hrow hstored.1.2 hstored.2

/-- What publication relies on: distinct chunk and resource identities, a resource for every
chunk, the count, and that recording the chunks of a publication that has none stores them
all. -/
structure WellIdentified (request : StagingRequest) (out : ProcessingOutput) : Prop where
  chunks : (out.chunks.map (·.chunkId)).Nodup
  resources : out.receipt.stageResourceIds.Nodup
  correspond : out.receipt.stageResourceIds = out.chunks.map (resourceId request)
  counted : out.receipt.processingSummary.chunkCount = out.chunks.length
  stored : ∀ c ∈ out.chunks, c.isStoredAs request c.chunkId
  recorded : ∀ rows, Unpublished request rows →
    recordPublishedChunks request rows out.chunks = .ok (rows ++ out.chunks)

theorem resourceId_injective {d : IndexChunk} (h : resourceId request c = resourceId request d) :
    c.chunkId = d.chunkId := by
  simpa [resourceId] using h

/-- **When the outputs are well identified**: just when no table of the document, if the
layout parser reads it, has both a header and a row. -/
theorem process_wellIdentified_iff (p : ContentProcessor) (request : StagingRequest)
    (input : Input) (out : ProcessingOutput) (h : process p request input = .ok out) :
    WellIdentified request out ↔ ∀ t ∈ laidOutTables p input, t.headers = [] ∨ t.rows = [] := by
  obtain ⟨r, r', hr, hr', rfl⟩ := exists_of_process h
  obtain ⟨f, hchunks, hsummary, hid, hgeneration, hpublication⟩ := exists_enhance hr'
  obtain ⟨hcount, hgenerations, hpublications⟩ := routedChunks_belong hr
  have hids : r'.chunks.map (·.chunkId) = r.chunks.map (·.chunkId) := by
    rw [hchunks, List.map_map]
    exact List.map_congr_left fun c _ => hid c
  rw [← routedChunks_nodup_iff hr, ← hids]
  constructor
  · intro hwell
    exact hwell.chunks
  · intro hnodup
    have hresources : (receipt request input r').stageResourceIds =
        r'.chunks.map (resourceId request) := by
      simp [receipt, stageResource, Function.comp_def]
    refine ⟨hnodup, ?_, hresources, ?_, ?_, ?_⟩
    · rw [hresources]
      refine List.Nodup.map_on ?_ (List.Nodup.of_map _ hnodup)
      intro c hc d hd hcd
      exact List.inj_on_of_nodup_map hnodup hc hd (resourceId_injective hcd)
    · change r'.summary.chunkCount = r'.chunks.length
      rw [hsummary, hcount, hchunks, List.length_map]
    · intro c hc
      obtain ⟨d, hd, rfl⟩ := List.mem_map.mp (hchunks ▸ hc)
      simp [IndexChunk.isStoredAs, hgeneration, hpublication, hgenerations d hd,
        hpublications d hd]
    · intro rows hrows
      exact recordPublishedChunks_eq hnodup fun c _ => find_eq_none_of_unpublished hrows c.chunkId

/-- A request for one attempt at a document. -/
def sampleRequest : StagingRequest :=
  { jobId := "job", attemptId := "attempt", fencingToken := 1, publicationId := "publication"
    documentId := "document", documentVersionId := "version", spaceId := "space"
    expectedGenerationId := "generation", inputManifestHash := "manifest"
    processingProfileVersion := "profile" }

/-- A processor that knows the letters a to z, for a layout parser with the given result. -/
def sampleProcessor (parsed : Parsed) : ContentProcessor :=
  { unicode :=
      { isLower := Char.isLower, isUpper := Char.isUpper, isAlpha := Char.isAlpha
        isUpperText := fun t => t.any Char.isUpper && !t.any Char.isLower
        title := fun t => (t.head?.map Char.toUpper).toList ++ t.tail.map Char.toLower
        casefold := fun t => t.map Char.toLower
        digit := fun c => if c.isDigit then some (c.toNat - '0'.toNat) else none }
    similar := fun left right => left == right
    csvReader := fun _ => .ok []
    loadWorkbook := fun _ => .ok []
    loads := fun _ _ => .ok .null
    str := fun _ => []
    dumps := fun _ => []
    parsePython := fun _ => none
    findSymbols := fun _ => []
    tokenCount := length
    compress := fun _ t => stripText t
    mineru := some fun _ _ => .ok parsed }

/-- A word processor file. -/
def sampleInput : Input :=
  { content := .bytes .empty, mediaKind := "docx", contentManifestId := "1"
    contentManifestHash := "manifest" }

/-- A page of text. -/
def samplePage : Parsed := { text := "the prices of this year".toList }

/-- The page with a table of one row. -/
def samplePriceList : Parsed :=
  { samplePage with tables := [some
      { headers := ["item".toList, "price".toList], rows := [["tea".toList, "3".toList]] }] }

/-- The chunk identities of the output. -/
def outputIds (r : Except Err ProcessingOutput) : Option (List String) :=
  match r with
  | .ok out => some (out.chunks.map (·.chunkId))
  | .error _ => none

theorem exists_of_outputIds {r : Except Err ProcessingOutput} {ids : List String}
    (h : outputIds r = some ids) : ∃ out, r = .ok out ∧ out.chunks.map (·.chunkId) = ids := by
  cases r with
  | ok out => exact ⟨out, rfl, Option.some.inj h⟩
  | error e => cases h

theorem process_wellIdentified_iff_page :
    ∃ out, process (sampleProcessor samplePage) sampleRequest sampleInput = .ok out ∧
      WellIdentified sampleRequest out := by
  have hids : outputIds (process (sampleProcessor samplePage) sampleRequest sampleInput) =
      some ["chunk_1"] := by decide +kernel
  obtain ⟨out, hout, -⟩ := exists_of_outputIds hids
  refine ⟨out, hout, (process_wellIdentified_iff _ _ _ _ hout).mpr ?_⟩
  decide +kernel

theorem process_not_wellIdentified :
    ¬ ∀ (p : ContentProcessor) (request : StagingRequest) (input : Input)
      (out : ProcessingOutput), process p request input = .ok out →
        WellIdentified request out := by
  intro h
  have hids : outputIds (process (sampleProcessor samplePriceList) sampleRequest sampleInput) =
      some ["chunk_1", "chunk_1"] := by decide +kernel
  obtain ⟨out, hout, hchunks⟩ := exists_of_outputIds hids
  have hnodup := (h _ _ _ _ hout).chunks
  rw [hchunks] at hnodup
  exact absurd hnodup (by decide)

end RagQs.Indexing
