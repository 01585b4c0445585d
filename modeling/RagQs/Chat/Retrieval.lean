import RagQs.Platform.Json
import Mathlib.Logic.Function.Basic

/-!
# The retrieval port of the chat worker

A search opens a retrieval request, which keeps a lease on one index generation.  The port
remembers the request and the hit of every citation it resolved, and rechecks a citation
before publication through that request.  What it remembers is gone once the citations have
been rechecked, or with the process.

## Main definitions

* `Index`, `RetrievalHit` — the chunks of the index, and what a search returns of them.
* `World` — what the documents and the identity service answer at one time.
* `resolve` — `CitationService.resolve`.
* `RetrievalPort` — the state of an `IndexingChatRetrievalPort`, with its operations.
* `sourceScopeIsCurrent` — the recheck before publication.
* `PortEvent`, `RetrievalPort.after` — the states a port goes through.

## Main results

* `RetrievalPort.revalidate_exact` — when the recheck returns the citations that are still
  available.
-/

namespace RagQs.Chat

open List Function

/-- The identity of a source: document, version, publication and chunk. -/
structure SourceIdentity where
  documentId : String
  documentVersionId : String
  publicationId : String
  chunkId : String
  deriving DecidableEq

/-- What the visibility test reads of a chunk besides its identity. -/
structure ChunkFacts where
  spaceId : String
  manifestHash : String
  indexable : Bool

/-- The chunks that were ever built: a chunk does not change. -/
abbrev Index := SourceIdentity → ChunkFacts

/-- `IndexChunk`: one chunk in one index generation. -/
structure IndexChunk (index : Index) where
  generationId : String
  source : SourceIdentity
  locator : JsonObject
  snippet : Option String

/-- `RetrievalHit` -/
structure RetrievalHit (index : Index) where
  chunk : IndexChunk index
  source : String
  rerankScore : Option ℚ := none
  contextText : String := ""

/-- `RetrievalResult`: the assembled hits and all candidates. -/
structure RetrievalResult (index : Index) where
  hits : List (RetrievalHit index)
  candidateHits : List (RetrievalHit index)
  degradations : List JsonObject := []

/-- `DocumentVisibilityFact` -/
structure DocumentVisibilityFact where
  documentId : String
  spaceId : String
  lifecycleStatus : String
  activeVersionId : Option String
  activePublicationId : Option String
  publicationStatus : Option String
  manifestHash : Option String
  readable : Bool

/-- `RetrievalScope` -/
structure RetrievalScope where
  spaceIds : List String
  documentIds : Option (List String) := none
  documentsBySpace : List (String × List String) := []

/-- `RetrievalScope.allows` -/
def RetrievalScope.allows (scope : RetrievalScope) (spaceId documentId : String) : Bool :=
  if spaceId ∉ scope.spaceIds then false
  else if scope.documentIds.any (documentId ∉ ·) then false
  else match scope.documentsBySpace.lookup spaceId with
    | none => true
    | some documents => documentId ∈ documents

/-- What the documents and the identity service answer at one time: the visibility fact of a
document for a user, and the scope a user may read. -/
structure World where
  visibilityFact : (spaceId documentId userId : String) → Option DocumentVisibilityFact
  allowedScope : (userId : String) → RetrievalScope

variable {index : Index}

/-- `RetrievalService._visible` -/
def visible (candidate : IndexChunk index) (fact : DocumentVisibilityFact)
    (scope : RetrievalScope) (generationId : String) : Bool :=
  let facts := index candidate.source
  facts.indexable && candidate.generationId == generationId &&
    scope.allows facts.spaceId candidate.source.documentId &&
    fact.documentId == candidate.source.documentId && fact.spaceId == facts.spaceId &&
    fact.lifecycleStatus == "active" &&
    fact.activeVersionId == some candidate.source.documentVersionId &&
    fact.activePublicationId == some candidate.source.publicationId &&
    fact.publicationStatus == some "active" &&
    fact.manifestHash == some facts.manifestHash && fact.readable

/-- `CitationService.resolve`, with the lease of the request: whether the hit is available. -/
def resolve (w : World) (userId leaseGenerationId : String) (hit : RetrievalHit index) : Bool :=
  let candidate := hit.chunk
  if candidate.generationId ≠ leaseGenerationId then false
  else
    match w.visibilityFact (index candidate.source).spaceId candidate.source.documentId userId with
    | none => false
    | some fact => visible candidate fact (w.allowedScope userId) leaseGenerationId

/-- A retrieval request: its lease and the generation it keeps. -/
structure RetrievalRequest where
  leaseId : String
  generationId : String
  deriving DecidableEq

/-- A citation as it is published and recorded in a checkpoint. -/
structure Citation where
  source : SourceIdentity
  spaceId : String
  library : String
  locator : JsonObject
  snippet : Option String

/-- What a search hands to the worker for one hit. -/
structure RetrievalHitOutcome where
  source : SourceIdentity
  spaceId : String
  locator : JsonObject
  snippet : Option String
  library : String
  rerankScore : Option ℚ
  contextText : String

/-- The state of an `IndexingChatRetrievalPort`. -/
structure RetrievalPort (index : Index) where
  /-- The request of the last search, and its hits by document and chunk. -/
  activeRequest : Option RetrievalRequest := none
  activeHits : Option (String × String → Option (RetrievalHit index)) := none
  /-- The request and the hit of each citation that was resolved. -/
  retainedCitations : SourceIdentity → Option (RetrievalRequest × RetrievalHit index) :=
    fun _ => none
  retainedRequests : List RetrievalRequest := []
  /-- The requests that were released, the latest first. -/
  released : List RetrievalRequest := []

namespace RetrievalPort

/-- The document and the chunk of a hit. -/
def hitKey (hit : RetrievalHit index) : String × String :=
  (hit.chunk.source.documentId, hit.chunk.source.chunkId)

/-- The hits a search keeps for citation lookup: for a hit of the tree route the first
candidate with its key, otherwise the hit itself. -/
def sourceHits (result : RetrievalResult index) : String × String → Option (RetrievalHit index) :=
  let selected := result.hits.map hitKey
  let first := result.candidateHits.foldl (fun (m : String × String → Option _) hit =>
    if hitKey hit ∈ selected ∧ m (hitKey hit) = none then
      update m (hitKey hit) (some hit) else m) fun _ => none
  result.hits.foldl (fun m hit =>
    if hit.source ≠ "tree" ∨ m (hitKey hit) = none then
      update m (hitKey hit) (some hit) else m) first

/-- Give a request up. -/
def releaseRequest (p : RetrievalPort index) (request : RetrievalRequest) : RetrievalPort index :=
  { p with released := request :: p.released }

/-- `search`, with the request it opened and what that request returned or raised. -/
def search (p : RetrievalPort index) (request : RetrievalRequest)
    (found : Except Err (RetrievalResult index)) :
    Except Err (List RetrievalHitOutcome × List JsonObject) × RetrievalPort index :=
  let p := match p.activeRequest with
    | some active => if active ∈ p.retainedRequests then p else p.releaseRequest active
    | none => p
  let p := { p with activeRequest := none, activeHits := none }
  match found with
  | .error e => (.error e, p.releaseRequest request)
  | .ok result =>
    let p := if result.hits.isEmpty then p.releaseRequest request
      else { p with activeRequest := some request }
    let hits := sourceHits result
    let outcomes := result.hits.map fun hit =>
      let chunk := ((hits (hitKey hit)).getD hit).chunk
      { source := hit.chunk.source, spaceId := (index hit.chunk.source).spaceId,
        locator := chunk.locator, snippet := chunk.snippet,
        library := if hit.source = "" then "unknown" else hit.source,
        rerankScore := hit.rerankScore, contextText := hit.contextText }
    (.ok (outcomes, result.degradations), { p with activeHits := some hits })

/-- The citation of an available hit. -/
def citationOf (hit : RetrievalHit index) : Citation where
  source := hit.chunk.source
  spaceId := (index hit.chunk.source).spaceId
  library := if hit.source = "" then "unknown" else hit.source
  locator := hit.chunk.locator
  snippet := hit.chunk.snippet

/-- One hit of `resolve_citations`: the citation, kept with its request, when the hit is known
and available. -/
def resolveOne (w : World) (userId : String) (request : RetrievalRequest)
    (lookup : String × String → Option (RetrievalHit index))
    (acc : List Citation × RetrievalPort index) (key : String × String) :
    List Citation × RetrievalPort index :=
  match lookup key with
  | none => acc
  | some hit =>
    if resolve w userId request.generationId hit then
      (acc.1 ++ [citationOf hit],
        { acc.2 with
          retainedCitations :=
            update acc.2.retainedCitations hit.chunk.source (some (request, hit))
          retainedRequests := if request ∈ acc.2.retainedRequests then acc.2.retainedRequests
            else acc.2.retainedRequests ++ [request] })
    else acc

/-- `resolve_citations` of the hits with these documents and chunks. -/
def resolveCitations (p : RetrievalPort index) (w : World) (userId : String)
    (keys : List (String × String)) : Except Err (List Citation) × RetrievalPort index :=
  match p.activeRequest, p.activeHits with
  | some request, some lookup =>
    let r := keys.foldl (resolveOne w userId request lookup) ([], p)
    (.ok r.1, r.2)
  | _, _ =>
    (.error (.platform
      { code := "retrieval_request_required"
        message := "Citation resolution requires the originating retrieval request"
        statusCode := 409 }), p)

/-- `close`: every request that is held is given up, and nothing is remembered. -/
def close (p : RetrievalPort index) : RetrievalPort index :=
  let requests := match p.activeRequest with
    | some active => if active ∈ p.retainedRequests then p.retainedRequests
        else p.retainedRequests ++ [active]
    | none => p.retainedRequests
  { released := requests.reverse ++ p.released }

/-- One citation of `revalidate_citations`. -/
def recheck (p : RetrievalPort index) (w : World) (userId : String) (citation : Citation) :
    Option Citation :=
  match p.retainedCitations citation.source with
  | none => none
  | some (request, hit) =>
    if resolve w userId request.generationId hit then
      some { citationOf hit with library := citation.library, spaceId := citation.spaceId }
    else none

/-- `revalidate_citations` -/
def revalidateCitations (p : RetrievalPort index) (w : World) (userId : String)
    (citations : List Citation) : List Citation × RetrievalPort index :=
  (citations.filterMap (p.recheck w userId), p.close)

end RetrievalPort

/-- The citations with each identity once, in the order they first occur. -/
def distinctSources (citations : List Citation) : List Citation :=
  citations.foldl (fun kept c => if kept.any (·.source = c.source) then kept else kept ++ [c]) []

/-- `_source_scope_is_current` for the citations of the candidates: the identities the recheck
returns are those of the citations. -/
def sourceScopeIsCurrent (p : RetrievalPort index) (w : World) (userId : String)
    (candidates : List (List Citation)) : Bool × RetrievalPort index :=
  let citations := distinctSources candidates.flatten
  if citations.isEmpty then (true, p)
  else
    let r := p.revalidateCitations w userId citations
    let expected := citations.map Citation.source
    let current := r.1.map Citation.source
    (current.all (· ∈ expected) && expected.all (· ∈ current), r.2)

/-! ### The states of a port -/

/-- A call of the port, with what the documents, the identity service and the retrieval
answered to it. -/
inductive PortEvent (index : Index)
  | search (request : RetrievalRequest) (found : Except Err (RetrievalResult index))
  | resolveCitations (w : World) (userId : String) (keys : List (String × String))
  | revalidateCitations (w : World) (userId : String) (citations : List Citation)
  | close

namespace RetrievalPort

/-- The port after one call. -/
def call (p : RetrievalPort index) : PortEvent index → RetrievalPort index
  | .search request found => (p.search request found).2
  | .resolveCitations w userId keys => (p.resolveCitations w userId keys).2
  | .revalidateCitations w userId citations => (p.revalidateCitations w userId citations).2
  | .close => p.close

/-- A port of a new process after some calls. -/
def after (events : List (PortEvent index)) : RetrievalPort index := events.foldl call {}

/-- What a port remembers for a citation is the hit of that citation, with a request on the
generation of the hit. -/
def Faithful (p : RetrievalPort index) : Prop :=
  ∀ source request hit, p.retainedCitations source = some (request, hit) →
    hit.chunk.source = source ∧ hit.chunk.generationId = request.generationId

theorem Faithful.empty : ({} : RetrievalPort index).Faithful := fun _ _ _ h => by cases h

theorem Faithful.close (p : RetrievalPort index) : p.close.Faithful := fun _ _ _ h => by cases h

theorem search_retainedCitations (p : RetrievalPort index) (request : RetrievalRequest)
    (found : Except Err (RetrievalResult index)) :
    (p.search request found).2.retainedCitations = p.retainedCitations := by
  unfold search releaseRequest
  cases p.activeRequest with
  | none =>
    cases found with
    | error e => rfl
    | ok result => cases h : result.hits.isEmpty <;> simp [h]
  | some active =>
    by_cases hmem : active ∈ p.retainedRequests
    · cases found with
      | error e => simp [hmem]
      | ok result => cases h : result.hits.isEmpty <;> simp [hmem, h]
    · cases found with
      | error e => simp [hmem]
      | ok result => cases h : result.hits.isEmpty <;> simp [hmem, h]

theorem generationId_of_resolve {w : World} {userId generationId : String}
    {hit : RetrievalHit index} (h : resolve w userId generationId hit = true) :
    hit.chunk.generationId = generationId := by
  by_contra hne
  simp [resolve, hne] at h

theorem Faithful.resolveOne {w : World} {userId : String} {request : RetrievalRequest}
    {lookup : String × String → Option (RetrievalHit index)}
    {acc : List Citation × RetrievalPort index} (h : acc.2.Faithful) (key : String × String) :
    (RetrievalPort.resolveOne w userId request lookup acc key).2.Faithful := by
  unfold RetrievalPort.resolveOne
  cases lookup key with
  | none => exact h
  | some hit =>
    by_cases hres : resolve w userId request.generationId hit = true
    · simp only [hres, if_true]
      intro source request' hit' hget
      simp only at hget
      by_cases hs : source = hit.chunk.source
      · subst hs
        rw [update_self] at hget
        cases hget
        exact ⟨rfl, generationId_of_resolve hres⟩
      · rw [update_of_ne hs] at hget
        exact h source request' hit' hget
    · simp only [hres]
      exact h

theorem Faithful.resolveCitations {p : RetrievalPort index} (h : p.Faithful) (w : World)
    (userId : String) (keys : List (String × String)) :
    (p.resolveCitations w userId keys).2.Faithful := by
  unfold RetrievalPort.resolveCitations
  split
  · next request lookup _ _ =>
    suffices hfold : ∀ acc : List Citation × RetrievalPort index, acc.2.Faithful →
        (keys.foldl (RetrievalPort.resolveOne w userId request lookup) acc).2.Faithful from
      hfold ([], p) h
    induction keys with
    | nil => exact fun acc hacc => hacc
    | cons key keys ih => exact fun acc hacc => ih _ (hacc.resolveOne key)
  · exact h

theorem Faithful.call {p : RetrievalPort index} (h : p.Faithful) (e : PortEvent index) :
    (p.call e).Faithful := by
  cases e with
  | search request found =>
    intro source request' hit hget
    rw [RetrievalPort.call, search_retainedCitations] at hget
    exact h source request' hit hget
  | resolveCitations w userId keys => exact h.resolveCitations w userId keys
  | revalidateCitations w userId citations => exact .close p
  | close => exact .close p

theorem after_faithful (events : List (PortEvent index)) : (after events).Faithful := by
  suffices h : ∀ p : RetrievalPort index, p.Faithful → (events.foldl call p).Faithful from
    h {} .empty
  induction events with
  | nil => exact fun p hp => hp
  | cons e events ih => exact fun p hp => ih _ (hp.call e)

end RetrievalPort

/-! ### The recheck -/

/-- The source is still published, visible and authorized for the user. -/
def stillAvailable (index : Index) (w : World) (userId : String) (source : SourceIdentity) :
    Bool :=
  let facts := index source
  facts.indexable && (w.allowedScope userId).allows facts.spaceId source.documentId &&
    match w.visibilityFact facts.spaceId source.documentId userId with
    | none => false
    | some fact =>
      fact.documentId == source.documentId && fact.spaceId == facts.spaceId &&
        fact.lifecycleStatus == "active" && fact.activeVersionId == some source.documentVersionId &&
        fact.activePublicationId == some source.publicationId &&
        fact.publicationStatus == some "active" && fact.manifestHash == some facts.manifestHash &&
        fact.readable

theorem resolve_eq_stillAvailable {w : World} {userId generationId : String}
    {hit : RetrievalHit index} (h : hit.chunk.generationId = generationId) :
    resolve w userId generationId hit = stillAvailable index w userId hit.chunk.source := by
  unfold resolve stillAvailable visible
  simp only [h, ne_eq, not_true_eq_false, if_false, beq_self_eq_true, Bool.and_true]
  cases w.visibilityFact (index hit.chunk.source).spaceId hit.chunk.source.documentId userId with
  | none => rw [Bool.and_false]
  | some fact => simp only [Bool.and_assoc]

namespace RetrievalPort

variable {p : RetrievalPort index} {w : World} {userId : String}

theorem recheck_isSome (h : p.Faithful) (c : Citation) :
    (p.recheck w userId c).isSome
      = ((p.retainedCitations c.source).isSome && stillAvailable index w userId c.source) := by
  unfold recheck
  cases hget : p.retainedCitations c.source with
  | none => rfl
  | some x =>
    obtain ⟨request, hit⟩ := x
    obtain ⟨hsource, hgen⟩ := h _ _ _ hget
    simp only [resolve_eq_stillAvailable hgen, hsource, Option.isSome_some, Bool.true_and]
    cases stillAvailable index w userId c.source <;> rfl

theorem recheck_source (h : p.Faithful) {c r : Citation} (hr : p.recheck w userId c = some r) :
    r.source = c.source := by
  unfold recheck at hr
  cases hget : p.retainedCitations c.source with
  | none => simp [hget] at hr
  | some x =>
    obtain ⟨request, hit⟩ := x
    obtain ⟨hsource, -⟩ := h _ _ _ hget
    simp only [hget] at hr
    split at hr
    · cases hr
      exact hsource
    · cases hr

theorem revalidate_sources (h : p.Faithful) (citations : List Citation) :
    (p.revalidateCitations w userId citations).1.map Citation.source
      = (citations.filter fun c => (p.retainedCitations c.source).isSome &&
          stillAvailable index w userId c.source).map Citation.source := by
  unfold revalidateCitations
  induction citations with
  | nil => rfl
  | cons c citations ih =>
    have hc : (p.recheck w userId c).isSome = _ := recheck_isSome h c
    rw [filter_cons]
    cases hr : p.recheck w userId c with
    | none =>
      rw [hr] at hc
      rw [filterMap_cons_none hr, if_neg (by rw [← hc]; exact Bool.false_ne_true)]
      exact ih
    | some r =>
      rw [hr] at hc
      rw [filterMap_cons_some hr, if_pos (by rw [← hc]; rfl), map_cons, map_cons,
        recheck_source h hr]
      exact congrArg _ ih

private theorem map_filter_and_eq {α β : Type} (l : List α) (f : α → β) (r a : α → Bool) :
    (l.filter fun x => r x && a x).map f = (l.filter a).map f ↔ ∀ x ∈ l, a x = true → r x = true := by
  constructor
  · intro h
    have hlen : (l.filter fun x => r x && a x).length = (l.filter a).length := by
      simpa using congrArg length h
    have hsub : (l.filter a).filter r = l.filter fun x => r x && a x := by
      rw [filter_filter]
    rw [← hsub, length_filter_eq_length_iff] at hlen
    exact fun x hx ha => hlen x (mem_filter.mpr ⟨hx, ha⟩)
  · intro h
    refine congrArg _ (filter_congr fun x hx => ?_)
    cases ha : a x with
    | false => rw [Bool.and_false]
    | true => rw [h x hx ha, Bool.and_true]

/-- The recheck returns exactly the citations whose sources are still available. -/
def RecheckExact (p : RetrievalPort index) (w : World) (userId : String)
    (citations : List Citation) : Prop :=
  (p.revalidateCitations w userId citations).1.map Citation.source
    = (citations.filter fun c => stillAvailable index w userId c.source).map Citation.source

/-- The port remembers the citation. -/
def Remembers (p : RetrievalPort index) (c : Citation) : Prop :=
  (p.retainedCitations c.source).isSome = true

theorem Faithful.recheckExact_iff (h : p.Faithful) (citations : List Citation) :
    p.RecheckExact w userId citations ↔
      ∀ c ∈ citations, stillAvailable index w userId c.source = true → p.Remembers c := by
  unfold RecheckExact
  rw [revalidate_sources h]
  exact map_filter_and_eq citations Citation.source (fun c => (p.retainedCitations c.source).isSome)
    fun c => stillAvailable index w userId c.source

end RetrievalPort

/-! ### The recheck before publication -/

private theorem mem_distinctSources_iff (citations : List Citation) (s : SourceIdentity) :
    s ∈ (distinctSources citations).map Citation.source ↔ s ∈ citations.map Citation.source := by
  unfold distinctSources
  suffices h : ∀ kept : List Citation,
      s ∈ (citations.foldl (fun kept c => if kept.any (·.source = c.source) then kept
        else kept ++ [c]) kept).map Citation.source ↔
      s ∈ kept.map Citation.source ∨ s ∈ citations.map Citation.source by
    simpa using h []
  induction citations with
  | nil => intro kept; simp
  | cons c citations ih =>
    intro kept
    rw [foldl_cons, ih]
    by_cases hc : kept.any (·.source = c.source) = true
    · rw [if_pos hc]
      -- a repeated identity was there before
      obtain ⟨k, hk, hks⟩ := any_eq_true.mp hc
      have hmem : c.source ∈ kept.map Citation.source :=
        mem_map.mpr ⟨k, hk, by simpa using hks⟩
      simp only [map_cons, mem_cons]
      constructor
      · rintro (h | h)
        · exact .inl h
        · exact .inr (.inr h)
      · rintro (h | rfl | h)
        · exact .inl h
        · exact .inl hmem
        · exact .inr h
    · rw [if_neg hc]
      simp only [map_append, map_cons, map_nil, mem_append, mem_cons,
        not_mem_nil, or_false, or_assoc]

theorem sourceScopeIsCurrent_iff {p : RetrievalPort index} (h : p.Faithful) (w : World)
    (userId : String) (candidates : List (List Citation)) :
    (sourceScopeIsCurrent p w userId candidates).1 = true ↔
      ∀ c ∈ candidates.flatten, p.Remembers c ∧ stillAvailable index w userId c.source = true := by
  have hiff : ∀ s : SourceIdentity, s ∈ (distinctSources candidates.flatten).map Citation.source ↔
      s ∈ candidates.flatten.map Citation.source := mem_distinctSources_iff _
  unfold sourceScopeIsCurrent
  simp only
  by_cases hempty : (distinctSources candidates.flatten).isEmpty = true
  · rw [if_pos hempty]
    rw [List.isEmpty_iff] at hempty
    refine iff_of_true rfl fun c hc => ?_
    have := (hiff c.source).mpr (mem_map.mpr ⟨c, hc, rfl⟩)
    rw [hempty] at this
    cases this
  · rw [if_neg hempty, RetrievalPort.revalidate_sources h]
    simp only [Bool.and_eq_true, all_eq_true, decide_eq_true_eq]
    constructor
    · rintro ⟨-, hall⟩ c hc
      obtain ⟨c', hc', hs⟩ := mem_map.mp
        (hall c.source ((hiff _).mpr (mem_map.mpr ⟨c, hc, rfl⟩)))
      obtain ⟨-, hkept⟩ := mem_filter.mp hc'
      rw [hs, Bool.and_eq_true] at hkept
      exact hkept
    · intro hall
      refine ⟨fun s hs => ?_, fun s hs => ?_⟩
      · obtain ⟨c', hc', rfl⟩ := mem_map.mp hs
        exact mem_map.mpr ⟨c', (mem_filter.mp hc').1, rfl⟩
      · obtain ⟨c', hc', rfl⟩ := mem_map.mp hs
        refine mem_map.mpr ⟨c', mem_filter.mpr ⟨hc', ?_⟩, rfl⟩
        obtain ⟨c, hc, hcs⟩ := mem_map.mp ((hiff _).mp hs)
        obtain ⟨hr, ha⟩ := hall c hc
        rw [hcs] at ha
        unfold RetrievalPort.Remembers at hr
        rw [hcs] at hr
        rw [hr, ha, Bool.and_true]

/-- **The recheck of recorded citations.**  On a port in any state it returns exactly the
citations that are still available when the port remembers each of these, whichever process
resolved them; and publication accepts available citations under the same condition. -/
theorem RetrievalPort.revalidate_exact (events : List (PortEvent index)) (w : World)
    (userId : String) :
    (∀ citations, (after events).RecheckExact w userId citations ↔
      ∀ c ∈ citations, stillAvailable index w userId c.source = true →
        (after events).Remembers c) ∧
    ∀ candidates : List (List Citation),
      (∀ c ∈ candidates.flatten, stillAvailable index w userId c.source = true) →
      ((sourceScopeIsCurrent (after events) w userId candidates).1 = true ↔
        ∀ c ∈ candidates.flatten, (after events).Remembers c) := by
  have h := after_faithful events
  refine ⟨h.recheckExact_iff, fun candidates havail => ?_⟩
  rw [sourceScopeIsCurrent_iff h]
  exact ⟨fun hall c hc => (hall c hc).1, fun hall c hc => ⟨hall c hc, havail c hc⟩⟩

/-! ### A recovered answer -/

/-- An index of one public document. -/
def sampleIndex : Index := fun _ => ⟨"public", "manifest", true⟩

/-- The one chunk that is cited. -/
def sampleSource : SourceIdentity := ⟨"doc", "ver", "pub", "chunk"⟩

/-- A time at which the document is active and readable. -/
def sampleWorld : World where
  visibilityFact _ documentId _ :=
    some ⟨documentId, "public", "active", some "ver", some "pub", some "active", some "manifest",
      true⟩
  allowedScope _ := { spaceIds := ["public"] }

/-- The search and the resolution of the process that asked the model. -/
def sampleEvents : List (PortEvent sampleIndex) :=
  [.search ⟨"lease", "gen"⟩ (.ok
    { hits := [{ chunk := ⟨"gen", sampleSource, [], none⟩, source := "public" }]
      candidateHits := [] })]

theorem RetrievalPort.recovered_citation_rejected :
    ¬ ∀ (index : Index) (events events' : List (PortEvent index)) (w w' : World) (userId : String)
      (keys : List (String × String)) (citations : List Citation)
      (_ : ((after events).resolveCitations w userId keys).1 = .ok citations),
      (after events').RecheckExact w' userId citations := by
  intro h
  have := h sampleIndex sampleEvents [] sampleWorld sampleWorld "u" [("doc", "chunk")]
    [⟨sampleSource, "public", "public", [], none⟩] rfl
  unfold RetrievalPort.RecheckExact at this
  exact absurd this (by decide)

end RagQs.Chat
