import RagQs.Chat.Retrieval
import RagQs.Indexing.Chunk
import RagQs.Platform.Clocked
import Mathlib.Data.List.Sort

/-!
# Retrieval

A search asks every provider for pages of candidates, keeps the ones the user may see, lets
the reranker order them, reads their visibility again, has the tree router answer from their
documents, and fits what is left into the context.  The providers, the reranker, the routers
and the visibility facts belong to others, and answer as they like at any time.

## Main definitions

* `NarrowingScope`, `intersectScopes` — the scope of a search.
* `visible` — `RetrievalService._visible`.
* `World` — what the search asks, at each time.
* `collectProviderHits`, `collectHybridHits`, `collectBranches` — the candidates.
* `finalRecheck`, `treeHits` — the visibility after the reranker, and the hits of the tree.
* `assemble` — the context.
* `search` — `RetrievalService._search_with_lease`.
-/

namespace RagQs.Indexing

open RagQs.Chat (RetrievalScope DocumentVisibilityFact)

/-! ### Scopes -/

/-- `NarrowingScope` -/
structure NarrowingScope where
  spaceIds : Option (List String) := none
  documentIds : Option (List String) := none

/-- What a client scope leaves of a pair: absent parts restrict nothing. -/
def NarrowingScope.allows (client : NarrowingScope) (spaceId documentId : String) : Bool :=
  client.spaceIds.all (spaceId ∈ ·) && client.documentIds.all (documentId ∈ ·)

/-- The documents of one space in the intersection, when they are bounded for the space. -/
def intersectSpace (server : RetrievalScope) (client : NarrowingScope)
    (documents : Option (List String)) (spaceId : String) : Option (List String) :=
  match server.documentsBySpace.lookup spaceId with
  | none => client.documentIds
  | some serverDocuments =>
    match documents with
    | some ids => some (serverDocuments.filter (· ∈ ids))
    | none => some serverDocuments

/-- `intersect_scopes` -/
def intersectScopes (server : RetrievalScope) (narrowing : Option NarrowingScope) :
    RetrievalScope :=
  match narrowing with
  | none => server
  | some client =>
    let spaces := match client.spaceIds with
      | none => server.spaceIds
      | some ids => server.spaceIds.filter (· ∈ ids)
    let documents := match client.documentIds with
      | none => server.documentIds
      | some ids => match server.documentIds with
        | none => some ids
        | some documents => some (documents.filter (· ∈ ids))
    { spaceIds := spaces
      documentIds := documents
      documentsBySpace := spaces.filterMap fun spaceId =>
        (intersectSpace server client documents spaceId).map (spaceId, ·) }

/-- `RetrievalScope.is_empty` -/
def isEmpty (scope : RetrievalScope) : Bool :=
  scope.spaceIds = [] || scope.documentIds = some [] ||
    scope.spaceIds.all fun spaceId => scope.documentsBySpace.lookup spaceId = some []

/-! ### Hits -/

/-- `RetrievalHit`; a score is anything that can be compared. -/
structure RetrievalHit (Score : Type) where
  chunk : IndexChunk
  score : Score
  source : String
  rerankScore : Option Score := none
  contextText : Option String := none

/-- `RetrievalService._visible` -/
def visible (candidate : IndexChunk) (fact : Option DocumentVisibilityFact)
    (scope : RetrievalScope) (generationId : String) : Bool :=
  candidate.indexable && candidate.generationId == generationId &&
    scope.allows candidate.spaceId candidate.documentId &&
    match fact with
    | none => false
    | some fact =>
      fact.documentId == candidate.documentId && fact.spaceId == candidate.spaceId &&
        fact.lifecycleStatus == "active" &&
        fact.activeVersionId == some candidate.documentVersionId &&
        fact.activePublicationId == some candidate.publicationId &&
        fact.publicationStatus == some "active" &&
        fact.manifestHash == some candidate.manifestHash && fact.readable

/-- A page of a provider: an item that is no candidate is an error. -/
structure Page (Score : Type) where
  items : List (Except Err (IndexChunk × Score))
  cursor : Option String

/-- A document of the outcome of the tree router. -/
structure TreeDocument where
  documentId : String
  status : String
  reason : Option String := none
  /-- The text of the result, when there is a result. -/
  text : Option String := none

/-- The outcome of the tree router. -/
structure TreeOutcome where
  skipped : Bool := false
  reason : Option String := none
  documents : List TreeDocument := []

/-- A provider: `backend_kind`, `provider_name`, and its quota of the candidates. -/
structure Provider where
  kind : String
  name : String
  quota : ℕ

/-- The visibility facts of the documents of some chunks, by space and document. -/
abbrev Facts := (spaceId documentId : String) → Option DocumentVisibilityFact

/-- What a search asks, at each time. -/
structure World (Score : Type) where
  /-- The page of a provider for a query and a cursor. -/
  page : ℕ → Provider → String → Option String → Except Err (Page Score)
  /-- The visibility port; `none` when the service has none. -/
  facts : Option (ℕ → List IndexChunk → Except Err Facts)
  /-- The reranked hits, and the code of a degradation. -/
  rerank : ℕ → String → List (RetrievalHit Score) →
    Except Err (List (RetrievalHit Score) × Option String)
  tree : Option (ℕ → String → List (RetrievalHit Score) → Except Err TreeOutcome) := none
  graph : Option (ℕ → Except Err Unit) := none
  /-- The notice with which the budget refuses an operation; no budget refuses nothing. -/
  budget : ℕ → (operation : String) → Option String := fun _ _ => none

/-- `RetrievalProfile`, resolved for the request. -/
structure RetrievalProfile (Score : Type) where
  topK : ℕ := 20
  effort : String := "quick"
  scoreThreshold : Option Score := none
  contextItemsPerSpace : ℕ := 6
  contextTokensPerSpace : ℕ := 16000
  contextTokensCap : ℕ := 48000
  routeTree : Bool := false
  routeGraph : Bool := false

/-- What the query router gives: the query plan, each query with its strategy, the strategies
that rewrite the query, those of a deep search, and the granularity. -/
structure RouteOutput where
  queryPlan : List (String × String)
  rewrites : List String := []
  strategyOperations : List String := []
  returnGranularity : String := "parent_document"
  prefilter : Option (IndexChunk → Bool) := none

/-- A search: what `_search_with_lease` is called with, and what it looks up first. -/
structure SearchCall (Score : Type) where
  query : String
  generationId : String
  serverScope : RetrievalScope
  narrowing : Option NarrowingScope := none
  profile : RetrievalProfile Score := {}
  route : RouteOutput
  providers : List Provider
  tokenCount : String → ℤ

/-- The scope of a search. -/
def SearchCall.scope {Score : Type} (call : SearchCall Score) : RetrievalScope :=
  intersectScopes call.serverScope call.narrowing

/-- `RetrievalResult`; `rerankedAt` is when the reranker had answered, which no code reads. -/
structure RetrievalResult (Score : Type) where
  hits : List (RetrievalHit Score)
  candidateHits : List (RetrievalHit Score) := []
  degradations : List String := []
  rerankedAt : ℕ := 0

variable {Score : Type}

/-! ### Candidates -/

/-- A computation of a search. -/
abbrev Search (α : Type) := Clocked Err α

/-- `_visibility_facts`: without candidates or without a port nothing is read. -/
def visibilityFacts (w : World Score) (candidates : List IndexChunk) : Search Facts :=
  match w.facts with
  | none => pure fun _ _ => none
  | some facts =>
    if candidates = [] then pure fun _ _ => none
    else do Clocked.ofExcept (← Clocked.ask fun t => facts t candidates)

/-- The error of a provider whose cursor comes again. -/
def cursorStuck : Err :=
  refusal "retrieval_degradation" "provider cursor did not advance" 409

/-- The candidates of one page that may be seen, up to the quota. -/
def takeVisible [Zero Score] (call : SearchCall Score) (provider : Provider) (facts : Facts)
    (hits : List (RetrievalHit Score)) : List (IndexChunk × Score) → List (RetrievalHit Score)
  | [] => hits
  | (candidate, providerScore) :: rest =>
    if !visible candidate (facts candidate.spaceId candidate.documentId) call.scope
        call.generationId then takeVisible call provider facts hits rest
    else if call.route.prefilter.any fun matched => !matched candidate then
      takeVisible call provider facts hits rest
    else
      let score := if provider.kind = "sparse" then 0 else providerScore
      let hits := hits ++ [{ chunk := candidate, score, source := provider.name }]
      if provider.quota ≤ hits.length then hits
      else takeVisible call provider facts hits rest

/-- `_collect_provider_hits`, for at most `fuel` pages: more do not end. -/
def collectProviderHits [Zero Score] (w : World Score) (call : SearchCall Score)
    (provider : Provider) (query : String) (cursor : Option String)
    (cursorsSeen : List (Option String)) (hits : List (RetrievalHit Score)) :
    ℕ → Search (List (RetrievalHit Score))
  | 0 => Clocked.never
  | fuel + 1 =>
    if provider.quota ≤ hits.length then pure hits
    else if cursor ∈ cursorsSeen then Clocked.fail cursorStuck
    else do
      let page ← Clocked.ofExcept (← Clocked.ask fun t => w.page t provider query cursor)
      if page.items.isEmpty && page.cursor.isNone then return hits
      else
        let candidates ← Clocked.ofExcept (page.items.mapM id)
        let facts ← visibilityFacts w (candidates.map (·.1))
        let hits := takeVisible call provider facts hits candidates
        match page.cursor with
        | none => return hits
        | some next =>
          collectProviderHits w call provider query (some next) (cursor :: cursorsSeen) hits fuel

/-- The hits whose chunk is not in the list yet. -/
def addNew (hits : List (RetrievalHit Score)) : List (RetrievalHit Score) →
    List (RetrievalHit Score)
  | [] => hits
  | hit :: rest =>
    if hits.any (·.chunk.dedupeKey = hit.chunk.dedupeKey) then addNew hits rest
    else addNew (hits ++ [hit]) rest

/-- What the providers gave so far: their hits, and how many did and did not answer. -/
structure Collected (Score : Type) where
  hits : List (RetrievalHit Score) := []
  answered : ℕ := 0
  failed : ℕ := 0

/-- The outcome of one provider. -/
def Collected.provider (c : Collected Score) : Except Err (List (RetrievalHit Score)) →
    Collected Score
  | .error _ => { c with failed := c.failed + 1 }
  | .ok hits => { c with hits := addNew c.hits hits, answered := c.answered + 1 }

/-- The error of a query that no provider answered. -/
def retrievalFailed : Err :=
  refusal "retrieval_failed" "dense and sparse retrieval failed" 503

/-- `_collect_hybrid_hits` -/
def collectHybridHits [Zero Score] (w : World Score) (call : SearchCall Score) (fuel : ℕ)
    (query : String) : Search (List (RetrievalHit Score) × List String) := do
  let collected ← Clocked.loop (fun (c : Collected Score) provider => do
    let outcome ← Clocked.attempt (collectProviderHits w call provider query none [] [] fuel)
    return c.provider outcome) {} call.providers
  if collected.answered = 0 then Clocked.fail retrievalFailed
  else return (collected.hits, if collected.failed = 0 then [] else ["retrieval_degraded"])

/-- The strategies the budget refuses to rewrite the query for, and the notices. -/
def blockedStrategies (w : World Score) (call : SearchCall Score) :
    Search (List String × List String) :=
  Clocked.loop (fun (blocked, notices) operation => do
    match ← Clocked.ask fun t => w.budget t "rewrite" with
    | some notice => return (blocked ++ [operation], notices ++ [notice])
    | none => return (blocked, notices)) ([], []) call.route.rewrites

/-- The queries of the plan that the budget lets through, and the notices. -/
def scheduleQueries (w : World Score) (call : SearchCall Score) :
    Search (List (String × String) × List String) := do
  let (blocked, notices) ← blockedStrategies w call
  Clocked.loop (fun (scheduled, notices) (operation, query) => do
    if operation ∈ blocked then return (scheduled, notices)
    else
      match ← Clocked.ask fun t => w.budget t "retrieval" with
      | some notice => return (scheduled, notices ++ [notice])
      | none => return (scheduled ++ [(operation, query)], notices)) ([], notices)
    call.route.queryPlan

/-- What the query branches gave so far. -/
structure Branches (Score : Type) where
  hits : List (RetrievalHit Score) := []
  degradations : List String := []
  successful : ℕ := 0
  defaultFailure : Option Err := none

/-- One query branch; its failure is the failure of the search when there are no strategies. -/
def branch [Zero Score] (w : World Score) (call : SearchCall Score) (fuel : ℕ)
    (b : Branches Score) (operation query : String) : Search (Branches Score) := do
  match ← Clocked.attempt (collectHybridHits w call fuel query) with
  | .ok (hits, degradations) =>
    return { b with
      hits := addNew b.hits hits
      degradations := b.degradations ++ degradations
      successful := b.successful + 1 }
  | .error e =>
    if call.route.strategyOperations = [] then Clocked.fail e
    else if operation = "default_hybrid" then return { b with defaultFailure := some e }
    else return { b with degradations := b.degradations ++ ["retrieval_degraded"] }

/-- The candidates of all query branches. -/
def collectBranches [Zero Score] (w : World Score) (call : SearchCall Score) (fuel : ℕ) :
    Search (Branches Score) := do
  let (scheduled, notices) ← scheduleQueries w call
  let b ← Clocked.loop (fun b (operation, query) => branch w call fuel b operation query)
    { degradations := notices } scheduled
  match b.defaultFailure with
  | some e =>
    if call.route.strategyOperations ≠ [] && b.successful = 0 then Clocked.fail e else return b
  | none => return b

/-! ### After the reranker -/

/-- The score that orders a reranked hit. -/
def RetrievalHit.finalScore (hit : RetrievalHit Score) : Score := hit.rerankScore.getD hit.score

/-- The order of reranked hits: by falling score, equal scores by chunk identity. -/
def ranksBefore [LT Score] [DecidableLT Score] (a b : RetrievalHit Score) : Bool :=
  if b.finalScore < a.finalScore then true
  else if a.finalScore < b.finalScore then false
  else a.chunk.chunkId ≤ b.chunk.chunkId

/-- The reranked hits, whether the reranker degraded, and the degradations. -/
def rerankHits [LT Score] [DecidableLT Score] (w : World Score) (call : SearchCall Score)
    (hits : List (RetrievalHit Score)) :
    Search (List (RetrievalHit Score) × Bool × List String) := do
  match ← Clocked.ask fun t => w.rerank t call.query hits with
  | .error _ => return (hits, true, ["rerank_degraded"])
  | .ok (reranked, some code) => return (reranked, true, [code])
  | .ok (reranked, none) => return (reranked.mergeSort ranksBefore, false, [])

/-- The visibility of the reranked hits, read again: a document can be retired while the
reranker is running. -/
def finalRecheck (w : World Score) (call : SearchCall Score)
    (reranked : List (RetrievalHit Score)) : Search (List (RetrievalHit Score)) :=
  if w.facts.isNone || reranked.isEmpty then pure reranked
  else do
    let facts ← visibilityFacts w (reranked.map (·.chunk))
    return reranked.filter fun hit =>
      visible hit.chunk (facts hit.chunk.spaceId hit.chunk.documentId) call.scope
        call.generationId

/-- `_document_candidates`: the first hit of every document, up to a number. -/
def documentCandidates (maxDocuments : ℕ) (seen : List (String × String)) :
    List (RetrievalHit Score) → List (RetrievalHit Score)
  | [] => []
  | hit :: rest =>
    let key := (hit.chunk.spaceId, hit.chunk.documentId)
    if key ∈ seen then documentCandidates maxDocuments seen rest
    else if maxDocuments = 0 then []
    else hit :: documentCandidates (maxDocuments - 1) (key :: seen) rest

/-- The number of documents of `_EFFORT_LIMITS`. -/
def treeDocumentLimit (effort : String) : ℕ :=
  if effort = "deep" then 9 else if effort = "think" then 7 else 5

/-- The tree hits so far, and the degradations. -/
structure TreeState (Score : Type) where
  hits : List (RetrievalHit Score) := []
  degradations : List String := []

/-- The chunk of a tree result: that of the trigger, with the text of the result. -/
def treeChunk (trigger : RetrievalHit Score) (text : String) : IndexChunk :=
  { trigger.chunk with text }

/-- The documents of a tree outcome; the routing ends with the first error. -/
def treeDocuments (w : World Score) (call : SearchCall Score)
    (candidates : List (RetrievalHit Score)) (s : TreeState Score) :
    List TreeDocument → Search (TreeState Score)
  | [] => pure s
  | document :: rest => do
    if document.status = "missing_document_identity" || document.status = "degraded" then
      treeDocuments w call candidates
        { s with degradations := s.degradations ++ ["retrieval_degraded"] } rest
    else
      let trigger := candidates.reverse.find? (·.chunk.documentId = document.documentId)
      match decide (document.status = "ok"), document.text.map strip, trigger with
      | true, some text, some trigger =>
        if text = "" then treeDocuments w call candidates s rest
        else
          let chunk := treeChunk trigger text
          match ← Clocked.attempt (visibilityFacts w [chunk]) with
          | .error _ => return { s with degradations := s.degradations ++ ["tree_degraded"] }
          | .ok facts =>
            let hit := { chunk, score := trigger.score, source := "tree"
                         rerankScore := trigger.rerankScore : RetrievalHit Score }
            let s := if visible chunk (facts chunk.spaceId chunk.documentId) call.scope
              call.generationId then { s with hits := s.hits ++ [hit] } else s
            treeDocuments w call candidates s rest
      | _, _, _ => treeDocuments w call candidates s rest

/-- The candidates whose document the budget lets through. -/
def affordable (w : World Score) (candidates : List (RetrievalHit Score)) :
    Search (List (RetrievalHit Score) × List String) :=
  Clocked.loop (fun (allowed, degradations) hit => do
    match ← Clocked.ask fun t => w.budget t "tree" with
    | some notice => return (allowed, degradations ++ [notice])
    | none => return (allowed ++ [hit], degradations)) ([], []) candidates

/-- The hits of the tree router. -/
def treeHits (w : World Score) (call : SearchCall Score) (reranked : List (RetrievalHit Score)) :
    Search (TreeState Score) := do
  let candidates := documentCandidates (treeDocumentLimit call.profile.effort) [] reranked
  match w.tree with
  | none => return {}
  | some tree =>
    if call.profile.routeTree && call.profile.effort ≠ "quick" && !candidates.isEmpty &&
        candidates.all (·.rerankScore.isSome) then
      let (searchable, degradations) ← affordable w candidates
      if searchable.isEmpty then return { degradations }
      else
        match ← Clocked.ask fun t => tree t call.query searchable with
        | .error _ => return { degradations := degradations ++ ["tree_degraded"] }
        | .ok outcome =>
          let degradations := if outcome.skipped && outcome.reason.isSome then
            degradations ++ ["retrieval_degraded"] else degradations
          treeDocuments w call candidates { degradations } outcome.documents
    else return {}

/-- The graph router, which gives no hits. -/
def routeGraph (w : World Score) (call : SearchCall Score) : Search (List String) :=
  if call.profile.routeGraph then
    match w.graph with
    | none => pure ["graph_degraded"]
    | some graph => do
      match ← Clocked.ask graph with
      | .ok _ => return []
      | .error _ => return ["graph_degraded"]
  else pure []

/-! ### The context -/

/-- What the assembly of the context has used and taken so far. -/
structure Assembly (Score : Type) where
  budgeted : List (RetrievalHit Score) := []
  deferred : List (RetrievalHit Score) := []
  usedBySpace : List (String × ℕ) := []
  usedTotal : ℕ := 0
  acceptedParents : List (String × String × String) := []
  selectedPerSpace : List (String × ℕ) := []
  degradations : List String := []

/-- `counts.get(key, 0)` -/
def countOf (counts : List (String × ℕ)) (key : String) : ℕ := (counts.lookup key).getD 0

/-- `parent_unit`: the parent of a hit and its text, when the context takes parents. -/
def parentUnit (call : SearchCall Score) (hit : RetrievalHit Score) :
    Option ((String × String × String) × String) :=
  if call.route.returnGranularity = "sub_chunk" || hit.source = "tree" then none
  else match hit.chunk.metadata.parentId, hit.chunk.metadata.parentText with
    | some id, some text =>
      if id = "" || strip text = "" then none
      else some ((hit.chunk.generationId, hit.chunk.publicationId, id), text)
    | _, _ => none

/-- `folded`: the parent of the hit is in the context already. -/
def Assembly.folded (s : Assembly Score) (call : SearchCall Score) (hit : RetrievalHit Score) :
    Bool :=
  (parentUnit call hit).any fun unit => unit.1 ∈ s.acceptedParents

/-- `count_tokens` -/
def countTokens (call : SearchCall Score) (text : String) : Except Err ℕ :=
  if call.tokenCount text < 1 then
    .error (refusal "retrieval_degradation" "token counter is invalid" 409)
  else .ok (call.tokenCount text).toNat

/-- `fits` -/
def Assembly.fits (s : Assembly Score) (call : SearchCall Score) (spaceId : String)
    (tokens : ℕ) : Bool :=
  countOf s.usedBySpace spaceId + tokens ≤ call.profile.contextTokensPerSpace &&
    s.usedTotal + tokens ≤ call.profile.contextTokensCap

/-- The text a hit brings into the context, its tokens, and its parent when that is the text:
where the parent does not fit, the chunk itself is tried. -/
def Assembly.unit (s : Assembly Score) (call : SearchCall Score) (hit : RetrievalHit Score) :
    Except Err (String × ℕ × Option (String × String × String)) := do
  match parentUnit call hit with
  | some (parent, text) =>
    let tokens ← countTokens call text
    if s.fits call hit.chunk.spaceId tokens then return (text, tokens, some parent)
    else return (hit.chunk.text, ← countTokens call hit.chunk.text, none)
  | none => return (hit.chunk.text, ← countTokens call hit.chunk.text, none)

/-- `include`: the hit enters the context if it fits. -/
def Assembly.includeHit (s : Assembly Score) (call : SearchCall Score) (hit : RetrievalHit Score) :
    Except Err (Assembly Score × Bool) := do
  let (text, tokens, parent) ← s.unit call hit
  let spaceId := hit.chunk.spaceId
  if s.fits call spaceId tokens then
    return ({ s with
      budgeted := s.budgeted ++ [{ hit with contextText := some text }]
      usedBySpace := (spaceId, countOf s.usedBySpace spaceId + tokens) :: s.usedBySpace
      usedTotal := s.usedTotal + tokens
      acceptedParents := parent.toList ++ s.acceptedParents }, true)
  else return ({ s with
    degradations := s.degradations ++ ["retrieval_context_budget_exceeded"] }, false)

/-- One hit of the first pass: every space has its number of items. -/
def Assembly.take (call : SearchCall Score) (s : Assembly Score) (hit : RetrievalHit Score) :
    Except Err (Assembly Score) := do
  if s.folded call hit then return s
  else
    let count := countOf s.selectedPerSpace hit.chunk.spaceId
    if call.profile.contextItemsPerSpace ≤ count then
      return { s with deferred := s.deferred ++ [hit] }
    else
      let (s, included) ← s.includeHit call hit
      return if included then
        { s with selectedPerSpace := (hit.chunk.spaceId, count + 1) :: s.selectedPerSpace }
        else s

/-- One hit of the second pass: the deferred hits fill the context up. -/
def Assembly.refill (call : SearchCall Score) (s : Assembly Score) (hit : RetrievalHit Score) :
    Except Err (Assembly Score) := do
  if call.profile.topK ≤ s.budgeted.length || s.folded call hit then return s
  else return (← s.includeHit call hit).1

/-- The context of the filtered hits. -/
def assemble (call : SearchCall Score) (filtered : List (RetrievalHit Score)) :
    Except Err (Assembly Score) := do
  let s ← filtered.foldlM (Assembly.take call) {}
  let room := call.scope.spaceIds.any fun spaceId =>
    countOf s.selectedPerSpace spaceId < call.profile.contextItemsPerSpace
  if room then s.deferred.foldlM (Assembly.refill call) s else return s

/-- Whether a reranked hit reaches the threshold: a degraded reranker gives no scores, and an
exact match of a sparse provider needs none. -/
def reachesThreshold [LE Score] [DecidableLE Score] (call : SearchCall Score) (degraded : Bool)
    (hit : RetrievalHit Score) : Bool :=
  degraded || call.profile.scoreThreshold.all fun threshold =>
    call.providers.any (fun p => p.kind = "sparse" && p.name = hit.source) ||
      hit.rerankScore.any (threshold ≤ ·)

/-- `RetrievalService._search_with_lease`, for providers of at most `fuel` pages. -/
def search [Zero Score] [LT Score] [DecidableLT Score] [LE Score] [DecidableLE Score]
    (w : World Score) (call : SearchCall Score) (fuel : ℕ) : Search (RetrievalResult Score) := do
  if strip call.query = "" then Clocked.fail (validationError "query is required")
  else if isEmpty call.scope then return { hits := [] }
  else
    let branches ← collectBranches w call fuel
    let (reranked, degraded, rerankCodes) ← rerankHits w call branches.hits
    let rerankedAt ← Clocked.ask id
    let reranked ← finalRecheck w call reranked
    let tree ← treeHits w call reranked
    let graphCodes ← routeGraph w call
    let filtered := reranked.filter (reachesThreshold call degraded) ++ tree.hits
    let context ← Clocked.ofExcept (assemble call filtered)
    return { hits := context.budgeted.take call.profile.topK
             candidateHits := branches.hits
             degradations := branches.degradations ++ rerankCodes ++ tree.degradations ++
               graphCodes ++ context.degradations
             rerankedAt }

end RagQs.Indexing
