import RagQs.Indexing.Retrieval

/-!
# Retrieval returns accessible chunks

Whatever the providers, the reranker and the routers answer, and however the visibility facts
change between two reads, the hits of a search have passed the visibility test on facts read
after the reranker answered.

## Main definitions

* `Matches` — an active, readable visibility fact that agrees with a chunk.
* `Accessible` — a chunk in the leased generation and in both scopes, with a matching fact
  read at one of given times.

## Main results

* `allows_intersectScopes` — the intersection allows what both scopes allow.
* `ends_collectBranches` — the candidates have passed the test, on facts read then.
* `search_accessible` — the hits of a search are accessible.
-/

namespace RagQs.Indexing

open List Option

open RagQs.Chat (RetrievalScope DocumentVisibilityFact)

variable {Score : Type}
variable {spaceId documentId : String}
variable {scope : RetrievalScope} {chunks : List IndexChunk} {provider : Provider}

/-! ### Scopes -/

theorem lookup_filterMap {f : String → Option (List String)} {l : List String} {x : String}
    (hx : x ∈ l) : (l.filterMap fun y => (f y).map (y, ·)).lookup x = f x := by
  induction l with
  | nil => cases hx
  | cons y l ih =>
    by_cases hxy : x = y
    · subst hxy
      cases hf : f x with
      | some v => simp [hf]
      | none =>
        -- no later entry has the key either
        rw [filterMap_cons_none (by simp [hf]), lookup_eq_none_iff]
        intro p hp
        obtain ⟨z, -, hz⟩ := mem_filterMap.mp hp
        obtain ⟨v, hv, rfl⟩ := map_eq_some_iff.mp hz
        have hne : x ≠ z := by
          rintro rfl
          rw [hf] at hv
          cases hv
        simpa using hne
    · have hl : x ∈ l := (mem_cons.mp hx).resolve_left hxy
      cases hf : f y with
      | some v =>
        have hne : (x == y) = false := by simpa using hxy
        simp only [filterMap_cons, hf, map_some, lookup_cons, hne]
        exact ih hl
      | none =>
        rw [filterMap_cons_none (by simp [hf])]
        exact ih hl

theorem allows_iff :
    scope.allows spaceId documentId = true ↔
      spaceId ∈ scope.spaceIds ∧ (∀ ids ∈ scope.documentIds, documentId ∈ ids) ∧
        ∀ ids ∈ scope.documentsBySpace.lookup spaceId, documentId ∈ ids := by
  unfold RetrievalScope.allows
  by_cases hspace : spaceId ∈ scope.spaceIds
  · cases hdocuments : scope.documentIds with
    | none => cases scope.documentsBySpace.lookup spaceId <;> simp [hspace]
    | some ids =>
      by_cases hmem : documentId ∈ ids
      · cases scope.documentsBySpace.lookup spaceId <;> simp [hspace, hmem]
      · simp [hspace, hmem]
  · simp [hspace]

theorem narrowing_allows_iff {client : NarrowingScope} :
    client.allows spaceId documentId = true ↔
      (∀ ids ∈ client.spaceIds, spaceId ∈ ids) ∧ ∀ ids ∈ client.documentIds, documentId ∈ ids := by
  obtain ⟨spaces, documents⟩ := client
  cases spaces <;> cases documents <;> simp [NarrowingScope.allows]

/-- **The intersection of two scopes** allows a document just when both do. -/
theorem allows_intersectScopes {server : RetrievalScope} {narrowing : Option NarrowingScope} :
    (intersectScopes server narrowing).allows spaceId documentId = true ↔
      server.allows spaceId documentId = true ∧
        ∀ client ∈ narrowing, client.allows spaceId documentId = true := by
  cases narrowing with
  | none => simp [intersectScopes]
  | some client =>
    have hspaces : spaceId ∈ (intersectScopes server (some client)).spaceIds ↔
        spaceId ∈ server.spaceIds ∧ ∀ ids ∈ client.spaceIds, spaceId ∈ ids := by
      cases hclient : client.spaceIds <;> simp [intersectScopes, hclient]
    have hdocuments : (∀ ids ∈ (intersectScopes server (some client)).documentIds,
        documentId ∈ ids) ↔ (∀ ids ∈ server.documentIds, documentId ∈ ids) ∧
          ∀ ids ∈ client.documentIds, documentId ∈ ids := by
      cases hclient : client.documentIds <;> cases hserver : server.documentIds <;>
        simp [intersectScopes, hclient, hserver]
    simp only [mem_some_iff, forall_eq', narrowing_allows_iff]
    rw [allows_iff, allows_iff, hspaces, hdocuments]
    -- the bound of the space is the server's, cut to the documents of the intersection
    have hbound (hmem : spaceId ∈ (intersectScopes server (some client)).spaceIds) :
        (intersectScopes server (some client)).documentsBySpace.lookup spaceId =
          intersectSpace server client (intersectScopes server (some client)).documentIds
            spaceId := lookup_filterMap hmem
    constructor
    · rintro ⟨⟨hserver, hclient⟩, ⟨hids, hnarrow⟩, hspace⟩
      rw [hbound (hspaces.mpr ⟨hserver, hclient⟩)] at hspace
      refine ⟨⟨hserver, hids, ?_⟩, hclient, hnarrow⟩
      intro ids hlookup
      unfold intersectSpace at hspace
      rw [mem_def.mp hlookup] at hspace
      cases hdocs : (intersectScopes server (some client)).documentIds with
      | none =>
        rw [hdocs] at hspace
        exact hspace ids rfl
      | some documents =>
        rw [hdocs] at hspace
        exact (mem_filter.mp (hspace _ rfl)).1
    · rintro ⟨⟨hserver, hids, hlookup⟩, hclient, hnarrow⟩
      refine ⟨⟨hserver, hclient⟩, ⟨hids, hnarrow⟩, ?_⟩
      rw [hbound (hspaces.mpr ⟨hserver, hclient⟩)]
      intro ids hmem
      unfold intersectSpace at hmem
      cases hspace : server.documentsBySpace.lookup spaceId with
      | none =>
        rw [hspace] at hmem
        exact hnarrow ids hmem
      | some bound =>
        rw [hspace] at hmem
        have hbound := hlookup bound hspace
        cases hdocs : (intersectScopes server (some client)).documentIds with
        | none =>
          rw [hdocs] at hmem
          cases hmem
          exact hbound
        | some documents =>
          rw [hdocs] at hmem
          cases hmem
          have hin := hdocuments.mpr ⟨hids, hnarrow⟩ documents hdocs
          exact mem_filter.mpr ⟨hbound, by simpa using hin⟩

/-! ### Visibility -/

/-- An active, readable visibility fact that agrees with the chunk in its document, version,
publication and manifest. -/
structure Matches (fact : DocumentVisibilityFact) (chunk : IndexChunk) : Prop where
  documentId : fact.documentId = chunk.documentId
  spaceId : fact.spaceId = chunk.spaceId
  lifecycleStatus : fact.lifecycleStatus = "active"
  activeVersionId : fact.activeVersionId = some chunk.documentVersionId
  activePublicationId : fact.activePublicationId = some chunk.publicationId
  publicationStatus : fact.publicationStatus = some "active"
  manifestHash : fact.manifestHash = some chunk.manifestHash
  readable : fact.readable = true

/-- A visibility fact about a document that the port gave at a time. -/
def ReadAt (w : World Score) (t : ℕ) (spaceId documentId : String)
    (fact : DocumentVisibilityFact) : Prop :=
  ∃ facts, w.facts = some facts ∧ ∃ chunks f, facts t chunks = .ok f ∧
    f spaceId documentId = some fact

/-- A chunk of the leased generation that both scopes allow and that a fact, read at one of the
given times, matches. -/
structure Accessible (w : World Score) (call : SearchCall Score) (times : ℕ → Prop)
    (chunk : IndexChunk) : Prop where
  generation : chunk.generationId = call.generationId
  server : call.serverScope.allows chunk.spaceId chunk.documentId = true
  narrowing : ∀ client ∈ call.narrowing, client.allows chunk.spaceId chunk.documentId = true
  fact : ∃ t, times t ∧ ∃ fact, ReadAt w t chunk.spaceId chunk.documentId fact ∧
    Matches fact chunk

theorem of_visible {candidate : IndexChunk} {fact : Option DocumentVisibilityFact}
    {generationId : String} (h : visible candidate fact scope generationId = true) :
    candidate.generationId = generationId ∧
      scope.allows candidate.spaceId candidate.documentId = true ∧
      ∃ f, fact = some f ∧ Matches f candidate := by
  unfold visible at h
  cases fact with
  | none => simp at h
  | some f =>
    simp only [Bool.and_eq_true, beq_iff_eq] at h
    obtain ⟨⟨⟨-, hgeneration⟩, hscope⟩, ⟨⟨⟨⟨⟨⟨hdocument, hspace⟩, hlifecycle⟩, hversion⟩,
      hpublication⟩, hstatus⟩, hmanifest⟩, hreadable⟩ := h
    exact ⟨hgeneration, hscope, f, rfl, hdocument, hspace, hlifecycle, hversion, hpublication,
      hstatus, hmanifest, hreadable⟩

/-- Facts that the port gave at one of the given times; it may know nothing. -/
def FactsIn (w : World Score) (times : ℕ → Prop) (f : Facts) : Prop :=
  ∀ spaceId documentId fact, f spaceId documentId = some fact →
    ∃ t, times t ∧ ReadAt w t spaceId documentId fact

variable {w : World Score} {call : SearchCall Score} {times : ℕ → Prop} {after t : ℕ}

theorem accessible_of_visible {chunk : IndexChunk} {f : Facts} (hf : FactsIn w times f)
    (h : visible chunk (f chunk.spaceId chunk.documentId) call.scope call.generationId = true) :
    Accessible w call times chunk := by
  obtain ⟨hgeneration, hscope, fact, hfact, hmatches⟩ := of_visible h
  obtain ⟨hserver, hnarrowing⟩ := allows_intersectScopes.mp hscope
  obtain ⟨t, ht, hread⟩ := hf _ _ fact hfact
  exact ⟨hgeneration, hserver, hnarrowing, t, ht, fact, hread, hmatches⟩

theorem ends_visibilityFacts (ht : times t) :
    (visibilityFacts w chunks).Ends t fun f t' => t ≤ t' ∧ FactsIn w times f := by
  unfold visibilityFacts
  have hnone : FactsIn w times fun _ _ => none := by
    intro spaceId documentId fact h
    cases h
  split
  · exact Clocked.ends_pure ⟨le_rfl, hnone⟩
  · rename_i facts hfacts
    split
    · exact Clocked.ends_pure ⟨le_rfl, hnone⟩
    · refine Clocked.Ends.bind (Clocked.ends_ask (Clocked.ends_ofExcept ?_))
      intro f hf
      refine ⟨Nat.le_succ t, ?_⟩
      intro spaceId documentId fact hfact
      exact ⟨t, ht, facts, hfacts, chunks, f, hf, hfact⟩

/-- The hits have accessible chunks. -/
def AllAccessible (w : World Score) (call : SearchCall Score) (times : ℕ → Prop)
    (hits : List (RetrievalHit Score)) : Prop := ∀ hit ∈ hits, Accessible w call times hit.chunk

theorem allAccessible_nil : AllAccessible w call times [] := by
  intro hit h
  cases h

theorem AllAccessible.append {front back : List (RetrievalHit Score)}
    (hfront : AllAccessible w call times front) (hback : AllAccessible w call times back) :
    AllAccessible w call times (front ++ back) := by
  intro hit h
  exact (mem_append.mp h).elim (hfront hit) (hback hit)

theorem AllAccessible.append_one {hits : List (RetrievalHit Score)} {hit : RetrievalHit Score}
    (hhits : AllAccessible w call times hits) (hhit : Accessible w call times hit.chunk) :
    AllAccessible w call times (hits ++ [hit]) := by
  refine hhits.append ?_
  intro x hx
  obtain rfl := mem_singleton.mp hx
  exact hhit

/-! ### Candidates -/

section Candidates

variable {hits : List (RetrievalHit Score)} {fuel : ℕ} {query : String}

theorem AllAccessible.takeVisible [Zero Score] {f : Facts} (hf : FactsIn w times f)
    {candidates : List (IndexChunk × Score)} (h : AllAccessible w call times hits) :
    AllAccessible w call times (takeVisible call provider f hits candidates) := by
  induction candidates generalizing hits with
  | nil => exact h
  | cons x rest ih =>
    obtain ⟨candidate, providerScore⟩ := x
    unfold Indexing.takeVisible
    split
    · exact ih h
    · rename_i hvisible
      have hone : ∀ hit : RetrievalHit Score, hit.chunk = candidate →
          AllAccessible w call times (hits ++ [hit]) := by
        rintro hit rfl
        exact h.append_one (accessible_of_visible hf (by simpa using hvisible))
      split
      · exact ih h
      · generalize (if provider.kind = "sparse" then (0 : Score) else providerScore) = score
        simp only
        split
        · apply hone
          rfl
        · apply ih
          apply hone
          rfl

theorem AllAccessible.addNew {new : List (RetrievalHit Score)}
    (h : AllAccessible w call times hits) (hnew : AllAccessible w call times new) :
    AllAccessible w call times (addNew hits new) := by
  induction new generalizing hits with
  | nil => exact h
  | cons hit rest ih =>
    have hrest : AllAccessible w call times rest :=
      fun x hx => hnew x (mem_cons_of_mem _ hx)
    unfold Indexing.addNew
    split
    · exact ih h hrest
    · exact ih (h.append_one (hnew hit mem_cons_self)) hrest

theorem ends_collectProviderHits [Zero Score] {cursor : Option String}
    {cursorsSeen : List (Option String)} (h : AllAccessible w call (fun _ => True) hits) :
    (collectProviderHits w call provider query cursor cursorsSeen hits fuel).Ends t
      fun hits' _ => AllAccessible w call (fun _ => True) hits' := by
  induction fuel generalizing cursor cursorsSeen hits t with
  | zero => exact Clocked.ends_never
  | succ fuel ih =>
    unfold collectProviderHits
    split
    · exact Clocked.ends_pure h
    · split
      · exact Clocked.ends_fail
      · refine Clocked.Ends.bind (Clocked.ends_ask ?_)
        refine Clocked.Ends.bind (Clocked.ends_ofExcept ?_)
        intro page _
        split
        · exact Clocked.ends_pure h
        · refine Clocked.Ends.bind (Clocked.ends_ofExcept ?_)
          intro candidates _
          have hfacts : (visibilityFacts w (candidates.map (·.1))).Ends (t + 1) fun f t' =>
              t + 1 ≤ t' ∧ FactsIn w (fun _ => True) f := ends_visibilityFacts trivial
          refine .bind (hfacts.mono ?_)
          rintro f t' ⟨-, hf⟩
          have hkept : AllAccessible w call (fun _ => True)
              (Indexing.takeVisible call provider f hits candidates) := h.takeVisible hf
          split
          · exact Clocked.ends_pure hkept
          · exact ih hkept

theorem ends_collectHybridHits [Zero Score] :
    (collectHybridHits w call fuel query).Ends t
      fun r _ => AllAccessible w call (fun _ => True) r.1 := by
  unfold collectHybridHits
  refine Clocked.Ends.bind (Clocked.Ends.mono (Clocked.ends_loop (S := fun c _ =>
    AllAccessible w call (fun _ => True) c.hits) ?_ allAccessible_nil) ?_)
  · intro c t provider hc
    refine Clocked.Ends.bind (Clocked.ends_attempt ?_ ?_)
    · refine (ends_collectProviderHits allAccessible_nil).mono ?_
      intro hits t' hhits
      exact Clocked.ends_pure (hc.addNew hhits)
    · intro e t'
      exact Clocked.ends_pure hc
  · intro c t' hc
    split
    · exact Clocked.ends_fail
    · exact Clocked.ends_pure hc

/-- **The candidates** have passed the test too, on facts read while they were collected. -/
theorem ends_collectBranches [Zero Score] :
    (collectBranches w call fuel).Ends t
      fun b _ => AllAccessible w call (fun _ => True) b.hits := by
  unfold collectBranches
  refine Clocked.Ends.bind ?_
  rintro ⟨scheduled, notices⟩ t₁ -
  refine Clocked.Ends.bind (Clocked.Ends.mono (Clocked.ends_loop (S := fun b _ =>
    AllAccessible w call (fun _ => True) b.hits) ?_ allAccessible_nil) ?_)
  · rintro b t ⟨operation, query⟩ hb
    refine Clocked.Ends.bind (Clocked.ends_attempt ?_ ?_)
    · refine ends_collectHybridHits.mono ?_
      rintro ⟨hits, degradations⟩ t' hhits
      exact Clocked.ends_pure (hb.addNew hhits)
    · intro e t'
      simp only
      split
      · exact Clocked.ends_fail
      · split
        · exact Clocked.ends_pure hb
        · exact Clocked.ends_pure hb
  · intro b t' hb
    split
    · split
      · exact Clocked.ends_fail
      · exact Clocked.ends_pure hb
    · exact Clocked.ends_pure hb

end Candidates

/-! ### After the reranker -/

variable {reranked : List (RetrievalHit Score)}

/-- **The final check**: whatever the reranker returned, what stays is accessible. -/
theorem ends_finalRecheck (hport : w.facts.isSome) (hlt : after < t) :
    (finalRecheck w call reranked).Ends t fun hits t' =>
      after < t' ∧ AllAccessible w call (after < ·) hits := by
  unfold finalRecheck
  split
  · rename_i h
    have hempty : reranked = [] := by
      simpa [isNone_iff_eq_none, isSome_iff_ne_none.mp hport] using h
    subst hempty
    exact Clocked.ends_pure ⟨hlt, allAccessible_nil⟩
  · have hfacts : (visibilityFacts w (reranked.map (·.chunk))).Ends t fun f t' =>
        t ≤ t' ∧ FactsIn w (after < ·) f := ends_visibilityFacts hlt
    refine Clocked.Ends.bind (hfacts.mono ?_)
    rintro f t' ⟨hle, hf⟩
    refine Clocked.ends_pure ⟨hlt.trans_le hle, ?_⟩
    intro hit hhit
    exact accessible_of_visible hf (mem_filter.mp hhit).2

variable {candidates : List (RetrievalHit Score)}

theorem ends_treeDocuments {documents : List TreeDocument} {s : TreeState Score} (hlt : after < t)
    (hs : AllAccessible w call (after < ·) s.hits) :
    (treeDocuments w call candidates s documents).Ends t fun s' _ =>
      AllAccessible w call (after < ·) s'.hits := by
  induction documents generalizing s t with
  | nil => exact Clocked.ends_pure hs
  | cons document rest ih =>
    unfold treeDocuments
    split
    · exact ih hlt hs
    · simp only
      split
      · rename_i text trigger _ _ _
        split
        · exact ih hlt hs
        · refine Clocked.Ends.bind (Clocked.ends_attempt ?_ ?_)
          · have hfacts : (visibilityFacts w [treeChunk trigger text]).Ends t fun f t' =>
                t ≤ t' ∧ FactsIn w (after < ·) f := ends_visibilityFacts hlt
            refine hfacts.mono ?_
            rintro f t' ⟨hle, hf⟩
            refine ih (hlt.trans_le hle) ?_
            split
            · rename_i hvisible
              exact hs.append_one (accessible_of_visible hf hvisible)
            · exact hs
          · intro e t'
            exact Clocked.ends_pure hs
      · exact ih hlt hs

theorem ends_affordable (hlt : after < t) :
    (affordable w candidates).Ends t fun _ t' => after < t' := by
  refine Clocked.ends_loop ?_ hlt
  intro s t hit hlt
  refine Clocked.Ends.bind (Clocked.ends_ask ?_)
  split
  · exact Clocked.ends_pure (Nat.lt_succ_of_lt hlt)
  · exact Clocked.ends_pure (Nat.lt_succ_of_lt hlt)

theorem ends_treeHits (hlt : after < t) :
    (treeHits w call reranked).Ends t fun s _ => AllAccessible w call (after < ·) s.hits := by
  unfold treeHits
  simp only
  split
  · exact Clocked.ends_pure allAccessible_nil
  · split
    · refine .bind ((ends_affordable hlt).mono ?_)
      rintro ⟨searchable, degradations⟩ t' hlt'
      simp only
      split
      · exact Clocked.ends_pure allAccessible_nil
      · refine Clocked.Ends.bind (Clocked.ends_ask ?_)
        split
        · exact Clocked.ends_pure allAccessible_nil
        · exact ends_treeDocuments (Nat.lt_succ_of_lt hlt') allAccessible_nil
    · exact Clocked.ends_pure allAccessible_nil

/-! ### The context -/

/-- What is in the context, and what waits for it, comes from the given hits. -/
structure Assembly.From (hits : List (RetrievalHit Score)) (s : Assembly Score) : Prop where
  budgeted : ∀ hit ∈ s.budgeted, ∃ origin ∈ hits, hit.chunk = origin.chunk
  deferred : ∀ hit ∈ s.deferred, hit ∈ hits

variable {hits : List (RetrievalHit Score)} {s : Assembly Score} {hit : RetrievalHit Score}

theorem Assembly.From.includeHit (h : s.From hits) (hhit : hit ∈ hits) {r : Assembly Score × Bool}
    (hr : s.includeHit call hit = .ok r) : r.1.From hits := by
  obtain ⟨⟨text, tokens, parent⟩, -, hr⟩ := exists_of_bind_ok hr
  simp only at hr
  split at hr
  · cases hr
    refine ⟨?_, h.deferred⟩
    intro x hx
    rcases mem_append.mp hx with hx | hx
    · exact h.budgeted x hx
    · obtain rfl := mem_singleton.mp hx
      exact ⟨hit, hhit, rfl⟩
  · cases hr
    exact ⟨h.budgeted, h.deferred⟩

variable {r : Assembly Score}

theorem Assembly.From.take (h : s.From hits) (hhit : hit ∈ hits)
    (hr : Assembly.take call s hit = .ok r) : r.From hits := by
  unfold Assembly.take at hr
  split at hr
  · cases hr
    exact h
  · simp only at hr
    split at hr
    · cases hr
      refine ⟨h.budgeted, ?_⟩
      intro x hx
      rcases mem_append.mp hx with hx | hx
      · exact h.deferred x hx
      · obtain rfl := mem_singleton.mp hx
        exact hhit
    · obtain ⟨⟨s', included⟩, hs', hr⟩ := exists_of_bind_ok hr
      have hfrom := h.includeHit hhit hs'
      cases hr
      split
      · exact ⟨hfrom.budgeted, hfrom.deferred⟩
      · exact hfrom

theorem Assembly.From.refill (h : s.From hits) (hhit : hit ∈ hits)
    (hr : Assembly.refill call s hit = .ok r) : r.From hits := by
  unfold Assembly.refill at hr
  split at hr
  · cases hr
    exact h
  · obtain ⟨s', hs', hr⟩ := exists_of_bind_ok hr
    have hfrom := h.includeHit hhit hs'
    cases hr
    exact hfrom

theorem Assembly.From.foldlM {f : Assembly Score → RetrievalHit Score → Except Err (Assembly Score)}
    (hf : ∀ s r : Assembly Score, ∀ x ∈ hits, s.From hits → f s x = .ok r → r.From hits)
    {l : List (RetrievalHit Score)} (hl : ∀ x ∈ l, x ∈ hits) (h : s.From hits)
    (hr : l.foldlM f s = .ok r) : r.From hits := by
  induction l generalizing s with
  | nil =>
    cases hr
    exact h
  | cons x l ih =>
    rw [foldlM_cons] at hr
    obtain ⟨s', hs', hr⟩ := exists_of_bind_ok hr
    have hfrom := hf s s' x (hl x mem_cons_self) h hs'
    exact ih (fun y hy => hl y (mem_cons_of_mem _ hy)) hfrom hr

/-- **The context holds chunks of the filtered hits only**, whatever texts it takes from them. -/
theorem from_assemble (hr : assemble call hits = .ok r) : r.From hits := by
  obtain ⟨s, hs, hr⟩ := exists_of_bind_ok hr
  have hinit : ({} : Assembly Score).From hits := by
    constructor
    · intro x hx
      cases hx
    · intro x hx
      cases hx
  have hfirst : s.From hits :=
    hinit.foldlM (fun s r x hx h hr => h.take hx hr) (fun x hx => hx) hs
  simp only at hr
  split at hr
  · exact hfirst.foldlM (fun s r x hx h hr => h.refill hx hr) hfirst.deferred hr
  · cases hr
    exact hfirst

theorem AllAccessible.assemble (h : AllAccessible w call times hits)
    (hr : assemble call hits = .ok r) : AllAccessible w call times r.budgeted := by
  intro hit hhit
  obtain ⟨origin, horigin, hchunk⟩ := (from_assemble hr).budgeted hit hhit
  rw [hchunk]
  exact h origin horigin

/-! ### The search -/

variable [Zero Score] [LT Score] [DecidableLT Score] [LE Score] [DecidableLE Score]

theorem ends_search (hport : w.facts.isSome) {fuel : ℕ} :
    (search w call fuel).Ends t fun r _ => AllAccessible w call (r.rerankedAt < ·) r.hits ∧
      AllAccessible w call (fun _ => True) r.candidateHits := by
  unfold search
  split
  · exact Clocked.ends_fail
  · split
    · exact Clocked.ends_pure ⟨allAccessible_nil, allAccessible_nil⟩
    · refine .bind (ends_collectBranches.mono ?_)
      intro branches t₁ hbranches
      refine .bind ?_
      rintro ⟨reranked, degraded, codes⟩ t₂ -
      refine Clocked.Ends.bind (Clocked.ends_ask ?_)
      -- every later read comes after this time
      refine Clocked.Ends.bind ((ends_finalRecheck hport (Nat.lt_succ_self t₂)).mono ?_)
      rintro checked t₃ ⟨hlt, hchecked⟩
      refine .bind ((ends_treeHits hlt).mono ?_)
      intro tree t₄ htree
      refine Clocked.Ends.bind ?_
      intro graphCodes t₅ _
      refine Clocked.Ends.bind (Clocked.ends_ofExcept ?_)
      intro context hcontext
      have hfiltered : AllAccessible w call (t₂ < ·)
          (checked.filter (reachesThreshold call degraded) ++ tree.hits) := by
        refine .append ?_ htree
        intro hit hhit
        exact hchecked hit (mem_filter.mp hhit).1
      refine Clocked.ends_pure ⟨?_, hbranches⟩
      intro hit hhit
      exact hfiltered.assemble hcontext hit (mem_of_mem_take hhit)

/-- **Retrieval returns accessible chunks only**, of a service with a visibility port: whatever
the world answers at any time, every hit of a search has a chunk of the leased generation that
both scopes allow, and a matching fact that was read after the reranker answered; and the
intersection of two scopes allows a document just when both do. -/
theorem search_accessible (w : World Score) (call : SearchCall Score) (fuel t t' : ℕ)
    (r : RetrievalResult Score) (hport : w.facts.isSome)
    (h : search w call fuel t = some (.ok r, t')) :
    (∀ hit ∈ r.hits, Accessible w call (r.rerankedAt < ·) hit.chunk) ∧
      ∀ spaceId documentId, call.scope.allows spaceId documentId = true ↔
        call.serverScope.allows spaceId documentId = true ∧
          ∀ client ∈ call.narrowing, client.allows spaceId documentId = true :=
  ⟨(ends_search hport r t' h).1, fun _ _ => allows_intersectScopes⟩

/-! ### A service with and without a port -/

/-- A chunk of the active publication of a document. -/
def sampleChunk : IndexChunk :=
  { chunkId := "chunk_1", generationId := "generation", publicationId := "publication"
    documentId := "document", documentVersionId := "version", spaceId := "space"
    text := "the price of tea", embeddingText := "the price of tea", mediaKind := "text/plain"
    manifestHash := "manifest" }

/-- The visibility fact of its document. -/
def sampleFact : DocumentVisibilityFact :=
  { documentId := "document", spaceId := "space", lifecycleStatus := "active"
    activeVersionId := some "version", activePublicationId := some "publication"
    publicationStatus := some "active", manifestHash := some "manifest", readable := true }

/-- A world in which a provider finds the chunk, and the reranker returns the chunk `invent`
makes of each of its hits, or of the chunk when there is none. -/
def sampleWorld (facts : Option (ℕ → List IndexChunk → Except Err Facts))
    (invent : IndexChunk → IndexChunk) : World ℤ :=
  { page := fun _ _ _ _ => .ok { items := [.ok (sampleChunk, 1)], cursor := none }
    facts
    rerank := fun _ _ _ => .ok ([{ chunk := invent sampleChunk, score := 1, source := "dense" }],
      some "rerank_degraded") }

/-- The port that always gives the fact. -/
def samplePort : ℕ → List IndexChunk → Except Err Facts :=
  fun _ _ => .ok fun _ _ => some sampleFact

/-- A search of the space. -/
def sampleCall : SearchCall ℤ :=
  { query := "tea", generationId := "generation", serverScope := { spaceIds := ["space"] }
    route := { queryPlan := [("default_hybrid", "tea")] }
    providers := [{ kind := "dense", name := "dense", quota := 10 }]
    tokenCount := fun text => text.length }

/-- The chunks of the hits of a search. -/
def resultChunks (run : Option (Except Err (RetrievalResult ℤ) × ℕ)) : Option (List IndexChunk) :=
  match run with
  | some (.ok r, _) => some (r.hits.map (·.chunk))
  | _ => none

theorem exists_of_resultChunks {run : Option (Except Err (RetrievalResult ℤ) × ℕ)}
    (h : resultChunks run = some chunks) :
    ∃ r t', run = some (.ok r, t') ∧ r.hits.map (·.chunk) = chunks := by
  unfold resultChunks at h
  split at h
  · exact ⟨_, _, rfl, some.inj h⟩
  · cases h

theorem search_accessible_sample :
    ∃ r t', search (sampleWorld (some samplePort) id) sampleCall 2 0 = some (.ok r, t') ∧
      r.hits.map (·.chunk) = [sampleChunk] ∧ ∀ hit ∈ r.hits,
        Accessible (sampleWorld (some samplePort) id) sampleCall (r.rerankedAt < ·) hit.chunk := by
  have hrun : resultChunks (search (sampleWorld (some samplePort) id) sampleCall 2 0) =
      some [sampleChunk] := by decide +kernel
  obtain ⟨r, t', hsearch, hchunks⟩ := exists_of_resultChunks hrun
  exact ⟨r, t', hsearch, hchunks, (search_accessible _ _ _ _ _ _ rfl hsearch).1⟩

theorem search_without_port :
    ¬ ∀ (w : World ℤ) (call : SearchCall ℤ) (fuel t t' : ℕ) (r : RetrievalResult ℤ),
      search w call fuel t = some (.ok r, t') →
        ∀ hit ∈ r.hits, Accessible w call (r.rerankedAt < ·) hit.chunk := by
  intro h
  let invented : IndexChunk := { sampleChunk with generationId := "retired" }
  have hrun : resultChunks (search (sampleWorld none fun _ => invented) sampleCall 2 0) =
      some [invented] := by decide +kernel
  obtain ⟨r, t', hsearch, hchunks⟩ := exists_of_resultChunks hrun
  have hmem : invented ∈ r.hits.map (·.chunk) := by
    rw [hchunks]
    exact List.mem_singleton_self _
  obtain ⟨hit, hhit, hchunk⟩ := List.mem_map.mp hmem
  have hgeneration := (h _ _ _ _ _ _ hsearch hit hhit).generation
  rw [hchunk] at hgeneration
  exact absurd hgeneration (by decide)

end RagQs.Indexing
