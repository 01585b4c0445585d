import RagQs.Evaluation.CalibrationRuns
import RagQs.Evaluation.SuggestionProof

/-!
# Suggestions, in every run

However the calls interleave, a scope has one actionable suggestion at most and a run is the source
of one suggestion at most, as long as no call that makes a suggestion of a scope meets another
change of that scope, and the leaderboard makes suggestions of the latest runs.

## Main definitions

* `Calm` — what is asked of the transactions that commit suggestions.
* `Unique` — what is asked of the suggestions in a run.

## Main results

* `suggestions_unique` — the suggestions in every such run.
* `source_suggested_twice` — a run in which the leaderboard goes back to an older run.
-/

namespace RagQs.Evaluation

open Txn Discipline List Option Store AList

variable {M S : Type} {env : Env M S} {db : Db M S} {ms ms₁ ms₂ : List (Move (Op M))}
  {m : Move (Op M)} {s t u : System M S}

/-- When a transaction commits a suggestion, the suggestions and the succeeded runs of its scope are
as they were since it was opened, and the runs completed at different times. -/
def Calm (env : Env M S) (db : Db M S) (ms : List (Move (Op M))) : Prop :=
  ∀ ms₁ i s op a d n, ms₁ ++ [.advance i] <+: ms → run (body env) (Sys.init db) ms₁ = some s →
    s.sessions i = some ⟨op, .done a, d, n⟩ → ∀ id (r : SuggestionRow S) ck,
      d.get (.suggestion id) = some r → r.comparatorKey = some ck →
      Distinct s.db r.spaceId ck ∧
        ∀ c, During (body env) (Sys.init db) ms₁ i c → SameScope r.spaceId ck c s.db

/-- What is asked of the suggestions in the run `ms`. -/
structure Unique (env : Env M S) (db : Db M S) (ms : List (Move (Op M))) : Prop where
  /-- At most one suggestion of a space and a comparator key is actionable. -/
  actionable : ∀ ms₁ s, ms₁ <+: ms → run (body env) (Sys.init db) ms₁ = some s →
    ∀ id id' (r r' : SuggestionRow S), s.db.get (.suggestion id) = some r →
      s.db.get (.suggestion id') = some r' → r.spaceId = r'.spaceId →
      r.comparatorKey = r'.comparatorKey → r.status = .actionable → r'.status = .actionable →
      id = id'
  /-- Over the whole run, one suggestion at most is made of a source run. -/
  source : ∀ ms₁ s ms₂ t, ms₁ <+: ms → run (body env) (Sys.init db) ms₁ = some s → ms₂ <+: ms →
    run (body env) (Sys.init db) ms₂ = some t → ∀ id id' (r r' : SuggestionRow S),
      s.db.get (.suggestion id) = some r → t.db.get (.suggestion id') = some r' →
      r.rankSummary.sourceRunId = r'.rankSummary.sourceRunId → id = id'
  /-- Over the whole run, one event at most is published of a source run. -/
  event : ∀ ms₁ s ms₂ t, ms₁ <+: ms → run (body env) (Sys.init db) ms₁ = some s → ms₂ <+: ms →
    run (body env) (Sys.init db) ms₂ = some t → ∀ id n e id' n' e',
      s.db.get (.event (id, n)) = some e → t.db.get (.event (id', n')) = some e' →
      ∃ r r' : SuggestionRow S, s.db.get (.suggestion id) = some r ∧
        t.db.get (.suggestion id') = some r' ∧
          (r.rankSummary.sourceRunId = r'.rankSummary.sourceRunId → (id, n) = (id', n'))
  /-- A suggestion becomes actionable for the latest succeeded run. -/
  latest : ∀ ms₁ m s t, At env db ms ms₁ m s t → ∀ id (r : SuggestionRow S),
    t.db.get (.suggestion id) = some r → r.status = .actionable →
    s.db.get (.suggestion id) ≠ some r →
    ∃ ck, r.comparatorKey = some ck ∧ IsLatest t.db r.spaceId ck r.rankSummary.sourceRunId

/-! ### What a transaction commits -/

/-- The rows that are neither suggestions nor runs. -/
def Key.beside (k : Key) : Prop := ¬ (k.suggested ∨ ∃ id, k = .run id)

variable {R : Db M S → Db M S → Prop} {b : Db M S} {G : Db M S → Prop}

theorem asOf_beside {α : Type} {p : Tx M S α} (hp : p.Writes Key.beside) :
    AsOf (.writes FromLatest) R b G (Calls G b) p fun _ => Calls G b := asOf_rests hp

theorem writes_one {e : Err} {unique : List Key} {k : Key} {o : Option (Row M S k)}
    (hk : k.beside) : (insert e unique [⟨k, o⟩] : Tx M S Unit).Writes Key.beside := by
  refine .insert fun x hx => ?_
  rw [mem_singleton.mp hx]
  exact hk

theorem asOf_openNew {call : OpenCall} {kind : WindowKind} {requestHash : String} :
    AsOf (.writes FromLatest) R b G (Calls G b) (openNew env call kind requestHash) fun _ => Calls G b := by
  have heligible : AsOf (.writes FromLatest) R b G (Calls G b) (requireEligible env call.suggest kind)
      fun _ => Calls G b := by
    unfold requireEligible
    by_cases hkind : kind = .manual
    · rw [if_pos hkind]
      exact .done fun _ h => h
    · rw [if_neg hkind]
      refine asOf_leaderboardSuggestions.bind fun _ => ?_
      exact (asOf_beside .select).bind fun _ => asOf_beside .raiseIf
  have hcreate : ∀ w, (createWindow call.windowId w : Tx M S Unit).Writes Key.beside := by
    refine fun w => .insert fun x hx => ?_
    rcases mem_cons.mp hx with rfl | hx
    · simp [Key.beside, Key.suggested]
    · rw [mem_singleton.mp hx]
      simp [Key.beside, Key.suggested]
  unfold openNew
  refine (asOf_beside .select).bind fun existing => (asOf_beside .raiseIf).bind fun _ => ?_
  refine (asOf_beside .select).bind fun closing => (asOf_beside .raiseIf).bind fun _ => ?_
  refine (asOf_beside .select).bind fun latest => (asOf_beside .check).bind fun _ => ?_
  refine heligible.bind fun _ => (asOf_beside (hcreate _)).bind fun _ => ?_
  exact (asOf_beside (writes_one (by simp [Key.beside, Key.suggested]))).bind fun _ =>
    .done fun _ h => h

theorem asOf_openWindow {call : OpenCall} :
    AsOf (.writes FromLatest) R b G (Calls G b) (openWindow env call) fun _ => Calls G b := by
  unfold openWindow requireOps
  refine (asOf_beside .raiseIf).bind fun _ => (asOf_beside .raiseIf).bind fun _ => ?_
  refine (asOf_beside .orRaise).bind fun kind => (asOf_beside .readRow).bind fun command => ?_
  cases command with
  | none => exact asOf_openNew
  | some command =>
    unfold replayCommand
    exact (asOf_beside .raiseIf).bind fun _ => .done fun _ h => h

theorem writes_closeWindow {call : CloseCall} :
    (closeWindow env call : Tx M S Answer).Writes Key.beside := by
  unfold closeWindow requireOps
  refine .bind .raiseIf fun _ => .bind .readRow fun command => ?_
  cases command with
  | some command =>
    unfold replayCommand
    exact .bind .raiseIf fun _ => .done
  | none =>
    unfold closeNew
    refine .bind .select fun existing => .bind .orRaise fun window => ?_
    refine .bind .readRow fun policy => ?_
    refine .bind (.statement fun v x hx => ?_) fun n => ?_
    · split at hx
      · rcases mem_cons.mp hx with rfl | hx
        · simp [Key.beside, Key.suggested]
        · rw [mem_singleton.mp hx]
          simp [Key.beside, Key.suggested]
      · cases hx
    refine .bind .raiseIf fun _ => .bind .readRow fun row => ?_
    refine .bind .orRaise fun closed => ?_
    exact (writes_one (by simp [Key.beside, Key.suggested])).bind fun _ => .done

theorem writes_closeWorker {now : Time} :
    (closeWorker env now : Tx M S ℕ).Writes Key.beside := by
  have hexpire : ∀ id, (expireWindowPairs id : Tx M S ℕ).Writes Key.beside := by
    refine fun id => .statement fun v x hx => ?_
    obtain ⟨k, r, -, hpick⟩ := mem_table.mp hx
    obtain ⟨o, ho, rfl⟩ := map_eq_some_iff.mp hpick
    cases k with
    | pair id => simp [Key.beside, Key.suggested]
    | _ => cases ho
  have hfinalize : ∀ id, (finalizeWindow id now : Tx M S ℕ).Writes Key.beside :=
    fun id => .updateWhere (by simp [Key.beside, Key.suggested])
  unfold closeWorker
  refine .bind .select fun found => ?_
  cases found with
  | none => exact .done
  | some window =>
    unfold closeFound requirePairExpiry
    refine .ite (fun _ => ?_) fun _ => ?_
    · exact .bind .raiseIf fun _ => (hexpire _).bind fun _ => hfinalize _
    · refine .bind .raiseIf fun _ => .bind .select fun votable => ?_
      exact .ite (fun _ => .done) fun _ => hfinalize _

/-- **What a transaction leaves** that does not change a run. -/
theorem asOf_body {op : Op M} (hop : ∀ id row, op ≠ .changeRun id row)
    (hover : ∀ c, G c → ∀ id (r : RunRow), c.get (.run id) = some r → r.state.terminal = true →
      b.get (.run id) = some r) :
    AsOf (.writes FromLatest) R b G (Calls G b) (body env op) fun _ => Calls G b := by
  have hset : ∀ {k : Key} {row : Row M S k}, k.beside →
      (setRow k row : Tx M S Unit).Writes Key.beside := by
    refine fun hk => .statement fun v x hx => ?_
    rw [mem_singleton.mp hx]
    exact hk
  cases op with
  | openWindow call => exact asOf_openWindow.bind fun _ => .done fun _ h => h
  | closeWindow call => exact (asOf_beside writes_closeWindow).bind fun _ => .done fun _ h => h
  | closeWorker now => exact (asOf_beside writes_closeWorker).bind fun _ => .done fun _ h => h
  | computeSuggestion call runId =>
    exact (asOf_computeSuggestion hover).bind fun _ => .done fun _ h => h
  | leaderboard call spaceId comparatorKey =>
    exact asOf_leaderboardSuggestions.bind fun _ => .done fun _ h => h
  | collectPair windowId =>
    refine (asOf_beside ?_).bind fun _ => .done fun _ h => h
    exact .bind (.updateWhere (by simp [Key.beside, Key.suggested])) fun _ => .done
  | setPairs pairs =>
    refine (asOf_beside (.statement fun v x hx => ?_)).bind fun _ => .done fun _ h => h
    obtain ⟨p, -, rfl⟩ := List.mem_map.mp hx
    simp [Key.beside, Key.suggested]
  | changeRun runId row => exact absurd rfl (hop runId row)
  | setResult runId item config row =>
    exact (asOf_beside (hset (by simp [Key.beside, Key.suggested]))).bind fun _ => .done fun _ h => h
  | setPolicy row =>
    exact (asOf_beside (hset (by simp [Key.beside, Key.suggested]))).bind fun _ => .done fun _ h => h
  | setDefault spaceId row =>
    exact (asOf_beside (hset (by simp [Key.beside, Key.suggested]))).bind fun _ => .done fun _ h => h

theorem asOf_changeRun {runId : String} {row : RunRow} :
    AsOf (.writes FromLatest) R b G (· = ∅) (body env (.changeRun runId row)) fun _ d =>
      Kept b (d ∪ b) ∧ ∀ k : Key, k.suggested → k ∉ d := by
  refine .bind (.statement (ψ := fun _ d => Kept b (d ∪ b) ∧
    ∀ k : Key, k.suggested → k ∉ d) fun d c _ hd hneeded _ => ?_) fun _ => .done fun _ h => h
  subst hd
  rw [empty_union] at hneeded ⊢
  by_cases hover : ((c.get (.run runId)).any fun r : RunRow => r.state.terminal) = true
  · rw [if_pos hover, applyAll_nil, empty_union]
    exact ⟨.refl, fun k _ => notMem_empty k⟩
  · rw [if_neg hover]
    have hsame : b.get (.run runId) = c.get (.run runId) :=
      hneeded _ (by simp [needed, if_neg hover])
    refine ⟨⟨fun id r hget hterminal => ?_, fun id r hget => ⟨r, ?_, rfl, rfl, rfl⟩⟩,
      fun k hk hmem => ?_⟩
    · -- the run that is written is not over
      have hne : id ≠ runId := by
        rintro rfl
        rw [← hsame, hget] at hover
        exact hover hterminal
      rw [applyAll_union, empty_union, get_applyAll_of_notMem, hget]
      simpa using hne
    · rw [applyAll_union, empty_union, get_applyAll_of_notMem, hget]
      simp
    · rcases mem_applyAll.mp hmem with hmem | hmem
      · obtain rfl : k = .run runId := by simpa using hmem
        exact hk
      · exact absurd hmem (notMem_empty k)

/-! ### What holds of the suggestions in a run -/

/-- What holds of all suggestions. -/
structure SuggestionsOk (v : Db M S) : Prop where
  shape : Shape v
  scope : ∀ sp ck, ScopeOk v sp ck

/-- What a commit does to the suggestions. -/
structure Commits (v v' : Db M S) : Prop where
  kept : Kept v v'
  ok : SuggestionsOk v'
  latest : ∀ id (r : SuggestionRow S), v'.get (.suggestion id) = some r → r.status = .actionable →
    v.get (.suggestion id) ≠ some r →
    ∃ ck, r.comparatorKey = some ck ∧ IsLatest v' r.spaceId ck r.rankSummary.sourceRunId

theorem scope_untouched {d : Db M S} {sp ck : String} (hok : ScopeOk b sp ck)
    (hkept : Kept b (d ∪ b))
    (hnot : ∀ id (r : SuggestionRow S), d.get (.suggestion id) = some r → ¬ r.within sp ck) :
    ScopeOk (d ∪ b) sp ck ∧ ∀ id (r : SuggestionRow S),
      (d ∪ b : Db M S).get (.suggestion id) = some r → r.within sp ck →
        b.get (.suggestion id) = some r := by
  have hsame : ∀ id (r : SuggestionRow S), r.within sp ck →
      (d ∪ b : Db M S).get (.suggestion id) = some r → b.get (.suggestion id) = some r := by
    intro id r hr hget
    by_cases hmem : Key.suggestion id ∈ d
    · rw [get_union_of_mem hmem] at hget
      exact absurd hr (hnot id r hget)
    · rw [get_union_of_notMem hmem] at hget
      exact hget
  refine ⟨hok.carry hkept hsame fun id r hr hget => ?_, fun id r hget hr => hsame id r hr hget⟩
  obtain ⟨r', hget', hspace, hkey, -⟩ := hkept.suggestion id r hget
  have hr' : r'.within sp ck := ⟨hspace.trans hr.1, hkey.trans hr.2⟩
  have hback := hsame id r' hr' hget'
  rw [hget] at hback
  cases hback
  exact hget'

theorem commits_calls {d : Db M S} (hb : SuggestionsOk b) (hd : Calls G b d)
    (hcalm : ∀ id (r : SuggestionRow S) ck, d.get (.suggestion id) = some r →
      r.comparatorKey = some ck →
      Distinct b r.spaceId ck ∧ ∀ c, G c → SameScope r.spaceId ck c b) :
    Commits b (d ∪ b) := by
  obtain ⟨hleaves, hruns⟩ := hd
  have hkept := hleaves.kept
  have hscope : ∀ sp ck, ScopeOk (d ∪ b) sp ck ∧ ∀ id (r : SuggestionRow S),
      (d ∪ b : Db M S).get (.suggestion id) = some r → r.within sp ck → r.status = .actionable →
        b.get (.suggestion id) = some r ∨ IsLatest b sp ck r.rankSummary.sourceRunId := by
    intro sp ck
    by_cases htouched : ∃ id, ∃ r : SuggestionRow S, d.get (.suggestion id) = some r ∧
        r.within sp ck
    · obtain ⟨id, r, hget, hspace, hkey⟩ := htouched
      obtain ⟨hdistinct, hsame⟩ := hcalm id r ck hget hkey
      rw [hspace] at hdistinct hsame
      exact hleaves.scope (hb.scope sp ck) hdistinct hsame
    · have hnot : ∀ id (r : SuggestionRow S), d.get (.suggestion id) = some r →
          ¬ r.within sp ck := fun id r hget hr => htouched ⟨id, r, hget, hr⟩
      obtain ⟨hok, hsame⟩ := scope_untouched (hb.scope sp ck) hkept hnot
      exact ⟨hok, fun id r hget hr _ => .inl (hsame id r hget hr)⟩
  have hshape := hleaves.shape hb.shape
  refine ⟨hkept, ⟨hshape, fun sp ck => (hscope sp ck).1⟩, fun id r hget hstatus hnew => ?_⟩
  obtain ⟨ck, hkey⟩ := hshape.keyed id r hget
  rcases (hscope r.spaceId ck).2 id r hget ⟨rfl, hkey⟩ hstatus with hold | hlatest
  · exact absurd hold hnew
  · exact ⟨ck, hkey, hlatest.congr fun id r _ => by rw [hruns.get id]⟩

theorem commits_refl (hb : SuggestionsOk b) : Commits b b :=
  ⟨.refl, hb, fun _ _ hget _ hne => absurd hget hne⟩

theorem commits_changeRun {d : Db M S} (hb : SuggestionsOk b) (hkept : Kept b (d ∪ b))
    (hnot : ∀ k : Key, k.suggested → k ∉ d) : Commits b (d ∪ b) := by
  have hsame : ∀ k : Key, k.suggested → (d ∪ b : Db M S).get k = b.get k :=
    fun k hk => get_union_of_notMem (hnot k hk)
  refine ⟨hkept, ⟨⟨fun id r hget => ?_, fun id n e hget => ?_⟩, fun sp ck => ?_⟩,
    fun id r hget _ hne => ?_⟩
  · rw [hsame (.suggestion id) trivial] at hget
    exact hb.shape.keyed id r hget
  · rw [hsame (.event (id, n)) trivial] at hget
    rw [hsame (.suggestion id) trivial]
    exact hb.shape.event id n e hget
  · refine (hb.scope sp ck).carry hkept (fun id r _ hget => ?_) fun id r _ hget => ?_
    · rw [← hsame (.suggestion id) trivial]
      exact hget
    · rw [hsame (.suggestion id) trivial]
      exact hget
  · rw [hsame (.suggestion id) trivial] at hget
    exact absurd hget hne

/-- **A move commits what it should.** -/
theorem commits_step (hA : AllowsRun (fun _ => onWrites FromLatest) (body env) (Sys.init db) ms)
    (hcalm : Calm env db ms) (h : At env db ms ms₁ m s t) (hs : SuggestionsOk s.db)
    (hover : ∀ i c, During (body env) (Sys.init db) ms₁ i c → Kept c s.db) :
    Commits s.db t.db := by
  obtain ⟨hpre, hrun, hm⟩ := h
  have hA₁ := hA.of_prefix ((prefix_append ..).trans hpre) hrun
  rcases step_ends hm with hdb | ⟨i, op, a, d, n, rfl, hx, hdb⟩
  · rw [hdb]
    exact commits_refl hs
  · rw [hdb]
    by_cases hop : ∃ runId row, op = .changeRun runId row
    · obtain ⟨runId, row, rfl⟩ := hop
      obtain ⟨hkept, hnot⟩ :=
        asOf_changeRun.commits hA₁ hrun hx (fun c hc => hc) rfl
      exact commits_changeRun hs hkept hnot
    · have hleft := (asOf_body (fun id row he => hop ⟨id, row, he⟩)
        fun c hc id r hget hterminal => (hover i c hc).run id r hget hterminal).commits
        hA₁ hrun hx (fun c hc => hc) ⟨.refl, fun id => notMem_empty _⟩
      exact commits_calls hs hleft (hcalm ms₁ i s op a d n hpre hrun hx)

/-- **In every prefix of the run** the suggestions are good, and what was there before is kept. -/
theorem run_ok (hdb : SuggestionsOk db)
    (hA : AllowsRun (fun _ => onWrites FromLatest) (body env) (Sys.init db) ms)
    (hcalm : Calm env db ms) (h : ms₁ <+: ms) (hs : run (body env) (Sys.init db) ms₁ = some s) :
    SuggestionsOk s.db ∧ ∀ p₁ p₂ u, ms₁ = p₁ ++ p₂ → run (body env) (Sys.init db) p₁ = some u →
      Kept u.db s.db := by
  induction ms₁ using reverseRecOn generalizing s with
  | nil =>
    cases hs
    refine ⟨hdb, fun p₁ p₂ u hp hu => ?_⟩
    obtain ⟨rfl, rfl⟩ := append_eq_nil_iff.mp hp.symm
    cases hu
    exact .refl
  | append_singleton ms₁ m ih =>
    have hrun := hs
    rw [run_append, bind_eq_some_iff] at hs
    obtain ⟨r, hr, hm⟩ := hs
    rw [run, bind_eq_some_iff] at hm
    obtain ⟨t, hm, ht⟩ := hm
    cases ht
    obtain ⟨hok, hbefore⟩ := ih ((prefix_append ..).trans h) hr
    have hover : ∀ i c, During (body env) (Sys.init db) ms₁ i c → Kept c r.db := by
      rintro i c ⟨p₁, p₂, u, hp, hu, rfl, -⟩
      exact hbefore p₁ p₂ u hp hu
    have hcommits := commits_step hA hcalm ⟨h, hr, hm⟩ hok hover
    refine ⟨hcommits.ok, fun p₁ p₂ u hp hu => ?_⟩
    rcases eq_nil_or_concat p₂ with rfl | ⟨q, m', rfl⟩
    · rw [append_nil] at hp
      rw [← hp, hrun] at hu
      cases hu
      exact .refl
    · rw [concat_eq_append, ← append_assoc] at hp
      obtain ⟨rfl, -⟩ := append_inj' hp rfl
      exact (hbefore p₁ q u rfl hu).trans hcommits.kept

theorem source_once {v : Db M S} (hv : SuggestionsOk v) {id id' : String}
    {r r' : SuggestionRow S} (hget : v.get (.suggestion id) = some r)
    (hget' : v.get (.suggestion id') = some r')
    (hsource : r.rankSummary.sourceRunId = r'.rankSummary.sourceRunId) : id = id' := by
  obtain ⟨ck, hkey⟩ := hv.shape.keyed id r hget
  obtain ⟨ck', hkey'⟩ := hv.shape.keyed id' r' hget'
  -- a run is in one scope, so the suggestions made of it are
  obtain ⟨run, hrun, hsucceeded⟩ := (hv.scope r.spaceId ck).source id r hget ⟨rfl, hkey⟩
  obtain ⟨run', hrun', hsucceeded'⟩ := (hv.scope r'.spaceId ck').source id' r' hget' ⟨rfl, hkey'⟩
  rw [hsource, hrun'] at hrun
  cases hrun
  have hwithin : r'.within r.spaceId ck := by
    refine ⟨hsucceeded'.1.symm.trans hsucceeded.1, hkey'.trans ?_⟩
    exact hsucceeded'.2.1.symm.trans hsucceeded.2.1
  exact (hv.scope r.spaceId ck).once id id' r r' hget ⟨rfl, hkey⟩ hget' hwithin hsource

/-- **Suggestions are unique** in every run in which no call that makes one meets another change of
its scope, and the leaderboard makes those of latest runs. -/
theorem suggestions_unique (hdb : SuggestionsOk db)
    (hA : AllowsRun (fun _ => onWrites FromLatest) (body env) (Sys.init db) ms)
    (hcalm : Calm env db ms) : Unique env db ms := by
  have hsource : ∀ ms₁ s ms₂ t, ms₁ <+: ms → run (body env) (Sys.init db) ms₁ = some s →
      ms₂ <+: ms → run (body env) (Sys.init db) ms₂ = some t → ms₁.length ≤ ms₂.length →
      ∀ id id' (r r' : SuggestionRow S), s.db.get (.suggestion id) = some r →
        t.db.get (.suggestion id') = some r' →
        r.rankSummary.sourceRunId = r'.rankSummary.sourceRunId → id = id' := by
    intro ms₁ s ms₂ t h hs h' ht hle id id' r r' hget hget' hsource
    obtain ⟨p, rfl⟩ := List.prefix_of_prefix_length_le h h' hle
    obtain ⟨hok, hbefore⟩ := run_ok hdb hA hcalm h' ht
    obtain ⟨r'', hget'', -, -, hsummary⟩ := (hbefore ms₁ p s rfl hs).suggestion id r hget
    exact source_once hok hget'' hget' (by rw [hsummary, hsource])
  have hboth : ∀ ms₁ s ms₂ t, ms₁ <+: ms → run (body env) (Sys.init db) ms₁ = some s →
      ms₂ <+: ms → run (body env) (Sys.init db) ms₂ = some t →
      ∀ id id' (r r' : SuggestionRow S), s.db.get (.suggestion id) = some r →
        t.db.get (.suggestion id') = some r' →
        r.rankSummary.sourceRunId = r'.rankSummary.sourceRunId → id = id' := by
    intro ms₁ s ms₂ t h hs h' ht id id' r r' hget hget' hsame
    rcases Nat.le_total ms₁.length ms₂.length with hle | hle
    · exact hsource ms₁ s ms₂ t h hs h' ht hle id id' r r' hget hget' hsame
    · exact (hsource ms₂ t ms₁ s h' ht h hs hle id' id r' r hget' hget hsame.symm).symm
  constructor
  case actionable =>
    intro ms₁ s h hs id id' r r' hget hget' hspace hkey hstatus hstatus'
    obtain ⟨hok, -⟩ := run_ok hdb hA hcalm h hs
    obtain ⟨ck, hck⟩ := hok.shape.keyed id r hget
    exact (hok.scope r.spaceId ck).single id id' r r' hget ⟨rfl, hck⟩ hget'
      ⟨hspace.symm, hkey.symm.trans hck⟩ hstatus hstatus'
  case source => exact hboth
  case event =>
    intro ms₁ s ms₂ t h hs h' ht id n e id' n' e' hget hget'
    obtain ⟨rfl, r, hr⟩ := (run_ok hdb hA hcalm h hs).1.shape.event id n e hget
    obtain ⟨rfl, r', hr'⟩ := (run_ok hdb hA hcalm h' ht).1.shape.event id' n' e' hget'
    refine ⟨r, r', hr, hr', fun hsame => ?_⟩
    rw [hboth ms₁ s ms₂ t h hs h' ht id id' r r' hr hr' hsame]
  case latest =>
    intro ms₁ m s t h id r hget hstatus hnew
    obtain ⟨hok, hbefore⟩ := run_ok hdb hA hcalm ((List.prefix_append ..).trans h.1) h.2.1
    have hover : ∀ i c, During (body env) (Sys.init db) ms₁ i c → Kept c s.db := by
      rintro i c ⟨p₁, p₂, u, hp, hu, rfl, -⟩
      exact hbefore p₁ p₂ u hp hu
    exact (commits_step hA hcalm h hok hover).latest id r hget hstatus hnew

/-! ### Runs -/

/-- The statement inserts suggestions of the leaderboard for latest runs. -/
def fromLatest (ws : List (Write (Row M S))) (v : Db M S) : Bool :=
  ws.all fun x => match x with
    | ⟨.suggestion _, some r⟩ => r.status ≠ .notActionable || r.rankSummary.source.isNone ||
        r.comparatorKey.all fun ck =>
          latestSucceededRun r.spaceId ck v = some r.rankSummary.sourceRunId
    | _ => true

theorem fromLatest_sound (ws : List (Write (Row M S))) (v : Db M S) (h : fromLatest ws v = true) :
    FromLatest ws v := by
  intro id r ck hmem hstatus hsource hkey
  have htest := List.all_eq_true.mp h _ hmem
  simp only [hstatus, ne_eq, not_true_eq_false, decide_false, Bool.false_or, hkey,
    all_some, Bool.or_eq_true, decide_eq_true_eq] at htest
  rcases htest with hnone | hlatest
  · rw [isNone_iff_eq_none.mp hnone] at hsource
    cases hsource
  · exact isLatest_of_read hlatest

section Checks

variable [DecidableEq S]

/-- The suggestions of a scope. -/
def suggestionsIn (sp ck : String) (v : Db M S) : List (String × SuggestionRow S) :=
  table v fun k r => match k, r with
    | .suggestion id, r => if r.spaceId = sp ∧ r.comparatorKey = some ck then some (id, r) else none
    | _, _ => none

/-- The pending suggestions. -/
def pendingSuggestions (d : Db M S) : List (SuggestionRow S) :=
  table d fun k r => match k, r with
    | .suggestion _, r => some r
    | _, _ => none

/-- The stores show the same suggestions and succeeded runs of the scope. -/
def sameScope (sp ck : String) (v v' : Db M S) : Bool :=
  suggestionsIn sp ck v = suggestionsIn sp ck v' ∧ succeededRuns sp ck v = succeededRuns sp ck v'

/-- The move after the first `n` ones commits suggestions of calm scopes. -/
def calmAt (env : Env M S) (db : Db M S) (ms : List (Move (Op M))) (n : ℕ) : Bool :=
  match ms[n]?, run (body env) (Sys.init db) (ms.take n) with
  | some (.advance i), some s =>
    match s.sessions i with
    | some ⟨_, .done _, d, _⟩ => (pendingSuggestions d).all fun r => r.comparatorKey.all fun ck =>
        ((succeededRuns r.spaceId ck s.db).map completion).Nodup &&
        (range (n + 1)).all fun k =>
          (run (body env) (Sys.init db) (ms.take k)).all fun u =>
            (u.sessions i).isNone || sameScope r.spaceId ck u.db s.db
    | _ => true
  | _, _ => true

theorem sameScope_sound {sp ck : String} {v v' : Db M S} (h : sameScope sp ck v v' = true) :
    SameScope sp ck v v' := by
  obtain ⟨hsuggestions, hruns⟩ := of_decide_eq_true h
  have hmem : ∀ (v : Db M S) id (r : SuggestionRow S), r.within sp ck →
      ((id, r) ∈ suggestionsIn sp ck v ↔ v.get (.suggestion id) = some r) := by
    intro v id r hr
    unfold suggestionsIn
    rw [mem_table]
    constructor
    · rintro ⟨k, r', hget, hpick⟩
      cases k with
      | suggestion id' =>
        simp only [ite_none_right_eq_some, some.injEq, Prod.mk.injEq] at hpick
        obtain ⟨-, rfl, rfl⟩ := hpick
        exact hget
      | _ => cases hpick
    · exact fun hget => ⟨.suggestion id, r, hget, if_pos hr⟩
  refine ⟨fun id r hr => ?_, fun id r hr => ?_⟩
  · rw [← hmem v id r hr, ← hmem v' id r hr, hsuggestions]
  · have hmem' : (id, r) ∈ succeededRuns sp ck v ↔ (id, r) ∈ succeededRuns sp ck v' := by rw [hruns]
    rw [mem_succeededRuns, mem_succeededRuns] at hmem'
    simpa [hr] using hmem'

theorem calm_of_calmAt (h : ∀ n < ms.length, calmAt env db ms n = true) : Calm env db ms := by
  intro ms₁ i s op a d n hpre hrun hx id r ck hget hkey
  obtain ⟨ms₂, rfl⟩ := hpre
  have htake : (ms₁ ++ [Move.advance i] ++ ms₂).take ms₁.length = ms₁ := by simp
  have htest := h ms₁.length (by simp)
  have hpending : r ∈ pendingSuggestions d := mem_table.mpr ⟨.suggestion id, r, hget, rfl⟩
  have hmove : (ms₁ ++ [.advance i] ++ ms₂)[ms₁.length]? = some (.advance i) := by simp
  simp only [calmAt, hmove, htake, hrun, hx] at htest
  have hscope := List.all_eq_true.mp htest r hpending
  rw [hkey, all_some, Bool.and_eq_true] at hscope
  obtain ⟨hnodup, hstores⟩ := hscope
  refine ⟨fun id₁ id₂ r₁ r₂ hget₁ hr₁ hget₂ hr₂ hsame => ?_, fun c hc => ?_⟩
  · have hmem₁ := mem_succeededRuns.mpr ⟨hget₁, hr₁⟩
    have hmem₂ := mem_succeededRuns.mpr ⟨hget₂, hr₂⟩
    have heq := inj_on_of_nodup_map (of_decide_eq_true hnodup) hmem₁ hmem₂ hsame
    exact (Prod.mk.inj heq).1
  · obtain ⟨p₁, p₂, u, rfl, hu, rfl, hopen, -⟩ := hc
    have hlt : p₁.length < (p₁ ++ p₂).length + 1 := by
      rw [length_append]
      omega
    have htest' := List.all_eq_true.mp hstores p₁.length (mem_range.mpr hlt)
    have htake' : (p₁ ++ p₂ ++ [Move.advance i] ++ ms₂).take p₁.length = p₁ := by simp
    rw [htake', hu, all_some, Bool.or_eq_true] at htest'
    rcases htest' with hnone | hsame
    · rw [isNone_iff_eq_none.mp hnone] at hopen
      cases hopen
    · exact sameScope_sound hsame

end Checks

/-- A run that succeeded. -/
def sampleRun (completedAt : Time) : RunRow where
  spaceId := "s"
  state := .succeeded
  attempt := 1
  leaseOwner := none
  leaseExpiresAt := none
  heartbeatAt := none
  fencingToken := none
  nextAttemptAt := none
  failureClass := none
  progress := ⟨2, 2, 0⟩
  reportRef := none
  policyVersion := "p"
  comparatorKey := some "c"
  candidateConfigVersions := ["x", "y"]
  frozenSnapshot := ⟨"n", none, none⟩
  createdAt := 0
  startedAt := none
  completedAt := some completedAt
  version := 2

/-- A policy that one sample item is enough for. -/
def samplePolicy : PolicyRow :=
  { defaultPolicy 0 with policyVersion := "p", minRealQueries := 1 }

/-- A call of a producer that has the identifier for a suggestion. -/
def sampleCall (suggestionId : String) : SuggestCall := ⟨1000000, fun _ => suggestionId, fun _ => none⟩

/-- The policy, a run, and its results under two configurations. -/
def sampleResults (i : ℕ) (runId : String) (completedAt : Time) : List (Move (Op Unit)) :=
  alone i (.setResult runId "q" "x" ⟨"e", (), 0⟩) 2 ++
    alone (i + 1) (.setResult runId "q" "y" ⟨"e", (), 0⟩) 2 ++
    alone (i + 2) (.changeRun runId (sampleRun completedAt)) 2

/-- A suggestion of a run is computed, and the leaderboard finds nothing to add. -/
def sampleSuggested : List (Move (Op Unit)) :=
  alone 0 (.setPolicy samplePolicy) 2 ++ sampleResults 1 "a" 5 ++
    alone 4 (.computeSuggestion (sampleCall "1") "a") 10 ++
    alone 5 (.setDefault "s" ⟨"x", some "c", some "a"⟩) 2 ++
    alone 6 (.leaderboard (sampleCall "2") none none) 7

theorem suggestionsOk_empty : SuggestionsOk (∅ : Db M S) where
  shape := ⟨fun _ _ h => by simp at h, fun _ _ _ h => by simp at h⟩
  scope _ _ := ⟨fun _ _ h => by simp at h, fun _ _ _ _ h => by simp at h,
    fun _ _ _ _ h => by simp at h, fun _ _ h => by simp at h⟩

theorem suggestions_unique_sample :
    Unique sampleEnv ∅ sampleSuggested ∧
      ∃ s : System Unit Unit, run (body sampleEnv) (Sys.init ∅) sampleSuggested = some s ∧
        (s.db.get (.suggestion "1")).map (fun r : SuggestionRow Unit => r.status)
          = some .actionable := by
  have hgood : passesRun fromLatest (body sampleEnv) (Sys.init ∅) sampleSuggested = true := by
    decide +kernel
  have hcalm : ∀ n < sampleSuggested.length, calmAt sampleEnv ∅ sampleSuggested n = true := by
    decide +kernel
  have hrun : (run (body sampleEnv) (Sys.init ∅) sampleSuggested).map (fun s =>
      (s.db.get (.suggestion "1")).map fun r : SuggestionRow Unit => r.status)
      = some (some .actionable) := by
    decide +kernel
  exact ⟨suggestions_unique suggestionsOk_empty (allowsRun_of_passesRun fromLatest_sound _ _ hgood)
    (calm_of_calmAt hcalm), Option.map_eq_some_iff.mp hrun⟩

/-- The leaderboard goes back to an older run, and then the suggestion of the latest one is computed
again. -/
def sampleTwice : List (Move (Op Unit)) :=
  alone 0 (.setPolicy samplePolicy) 2 ++ sampleResults 1 "a" 5 ++ sampleResults 4 "b" 3 ++
    alone 7 (.computeSuggestion (sampleCall "1") "a") 10 ++
    alone 8 (.setDefault "s" ⟨"x", some "c", some "b"⟩) 2 ++
    alone 9 (.leaderboard (sampleCall "2") none none) 12 ++
    alone 10 (.computeSuggestion (sampleCall "3") "a") 11

theorem source_suggested_twice :
    ¬ ∀ (env : Env Unit Unit) (db : Db Unit Unit) (ms : List (Move (Op Unit))),
      SuggestionsOk db → Unique env db ms := by
  intro h
  have hrun : (run (body sampleEnv) (Sys.init ∅) sampleTwice).map (fun s =>
      ((s.db.get (.suggestion "1")).map fun r : SuggestionRow Unit => r.rankSummary.sourceRunId,
        (s.db.get (.suggestion "3")).map fun r : SuggestionRow Unit => r.rankSummary.sourceRunId))
      = some (some "a", some "a") := by
    decide +kernel
  obtain ⟨s, hs, hsources⟩ := Option.map_eq_some_iff.mp hrun
  obtain ⟨h1, h3⟩ := Prod.mk.inj hsources
  obtain ⟨r, hr, hsource⟩ := Option.map_eq_some_iff.mp h1
  obtain ⟨r', hr', hsource'⟩ := Option.map_eq_some_iff.mp h3
  have hsame := (h sampleEnv ∅ sampleTwice suggestionsOk_empty).source sampleTwice s sampleTwice s
    List.prefix_rfl hs List.prefix_rfl hs "1" "3" r r' hr hr' (hsource.trans hsource'.symm)
  exact absurd hsame (by decide)

end RagQs.Evaluation
