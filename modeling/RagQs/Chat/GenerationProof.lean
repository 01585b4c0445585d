import RagQs.Chat.Changes
import RagQs.Chat.Generation

/-!
# The generation service keeps the life of a generation

What the transactions of the generation service, of the subscription leases and of the windows
do to the generations, each as a triple from writes that may be committed to writes that may be
committed.

## Main results

* `triple_createGeneration`, `triple_ask`, `triple_retry` — a new generation.
* `triple_stop`, `triple_applyRevocationEffects` — a request to stop.
* `triple_recordCitationClick`, `triple_submitAbVote` — what the reader does.
* `triple_expireWindowPairs` — the pairs of a window expire.
-/

namespace RagQs.Chat

open Txn Discipline List Option Store

variable {S : Strict} {vote : Prop} {C : List (Write Row) → Db → Prop} {c c' d d₀ : Db}
  {H : Key → Prop} {g : String} {L : Prop} {P : Snapshot → Snapshot → Prop} {α β : Type}

variable {userId key fingerprint generationId : String} {now : Time} {env : Env} {a : Creation} {p :
  PairRow} {parent : Option (String × GenerationRow)}

variable {f : GenerationRow → GenerationRow} {kind id token : String} {verified : Except Err Unit}
  {v : Db} {scope : RevocationScope}

/-! ### Updates of a generation -/

theorem triple_updateIf {p : Db → GenerationRow → Bool}
    (h : ∀ v s r, Ok S s → s.gen = some r → p v r = true →
      Ok S { s with gen := some (f r) } ∧ Moves S True vote s { s with gen := some (f r) }) :
    (chat S).Triple C (Good S vote) (updateIf (.generation g) p f) fun _ => Good S vote := by
  refine (triple_work (g := g) (L := False) (F := fun _ => True) fun d₀ =>
    (work_updateGeneration (Φ := fun _ => True) fun _ _ _ _ _ => trivial).post
      fun n c d H _ hw => ?_).pre fun _ _ _ _ h => ⟨h, False.elim, trivial⟩
  refine hw.close fun s t hs ⟨_, ⟨hts, _⟩, hn⟩ => ?_
  subst hts
  rcases hn with ⟨rfl, rfl⟩ | ⟨rfl, r, hr, ⟨v, hcond⟩, -, rfl⟩
  · exact ⟨hs, .refl _ _ _ _⟩
  · obtain ⟨hok, hmoves⟩ := h v _ r hs hr hcond
    exact ⟨hok, hmoves.mono (fun _ => .inr rfl) id⟩

theorem triple_touch {cond : GenerationRow → Bool} (hst : ∀ r, (f r).status = r.status)
    (hc : ∀ r, (f r).controlVersion = r.controlVersion) :
    (chat S).Triple C (Good S vote) (updateWhere (Key.generation g) cond f : Tx ℕ)
      fun _ => Good S vote :=
  triple_updateIf (p := fun _ => cond) fun _ _ r hs hr _ => hs.touch hr (hst r) (hc r)

theorem triple_requestStop {reason : StopReason} {next : GenerationRow → ℕ}
    (hnext : ∀ r, r.controlVersion = 1 → next r ≠ 1) :
    (chat S).Triple C (Good S vote)
      (updateWhere (Key.generation g) (fun r => r.status = .running)
        fun r => r.requestStop reason (next r) : Tx ℕ) fun _ => Good S vote := by
  refine triple_updateIf (p := fun _ r => r.status = .running) fun _ s r hs hr hrun => ?_
  have hrun : r.status = .running := by simpa using hrun
  exact hs.requestStop hr hrun rfl (hnext r ((hs.control r hr).running hrun))

/-! ### Parts that do not show -/

theorem quiet_findIdempotency {targetId : String} :
    Quiet S vote C (findIdempotency userId kind targetId key fingerprint) := by
  unfold findIdempotency readIdempotency
  refine .bind .readRow fun row => ?_
  cases row with
  | none => exact .done
  | some row => exact .bind .raiseIf fun _ => .done

theorem quiet_recordIdempotency {targetId target : String} :
    Quiet S vote C (recordIdempotency userId kind targetId key fingerprint target) :=
  .insert fun x hx => by rw [mem_singleton.mp hx]; rfl

theorem quiet_requireOwnedConversation : Quiet S vote C (requireOwnedConversation id userId) :=
  .bind .readRow fun _ => .bind .orRaise fun _ => .bind .raiseIf fun _ => .done

theorem quiet_createConversationRow : Quiet S vote C (createConversationRow id userId now) :=
  .insert fun x hx => by rw [mem_singleton.mp hx]; rfl

theorem quiet_enforceRateLimit : Quiet S vote C (enforceRateLimit env userId now) :=
  .bind .select fun _ => .raiseIf

theorem quiet_enforceConcurrency : Quiet S vote C (enforceConcurrency env userId) :=
  .bind .select fun _ => .raiseIf

theorem quiet_requireOwnedGeneration :
    Quiet S vote C (requireOwnedGeneration generationId userId) :=
  .bind .lockRow fun _ => .bind .orRaise fun _ => .bind .raiseIf fun _ => .done

theorem quiet_touchConversation : Quiet S vote C (touchConversation a) :=
  .bind (.updateWhere rfl) fun _ => .done

theorem quiet_addExecution {g e : String} {row : ExecutionRow} :
    Quiet S vote C (addExecution g e row) :=
  .insert fun x hx => by
    simp only [mem_cons, not_mem_nil, or_false] at hx
    rcases hx with rfl | rfl <;> rfl

/-! ### A new generation -/

theorem work_insertMessage {m : MessageRow} :
    (chat S).Triple C (Work S vote d₀ g L P)
      (Txn.insert .integrity [.message g] [⟨.message g, some m⟩] : Tx Unit) fun _ =>
        Work S vote d₀ g L (Relation.Comp P fun s t => t = { s with msg := some m }) := by
  refine .insert fun c d H _ hφ _ _ => ?_
  have hH : writing H [(⟨.message g, some m⟩ : Write Row)] = fun k => H k ∨ k = .message g := by
    funext k
    simp [writing]
  rw [hH]
  exact .write hφ rfl (fun hl => .inl hl) (fun _ _ => tally_set_of_not_pair (by simp) _)
    fun _ _ _ _ hP => ⟨_, hP, snap_set_message _ _ _⟩

theorem work_insertGeneration {r : GenerationRow} :
    (chat S).Triple C (Work S vote d₀ g L P)
      (Txn.insert .integrity [.generation g] [⟨.generation g, some r⟩] : Tx Unit) fun _ =>
        Work S vote d₀ g True
          (Relation.Comp P fun s t => s.gen = none ∧ t = { s with gen := some r }) := by
  refine .insert fun c d H _ hφ hfree _ => ?_
  have hnone : (d ∪ c : Db).get (.generation g) = none := by simpa [taken] using hfree
  have hH : writing H [(⟨.generation g, some r⟩ : Write Row)]
      = fun k => H k ∨ k = .generation g := by
    funext k
    simp [writing]
  rw [hH]
  refine .write hφ rfl (fun _ => .inr rfl) (fun _ _ => tally_set_of_not_pair (by simp) _)
    fun c' hr _ _ hP => ⟨_, hP, ?_, snap_set_generation _ _ _⟩
  exact (hr.view d (.inr rfl)).trans hnone

theorem Changes.insertPair (hv : p.voted = false) :
    Changes S vote C g L (Txn.insert .integrity [.pair g] [⟨.pair g, some p⟩]) fun _ s t =>
      t = { s with pair := some p } := by
  refine ⟨fun d₀ P => .insert fun c d H _ hφ hfree _ => ?_⟩
  have hnone : (d ∪ c : Db).get (.pair g) = none := by simpa [taken] using hfree
  have hH : writing H [(⟨.pair g, some p⟩ : Write Row)] = fun k => H k ∨ k = .pair g := by
    funext k
    simp [writing]
  rw [hH]
  refine .write hφ rfl (fun hl => .inl hl) (fun c' hr w => tally_set ?_)
    fun _ _ _ _ hP => ⟨_, hP, snap_set_pair _ _ _⟩
  rw [(hr.view d (.inr rfl)).trans hnone]
  simp [votedIn, hv]

/-- A pair in a window, with its event. -/
def AddsPair (w : Window) (s t : Snapshot) : Prop :=
  ∃ n e p, Top s.log n ∧ e.eventType = .abStart ∧
    t = { s with log := extend s.log n [e], pair := some p } ∧
    p.status = .pending ∧ p.voted = false ∧ p.windowId = some w.windowId

theorem changes_createAbPair {w : Window} {configs : String × String} :
    Changes S vote C a.ids.generationId True (createAbPair a w configs) fun _ => AddsPair w := by
  refine (Changes.bind (Changes.insertPair rfl) fun _ =>
    Changes.bind (Changes.insertHidden fun x hx => ?_) fun _ =>
      Changes.bind Changes.appendEvent fun _ =>
        Changes.done (R := fun _ s t => t = s) fun _ => rfl).conseq ?_
  · simp only [mem_cons, not_mem_nil, or_false] at hx
    rcases hx with rfl | rfl <;> rfl
  · rintro _ s t ⟨_, _, rfl, _, _, rfl, _, _, ⟨n, hn, rfl⟩, rfl⟩
    exact ⟨n, _, _, hn, rfl, rfl, rfl, rfl, rfl⟩

/-- The window of a new generation is there. -/
def WindowsOf (window : Option Window) (s : Snapshot) : Prop :=
  ∀ w, window = some w → s.windows w.windowId

theorem triple_openWindow {window : Option Window} :
    (chat S).Triple C (Good S vote) (openWindow window) fun b c d H =>
      Good S vote c d H ∧ (False → H (.generation g)) ∧ WindowsOf b (snap (d ∪ c : Db) g) := by
  unfold openWindow
  cases window with
  | none => exact .done fun c d H _ h => ⟨h, False.elim, fun w hw => by cases hw⟩
  | some w =>
    refine .bind (ψ := fun row c d H => Good S vote c d H ∧
      (row.isSome = true → (snap (d ∪ c : Db) g).windows w.windowId)) ?_ fun row => ?_
    · refine .select fun c d H _ h c' hr => ⟨h c' hr, fun hrow => rely_window hr hrow⟩
    · refine .done fun c d H _ h => ⟨h.1, False.elim, ?_⟩
      rintro w' hw
      split at hw
      · next hrow =>
        cases hw
        exact h.2 hrow
      · cases hw

theorem changes_drawnPair :
    Changes S vote C g L (drawnPair a parent) fun b s t =>
      t = s ∧ ∀ w configs, b = some (w, configs) → a.window = some w := by
  unfold drawnPair
  split
  · next w configs hw _ =>
    refine .done fun s => ⟨rfl, ?_⟩
    rintro _ _ ⟨⟩
    exact hw
  · next w configs p hw _ =>
    refine (Changes.bind Changes.select fun b =>
      Changes.done (R := fun x s t => t = s ∧ x = if b then none else some (w, configs))
        fun _ => ⟨rfl, rfl⟩).conseq ?_
    rintro x s t ⟨b, _, rfl, rfl, rfl⟩
    refine ⟨rfl, fun w' configs' hx => ?_⟩
    split at hx
    · cases hx
    · cases hx
      exact hw
  · exact .done fun s => ⟨rfl, fun _ _ h => by cases h⟩

theorem quiet_finishCreation {g : String} :
    Quiet S vote C (if parent.isNone then do
        touchConversation a
        pure g
      else pure g) :=
  .ite (fun _ => quiet_touchConversation.bind fun _ => .done) fun _ => .done

/-- `_create_generation` -/
theorem triple_createGeneration :
    (chat S).Triple C (Good S vote) (createGeneration env a parent) fun _ => Good S vote := by
  unfold createGeneration
  refine .bind (triple_openWindow (g := a.ids.generationId)) fun window => ?_
  refine triple_work fun d₀ => .bind (changes_drawnPair (a := { a with window }).work d₀ _)
    fun pair => ?_
  refine .bind work_insertMessage fun _ => .bind work_insertGeneration fun _ => ?_
  refine ((Changes.bind (quiet_addExecution _ _) fun _ => Changes.bind Changes.appendEvent fun _ =>
    (?_ : Changes S vote C a.ids.generationId True _ fun _ s t => t = s ∧ pair = none ∨
      ∃ w configs, pair = some (w, configs) ∧ AddsPair w s t)).work d₀ _).post ?_
  · cases pair with
    | none => exact (quiet_finishCreation _ _).conseq fun _ _ _ h => .inl ⟨h, rfl⟩
    | some x =>
      refine (Changes.bind (changes_createAbPair (a := { a with window })) fun _ =>
        quiet_finishCreation _ _).conseq ?_
      rintro _ s t ⟨_, _, h, rfl⟩
      exact .inr ⟨x.1, x.2, rfl, h⟩
  · refine fun _ c d H hc hw => hw.close fun s t hs hrel => ?_
    obtain ⟨_, ⟨_, ⟨s₁, ⟨_, ⟨rfl, hwin⟩, rfl, hpair⟩, rfl⟩, hg, rfl⟩, _, _, rfl, _, _,
      ⟨n, hn, rfl⟩, hab⟩ := hrel
    have hlog := (hs.absent hg).1
    have hn0 : n = 0 := by
      by_contra hne
      have := hn.mem hne
      rw [show s₁.log n = none from hlog n] at this
      cases this
    subst hn0
    rcases hab with ⟨rfl, rfl⟩ | ⟨w, configs, hp, m, e, p, hm, he, rfl, hst, hv, hwid⟩
    · refine hs.create hg rfl rfl rfl ?_ fun p hp => ?_
      · rintro x hx
        rw [mem_singleton.mp hx]
        rfl
      · rw [(hs.absent hg).2.1] at hp
        cases hp
    · -- the second event goes after the first one
      have hd : Dense s₁.log 0 := by
        intro q
        rw [hlog q]
        simp only [isSome_none, Bool.false_eq_true, false_iff]
        omega
      have hm : Top (extend s₁.log 0 [_]) m := hm
      obtain rfl := hm.unique hd.longer.top
      · rw [extend_extend]
        refine hs.create hg rfl rfl rfl ?_ fun q hq => ?_
        · rintro x hx
          rcases mem_append.mp hx with hx | hx
          · rw [mem_singleton.mp hx]
            rfl
          · rw [mem_singleton.mp hx, he]
            rfl
        · cases hq
          refine ⟨hst, hv, fun w' hw' => ?_⟩
          cases hwid.symm.trans hw'
          exact hwin w (hpair w configs hp)

theorem triple_createRecorded {target : String} :
    (chat S).Triple C (Good S vote) (do
        let g ← createGeneration env a parent
        recordIdempotency userId kind target key fingerprint g
        pure g) fun _ => Good S vote :=
  .bind triple_createGeneration fun _ => (quiet_recordIdempotency.bind fun _ => .done).good

/-- `GenerationService.ask` -/
theorem triple_ask {a : AskCall} :
    (chat S).Triple C (Good S vote) (ask env a) fun _ => Good S vote := by
  obtain ⟨creation, verified, conversationId, newId, key, fingerprint⟩ := a
  unfold ask
  refine .bind Quiet.check.good fun _ => ?_
  cases conversationId with
  | some id =>
    refine .bind quiet_requireOwnedConversation.good fun _ =>
      .bind quiet_findIdempotency.good fun replay => ?_
    cases replay with
    | some replay => exact Quiet.done.good
    | none =>
      exact .bind quiet_enforceRateLimit.good fun _ =>
        .bind quiet_enforceConcurrency.good fun _ => triple_createRecorded
  | none =>
    refine .bind quiet_findIdempotency.good fun replay => ?_
    cases replay with
    | some replay => exact Quiet.done.good
    | none =>
      exact .bind quiet_enforceRateLimit.good fun _ =>
        .bind quiet_enforceConcurrency.good fun _ =>
          .bind quiet_createConversationRow.good fun _ =>
            .bind quiet_requireOwnedConversation.good fun _ => triple_createRecorded

/-- `GenerationService.retry` -/
theorem triple_retry {a : RetryCall} :
    (chat S).Triple C (Good S vote) (retry env a) fun _ => Good S vote := by
  unfold retry
  refine .bind Quiet.check.good fun _ => .bind quiet_requireOwnedGeneration.good
    fun failed => .bind Quiet.raiseIf.good fun _ => .bind Quiet.select.good
      fun direct => .bind quiet_findIdempotency.good fun replay => ?_
  cases replay with
  | some replay => exact Quiet.done.good
  | none =>
    cases direct with
    | some g => exact (quiet_recordIdempotency.bind fun _ => .done).good
    | none =>
      exact .bind quiet_enforceConcurrency.good fun _ => .bind Quiet.check.good
        fun _ => .bind quiet_requireOwnedConversation.good fun _ => triple_createRecorded

/-! ### Stopping -/

/-- `GenerationService.stop` -/
theorem triple_stop :
    (chat S).Triple C (Good S vote) (stop userId generationId verified) fun _ => Good S vote := by
  unfold stop
  refine .bind Quiet.check.good fun _ =>
    .bind quiet_requireOwnedGeneration.good fun generation => ?_
  split
  · exact Quiet.done.good
  · refine .bind Quiet.raiseIf.good fun _ => ?_
    split
    · exact .bind (triple_requestStop fun r hr => by omega) fun _ => Quiet.done.good
    · exact Quiet.done.good

theorem triple_stopEach (rows : List (String × GenerationRow))
    (hrows : ∀ x ∈ rows, x.2.controlVersion = 1) :
    (chat S).Triple C (Good S vote) (stopEach rows) fun _ => Good S vote := by
  induction rows with
  | nil => exact Quiet.done.good
  | cons x rows ih =>
    have hx := hrows x mem_cons_self
    exact .bind (triple_requestStop fun r _ => by omega) fun _ =>
      ih fun y hy => hrows y (mem_cons_of_mem _ hy)

theorem mem_generations {x : String × GenerationRow} :
    x ∈ generations v ↔ (snap v x.1).gen = some x.2 := by
  unfold generations
  rw [mem_table]
  constructor
  · rintro ⟨k, r, hget, hpick⟩
    cases k with
    | generation g =>
      cases hpick
      exact hget
    | _ => cases hpick
  · intro h
    exact ⟨.generation x.1, x.2, h, rfl⟩

/-- `apply_revocation_effects`: the rows that are read are running, so they have the first
control version. -/
theorem triple_applyRevocationEffects :
    (chat S).Triple C (Good S vote) (applyRevocationEffects scope) fun _ => Good S vote := by
  unfold applyRevocationEffects
  refine .bind (ψ := fun rows c d H => Good S vote c d H ∧
    ∀ x ∈ rows, x.2.controlVersion = 1) ?_ fun rows => ?_
  · refine .select fun c d H hc h c' hr => ⟨h c' hr, fun x hx => ?_⟩
    obtain ⟨hx, hrun⟩ := mem_filter.mp hx
    have hrun : x.2.status = .running := by simpa using (of_decide_eq_true hrun).2
    exact (((h.now hc).inv.ok x.1).control x.2 (mem_generations.mp hx)).running hrun
  · refine Triple.of_fact (fun _ _ _ _ h => h.2) fun hrows => Triple.pre ?_ fun _ _ _ _ h => h.1
    refine Triple.bind (Quiet.hidden fun v x hx => ?_).good fun _ => triple_stopEach rows hrows
    obtain ⟨l, -, rfl⟩ := List.mem_map.mp hx
    rfl

theorem triple_consumeEach (rows : List (String × RevocationRow)) :
    (chat S).Triple C (Good S vote) (consumeEach rows) fun _ => Good S vote := by
  induction rows with
  | nil => exact Quiet.done.good
  | cons x rows ih =>
    refine .bind triple_applyRevocationEffects fun _ => .bind
      (Quiet.insert fun y hy => ?_).good fun _ =>
        Triple.bind (Quiet.updateWhere rfl).good fun _ => ih
    rw [mem_singleton.mp hy]
    rfl

theorem triple_consumeDurableRevocationCommands :
    (chat S).Triple C (Good S vote) consumeDurableRevocationCommands fun _ => Good S vote :=
  .bind Quiet.select.good fun rows => triple_consumeEach rows

theorem triple_revoke : (chat S).Triple C (Good S vote) (revoke id scope) fun _ => Good S vote := by
  have hrecord : ∀ r : RevocationRow, Quiet S vote C
      (Txn.insert .integrity [.revocation id] [⟨.revocation id, some r⟩] : Tx Unit) :=
    fun r => .insert fun x hx => by rw [mem_singleton.mp hx]; rfl
  have hconsume : Quiet S vote C
      (Txn.insert .integrity [.consumption id] [⟨.consumption id, some ()⟩] : Tx Unit) :=
    .insert fun x hx => by rw [mem_singleton.mp hx]; rfl
  unfold revoke
  refine .bind Quiet.readRow.good fun row => ?_
  cases row with
  | some row => exact Quiet.done.good
  | none =>
    refine .bind Quiet.readRow.good fun consumed => ?_
    cases consumed with
    | some _ => exact (hrecord _).good
    | none =>
      exact .bind triple_applyRevocationEffects fun _ =>
        .bind hconsume.good fun _ => (hrecord _).good

/-! ### Leases -/

theorem triple_createLease {session : String} :
    (chat S).Triple C (Good S vote) (createLease env token generationId session now)
      fun _ => Good S vote := by
  refine Triple.bind (Quiet.insert fun x hx => ?_).good fun _ =>
    Triple.bind (triple_touch (fun _ => rfl) fun _ => rfl) fun _ => Quiet.done.good
  rw [mem_singleton.mp hx]
  rfl

theorem quiet_renewLease : Quiet S vote C (renewLease env token now) := by
  unfold renewLease
  refine .bind .readRow fun row => ?_
  cases row with
  | none => exact .done
  | some row => exact .ite (fun _ => .done) fun _ => .bind (.updateWhere rfl) fun _ => .done

theorem triple_invalidateLease :
    (chat S).Triple C (Good S vote) (invalidateLease env token now) fun _ => Good S vote := by
  unfold invalidateLease
  refine .bind Quiet.readRow.good fun row => ?_
  cases row with
  | none => exact Quiet.done.good
  | some row =>
    refine Triple.bind (Quiet.hidden fun v x hx => ?_).good fun _ =>
      .bind Quiet.select.good fun others => ?_
    · rw [mem_singleton.mp hx]
      rfl
    · split
      · exact .bind (triple_touch (fun _ => rfl) fun _ => rfl) fun _ => Quiet.done.good
      · exact Quiet.done.good

/-! ### The reader -/

/-- `record_citation_click` -/
theorem triple_recordCitationClick {data : JsonObject} :
    (chat S).Triple C (Good S vote) (recordCitationClick userId generationId verified data)
      fun _ => Good S vote := by
  refine .bind Quiet.check.good fun _ => .bind Quiet.readRow.good fun _ =>
    .bind Quiet.orRaise.good fun _ => .bind Quiet.raiseIf.good fun _ => ?_
  refine triple_lock Triple.fail fun r => ?_
  refine (Changes.bind Changes.appendEvent fun _ =>
    Changes.done (R := fun _ s t => t = s) fun _ => rfl).locked ?_
  rintro _ s t hs hr ⟨_, _, ⟨n, hn, rfl⟩, rfl⟩
  exact hs.append hr hn rfl (fun _ => rfl) fun _ _ => rfl

/-! ### The pairs of a window -/

theorem Inv.expire {W : Key → Prop} {p' : PairRow} (h : Inv S v) (hp : v.get (.pair g) = some p)
    (hw : p'.windowId = p.windowId) (hv : p'.voted = p.voted) (hc : p'.choice = p.choice)
    (hst : p'.status = .expired) (hnot : p.status ≠ .voted) :
    Inv S (v.set (.pair g) (some p')) ∧ Guar S vote W v (v.set (.pair g) (some p')) := by
  have key : ∀ g', Ok S (snap (v.set (.pair g) (some p')) g') ∧
      Moves S (W (.generation g')) vote (snap v g') (snap (v.set (.pair g) (some p')) g') := by
    intro g'
    by_cases hg : g' = g
    · subst hg
      rw [snap_set_pair]
      exact (h.ok g').expire hp hw hv hc hst hnot
    · rw [snap_set_other rfl hg]
      exact ⟨h.ok g', .refl _ _ _ _⟩
  refine ⟨⟨fun g' => (key g').1, fun w row hrow => ?_⟩, fun g' => (key g').2⟩
  rw [tally_set_pair hp hw hv]
  exact h.counted w row ((get_set_window rfl _ w).symm.trans hrow)

theorem Inv.expireAll (vote : Prop) (W : Key → Prop) (ws : List (Write Row)) :
    ∀ v : Db, Inv S v →
      (∀ x ∈ ws, ∃ g p, x = ⟨.pair g, some { p with status := .expired }⟩ ∧ p.status ≠ .voted ∧
        (v.get (.pair g) = some p ∨ v.get (.pair g) = some { p with status := .expired })) →
      Inv S (v.applyAll ws) ∧ Guar S vote W v (v.applyAll ws) := by
  induction ws with
  | nil => exact fun v h _ => ⟨h, fun g => .refl _ _ _ _⟩
  | cons x ws ih =>
    intro v h hws
    obtain ⟨g, p, rfl, hnot, hget⟩ := hws x mem_cons_self
    have hset : Inv S (v.set (.pair g) (some { p with status := .expired })) ∧
        Guar S vote W v (v.set (.pair g) (some { p with status := .expired })) := by
      rcases hget with hget | hget
      · exact h.expire hget rfl rfl rfl rfl hnot
      · exact h.expire hget rfl rfl rfl rfl (by simp)
    have hrest : ∀ y ∈ ws, ∃ g' q, y = ⟨.pair g', some { q with status := .expired }⟩ ∧
        q.status ≠ .voted ∧
        ((v.set (.pair g) (some { p with status := .expired })).get (.pair g') = some q ∨
          (v.set (.pair g) (some { p with status := .expired })).get (.pair g')
            = some { q with status := .expired }) := by
      intro y hy
      obtain ⟨g', q, rfl, hnot', hget'⟩ := hws y (mem_cons_of_mem _ hy)
      refine ⟨g', q, rfl, hnot', ?_⟩
      by_cases hg : g' = g
      · -- the same pair, which has expired by now
        subst hg
        refine .inr ((get_set_self _ _ _).trans ?_)
        rcases hget with hget | hget <;> rcases hget' with hget' | hget' <;> rw [hget] at hget'
        · rw [some.inj hget']
        · rw [some.inj hget']
        · rw [← some.inj hget']
        · exact hget'
      · rw [get_set_of_ne (by simp [hg])]
        exact hget'
    obtain ⟨hinv, hguar⟩ := ih _ hset.1 hrest
    exact ⟨hinv, hset.2.trans hguar⟩

theorem mem_pairs {x : String × PairRow} : x ∈ pairs v ↔ (snap v x.1).pair = some x.2 := by
  unfold pairs
  rw [mem_table]
  constructor
  · rintro ⟨k, r, hget, hpick⟩
    cases k with
    | pair g =>
      cases hpick
      exact hget
    | _ => cases hpick
  · intro h
    exact ⟨.pair x.1, x.2, h, rfl⟩

/-- `expire_window_pairs` -/
theorem triple_expireWindowPairs {windowId : String} :
    (chat S).Triple C (Good S vote) (expireWindowPairs windowId) fun _ => Good S vote := by
  refine .statement fun c d H hc h _ c' hr => ?_
  have hgood := h c' (hr.mono fun k hk => .inl hk)
  have hexpire := Inv.expireAll (S := S) vote (grow H (fun _ => [])
    (fun v => (votablePairs v windowId).map fun p =>
      (⟨.pair p.1, some { p.2 with status := .expired }⟩ : Write Row)) (d ∪ c))
    ((votablePairs (d ∪ c) windowId).map fun p =>
      (⟨.pair p.1, some { p.2 with status := .expired }⟩ : Write Row)) (d ∪ c' : Db) hgood.inv
      fun x hx => ?_
  · constructor
    · rw [applyAll_union]
      exact hexpire.1
    · rw [applyAll_union]
      exact (hgood.guar.mono (fun k hk => .inl hk) id).trans hexpire.2
  · obtain ⟨p, hp, rfl⟩ := List.mem_map.mp hx
    obtain ⟨hmem, hst⟩ := mem_filter.mp hp
    have hst := (of_decide_eq_true hst).2
    refine ⟨p.1, p.2, rfl, fun hv => ?_, .inl ?_⟩
    · rw [hv] at hst
      rcases hst with hst | hst <;> cases hst
    · refine (hr.view d (.inr ?_)).trans (mem_pairs.mp hmem)
      exact mem_append_right _ (List.mem_map.mpr ⟨_, hx, rfl⟩)

/-! ### Votes -/

theorem snap_set_window {w : String} {row row' : WindowRow} (hget : v.get (.window w) = some row)
    (g : String) : snap (v.set (.window w) (some row')) g = snap v g := by
  unfold snap
  congr 1
  · exact get_set_of_ne (by simp)
  · exact get_set_of_ne (by simp)
  · funext q
    exact get_set_of_ne (by simp)
  · exact get_set_of_ne (by simp)
  · funext u
    exact get_set_of_ne (by simp)
  · funext w'
    by_cases hw : w' = w
    · subst hw
      rw [get_set_self, hget]
      rfl
    · rw [get_set_of_ne (by simp [hw])]

theorem tally_vote {p' : PairRow} (hp : v.get (.pair g) = some p) (hv : p.voted = false)
    (hv' : p'.voted = true) (hw : p'.windowId = p.windowId) (w : String) :
    tally (v.set (.pair g) (some p')) w = tally v w + if p.windowId = some w then 1 else 0 := by
  have h := total_set (votedIn w) v (.pair g) (some p')
  rw [hp, weight_some, weight_some] at h
  have hold : votedIn w (.pair g) p = 0 := by simp [votedIn, hv]
  have hnew : votedIn w (.pair g) p' = if p.windowId = some w then 1 else 0 := by
    simp [votedIn, hv', hw]
  rw [hold, hnew, Nat.add_zero] at h
  exact h

theorem work_updatePresentMessage {f : MessageRow → MessageRow}
    (hpres : ∀ s t, Ok S s → P s t → t.msg.isSome = true) :
    (chat S).Triple C (Work S vote d₀ g L P)
      (updateWhere (Key.message g) (fun _ => true) f : Tx ℕ) fun _ =>
        Work S vote d₀ g L (Relation.Comp P fun s t =>
          ∃ m, s.msg = some m ∧ t = { s with msg := some (f m) }) := by
  refine .updateWhere (fun c d H hc hφ hmiss => ?_) fun c d H m _ hφ hget _ _ => ?_
  · have hw := hφ.now hc
    obtain ⟨m, hm⟩ := isSome_iff_exists.mp (hpres _ _ (hw.good.inv.ok g) hw.view)
    cases hmiss m hm
  · refine .write hφ rfl (fun hl => .inl hl)
      (fun c' _ => tally_set_of_not_pair (by simp) _) fun c' hr s _ hP => ?_
    exact ⟨_, hP, m, (hr.view d (.inr rfl)).trans hget, snap_set_message _ _ _⟩

/-- The pending writes of a vote before its window has counted it. -/
structure Voting (S : Strict) (d₀ : Db) (g : String) (p : PairRow) (c d : Db) (H : Key → Prop) :
    Prop where
  good : Good S True c d₀ H
  pair : (snap (d₀ ∪ c : Db) g).pair = some p
  view : Ok S (snap (d ∪ c : Db) g) ∧
    Moves S False True (snap (d₀ ∪ c : Db) g) (snap (d ∪ c : Db) g)
  others : ∀ g', g' ≠ g → snap (d ∪ c : Db) g' = snap (d₀ ∪ c : Db) g'
  tally : ∀ w, Chat.tally (d ∪ c : Db) w
    = Chat.tally (d₀ ∪ c : Db) w + if p.windowId = some w then 1 else 0
  window : ∀ w, (d ∪ c : Db).get (.window w) = (d₀ ∪ c : Db).get (.window w)

theorem Voting.close (h : Voting S d₀ g p c d H) (hp : p.windowId = none) : Good S True c d H := by
  have key : ∀ g', Ok S (snap (d ∪ c : Db) g') ∧
      Moves S False True (snap (d₀ ∪ c : Db) g') (snap (d ∪ c : Db) g') := by
    intro g'
    by_cases hg : g' = g
    · rw [hg]
      exact h.view
    · rw [h.others g' hg]
      exact ⟨h.good.inv.ok g', .refl _ _ _ _⟩
  refine ⟨⟨fun g' => (key g').1, fun w row hrow => ?_⟩, fun g' =>
    (h.good.guar g').trans ((key g').2.mono False.elim id)⟩
  rw [h.tally, hp, if_neg (by simp), Nat.add_zero]
  exact h.good.inv.counted w row ((h.window w).symm.trans hrow)

theorem Voting.count {w : String} {row : WindowRow} (h : (chat S).Always (Voting S d₀ g p) c d H)
    (hp : p.windowId = some w) (hget : (d ∪ c : Db).get (.window w) = some row) :
    (chat S).Always (Good S True) c
      (d.set (.window w) (some { row with pairsCollected := row.pairsCollected + 1 }))
      fun k => H k ∨ k = .window w := by
  intro c' hr
  have hv := h c' (hr.mono fun k hk => .inl hk)
  have hget' : (d ∪ c' : Db).get (.window w) = some row := (hr.view d (.inr rfl)).trans hget
  have key : ∀ g', Ok S (snap (d ∪ c' : Db) g') ∧
      Moves S False True (snap (d₀ ∪ c' : Db) g') (snap (d ∪ c' : Db) g') := by
    intro g'
    by_cases hg : g' = g
    · rw [hg]
      exact hv.view
    · rw [hv.others g' hg]
      exact ⟨hv.good.inv.ok g', .refl _ _ _ _⟩
  refine ⟨⟨fun g' => ?_, fun w' row' hrow => ?_⟩, fun g' => ?_⟩
  · rw [set_union, snap_set_window hget']
    exact (key g').1
  · rw [set_union, tally_set_of_not_pair (by simp), hv.tally, hp]
    rw [set_union] at hrow
    by_cases hw : w' = w
    · subst hw
      rw [get_set_self] at hrow
      cases hrow
      rw [if_pos rfl]
      exact congrArg (· + 1) (hv.good.inv.counted w' row ((hv.window w').symm.trans hget'))
    · rw [get_set_of_ne (by simp [hw])] at hrow
      rw [if_neg (by simpa using Ne.symm hw), Nat.add_zero]
      exact hv.good.inv.counted w' row' ((hv.window w').symm.trans hrow)
  · rw [set_union, snap_set_window hget']
    exact ((hv.good.guar g').mono (fun hk => .inl hk) id).trans ((key g').2.mono False.elim id)

/-- A pair that is locked and open. -/
structure Open (S : Strict) (g : String) (p : PairRow) (c d : Db) (H : Key → Prop) : Prop where
  good : Good S True c d H
  pair : (snap (d ∪ c : Db) g).pair = some p
  status : p.status = .opened
  unvoted : p.voted = false

theorem quiet_chosenCandidate {g : String} {choice : Choice} :
    Quiet S vote C (chosenCandidate g choice) := by
  unfold chosenCandidate
  cases choice.candidate with
  | none => exact .done
  | some n => exact .bind .readRow fun _ => .bind .orRaise fun _ => .done

/-- A vote of a user who has not voted. -/
def Votes (u : String) (x : VoteRow) (p : PairRow) (s t : Snapshot) : Prop :=
  s.pair = some p ∧ s.votes u = none ∧ t = { s with votes := Function.update s.votes u (some x) }

theorem work_insertVote {u : String} {x : VoteRow} :
    (chat S).Triple C (Work S True d₀ g False fun s t => t = s ∧ s.pair = some p)
      (Txn.insert .integrity [.vote g u, .voteKey u key]
        [⟨.vote g u, some x⟩, ⟨.voteKey u key, some ()⟩] : Tx Unit)
      fun _ => Work S True d₀ g False (Votes u x p) := by
  refine .insert fun c d H _ hφ hfree _ => ?_
  have hnew : (d ∪ c : Db).get (.vote g u) = none := by
    simp only [taken, any_cons, any_nil, Bool.or_false, Bool.or_eq_false_iff] at hfree
    simpa using hfree.1
  have hw : (chat S).Always (Work S True d₀ g False (Votes u x p)) c (d.set (.vote g u) (some x))
      fun k => H k ∨ k = .vote g u := by
    refine .write hφ rfl False.elim (fun _ _ => tally_set_of_not_pair (by simp) _)
      fun c' hr s _ hP => ?_
    obtain ⟨hts, hp⟩ := hP
    rw [snap_set_vote, hts]
    refine ⟨hp, ?_, rfl⟩
    rw [← hts]
    exact (hr.view d (.inr rfl)).trans hnew
  intro c' hr
  have hH : ∀ k, H k ∨ k = .vote g u →
      writing H [(⟨.vote g u, some x⟩ : Write Row), ⟨.voteKey u key, some ()⟩] k := by
    rintro k (hk | rfl)
    · exact .inl hk
    · exact .inr (by simp)
  have hkey : ∀ y ∈ [(⟨.voteKey u key, some ()⟩ : Write Row)], y.1.observed = false := by
    intro y hy
    rw [mem_singleton.mp hy]
    rfl
  exact (hw c' (hr.mono hH)).hidden hkey hH

theorem work_updateVoted {u : String} {x : VoteRow} {f : MessageRow → MessageRow}
    (hst : p.status = .opened) (hun : p.voted = false) (hf : ∀ m, (f m).status = m.status) :
    (chat S).Triple C
      (Work S True d₀ g False (Relation.Comp (Votes u x p) fun s t =>
        ∃ m, s.msg = some m ∧ t = { s with msg := some (f m) }))
      (updateWhere (Key.pair g) (fun _ => true) fun p =>
        { p with status := .voted, voted := true, choice := some x.choice } : Tx ℕ)
      fun _ => Voting S d₀ g p := by
  have hpair : ∀ {s t : Snapshot}, Relation.Comp (Votes u x p) (fun s t =>
      ∃ m, s.msg = some m ∧ t = { s with msg := some (f m) }) s t → t.pair = some p := by
    rintro s t ⟨_, ⟨hp, -, rfl⟩, m, -, rfl⟩
    exact hp
  refine .updateWhere (fun c d H hc hφ hmiss => ?_) fun c d H q hc hφ hget _ _ => ?_
  · cases hmiss p (hpair (hφ.now hc).view)
  · obtain rfl : q = p := some.inj (hget.symm.trans (hpair (hφ.now hc).view))
    intro c' hr
    have hw := hφ c' (hr.mono fun k hk => .inl hk)
    have hget' : (d ∪ c' : Db).get (.pair g) = some q := (hr.view d (.inr rfl)).trans hget
    obtain ⟨t, ⟨hp, hnew, rfl⟩, m, hm, hview⟩ := hw.view
    refine ⟨hw.good.mono fun k hk => .inl hk, hp, ?_, fun g' hg => ?_, fun w => ?_, fun w => ?_⟩
    · rw [set_union, snap_set_pair, hview]
      exact (hw.good.inv.ok g).cast hp hst hnew hm (hf m) rfl rfl rfl rfl
    · rw [set_union, snap_set_other rfl hg]
      exact hw.others g' hg
    · rw [set_union]
      refine Eq.trans (tally_vote hget' hun ?_ ?_ w) ?_
      · rfl
      · rfl
      · rw [hw.tally]
    · rw [set_union, get_set_window rfl]
      exact hw.window w

theorem triple_castVote {a : VoteCall} :
    (chat S).Triple C (Open S a.generationId p) (castVote a p) fun _ => Good S True := by
  refine .of_fact (fun _ _ _ _ h => h.status) fun hst =>
    .of_fact (fun _ _ _ _ h => h.unvoted) fun hun => ?_
  refine (triple_work (L := False) (F := fun s => s.pair = some p) fun d₀ => ?_).pre
    fun _ _ _ _ h => ⟨h.good, False.elim, h.pair⟩
  unfold castVote
  refine .bind work_insertVote fun _ => .bind (ψ := fun _ =>
    Work S True d₀ a.generationId False (Votes a.userId ⟨a.choice, a.idempotencyKey⟩ p)) ?_
      fun candidate => .bind (work_updatePresentMessage ?_) fun _ =>
        .bind (work_updateVoted hst hun ?_) fun _ => ?_
  · exact ((quiet_chosenCandidate _ _).work d₀ _).post
      fun _ c d H _ hw => hw.mono fun _ ⟨t, h, hts⟩ => hts ▸ h
  · rintro s t hs ⟨hp, -, rfl⟩
    cases hg : s.gen with
    | none =>
      rw [(hs.absent hg).2.1] at hp
      cases hp
    | some r =>
      obtain ⟨m, hm, -⟩ := hs.message r hg
      rw [show ({ s with votes := _ } : Snapshot).msg = s.msg from rfl, hm]
      rfl
  · exact fun _ => rfl
  · cases hwin : p.windowId with
    | none =>
      exact quiet_recordIdempotency.good.pre fun c d H _ h => h.close hwin
    | some w =>
      refine .bind (ψ := fun _ => Good S True) ?_ fun _ => quiet_recordIdempotency.good
      refine .updateWhere (fun c d H hc hφ hmiss => ?_)
        fun c d H row _ hφ hget _ _ => Voting.count hφ hwin hget
      -- the window of a pair is there
      have hv := hφ.now hc
      have hthere : (snap (d ∪ c : Db) a.generationId).windows w :=
        show ((d ∪ c : Db).get (.window w)).isSome = true by
          rw [hv.window]
          exact (hv.good.inv.ok _).window p w hv.pair hwin
      obtain ⟨row, hrow⟩ := isSome_iff_exists.mp hthere
      cases hmiss row hrow

/-- `submit_ab_vote` -/
theorem triple_submitAbVote {a : VoteCall} :
    (chat S).Triple C (Good S True) (submitAbVote a) fun _ => Good S True := by
  unfold submitAbVote
  refine .bind Quiet.check.good fun _ => .bind Quiet.readRow.good fun _ =>
    .bind Quiet.orRaise.good fun _ => .bind Quiet.raiseIf.good fun _ => ?_
  refine .bind (ψ := fun o c d H => Good S True c d H ∧
    ∀ p, o = some p → (snap (d ∪ c : Db) a.generationId).pair = some p) ?_ fun o => ?_
  · refine .selectForUpdate fun c d H _ h c' hr => ?_
    refine ⟨(h c' (hr.mono fun k hk => .inl hk)).mono fun k hk => .inl hk, fun p hp => ?_⟩
    have hget := (filter_eq_some_iff.mp hp).1
    refine (hr.view d (.inr ?_)).trans hget
    rw [hp]
    simp
  cases o with
  | none => exact .fail
  | some p =>
    refine .bind (ψ := fun b c d H => b = p ∧ Good S True c d H ∧ (False → H (.generation
      a.generationId)) ∧ (snap (d ∪ c : Db) a.generationId).pair = some p)
      (.orRaise fun b hb c d H _ h => ⟨(some.inj hb).symm, h.1, False.elim,
        h.2 p rfl⟩) fun b => ?_
    refine .of_fact (fun _ _ _ _ h => h.1) fun hb => .pre ?_ fun _ _ _ _ h => h.2
    subst hb
    have hkeep : ∀ {γ : Type} {q : Tx γ}, Quiet S True C q → (chat S).Triple C
        (fun c d H => Good S True c d H ∧ (False → H (.generation a.generationId)) ∧
          (snap (d ∪ c : Db) a.generationId).pair = some b) q
        fun _ c d H => Good S True c d H ∧ (False → H (.generation a.generationId)) ∧
          (snap (d ∪ c : Db) a.generationId).pair = some b :=
      fun hq => hq.keep (F := fun s => s.pair = some b)
    refine .bind (hkeep .raiseIf) fun _ =>
      .bind (hkeep quiet_findIdempotency) fun replay => ?_
    cases replay with
    | some _ => exact .done fun _ _ _ _ h => h.1
    | none =>
      refine .bind (ψ := fun _ c d H => b.voted = false ∧ Good S True c d H ∧
        (snap (d ∪ c : Db) a.generationId).pair = some b)
        (.raiseIf fun hv c d H _ h => ⟨by simpa using hv, h.1, h.2.2⟩) fun _ => ?_
      refine .of_fact (fun _ _ _ _ h => h.1) fun hv => .pre ?_ fun _ _ _ _ h => h.2
      split
      · -- whatever is written here is rolled back
        split
        · exact .bind .trivial_post fun _ => .fail
        · exact .fail
      · next hopen =>
        have hst : b.status = .opened := by
          by_contra hne
          exact hopen (.inl hne)
        exact (Triple.bind triple_castVote fun _ => Quiet.done.good).pre
          fun _ _ _ _ h => ⟨h.1, h.2, hst, hv⟩

end RagQs.Chat
