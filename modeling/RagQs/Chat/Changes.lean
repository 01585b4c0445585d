import RagQs.Chat.View

/-!
# What the parts of a transaction do to a generation

A part of a transaction that works on one generation is described by the relation between what
the generation is seen as before it and after it.  The relations of the parts compose, and where
the composed relation keeps the life of the generation the writes may be committed.

## Main definitions

* `Changes` — what a part of a transaction does to a generation.
* `Locked` — writes that may be committed, with the lock of a generation and its row.

## Main results

* `Changes.bind` — parts compose.
* `Changes.updateGeneration`, `Changes.updateMessage`, `Changes.updatePair`,
  `Changes.appendTerminal`, `Changes.discard` — what the statements do.
* `Changes.locked` — a part that keeps the life of the generation whose lock is held.
-/

namespace RagQs.Chat

open Txn Discipline List Option Store

variable {S : Strict} {vote : Prop} {C : List (Write Row) → Db → Prop} {c c' d d₀ : Db}
  {H : Key → Prop} {g : String} {L : Prop} {P : Snapshot → Snapshot → Prop} {α β : Type}

variable {ws : List (Write Row)} {e : Err} {l : Db → List Key} {k : Key} {r : GenerationRow} {F :
  Snapshot → Prop}

variable {v : Db} {w : Db → List (Write Row)} {eventType : EventType}

/-! ### Writes that do not show -/

theorem snap_applyAll_unobserved (h : ∀ x ∈ ws, x.1.observed = false) (g : String) :
    snap (v.applyAll ws) g = snap v g := by
  induction ws generalizing v with
  | nil => rfl
  | cons x ws ih =>
    obtain ⟨k, r⟩ := x
    rw [applyAll_cons, ih fun y hy => h y (mem_cons_of_mem _ hy)]
    exact snap_set_unobserved (h _ mem_cons_self) r g

theorem tally_applyAll_unobserved (h : ∀ x ∈ ws, x.1.observed = false) (w : String) :
    tally (v.applyAll ws) w = tally v w := by
  induction ws generalizing v with
  | nil => rfl
  | cons x ws ih =>
    obtain ⟨k, r⟩ := x
    rw [applyAll_cons, ih fun y hy => h y (mem_cons_of_mem _ hy)]
    refine tally_set_of_not_pair (fun g hk => ?_) r w
    have hobs : k.observed = false := h ⟨k, r⟩ mem_cons_self
    rw [hk] at hobs
    cases hobs

theorem get_window_applyAll_unobserved (h : ∀ x ∈ ws, x.1.observed = false) (w : String) :
    (v.applyAll ws).get (.window w) = v.get (.window w) := by
  refine get_applyAll_of_notMem fun hmem => ?_
  obtain ⟨x, hx, hk⟩ := List.mem_map.mp hmem
  have := h x hx
  rw [hk] at this
  cases this

theorem Work.hidden (h : Work S vote d₀ g L P c d H) (hws : ∀ x ∈ ws, x.1.observed = false)
    {K : Key → Prop} (hH : ∀ k, H k → K k) : Work S vote d₀ g L P c (d.applyAll ws) K := by
  refine ⟨h.good.mono hH, fun hl => hH _ (h.held hl), ?_, fun g' hg => ?_, fun w => ?_, fun w => ?_⟩
  · rw [applyAll_union, snap_applyAll_unobserved hws]
    exact h.view
  · rw [applyAll_union, snap_applyAll_unobserved hws]
    exact h.others g' hg
  · rw [applyAll_union, tally_applyAll_unobserved hws]
    exact h.tally w
  · rw [applyAll_union, get_window_applyAll_unobserved hws]
    exact h.window w

/-! ### The rules -/

/-- A part of a transaction changes what the generation is seen as by `R`, with the lock of its
row where `L` asks for it. -/
structure Changes (S : Strict) (vote : Prop) (C : List (Write Row) → Db → Prop) (g : String)
    (L : Prop) (p : Tx β) (R : β → Snapshot → Snapshot → Prop) : Prop where
  work : ∀ d₀ P, (chat S).Triple C (Work S vote d₀ g L P) p fun b =>
    Work S vote d₀ g L (Relation.Comp P (R b))

namespace Changes

variable {p : Tx β} {f : β → Tx α} {R R' : β → Snapshot → Snapshot → Prop}

theorem done {b : β} (h : ∀ s, R b s s) : Changes S vote C g L (.done b) R :=
  ⟨fun _ _ => .done fun _ _ _ _ hw => hw.mono fun _ hP => ⟨_, hP, h _⟩⟩

theorem fail : Changes S vote C g L (.fail e : Tx β) R :=
  ⟨fun _ _ => .fail⟩

theorem conseq (hp : Changes S vote C g L p R) (hR : ∀ b s t, R b s t → R' b s t) :
    Changes S vote C g L p R' :=
  ⟨fun d₀ P => (hp.work d₀ P).post fun _ _ _ _ _ hw =>
    hw.mono fun _ ⟨t, h, h'⟩ => ⟨t, h, hR _ _ _ h'⟩⟩

/-- **Parts of a transaction compose.** -/
theorem bind {T : β → α → Snapshot → Snapshot → Prop} (hp : Changes S vote C g L p R)
    (hf : ∀ b, Changes S vote C g L (f b) (T b)) :
    Changes S vote C g L (p >>= f) fun a => fun s u => ∃ b t, R b s t ∧ T b a t u := by
  refine ⟨fun d₀ P => .bind (hp.work d₀ P) fun b =>
    ((hf b).work d₀ _).post fun a _ _ _ _ hw => ?_⟩
  exact hw.mono fun _ ⟨t, ⟨s, h, h'⟩, h''⟩ => ⟨s, h, b, t, h', h''⟩

theorem ite {cond : Prop} [Decidable cond] {q : Tx β} (hp : cond → Changes S vote C g L p R)
    (hq : ¬ cond → Changes S vote C g L q R) : Changes S vote C g L (if cond then p else q) R := by
  by_cases h : cond
  · rw [if_pos h]
    exact hp h
  · rw [if_neg h]
    exact hq h

theorem raiseIf {bad : Prop} [Decidable bad] :
    Changes S vote C g L (Txn.raiseIf bad e) fun _ s t => t = s ∧ ¬ bad :=
  ⟨fun _ _ => .raiseIf fun hb _ _ _ _ hw => hw.mono fun _ hP => ⟨_, hP, rfl, hb⟩⟩

theorem orRaise {o : Option β} :
    Changes S vote C g L (Txn.orRaise o e) fun b s t => t = s ∧ o = some b :=
  ⟨fun _ _ => .orRaise fun _ hb _ _ _ _ hw => hw.mono fun _ hP => ⟨_, hP, rfl, hb⟩⟩

variable {q : Db → β}

theorem hidden (hw : ∀ v, ∀ x ∈ w v, x.1.observed = false) :
    Changes S vote C g L (Prog.statement l w q) fun _ s t => t = s := by
  refine ⟨fun d₀ P => .statement fun c d H _ hφ _ c' hr => ?_⟩
  have hwork := (hφ c' (hr.mono fun k hk => .inl hk)).hidden (hw (d ∪ c))
    (K := grow H l w (d ∪ c)) fun k hk => .inl hk
  exact hwork.mono fun _ hP => ⟨_, hP, rfl⟩

theorem select : Changes S vote C g L (Prog.select q) fun _ s t => t = s :=
  hidden fun _ _ hx => by cases hx

theorem readRow : Changes S vote C g L (Txn.readRow k) fun _ s t => t = s := select

theorem lockRow : Changes S vote C g L (Txn.lockRow k) fun _ s t => t = s :=
  hidden fun _ _ hx => by cases hx

theorem readLog {φ : (ℕ → Option EventRow) → β → Prop} (hq : ∀ v, φ (snap v g).log (q v)) :
    Changes S vote C g True (Prog.select q) fun b s t => t = s ∧ φ s.log b := by
  refine ⟨fun d₀ P => .select fun c d H hc hφ c' hr => ?_⟩
  have hg := (hφ.now hc).held trivial
  refine (hφ c' hr).mono fun _ hP => ⟨_, hP, rfl, ?_⟩
  rw [(rely_locked hr hg).2.1]
  exact hq _

theorem updateHidden {cond : Row k → Bool} {f : Row k → Row k} (hk : k.observed = false) :
    Changes S vote C g L (Txn.updateWhere k cond f) fun _ s t => t = s :=
  hidden fun v x hx => by
    obtain ⟨r, -, rfl⟩ := List.mem_map.mp hx
    exact hk

theorem insertHidden {unique : List Key} (hws : ∀ x ∈ ws, x.1.observed = false) :
    Changes S vote C g L (Txn.insert e unique ws) fun _ s t => t = s := by
  refine ⟨fun d₀ P => .insert fun c d H _ hφ _ _ c' hr => ?_⟩
  have hwork := (hφ c' (hr.mono fun k hk => .inl hk)).hidden hws
    (K := writing H ws) fun k hk => .inl hk
  exact hwork.mono fun _ hP => ⟨_, hP, rfl⟩

end Changes

/-! ### Updates -/

/-- The rule of an update under a condition on the view. -/
theorem Triple.updateIf {cond : Db → Row k → Bool} {f : Row k → Row k} {φ : Assn Row}
    {ψ : ℕ → Assn Row} (hmiss : ∀ c d H, Inv S c → (chat S).Always φ c d H →
      (∀ r, (d ∪ c : Db).get k = some r → cond (d ∪ c) r = false) →
      (chat S).Always (ψ 0) c d H)
    (hhit : ∀ c d H r, Inv S c → (chat S).Always φ c d H → (d ∪ c : Db).get k = some r →
      cond (d ∪ c) r = true → C [⟨k, some (f r)⟩] (d ∪ c) →
      (chat S).Always (ψ 1) c (d.set k (some (f r))) fun k' => H k' ∨ k' = k) :
    (chat S).Triple C φ (updateIf k cond f) ψ := by
  refine .statement fun c d H hc hφ hC => ?_
  cases hv : ((d ∪ c : Db).get k).filter (cond (d ∪ c)) with
  | none =>
    rw [grow_nil rfl (by simp [hv])]
    simp only [toList_none, map_nil, applyAll_nil, length_nil]
    exact hmiss c d H hc hφ fun r hget => by simpa [hget] using hv
  | some r =>
    obtain ⟨hget, hcond⟩ := filter_eq_some_iff.mp hv
    have hH : grow H (fun _ : Db => [])
        (fun v => ((v.get k).filter (cond v)).toList.map fun r => ⟨k, some (f r)⟩) (d ∪ c)
        = fun k' => H k' ∨ k' = k := by
      funext k'
      simp [grow, needed, hv]
    rw [hH]
    simp only [hv, toList_some, map_cons, map_nil] at hC
    simp only [toList_some, map_cons, map_nil, applyAll_cons,
      applyAll_nil, length_cons, length_nil]
    exact hhit c d H r hc hφ hget hcond hC

/-- What an update of the row of a generation does. -/
def UpdatesGeneration (f : GenerationRow → GenerationRow) (cond : Db → GenerationRow → Bool)
    (Φ : GenerationRow → Prop) (n : ℕ) (s t : Snapshot) : Prop :=
  n = 0 ∧ t = s ∨ n = 1 ∧ ∃ r, s.gen = some r ∧ (∃ v, cond v r = true) ∧ Φ r ∧
    t = { s with gen := some (f r) }

theorem work_updateGeneration {f : GenerationRow → GenerationRow} {cond : Db → GenerationRow → Bool}
    {Φ : GenerationRow → Prop}
    (hC : ∀ v r, v.get (.generation g) = some r → cond v r = true →
      C [⟨.generation g, some (f r)⟩] v → Φ r) :
    (chat S).Triple C (Work S vote d₀ g L P) (updateIf (.generation g) cond f) fun n =>
      Work S vote d₀ g (L ∨ n = 1) (Relation.Comp P (UpdatesGeneration f cond Φ n)) := by
  refine Triple.updateIf (fun c d H _ hφ _ c' hr => ?_) fun c d H r _ hφ hget hcond hw => ?_
  · have hwork := hφ c' hr
    refine ⟨hwork.good, fun hl => hwork.held (hl.resolve_right (by decide)), ?_, hwork.others,
      hwork.tally, hwork.window⟩
    exact ⟨_, hwork.view, .inl ⟨rfl, rfl⟩⟩
  · refine .write hφ rfl (fun hl => hl.imp_right fun _ => rfl)
      (fun c' _ => tally_set_of_not_pair (by simp) _) fun c' hr s _ hP => ?_
    refine ⟨_, hP, .inr ⟨rfl, r, ?_, ⟨_, hcond⟩, hC _ r hget hcond hw, snap_set_generation _ _ _⟩⟩
    exact (hr.view d (.inr rfl)).trans hget

namespace Changes

variable {p : Tx β} {f : β → Tx α} {R R' : β → Snapshot → Snapshot → Prop}

/-- An update of the row of a generation whose lock is held, and which says whether it hit. -/
theorem updateLocked {f : GenerationRow → GenerationRow} {cond : GenerationRow → Bool} :
    Changes S vote C g True (updateWhere (Key.generation g) cond f) fun n s t =>
      n = 0 ∧ t = s ∧ (∀ r, s.gen = some r → cond r = false) ∨
        n = 1 ∧ ∃ r, s.gen = some r ∧ cond r = true ∧ t = { s with gen := some (f r) } := by
  refine ⟨fun d₀ P => .updateWhere (fun c d H hc hφ hmiss c' hr => ?_)
    fun c d H r _ hφ hget hcond _ => ?_⟩
  · have hg := (hφ.now hc).held trivial
    refine (hφ c' hr).mono fun _ hP => ⟨_, hP, .inl ⟨rfl, rfl, fun r hr' => ?_⟩⟩
    rw [(rely_locked hr hg).1] at hr'
    exact hmiss r hr'
  · refine .write hφ rfl (fun _ => .inl trivial)
      (fun c' _ => tally_set_of_not_pair (by simp) _) fun c' hr s _ hP => ?_
    refine ⟨_, hP, .inr ⟨rfl, r, ?_, hcond, snap_set_generation _ _ _⟩⟩
    exact (hr.view d (.inr rfl)).trans hget

/-- An update of the message of a generation whose lock is held. -/
theorem updateMessage {f : MessageRow → MessageRow} :
    Changes S vote C g True (updateWhere (Key.message g) (fun _ => true) f) fun _ s t =>
      s.msg = none ∧ t = s ∨ ∃ m, s.msg = some m ∧ t = { s with msg := some (f m) } := by
  refine ⟨fun d₀ P => .updateWhere (fun c d H hc hφ hmiss c' hr => ?_)
    fun c d H m _ hφ hget _ _ => ?_⟩
  · have hg := (hφ.now hc).held trivial
    refine (hφ c' hr).mono fun _ hP => ⟨_, hP, .inl ⟨(rely_locked hr hg).2.2 d ?_, rfl⟩⟩
    cases hget : (d ∪ c : Db).get (.message g) with
    | none => exact hget
    | some m => cases hmiss m hget
  · refine .write hφ rfl (fun hl => .inl hl)
      (fun c' _ => tally_set_of_not_pair (by simp) _) fun c' hr s _ hP => ?_
    refine ⟨_, hP, .inr ⟨m, ?_, snap_set_message _ _ _⟩⟩
    exact (hr.view d (.inr rfl)).trans hget

/-- An update of the pair of a generation that keeps its window and whether it was voted. -/
theorem updatePair {f : PairRow → PairRow} {cond : PairRow → Bool} {Φ : PairRow → Prop}
    (hC : ∀ v p, v.get (.pair g) = some p → cond p = true → C [⟨.pair g, some (f p)⟩] v → Φ p)
    (hw : ∀ p, (f p).windowId = p.windowId) (hv : ∀ p, (f p).voted = p.voted) :
    Changes S vote C g L (updateWhere (Key.pair g) cond f) fun _ s t =>
      t = s ∨ ∃ p, s.pair = some p ∧ cond p = true ∧ Φ p ∧ t = { s with pair := some (f p) } := by
  refine ⟨fun d₀ P => .updateWhere (fun c d H _ hφ _ c' hr => ?_)
    fun c d H p _ hφ hget hcond hC' => ?_⟩
  · exact (hφ c' hr).mono fun _ hP => ⟨_, hP, .inl rfl⟩
  · have hget' : ∀ c', (chat S).Rely (fun k' => H k' ∨ k' = .pair g) c c' →
        (d ∪ c' : Db).get (.pair g) = some p := fun c' hr => (hr.view d (.inr rfl)).trans hget
    refine .write hφ rfl (fun hl => .inl hl)
      (fun c' hr w => tally_set_pair (hget' c' hr) (hw p) (hv p) w) fun c' hr s _ hP => ?_
    exact ⟨_, hP, .inr ⟨p, hget' c' hr, hcond, hC _ p hget hcond hC', snap_set_pair _ _ _⟩⟩

/-! ### The event log -/

end Changes

theorem mem_eventsOf {g : String} {x : ℕ × EventRow} :
    x ∈ eventsOf v g ↔ (snap v g).log x.1 = some x.2 := by
  unfold eventsOf
  rw [mem_table]
  constructor
  · rintro ⟨k, r, hget, hpick⟩
    cases k with
    | event g' q =>
      by_cases hg : g' = g
      · simp only [hg, if_true, some.injEq] at hpick
        subst hg hpick
        exact hget
      · simp [hg] at hpick
    | _ => cases hpick
  · intro h
    exact ⟨.event g x.1, x.2, h, by simp⟩

theorem top_maxEventSeq (v : Db) (g : String) : Top (snap v g).log (maxEventSeq v g) := by
  unfold maxEventSeq
  have key : ∀ l : List ℕ, (∀ q ∈ l, q ≤ l.foldr max 0) ∧ (l.foldr max 0 ≠ 0 → l.foldr max 0 ∈ l) := by
    intro l
    induction l with
    | nil => exact ⟨fun _ h => (by cases h), fun h => absurd rfl h⟩
    | cons a l ih =>
      obtain ⟨hle, hmem⟩ := ih
      rw [foldr_cons]
      refine ⟨fun q hq => ?_, fun hne => ?_⟩
      · rcases mem_cons.mp hq with rfl | hq
        · exact le_max_left _ _
        · exact (hle q hq).trans (le_max_right _ _)
      · rcases le_total (l.foldr max 0) a with h | h
        · rw [max_eq_left h]
          exact mem_cons_self
        · rw [max_eq_right h] at hne ⊢
          exact mem_cons_of_mem _ (hmem hne)
  obtain ⟨hle, hmem⟩ := key ((eventsOf v g).map Prod.fst)
  refine ⟨fun q e he => hle q ?_, fun hne => ?_⟩
  · exact List.mem_map.mpr ⟨(q, e), mem_eventsOf.mpr he, rfl⟩
  · obtain ⟨x, hx, hq⟩ := List.mem_map.mp (hmem hne)
    rw [← hq, mem_eventsOf.mp hx]
    rfl

/-- The log of a generation has a terminal event. -/
def Snapshot.hasTerminal (s : Snapshot) : Prop :=
  ∃ q e, s.log q = some e ∧ e.eventType.terminal = true

/-- One more event at the end of the log. -/
def Appends (e : EventRow) (s t : Snapshot) : Prop :=
  ∃ n, Top s.log n ∧ t = { s with log := extend s.log n [e] }

namespace Changes

variable {p : Tx β} {f : β → Tx α} {R R' : β → Snapshot → Snapshot → Prop}

theorem appendEvent {data : JsonObject} :
    Changes S vote C g True (Chat.appendEvent g eventType data) fun _ =>
      Appends ⟨eventType, data⟩ := by
  unfold Chat.appendEvent
  refine (bind (readLog (φ := Top) fun v => top_maxEventSeq v g) (T := fun n _ s t =>
    Top s.log n → t = { s with log := extend s.log n [⟨eventType, data⟩] }) fun n => ?_).conseq
    fun _ s u ⟨n, t, ⟨hts, hn⟩, htu⟩ => ?_
  · refine ⟨fun d₀ P => ?_⟩
    refine .bind (ψ := fun _ => Work S vote d₀ g True (Relation.Comp P fun s t =>
      Top s.log n → t = { s with log := extend s.log n [⟨eventType, data⟩] })) ?_ fun _ =>
      .done fun _ _ _ _ hw => hw
    refine .insert fun c d H _ hφ _ _ => ?_
    have hH : writing H [(⟨.event g (n + 1), some ⟨eventType, data⟩⟩ : Write Row)]
        = fun k => H k ∨ k = .event g (n + 1) := by
      funext k
      simp [writing]
    rw [hH]
    refine .write hφ rfl (fun hl => .inl hl)
      (fun c' _ => tally_set_of_not_pair (by simp) _) fun c' _ s _ hP => ?_
    exact ⟨_, hP, fun hn => snap_set_event hn _⟩
  · subst hts
    exact ⟨n, hn, htu hn⟩

theorem hasTerminalEvent :
    Changes S vote C g True (Chat.hasTerminalEvent g) fun b s t =>
      t = s ∧ (b = true ↔ s.hasTerminal) := by
  refine (readLog (φ := fun log b => b = true ↔ ∃ q e, log q = some e ∧
    e.eventType.terminal = true) fun v => ?_).conseq fun _ _ _ h => h
  rw [List.any_eq_true]
  constructor
  · rintro ⟨x, hx, ht⟩
    exact ⟨x.1, x.2, mem_eventsOf.mp hx, ht⟩
  · rintro ⟨q, e, he, ht⟩
    exact ⟨(q, e), mem_eventsOf.mpr he, ht⟩

/-- `_append_terminal` on a generation whose lock is held. -/
theorem appendTerminal {data : JsonObject} :
    Changes S vote C g True (Chat.appendTerminal g eventType data) fun _ s t =>
      eventType.terminal = true ∧ s.hasTerminal ∧ t = s ∨
        (eventType.terminal = true → ¬ s.hasTerminal) ∧ Appends ⟨eventType, data⟩ s t := by
  unfold Chat.appendTerminal
  cases ht : eventType.terminal with
  | false =>
    rw [if_neg Bool.false_ne_true]
    refine (bind (R := fun b s t => b = false ∧ t = s) (T := fun b _ s t =>
      b = false → Appends ⟨eventType, data⟩ s t) (done fun _ => ⟨rfl, rfl⟩) fun b => ?_).conseq
      fun _ s u ⟨b, t, ⟨hb, hts⟩, htu⟩ => .inr ⟨(by simp), hts ▸ htu hb⟩
    refine ite (fun hb => done fun _ hb' => ?_) fun _ => ?_
    · rw [hb] at hb'
      cases hb'
    · exact (bind appendEvent fun _ => done (R := fun _ s t => t = s) fun _ => rfl).conseq
        fun _ s u ⟨_, t, h, htu⟩ _ => htu ▸ h
  | true =>
    rw [if_pos rfl]
    refine (bind hasTerminalEvent (T := fun b _ s t => b = true ∧ t = s ∨
      b = false ∧ Appends ⟨eventType, data⟩ s t) fun b => ?_).conseq
      fun _ s u ⟨b, t, ⟨hts, hb⟩, htu⟩ => ?_
    · refine ite (fun hb => done fun _ => .inl ⟨hb, rfl⟩) fun hb => ?_
      exact (bind appendEvent fun _ => done (R := fun _ s t => t = s) fun _ => rfl).conseq
        fun _ s u ⟨_, t, h, htu⟩ => .inr ⟨by simpa using hb, htu ▸ h⟩
    · subst hts
      rcases htu with ⟨hb', rfl⟩ | ⟨hb', h⟩
      · exact .inl ⟨rfl, hb.mp hb', rfl⟩
      · refine .inr ⟨fun _ hT => ?_, h⟩
        rw [hb.mpr hT] at hb'
        cases hb'

end Changes

/-! ### The pair -/

/-- A failure the recovery writes. -/
def GenerationRow.unrecovered (r : GenerationRow) : Prop :=
  r.status = .failed ∧ (r.lastErrorCode = some "generation_deadline_exceeded" ∨
    r.lastErrorCode = some "execution_recovery_exhausted")

/-- The same, as a test. -/
def GenerationRow.isUnrecovered (r : GenerationRow) : Bool :=
  r.status = .failed && (r.lastErrorCode = some "generation_deadline_exceeded" ||
    r.lastErrorCode = some "execution_recovery_exhausted")

theorem isUnrecovered_iff : r.isUnrecovered = true ↔ r.unrecovered := by
  unfold GenerationRow.isUnrecovered GenerationRow.unrecovered
  simp

/-- The writes are none of the steps that are excluded. -/
structure Permits (S : Strict) (ws : List (Write Row)) (v : Db) : Prop where
  recovery : S.recovery → ∀ g (r r' : GenerationRow), ⟨.generation g, some r'⟩ ∈ ws →
    v.get (.generation g) = some r → r'.unrecovered → r.status ≠ .completed ∧ r.status ≠ .stopped
  publisher : S.publisher → ∀ g (p p' : PairRow), ⟨.pair g, some p'⟩ ∈ ws →
    v.get (.pair g) = some p → p'.status = .opened → p.status = .pending
  discard : S.discard → ∀ g (p p' : PairRow), ⟨.pair g, some p'⟩ ∈ ws →
    v.get (.pair g) = some p → p'.status = .expired → p.status ≠ .voted

theorem permits_of_not (hr : ¬ S.recovery) (hp : ¬ S.publisher) (hd : ¬ S.discard)
    (ws : List (Write Row)) (v : Db) : Permits S ws v :=
  ⟨fun h => absurd h hr, fun h => absurd h hp, fun h => absurd h hd⟩

/-- The pair of a generation is as it was, or is resolved. -/
def Discards (S : Strict) (s t : Snapshot) : Prop :=
  ∃ b, Settles S s.pair b ∧ (∀ p, b = some p → p.status = .opened → b = s.pair) ∧
    t = { s with pair := b }

namespace Changes

variable {p : Tx β} {f : β → Tx α} {R R' : β → Snapshot → Snapshot → Prop}

/-- A write of `expired` over a pair. -/
theorem expirePair {f : PairRow → PairRow} {cond : PairRow → Bool}
    (hst : ∀ p, (f p).status = .expired) (hw : ∀ p, (f p).windowId = p.windowId)
    (hv : ∀ p, (f p).voted = p.voted) (hc : ∀ p, (f p).choice = p.choice) :
    Changes S vote (Permits S) g L (updateWhere (Key.pair g) cond f) fun _ s t =>
      t = s ∨ ∃ p, s.pair = some p ∧ cond p = true ∧ Resolves S p (f p) ∧
        t = { s with pair := some (f p) } := by
  refine (updatePair (Φ := fun p => S.discard → p.status ≠ .voted) ?_ hw hv).conseq ?_
  · intro v p hp _ hC hd
    exact hC.discard hd g p _ mem_cons_self hp (hst p)
  · rintro _ s t (rfl | ⟨p, hp, hcond, hd, rfl⟩)
    · exact .inl rfl
    · exact .inr ⟨p, hp, hcond, ⟨hw p, hv p, hc p, hd, .inl (hst p), by simp [hst p]⟩, rfl⟩

theorem discard :
    Changes S vote (Permits S) g L (discardUnfinishedAbPair g) fun _ => Discards S := by
  have hsame : ∀ s, Discards S s s := fun s => ⟨s.pair, .inl rfl, fun _ _ _ => rfl, rfl⟩
  unfold discardUnfinishedAbPair readPair
  refine (bind readRow (T := fun _ _ => Discards S) fun row => ?_).conseq
    fun _ s u ⟨_, t, hts, h⟩ => hts ▸ h
  cases row with
  | none => exact done hsame
  | some row =>
    refine ite (fun _ => done hsame) fun _ => ?_
    refine (bind (hidden (fun v x hx => ?_)) fun _ =>
      bind (expirePair (f := fun p => { p with status := .expired }) (fun _ => rfl)
        (fun _ => rfl) (fun _ => rfl) fun _ => rfl) fun _ =>
          done (R := fun _ s t => t = s) fun _ => rfl).conseq ?_
    · obtain ⟨n, -, hn⟩ := mem_filterMap.mp hx
      obtain ⟨r, -, rfl⟩ := map_eq_some_iff.mp hn
      rfl
    · rintro _ s u ⟨_, t, rfl, _, t', h, rfl⟩
      rcases h with rfl | ⟨p, hp, -, hres, rfl⟩
      · exact hsame _
      · refine ⟨_, .inr ⟨p, _, hp, rfl, hres⟩, ?_, rfl⟩
        rintro _ ⟨⟩ ho
        cases ho

end Changes

/-! ### Closing -/

variable {ψ : β → Assn Row}

/-- The pending writes there are now are those that later ones are compared with. -/
theorem triple_work {p : Tx β}
    (h : ∀ d₀, (chat S).Triple C (Work S vote d₀ g L fun s t => t = s ∧ F s) p ψ) :
    (chat S).Triple C
      (fun c d H => Good S vote c d H ∧ (L → H (.generation g)) ∧ F (snap (d ∪ c : Db) g)) p ψ := by
  refine ⟨fun c d H hc hφ => (h d).wp c d H hc fun c' hr => ?_⟩
  obtain ⟨hgood, hheld, hF⟩ := hφ c' hr
  exact ⟨hgood, hheld, ⟨rfl, hF⟩, fun _ _ => rfl, fun _ => rfl, fun _ => rfl⟩

/-- The writes may be committed, and the row of the generation is locked and is `r`. -/
structure Locked (S : Strict) (vote : Prop) (g : String) (r : GenerationRow) (c d : Db)
    (H : Key → Prop) : Prop where
  good : Good S vote c d H
  held : H (.generation g)
  row : (snap (d ∪ c : Db) g).gen = some r

/-- `_lock_generation` -/
theorem triple_lockGeneration {φ : Assn Row}
    (hφ : ∀ c d H H', (∀ k, H k → H' k) → φ c d H → φ c d H') :
    (chat S).Triple C φ (lockGeneration g) fun o c d H =>
      φ c d H ∧ ∀ r, o = some r → H (.generation g) ∧ (snap (d ∪ c : Db) g).gen = some r := by
  refine .lockRow (fun c d H _ h _ c' hr => ⟨h c' hr, fun r hr => by cases hr⟩)
    fun c d H r _ h hget c' hr => ⟨hφ _ _ _ _ (fun k hk => .inl hk)
      (h c' (hr.mono fun k hk => .inl hk)), ?_⟩
  rintro _ ⟨⟩
  exact ⟨.inr rfl, (hr.view d (.inr rfl)).trans hget⟩

/-- A transaction that takes the lock of a generation and goes on with its row. -/
theorem triple_lock {f : Option GenerationRow → Tx β}
    (hnone : (chat S).Triple C (Good S vote) (f none) ψ)
    (hsome : ∀ r, (chat S).Triple C (Locked S vote g r) (f (some r)) ψ) :
    (chat S).Triple C (Good S vote) (lockGeneration g >>= f) ψ := by
  refine .bind (triple_lockGeneration fun _ _ _ _ hH h => h.mono hH) fun o => ?_
  cases o with
  | none => exact hnone.pre fun _ _ _ _ h => h.1
  | some r => exact (hsome r).pre fun _ _ _ _ h => ⟨h.1, (h.2 r rfl).1, (h.2 r rfl).2⟩

namespace Changes

variable {p : Tx β} {f : β → Tx α} {R R' : β → Snapshot → Snapshot → Prop}

/-- A part that starts from writes that may be committed. -/
theorem triple (hp : Changes S vote C g L p R)
    (hψ : ∀ d₀ b c d H, Inv S c → Work S vote d₀ g L (fun s t => F s ∧ R b s t) c d H → ψ b c d H) :
    (chat S).Triple C
      (fun c d H => Good S vote c d H ∧ (L → H (.generation g)) ∧ F (snap (d ∪ c : Db) g)) p ψ := by
  refine triple_work fun d₀ => (hp.work d₀ _).post fun b c d H hc hw =>
    hψ d₀ b c d H hc ?_
  refine hw.mono fun _ ⟨t, ⟨hts, hF⟩, htu⟩ => ?_
  subst hts
  exact ⟨hF, htu⟩

/-- A part that keeps the life of its generation. -/
theorem good (hp : Changes S vote C g L p R)
    (hR : ∀ b s t, Ok S s → R b s t → Ok S t ∧ Moves S L vote s t) :
    (chat S).Triple C (fun c d H => Good S vote c d H ∧ (L → H (.generation g))) p
      fun _ => Good S vote :=
  (hp.triple (F := fun _ => True) fun _ b _ _ _ _ hw =>
    hw.close fun s t hs h => hR b s t hs h.2).pre fun _ _ _ _ h => ⟨h.1, h.2, trivial⟩

/-- **A part that keeps the life of the generation whose lock is held.** -/
theorem locked (hp : Changes S vote C g True p R)
    (hR : ∀ b s t, Ok S s → s.gen = some r → R b s t → Ok S t ∧ Moves S True vote s t) :
    (chat S).Triple C (Locked S vote g r) p fun _ => Good S vote :=
  (hp.triple (F := fun s => s.gen = some r) fun _ b _ _ _ _ hw =>
    hw.close fun s t hs h => hR b s t hs h.1 h.2).pre
    fun _ _ _ _ h => ⟨h.good, fun _ => h.held, h.row⟩

end Changes

/-! ### Parts that do not show -/

theorem Ok.same {s t : Snapshot} (h : Ok S s) (hts : t = s) : Ok S t ∧ Moves S L vote s t := by
  subst hts
  exact ⟨h, .refl _ _ _ _⟩

/-- A part whose writes do not show. -/
def Quiet (S : Strict) (vote : Prop) (C : List (Write Row) → Db → Prop) (p : Tx β) : Prop :=
  ∀ g L, Changes S vote C g L p fun _ s t => t = s

namespace Quiet

variable {p : Tx β} {f : β → Tx α}

theorem done {b : β} : Quiet S vote C (.done b) := fun _ _ => .done fun _ => rfl

theorem fail : Quiet S vote C (.fail e : Tx β) := fun _ _ => .fail

theorem bind (hp : Quiet S vote C p) (hf : ∀ b, Quiet S vote C (f b)) : Quiet S vote C (p >>= f) :=
  fun g L => (Changes.bind (hp g L) fun b => hf b g L).conseq
    fun _ _ _ ⟨_, _, h, h'⟩ => h'.trans h

theorem ite {cond : Prop} [Decidable cond] {q : Tx β} (hp : cond → Quiet S vote C p)
    (hq : ¬ cond → Quiet S vote C q) : Quiet S vote C (if cond then p else q) :=
  fun g L => .ite (fun h => hp h g L) fun h => hq h g L

theorem check {x : Except Err β} : Quiet S vote C (Txn.check x) := by
  unfold Txn.check
  cases x with
  | ok b => exact done
  | error e => exact fail

theorem raiseIf {bad : Prop} [Decidable bad] : Quiet S vote C (Txn.raiseIf bad e) :=
  fun _ _ => Changes.raiseIf.conseq fun _ _ _ h => h.1

theorem orRaise {o : Option β} : Quiet S vote C (Txn.orRaise o e) :=
  fun _ _ => Changes.orRaise.conseq fun _ _ _ h => h.1

theorem hidden {q : Db → β} (hw : ∀ v, ∀ x ∈ w v, x.1.observed = false) :
    Quiet S vote C (Prog.statement l w q) :=
  fun _ _ => .hidden hw

theorem select {q : Db → β} : Quiet S vote C (Prog.select q) := fun _ _ => .select

theorem selectForUpdate {q : Db → β} :
    Quiet S vote C (Prog.selectForUpdate l q) := hidden fun _ _ hx => by cases hx

theorem readRow : Quiet S vote C (Txn.readRow k) := select

theorem lockRow : Quiet S vote C (Txn.lockRow k) := fun _ _ => .lockRow

theorem updateWhere {cond : Row k → Bool} {f : Row k → Row k} (hk : k.observed = false) :
    Quiet S vote C (Txn.updateWhere k cond f) :=
  fun _ _ => .updateHidden hk

theorem updateIf {cond : Db → Row k → Bool} {f : Row k → Row k} (hk : k.observed = false) :
    Quiet S vote C (Chat.updateIf k cond f) :=
  hidden fun v x hx => by
    obtain ⟨r, -, rfl⟩ := List.mem_map.mp hx
    exact hk

theorem insert {unique : List Key} (hws : ∀ x ∈ ws, x.1.observed = false) :
    Quiet S vote C (Txn.insert e unique ws) :=
  fun _ _ => .insertHidden hws

theorem good (hp : Quiet S vote C p) :
    (chat S).Triple C (Good S vote) p fun _ => Good S vote :=
  ((hp "" False).good fun _ _ _ hs h => hs.same h).pre
    fun _ _ _ _ h => ⟨h, False.elim⟩

/-- What the generation is seen as stays. -/
theorem keep (hp : Quiet S vote C p) :
    (chat S).Triple C
      (fun c d H => Good S vote c d H ∧ (L → H (.generation g)) ∧ F (snap (d ∪ c : Db) g)) p
      fun _ c d H => Good S vote c d H ∧ (L → H (.generation g)) ∧ F (snap (d ∪ c : Db) g) :=
  (hp g L).triple fun _ _ c d H hc hw => by
    obtain ⟨hF, hts⟩ := hw.view
    refine ⟨hw.close fun s t hs h => hs.same h.2, hw.held, ?_⟩
    rw [hts]
    exact hF

theorem locked (hp : Quiet S vote C p) :
    (chat S).Triple C (Locked S vote g r) p fun _ => Locked S vote g r :=
  (hp.keep (L := True) (F := fun s => s.gen = some r)).conseq
    (fun _ _ _ _ h => ⟨h.good, fun _ => h.held, h.row⟩)
    fun _ _ _ _ _ h => ⟨h.1, h.2.1 trivial, h.2.2⟩

end Quiet
end RagQs.Chat
