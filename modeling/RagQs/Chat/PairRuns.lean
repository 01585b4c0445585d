import RagQs.Chat.LifecycleRuns
import RagQs.Txn.Footprint

/-!
# Runs of the comparisons

The pairs of the chat, their votes and the windows they are counted in, over every run in which
no publication opens a pair that is not pending any more and no discard reaches a voted pair.

## Main definitions

* `PairEdge` — the moves of a pair.
* `PairsOk` — the pairs, the votes and the windows agree.

## Main results

* `pair_step` — one move of the scheduler moves a pair along one edge at most.
* `pairs_agree` — what holds of every state that is reached.
* `closed_window_stays` — a window without votable pairs gets none of its pairs opened.
* `pair_lifecycle` — the three together.
-/

namespace RagQs.Chat

open Txn Discipline List Option AList

variable {S : Strict} {C : List (Write Row) → Db → Prop} {c c' c₀ d : Db} {H : Key → Prop}
  {g : String} {env : Env}

variable {windowId : String}
variable {W : Key → Prop} {p : PairRow} {s : System}

/-! ### A vote changes open pairs only -/

/-- A row that is no pair. -/
def Key.unpaired (k : Key) : Prop := ∀ g, k ≠ .pair g

/-- A row that is no pair of another generation. -/
def Key.pairedWith (g : String) (k : Key) : Prop := ∀ g', k = .pair g' → g' = g

theorem writes_findIdempotency {userId kind targetId key fingerprint : String} :
    (findIdempotency userId kind targetId key fingerprint).Writes W := by
  unfold findIdempotency readIdempotency
  refine .bind .readRow fun row => ?_
  cases row with
  | none => exact .done
  | some row => exact .bind .raiseIf fun _ => .done

theorem writes_castVote {a : VoteCall} : (castVote a p).Writes (Key.pairedWith a.generationId) := by
  have hchosen : (chosenCandidate a.generationId a.choice).Writes
      (Key.pairedWith a.generationId) := by
    unfold chosenCandidate readCandidate
    cases a.choice.candidate with
    | none => exact .done
    | some n => exact .bind .readRow fun _ => .bind .orRaise fun _ => .done
  have hrecord : (recordIdempotency a.userId "ab_vote" a.generationId a.idempotencyKey
      a.fingerprint a.pairId).Writes (Key.pairedWith a.generationId) := by
    refine .insert fun x hx => ?_
    rw [mem_singleton.mp hx]
    exact fun g' hk => by cases hk
  unfold castVote
  refine .bind (.insert fun x hx => ?_) fun _ => hchosen.bind fun _ =>
    .bind (.updateWhere ?_) fun _ => .bind (.updateWhere ?_) fun _ => ?_
  · simp only [mem_cons, not_mem_nil, or_false] at hx
    rcases hx with rfl | rfl <;> exact fun g' hk => by cases hk
  · exact fun g' hk => by cases hk
  · exact fun g' hk => (Key.pair.inj hk).symm
  · cases p.windowId with
    | none => exact hrecord
    | some w =>
      exact .bind (.updateWhere (fun g' hk => by cases hk)) fun _ => hrecord

/-- The pending writes of a vote: none of a pair, or one of a pair that is locked and open. -/
def Casts (g : String) (c d : Db) (H : Key → Prop) : Prop :=
  Inside Key.unpaired c d H ∨ ∃ p : PairRow, p.status = .opened ∧
    (Committed (.pair g) (some p) : Assn Row) c d H ∧ Inside (Key.pairedWith g) c d H

theorem triple_lockPair {pairId : String} :
    (chat S).Triple C (Inside fun _ => False) (lockPair g pairId) fun o c d H =>
      Inside (fun _ => False) c d H ∧ ∀ p, o = some p → Committed (.pair g) (some p) c d H := by
  refine .selectForUpdate fun c d H hc hφ c' hr => ⟨hφ.now hc, fun p hp => ?_⟩
  have hget := (filter_eq_some_iff.mp hp).1
  have hlock : Key.pair g ∈ ((((d ∪ c : Db).get (.pair g) : Option PairRow).filter
      (·.pairId = pairId)).toList.map fun _ => Key.pair g) := by
    rw [hp]
    simp
  refine ⟨.inr hlock, (hr.rows _ (.inr hlock)).trans ?_⟩
  rw [← (hφ.now hc).get (c := c) (H := H) fun h => h]
  exact hget

theorem triple_castsVote {a : VoteCall} :
    (chat S).Triple C (Inside fun _ => False) (submitAbVote a)
      fun _ => Casts a.generationId := by
  have hpure : ∀ {c d : Db} {H : Key → Prop}, (Inside (fun _ => False) : Assn Row) c d H →
      Casts a.generationId c d H := fun h => .inl fun k hk => (h k hk).elim
  unfold submitAbVote
  refine .bind (.inside .check) fun _ => .bind (.inside .readRow)
    fun _ => .bind (.inside .orRaise) fun _ => .bind (.inside .raiseIf)
      fun _ => .bind triple_lockPair fun o => ?_
  cases o with
  | none => exact .fail
  | some p =>
    refine .bind (ψ := fun b c d H => b = p ∧ Inside (fun _ => False) c d H ∧
      Committed (.pair a.generationId) (some p) c d H)
      (.orRaise fun b hb c d H _ h => ⟨(some.inj hb).symm, h.1, h.2 p rfl⟩) fun b => ?_
    refine .of_fact (fun _ _ _ _ h => h.1) fun hb => .pre ?_ fun _ _ _ _ h => h.2
    subst hb
    refine Triple.bind ((Triple.inside .raiseIf).and Triple.committed) fun _ =>
      Triple.bind ((Triple.inside writes_findIdempotency).and Triple.committed) fun replay => ?_
    cases replay with
    | some _ => exact .done fun _ _ _ _ h => hpure h.1
    | none =>
      refine Triple.bind ((Triple.inside .raiseIf).and Triple.committed) fun _ => ?_
      split
      · split
        · exact .bind .trivial_post fun _ => .fail
        · exact .fail
      · next hopen =>
        have hst : b.status = .opened := by
          by_contra hne
          exact hopen (.inl hne)
        refine Triple.bind (((Triple.inside writes_castVote).and Triple.committed).pre
          fun c d H _ h => ⟨fun k hk => (h.1 k hk).elim, h.2⟩) fun _ =>
            Triple.done fun c d H _ h => .inr ⟨b, hst, h.2, h.1⟩

theorem Casts.kept (h : Casts g c d H) {g' : String} (hp : (snap c g').pair = some p)
    (hst : p.status ≠ .opened) : (snap (d ∪ c : Db) g').pair = some p := by
  rcases h with h | ⟨q, hq, hcommitted, h⟩
  · exact (h.get (k := .pair g') fun hk => hk g' rfl).trans hp
  · have hne : ¬ Key.pairedWith g (.pair g') := by
      intro hk
      obtain rfl := hk g' rfl
      cases hp.symm.trans hcommitted.2
      exact hst hq
    exact (h.get hne).trans hp

/-! ### Every move -/

/-- A vote leaves the pairs alone that are not open. -/
def CastSpec (op : Op) (c c' : Db) : Prop :=
  ∀ a, op = .vote a → ∀ g p, (snap c g).pair = some p → p.status ≠ .opened →
    (snap c' g).pair = some p

/-- What a committed transaction has done, with what a vote has. -/
def PairSpec (S : Strict) (op : Op) (c₀ : Db) (a : Reply) (c c' : Db) : Prop :=
  Spec S op c₀ a c c' ∧ CastSpec op c c'

theorem pairs_verified (S : Strict) (env : Env) :
    VerifiedFrom (chat S) (fun _ => onWrites (Permits S)) (body env)
      (fun op h => S.genuine → Issued op h) (PairSpec S) (fun _ _ _ _ => True) (Claims S) := by
  refine ⟨fun op c h hc hP hpre => ?_⟩
  have hspec := (chat_verified S env).wp op c h hc hP hpre
  by_cases hvote : ∃ a, op = .vote a
  · obtain ⟨a, rfl⟩ := hvote
    have hcast : (chat S).Triple (Permits S) (Inside fun _ => False) (silent (submitAbVote a))
        fun _ => Casts a.generationId :=
      .bind triple_castsVote fun _ => .done fun _ _ _ _ h => h
    have hwp := hcast.wp c ∅ (fun _ => False) hc fun _ _ k hk => (notMem_empty k hk).elim
    refine wp_conseq (wp_and hspec hwp) (fun r c' d H hc' h => ?_) fun _ _ _ _ _ _ => trivial
    refine ⟨h.1.1, h.1.2.1, h.1.2.2, ?_⟩
    rintro _ ⟨⟩ g p hp hst
    exact (h.2.now hc').kept hp hst
  · refine wp_conseq hspec (fun r c' d H hc' h => ?_) fun _ _ _ _ _ h => h
    exact ⟨h.1, h.2.1, h.2.2, fun a ha => absurd ⟨a, ha⟩ hvote⟩

/-- The moves of a pair. -/
def PairEdge (a b : PairStatus) : Prop :=
  a = b ∨ a = .pending ∧ (b = .opened ∨ b = .expired) ∨ a = .opened ∧ (b = .voted ∨ b = .expired)

/-- What holds of every state that is reached. -/
abbrev PairsSys (S : Strict) : System → Prop :=
  SysOk (chat S) (fun _ => onWrites (Permits S)) (PairSpec S) (fun _ _ _ _ => True) (Claims S)

theorem pairs_preserved :
    Preserved (chat S) (PairSpec S) (fun _ _ _ _ => True) (Claims S) where
  commit c₀ c c' h op n a hs hc hc' hg hR hP :=
    claims_preserved.commit c₀ c c' h op n a hs hc hc' hg hR.1 hP
  error := claims_preserved.error

theorem pairs_run {t : System} {ms : List (Move Op)} (hs : PairsSys S s) (hA : Permitted S env s ms)
    (hI : Genuine S env s ms) (hrun : run (body env) s ms = some t) :
    PairsSys S t ∧ Guar S True (fun _ => True) s.db t.db :=
  (pairs_verified S env).run pairs_preserved ms hA hI hs hrun

/-- **A move of the scheduler moves a pair along one edge at most.** -/
theorem pair_step {t : System} {m : Move Op} (hs : PairsSys S s) (hp : S.publisher) (hd : S.discard)
    (hstep : step (body env) s m = some t) (hpair : (snap s.db g).pair = some p) :
    ∃ p', (snap t.db g).pair = some p' ∧ PairEdge p.status p'.status := by
  rcases hs.step_db hstep with hdb | ⟨op, c₀, a, hspec, hcast⟩
  · rw [hdb]
    exact ⟨p, hpair, .inl rfl⟩
  · obtain ⟨p', hp', -, hmoves⟩ := (hspec.guar g).pair p hpair
    refine ⟨p', hp', ?_⟩
    rcases hmoves hp hd with h | ⟨h, h'⟩ | ⟨h, h'⟩ | ⟨hvote, hv, h⟩
    · exact .inl h
    · exact .inr (.inl ⟨h, h'⟩)
    · exact .inr (.inr ⟨h, .inr h'⟩)
    · rcases h with h | h
      · -- a vote does not reach a pair that is pending
        cases op with
        | vote a =>
          have hsame := hcast a rfl g p hpair (by rw [h]; decide)
          cases hp'.symm.trans hsame
          exact .inl rfl
        | _ => exact hvote.elim
      · exact .inr (.inr ⟨h, .inl hv⟩)

/-! ### Votes and windows -/

/-- The voted pairs of a window. -/
def votedPairs (v : Db) (windowId : String) : List (String × PairRow) :=
  (pairs v).filter fun p => p.2.windowId = some windowId ∧ p.2.status = .voted

theorem tally_eq {v : Db}
    (h : ∀ g p, (snap v g).pair = some p → (p.voted = true ↔ p.status = .voted)) :
    tally v windowId = (votedPairs v windowId).length := by
  have hrows : ∀ e ∈ Store.rows v, ∀ g, ∀ p : PairRow, e = ⟨Key.pair g, p⟩ →
      (p.voted = true ↔ p.status = .voted) := by
    rintro _ he g p rfl
    exact h g p (Store.mem_rows.mp he)
  unfold tally votedPairs pairs table Store.total
  -- row by row, each counts the same on both sides
  revert hrows
  induction Store.rows v with
  | nil => exact fun _ => rfl
  | cons e l ih =>
    intro hrows
    have ih := ih fun e he => hrows e (mem_cons_of_mem _ he)
    obtain ⟨k, r⟩ := e
    rw [map_cons, sum_cons, ih]
    cases k with
    | pair g =>
      have hvoted := hrows _ mem_cons_self g r rfl
      simp only [filterMap_cons, filter_cons]
      by_cases hp : PairRow.windowId r = some windowId ∧ PairRow.status r = .voted
      · have hcount : votedIn windowId (.pair g) r = 1 := if_pos ⟨hp.1, hvoted.mpr hp.2⟩
        rw [if_pos (decide_eq_true hp), hcount, length_cons, Nat.add_comm]
      · have hcount : votedIn windowId (.pair g) r = 0 :=
          if_neg fun hv => hp ⟨hv.1, hvoted.mp hv.2⟩
        rw [if_neg (by simpa using hp), hcount, Nat.zero_add]
    | _ => exact Nat.zero_add _

/-- The pairs, the votes and the windows agree. -/
structure PairsOk (v : Db) : Prop where
  /-- A pair is voted when exactly one vote is on it, with its choice. -/
  voted : ∀ g (p : PairRow), v.get (.pair g) = some p → (p.status = .voted ↔
    ∃ u, ∃ x : VoteRow, v.get (.vote g u) = some x ∧ p.choice = some x.choice ∧
      ∀ u', (v.get (.vote g u')).isSome = true → u' = u)
  /-- A window has counted each of its voted pairs once. -/
  counted : ∀ w (row : WindowRow), v.get (.window w) = some row →
    row.pairsCollected = (votedPairs v w).length

theorem Inv.pairsOk {v : Db} (h : Inv S v) (hd : S.discard) : PairsOk v where
  voted g p hp := by
    constructor
    · intro hst
      obtain ⟨u, hu, honly⟩ := (h.ok g).voter hd p hp hst
      obtain ⟨x, hx⟩ := isSome_iff_exists.mp hu
      obtain ⟨p', hp', -, hchoice⟩ := (h.ok g).vote hd u x hx
      cases hp.symm.trans hp'
      exact ⟨u, x, hx, hchoice, honly⟩
    · rintro ⟨u, x, hx, -, -⟩
      obtain ⟨p', hp', hst, -⟩ := (h.ok g).vote hd u x hx
      cases hp.symm.trans hp'
      exact hst
  counted w row hrow := (h.counted w row hrow).trans
    (tally_eq fun g p hp => (h.ok g).voted hd p hp)

/-! ### Closed windows -/

theorem PairMoves.settled {a b : PairStatus} (h : PairMoves vote a b)
    (ha : a = .voted ∨ a = .expired) : b = .voted ∨ b = .expired := by
  unfold PairMoves at h
  rcases ha with rfl | rfl <;> simp_all

/-- The pairs of a window that `c₀` shows are settled in `c`. -/
def Settled (windowId : String) (c₀ c : Db) : Prop :=
  ∀ g p, (snap c₀ g).pair = some p → p.windowId = some windowId →
    ∃ p', (snap c g).pair = some p' ∧ p'.windowId = some windowId ∧
      (p'.status = .voted ∨ p'.status = .expired)

theorem Settled.rely (h : Settled windowId c₀ c) (hp : S.publisher) (hd : S.discard)
    (hg : Guar S True W c c') : Settled windowId c₀ c' := by
  intro g p hpair hw
  obtain ⟨p₁, hp₁, hw₁, hst⟩ := h g p hpair hw
  obtain ⟨p₂, hp₂, hw₂, hmoves⟩ := (hg g).pair p₁ hp₁
  exact ⟨p₂, hp₂, hw₂.trans hw₁, (hmoves hp hd).settled hst⟩

theorem Settled.of_none (hg : Guar S True W c₀ c) (h : (votablePairs c windowId).isEmpty = true) :
    Settled windowId c₀ c := by
  intro g p hpair hw
  obtain ⟨p₁, hp₁, hw₁, -⟩ := (hg g).pair p hpair
  refine ⟨p₁, hp₁, hw₁.trans hw, ?_⟩
  by_contra hne
  have hmem : (g, p₁) ∈ votablePairs c windowId := by
    refine mem_filter.mpr ⟨mem_pairs.mpr hp₁, decide_eq_true ⟨hw₁.trans hw, ?_⟩⟩
    revert hne
    cases p₁.status <;> simp
  rw [List.isEmpty_iff.mp h] at hmem
  cases hmem

theorem closed_window_read {u : System} {i n : ℕ} {w : String} {d : Db}
    (hx : s.sessions i = some ⟨.hasVotablePairs w, body env (.hasVotablePairs w), ∅, n⟩)
    (hu : step (body env) s (.advance i) = some u)
    (hflag : u.sessions i = some ⟨.hasVotablePairs w, .done (.flag false), d, n⟩) :
    (votablePairs s.db w).isEmpty = true := by
  have hbody : body env (.hasVotablePairs w) = .stmt (fun _ => []) (fun _ => [])
      fun v => .done (.flag (!(votablePairs v w).isEmpty)) := rfl
  rw [hbody] at hx
  simp only [step, hx, needed, available, map_nil, append_nil, all_nil, if_true,
    some.injEq] at hu
  subst hu
  simp only [Function.update_self, empty_union, some.injEq, Session.mk.injEq,
    Prog.done.injEq, Reply.flag.injEq, Bool.not_eq_false'] at hflag
  exact hflag.2.1

/-! ### The life of the pairs -/

/-- The publications and the discards are asked for something. -/
def Strict.pairs : Strict := ⟨False, True, True, False⟩

/-- **The life of the pairs**: in every run in which no publication opens a pair that is not
pending any more and no discard reaches a voted pair, the pairs agree with the votes and the
windows, every move of the scheduler moves a pair along one edge at most, and no pair that is
there when a window is read to have no votable pairs is ever opened again. -/
theorem pair_lifecycle {s t : System} {ms ms' : List (Move Op)}
    (hA : Permitted Strict.pairs env (Sys.init ∅) (ms ++ ms'))
    (hs : run (body env) (Sys.init ∅) ms = some s) (ht : run (body env) s ms' = some t) :
    PairsOk s.db ∧
    (∀ m u g (p : PairRow), step (body env) s m = some u → s.db.get (.pair g) = some p →
      ∃ p' : PairRow, u.db.get (.pair g) = some p' ∧ PairEdge p.status p'.status) ∧
    ∀ i n w u d rest, ms' = .advance i :: rest →
      s.sessions i = some ⟨.hasVotablePairs w, body env (.hasVotablePairs w), ∅, n⟩ →
      step (body env) s (.advance i) = some u →
      u.sessions i = some ⟨.hasVotablePairs w, .done (.flag false), d, n⟩ →
      ∀ g (p : PairRow), s.db.get (.pair g) = some p → p.windowId = some w →
        ∃ p' : PairRow, t.db.get (.pair g) = some p' ∧
          (p'.status = .voted ∨ p'.status = .expired) := by
  obtain ⟨hA₁, hA₂⟩ := allowsRun_append hA hs
  have hI : ∀ s ms, Genuine Strict.pairs env s ms :=
    fun s ms => (opensRun_true (body env) ms s).mono fun _ _ _ h => h.elim
  have hinit : PairsSys Strict.pairs (Sys.init ∅) :=
    SysOk.init (inv_empty _) fun _ he => by cases he
  obtain ⟨hok, -⟩ := pairs_run hinit hA₁ (hI _ _) hs
  obtain ⟨-, hg⟩ := pairs_run hok hA₂ (hI _ _) ht
  refine ⟨hok.inv.pairsOk trivial, fun m u g p hstep hp =>
    pair_step hok trivial trivial hstep hp, ?_⟩
  intro i n w u d rest _ hx hu hflag g p hp hw
  have hnone := closed_window_read hx hu hflag
  have hsettled : Settled w s.db s.db :=
    Settled.of_none (S := Strict.pairs) (W := fun _ => True) (fun g => .refl _ _ _ _) hnone
  obtain ⟨p', hp', -, hst⟩ := hsettled.rely trivial trivial hg g p hp hw
  exact ⟨p', hp', hst⟩

/-! ### Runs of a few transactions -/

/-- A question with a comparison in the window `"w"`. -/
def samplePairAsk : Op := .ask
  { creation :=
      { ids := ⟨"g", "e", "p"⟩, userId := "u", authSessionId := "s", requestId := none
        conversationId := "c", content := "?", effortLevel := "quick", scope := [], now := 0
        window := some ⟨"w", none, none⟩, abConfigs := some ("a", "b") }
    verified := .ok (), conversationId := none, newConversationId := "c"
    idempotencyKey := "k", fingerprint := "f" }

/-- Two answers that differ. -/
def samplePublication : Publication where
  candidates := [⟨0, "x", [], "direct"⟩, ⟨1, "y", [], "direct"⟩]
  effortLevel := "quick"
  upgradedFrom := none
  scopeCurrent := true
  nearDuplicate := false
  now := seconds 2
  busy := false
  busyAgain := false

/-- A vote on them. -/
def sampleVote : VoteCall where
  userId := "u"
  generationId := "g"
  pairId := "p"
  choice := .first
  idempotencyKey := "v"
  fingerprint := "f"
  verified := .ok ()
  allowedSpaces := none
  now := seconds 3

/-- A comparison whose execution is claimed and opened. -/
def samplePaired : List (Move Op) :=
  alone 0 (.createWindow "w") 2 ++ alone 1 samplePairAsk 18 ++ alone 2 (sampleClaim "e" 1) 5 ++
    alone 3 (.openExecution "g" "e") 3

/-- The comparison is published and voted. -/
def sampleVoted : List (Move Op) :=
  samplePaired ++ alone 4 (.publish sampleHeld samplePublication) 19 ++ alone 5 (.vote sampleVote) 10

theorem pair_lifecycle_sample : ∃ s t : System,
    run (body sampleEnv) (Sys.init ∅) sampleVoted = some s ∧
    run (body sampleEnv) s (alone 6 (.hasVotablePairs "w") 2) = some t ∧
    ((s.db.get (.pair "g")).map fun p : PairRow => p.status) = some .voted ∧ PairsOk s.db := by
  have hgood : goodRun sampleEnv (Sys.init ∅)
      (sampleVoted ++ alone 6 (.hasVotablePairs "w") 2) = true := by
    decide +kernel
  have hrun : ((run (body sampleEnv) (Sys.init ∅) sampleVoted).bind fun s =>
      (run (body sampleEnv) s (alone 6 (.hasVotablePairs "w") 2)).map fun _ =>
        (s.db.get (.pair "g")).map fun p : PairRow => p.status) = some (some .voted) := by
    decide +kernel
  obtain ⟨s, hs, hrest⟩ := Option.bind_eq_some_iff.mp hrun
  obtain ⟨t, ht, hst⟩ := Option.map_eq_some_iff.mp hrest
  exact ⟨s, t, hs, ht, hst, (pair_lifecycle (permitted_of_goodRun hgood) hs ht).1⟩

/-- The window is closed while the generation runs, and then the comparison is published. -/
def sampleRevived : List (Move Op) :=
  samplePaired ++ alone 4 (.expireWindowPairs "w") 2 ++
    .start 5 (.publish sampleHeld samplePublication) :: replicate 18 (.advance 5)

theorem publication_opens_expired :
    ¬ ∀ (env : Env) (ms : List (Move Op)) (s u : System) (m : Move Op) (g : String) (p : PairRow),
      run (body env) (Sys.init ∅) ms = some s → step (body env) s m = some u →
      s.db.get (.pair g) = some p →
      ∃ p' : PairRow, u.db.get (.pair g) = some p' ∧ PairEdge p.status p'.status := by
  intro h
  have hrun : ((run (body sampleEnv) (Sys.init ∅) sampleRevived).bind fun s =>
      (step (body sampleEnv) s (.advance 5)).map fun u =>
        ((s.db.get (.pair "g")).map fun p : PairRow => p.status,
          (u.db.get (.pair "g")).map fun p : PairRow => p.status))
      = some (some .expired, some .opened) := by
    decide +kernel
  obtain ⟨s, hs, hrest⟩ := Option.bind_eq_some_iff.mp hrun
  obtain ⟨u, hu, hpair⟩ := Option.map_eq_some_iff.mp hrest
  obtain ⟨hexp, hopen⟩ := Prod.mk.inj hpair
  obtain ⟨p, hp, hst⟩ := Option.map_eq_some_iff.mp hexp
  obtain ⟨p', hp', hst'⟩ := Option.map_eq_some_iff.mp hopen
  obtain ⟨q, hq, hedge⟩ := h sampleEnv sampleRevived s u _ "g" p hs hu hp
  obtain rfl := Option.some.inj (hp'.symm.trans hq)
  rw [hst, hst'] at hedge
  unfold PairEdge at hedge
  simp at hedge

end RagQs.Chat
