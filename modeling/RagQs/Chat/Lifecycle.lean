import RagQs.Chat.Schema

/-!
# The life of a generation

What a generation is seen as: its row, its assistant message, its event log, its A/B pair and
the votes on it, and which windows there are.  A generation runs, may be asked to stop, and ends
once; its log grows at the end only, has one terminal event when the generation has ended, and
nothing but clicks after it.

Some results hold of every run and some only where a defect of the code does not show.  `Strict`
says which steps are excluded: a recovery that writes its failure over a generation that has
been completed or stopped meanwhile, a publication that opens a pair that is not pending any
more, and a discard that reaches a pair that has been voted.

## Main definitions

* `Snapshot` — a generation as it is seen.
* `Ok` — what holds of a generation in every committed state.
* `Moves` — what may happen to it between two states.

## Main results

* `Moves.trans` — moves compose.
* `Ok.create`, `Ok.touch`, `Ok.append`, `Ok.finish`, `Ok.overwrite`, `Ok.expire`, `Ok.vote` —
  what happens to a generation keeps it good.
-/

namespace RagQs.Chat

open List Option Function

variable {r r' : GenerationRow} {m' : MessageRow} {p : PairRow} {b : Option PairRow}

/-- Which steps are excluded, and what is asked of the workers. -/
structure Strict where
  /-- No recovery writes its failure over a completed or stopped generation. -/
  recovery : Prop
  /-- No publication opens a pair that is not pending. -/
  publisher : Prop
  /-- No discard expires a pair that was voted. -/
  discard : Prop
  /-- The workers only use claims they were given. -/
  genuine : Prop

/-- A generation as it is seen. -/
structure Snapshot where
  gen : Option GenerationRow
  msg : Option MessageRow
  log : ℕ → Option EventRow
  pair : Option PairRow
  votes : String → Option VoteRow
  windows : String → Prop

/-- The events of a log are numbered `1..n`. -/
def Dense (log : ℕ → Option EventRow) (n : ℕ) : Prop :=
  ∀ q, (log q).isSome = true ↔ 1 ≤ q ∧ q ≤ n

/-- The largest number of a log, `0` of an empty one. -/
structure Top (log : ℕ → Option EventRow) (n : ℕ) : Prop where
  le : ∀ q e, log q = some e → q ≤ n
  mem : n ≠ 0 → (log n).isSome = true

/-- More events at the end of a log. -/
def extend (log : ℕ → Option EventRow) (n : ℕ) (es : List EventRow) : ℕ → Option EventRow :=
  fun q => if q ≤ n then log q else es[q - n - 1]?

/-- The terminal event of a status. -/
def GenerationStatus.event : GenerationStatus → EventType
  | .completed => .done
  | .failed => .error
  | _ => .stopped

/-- An event that gives a part of the answer. -/
def EventType.output : EventType → Bool
  | .answer | .delta | .done => true
  | _ => false

/-- The control version of a generation: it is the first one until the generation is asked to
stop, and never again. -/
structure Control (r : GenerationRow) : Prop where
  running : r.status = .running → r.controlVersion = 1
  stopRequested : r.status = .stopRequested → r.controlVersion ≠ 1
  completed : r.status = .completed → r.controlVersion = 1

/-- The statuses a pair goes through; only a vote (`vote`) makes it voted. -/
def PairMoves (vote : Prop) (a b : PairStatus) : Prop :=
  a = b ∨ a = .pending ∧ (b = .opened ∨ b = .expired) ∨ a = .opened ∧ b = .expired ∨
    vote ∧ b = .voted ∧ (a = .pending ∨ a = .opened)

/-- What holds of a generation in every committed state. -/
structure Ok (S : Strict) (s : Snapshot) : Prop where
  /-- The log is numbered without gaps. -/
  dense : ∃ n, Dense s.log n
  /-- Before a generation is created there is nothing of it. -/
  absent : s.gen = none → (∀ q, s.log q = none) ∧ s.pair = none ∧ ∀ u, s.votes u = none
  message : ∀ r, s.gen = some r → ∃ m, s.msg = some m ∧ m.status = r.status.message
  control : ∀ r, s.gen = some r → Control r
  /-- A generation has ended when its log has a terminal event. -/
  ended : ∀ r, s.gen = some r →
    (r.status.terminal = true ↔ ∃ q e, s.log q = some e ∧ e.eventType.terminal = true)
  /-- Nothing but clicks comes after a terminal event. -/
  last : ∀ q e, s.log q = some e → e.eventType.terminal = true →
    ∀ q' e', q < q' → s.log q' = some e' → e'.eventType = .citationClick
  outcome : S.recovery → ∀ r, s.gen = some r →
    ∀ q e, s.log q = some e → e.eventType.terminal = true → e.eventType = r.status.event
  /-- Only an ended generation that was not asked to stop has a pair that was opened. -/
  settled : ∀ p, s.pair = some p → p.status = .opened ∨ p.status = .voted →
    ∃ r, s.gen = some r ∧ r.status.terminal = true ∧ r.controlVersion = 1
  window : ∀ p w, s.pair = some p → p.windowId = some w → s.windows w
  voted : S.discard → ∀ p, s.pair = some p → (p.voted = true ↔ p.status = .voted)
  vote : S.discard → ∀ u x, s.votes u = some x →
    ∃ p, s.pair = some p ∧ p.status = .voted ∧ p.choice = some x.choice
  voter : S.discard → ∀ p, s.pair = some p → p.status = .voted →
    ∃ u, (s.votes u).isSome = true ∧ ∀ u', (s.votes u').isSome = true → u' = u

/-- What may happen to a generation between two states, with the lock of its row (`locked`) or
without it, with a vote (`vote`) or without one. -/
structure Moves (S : Strict) (locked vote : Prop) (s s' : Snapshot) : Prop where
  /-- Without the lock neither the row, nor the log, nor the status of the message changes. -/
  kept : ¬ locked → s'.gen = s.gen ∧ s'.log = s.log ∧
    s'.msg.map (·.status) = s.msg.map (·.status)
  row : ∀ r, s.gen = some r → ∃ r', s'.gen = some r' ∧
    (r.status.terminal = true → r'.status.terminal = true) ∧
    (r.controlVersion ≠ 1 → r'.controlVersion ≠ 1) ∧
    (S.recovery → r.status.terminal = true → r'.status = r.status)
  log : ∀ q e, s.log q = some e → s'.log q = some e
  /-- A generation that was asked to stop puts nothing more out. -/
  cutOff : S.genuine → ∀ r, s.gen = some r → r.controlVersion ≠ 1 →
    (∀ q e, s'.log q = some e → e.eventType.output = true → s.log q = some e) ∧
    ∀ m, s.msg = some m → ∃ m', s'.msg = some m' ∧ m'.content = m.content ∧
      m'.answerMode = m.answerMode ∧ m'.citations = m.citations
  pair : ∀ p, s.pair = some p → ∃ p', s'.pair = some p' ∧ p'.windowId = p.windowId ∧
    (S.publisher → S.discard → PairMoves vote p.status p'.status)
  votes : ∀ u x, s.votes u = some x → s'.votes u = some x
  unvoted : ¬ vote → s'.votes = s.votes
  windows : ∀ w, s.windows w → s'.windows w

variable {S : Strict} {s s' s'' : Snapshot} {locked locked' vote vote' : Prop}

theorem PairMoves.refl (vote : Prop) (a : PairStatus) : PairMoves vote a a := .inl rfl

theorem PairMoves.trans {a b c : PairStatus} (h : PairMoves vote a b)
    (h' : PairMoves vote b c) : PairMoves vote a c := by
  unfold PairMoves at *
  cases a <;> cases b <;> cases c <;> simp_all

theorem PairMoves.mono {a b : PairStatus} (h : PairMoves vote a b) (hv : vote → vote') :
    PairMoves vote' a b := by
  rcases h with h | h | h | ⟨hvote, h⟩
  · exact .inl h
  · exact .inr (.inl h)
  · exact .inr (.inr (.inl h))
  · exact .inr (.inr (.inr ⟨hv hvote, h⟩))

theorem Moves.refl (S : Strict) (locked vote : Prop) (s : Snapshot) :
    Moves S locked vote s s where
  kept _ := ⟨rfl, rfl, rfl⟩
  row r h := ⟨r, h, id, id, fun _ _ => rfl⟩
  log _ _ h := h
  cutOff _ _ _ _ := ⟨fun _ _ h _ => h, fun m h => ⟨m, h, rfl, rfl, rfl⟩⟩
  pair p h := ⟨p, h, rfl, fun _ _ => .refl _ _⟩
  votes _ _ h := h
  unvoted _ := rfl
  windows _ h := h

/-- **Moves compose.** -/
theorem Moves.trans (h : Moves S locked vote s s') (h' : Moves S locked vote s' s'') :
    Moves S locked vote s s'' where
  kept hl := by
    obtain ⟨hg, hlog, hm⟩ := h.kept hl
    obtain ⟨hg', hlog', hm'⟩ := h'.kept hl
    exact ⟨hg'.trans hg, hlog'.trans hlog, hm'.trans hm⟩
  row r hr := by
    obtain ⟨r', hr', hterm, hctrl, hrec⟩ := h.row r hr
    obtain ⟨r'', hr'', hterm', hctrl', hrec'⟩ := h'.row r' hr'
    exact ⟨r'', hr'', fun ht => hterm' (hterm ht), fun hc => hctrl' (hctrl hc),
      fun hs ht => (hrec' hs (hterm ht)).trans (hrec hs ht)⟩
  log q e he := h'.log q e (h.log q e he)
  cutOff hS r hr hc := by
    obtain ⟨r', hr', -, hctrl, -⟩ := h.row r hr
    obtain ⟨hout, hmsg⟩ := h.cutOff hS r hr hc
    obtain ⟨hout', hmsg'⟩ := h'.cutOff hS r' hr' (hctrl hc)
    refine ⟨fun q e he ho => hout q e (hout' q e he ho) ho, fun m hm => ?_⟩
    obtain ⟨m', hm', h1, h2, h3⟩ := hmsg m hm
    obtain ⟨m'', hm'', h1', h2', h3'⟩ := hmsg' m' hm'
    exact ⟨m'', hm'', h1'.trans h1, h2'.trans h2, h3'.trans h3⟩
  pair p hp := by
    obtain ⟨p', hp', hw, hmv⟩ := h.pair p hp
    obtain ⟨p'', hp'', hw', hmv'⟩ := h'.pair p' hp'
    exact ⟨p'', hp'', hw'.trans hw, fun h1 h2 => (hmv h1 h2).trans (hmv' h1 h2)⟩
  votes u x hx := h'.votes u x (h.votes u x hx)
  unvoted hv := (h'.unvoted hv).trans (h.unvoted hv)
  windows w hw := h'.windows w (h.windows w hw)

theorem Moves.mono (h : Moves S locked vote s s') (hl : locked → locked') (hv : vote → vote') :
    Moves S locked' vote' s s' where
  kept hn := h.kept fun hk => hn (hl hk)
  row := h.row
  log := h.log
  cutOff := h.cutOff
  pair p hp := by
    obtain ⟨p', hp', hw, hmv⟩ := h.pair p hp
    exact ⟨p', hp', hw, fun h1 h2 => (hmv h1 h2).mono hv⟩
  votes := h.votes
  unvoted hn := h.unvoted fun hk => hn (hv hk)
  windows := h.windows

/-! ### The event log -/

section Log

variable {log : ℕ → Option EventRow} {n m : ℕ} {es es' : List EventRow} {q : ℕ} {x : EventRow}

theorem Dense.top (h : Dense log n) : Top log n where
  le q e he := ((h q).mp (by rw [he]; rfl)).2
  mem hn := (h n).mpr ⟨Nat.one_le_iff_ne_zero.mpr hn, le_rfl⟩

theorem Top.unique (h : Top log n) (h' : Top log m) : n = m := by
  have key : ∀ a b, Top log a → Top log b → a ≤ b := by
    intro a b ha hb
    by_cases ha0 : a = 0
    · omega
    · obtain ⟨e, he⟩ := isSome_iff_exists.mp (ha.mem ha0)
      exact hb.le a e he
  have := key n m h h'
  have := key m n h' h
  omega

theorem Top.extend_old (h : Top log n) (hx : log q = some x) : extend log n es q = some x := by
  unfold extend
  rw [if_pos (h.le q x hx)]
  exact hx

theorem extend_cases (h : extend log n es q = some x) :
    q ≤ n ∧ log q = some x ∨ n < q ∧ es[q - n - 1]? = some x := by
  unfold extend at h
  split at h
  · next hq => exact .inl ⟨hq, h⟩
  · next hq => exact .inr ⟨by omega, h⟩

theorem extend_mem (h : extend log n es q = some x) : log q = some x ∨ x ∈ es := by
  rcases extend_cases h with ⟨-, h⟩ | ⟨-, h⟩
  · exact .inl h
  · exact .inr (List.mem_of_getElem? h)

theorem Dense.longer (h : Dense log n) : Dense (extend log n es) (n + es.length) := by
  intro q
  unfold extend
  split
  · next hq =>
    rw [h q]
    omega
  · next hq =>
    rw [isSome_getElem?]
    omega

theorem Top.longer (h : Top log n) : Top (extend log n es) (n + es.length) where
  le q e he := by
    rcases extend_cases he with ⟨hq, -⟩ | ⟨-, he⟩
    · omega
    · have := (List.getElem?_eq_some_iff.mp he).1
      omega
  mem hne := by
    unfold extend
    split
    · next hq =>
      have : es.length = 0 := by omega
      rw [this, Nat.add_zero] at hne ⊢
      exact h.mem hne
    · next hq =>
      rw [isSome_getElem?]
      omega

theorem extend_extend (log : ℕ → Option EventRow) (n : ℕ) (es es' : List EventRow) :
    extend (extend log n es) (n + es.length) es' = extend log n (es ++ es') := by
  funext q
  unfold extend
  by_cases h : q ≤ n
  · rw [if_pos (by omega), if_pos h, if_pos h]
  · by_cases h' : q ≤ n + es.length
    · rw [if_pos h', if_neg h, if_neg h, List.getElem?_append_left (by omega)]
    · rw [if_neg h', if_neg h, List.getElem?_append_right (by omega)]
      congr 1
      omega

@[simp] theorem extend_nil (h : Top log n) : extend log n [] = log := by
  funext q
  unfold extend
  split
  · rfl
  · next hq =>
    cases hl : log q with
    | none => rfl
    | some e => exact absurd (h.le q e hl) hq

end Log

/-! ### What happens to a generation -/

/-- Another row for a generation that goes on, or one with the same status and control version. -/
theorem Ok.row (h : Ok S s) (hr : s.gen = some r) (hterm : r'.status.terminal = r.status.terminal)
    (hmsg : r'.status.message = r.status.message) (hctrl : Control r')
    (hcut : r.controlVersion ≠ 1 → r'.controlVersion ≠ 1)
    (hend : r.status.terminal = true → r'.status = r.status ∧ r'.controlVersion = r.controlVersion) :
    Ok S { s with gen := some r' } ∧ Moves S True vote s { s with gen := some r' } := by
  refine ⟨{ h with absent := fun hn => (by cases hn), message := ?_, control := ?_, ended := ?_,
                   outcome := ?_, settled := ?_ }, ?_⟩
  · rintro _ ⟨⟩
    obtain ⟨m, hm, hst⟩ := h.message r hr
    exact ⟨m, hm, hst.trans hmsg.symm⟩
  · rintro _ ⟨⟩
    exact hctrl
  · rintro _ ⟨⟩
    rw [hterm]
    exact h.ended r hr
  · rintro hS _ ⟨⟩ q e he ht
    have hterm : r.status.terminal = true := (h.ended r hr).mpr ⟨q, e, he, ht⟩
    rw [(hend hterm).1]
    exact h.outcome hS r hr q e he ht
  · intro p hp ho
    obtain ⟨r₁, hr₁, ht, hc⟩ := h.settled p hp ho
    cases hr.symm.trans hr₁
    obtain ⟨h1, h2⟩ := hend ht
    exact ⟨r', rfl, by rw [h1]; exact ht, h2.trans hc⟩
  · refine { Moves.refl S True vote s with kept := fun hk => absurd trivial hk, row := ?_ }
    intro r₁ hr₁
    cases hr.symm.trans hr₁
    exact ⟨r', rfl, fun ht => hterm.trans ht, hcut, fun _ ht => (hend ht).1⟩

/-- A row with the same status and control version. -/
theorem Ok.touch (h : Ok S s) (hr : s.gen = some r) (hst : r'.status = r.status)
    (hc : r'.controlVersion = r.controlVersion) :
    Ok S { s with gen := some r' } ∧ Moves S True vote s { s with gen := some r' } := by
  have hctrl := h.control r hr
  refine h.row hr (by rw [hst]) (by rw [hst]) ⟨?_, ?_, ?_⟩ (by rw [hc]; exact id)
    fun _ => ⟨hst, hc⟩
  · rw [hst, hc]
    exact hctrl.running
  · rw [hst, hc]
    exact hctrl.stopRequested
  · rw [hst, hc]
    exact hctrl.completed

theorem Ok.requestStop (h : Ok S s) (hr : s.gen = some r) (hrun : r.status = .running)
    (hst : r'.status = .stopRequested) (hc : r'.controlVersion ≠ 1) :
    Ok S { s with gen := some r' } ∧ Moves S True vote s { s with gen := some r' } := by
  refine h.row hr (by rw [hst, hrun]; rfl) (by rw [hst, hrun]; rfl)
    ⟨by simp [hst], fun _ => hc, by simp [hst]⟩ (fun _ => hc) fun ht => ?_
  rw [hrun] at ht
  cases ht

/-- An event that is no end: a click at any time, anything else while the generation goes on,
and no output once it was asked to stop. -/
theorem Ok.append (h : Ok S s) {n : ℕ} {e : EventRow} (hr : s.gen = some r) (hn : Top s.log n)
    (he : e.eventType.terminal = false)
    (hclick : r.status.terminal = true → e.eventType = .citationClick)
    (hcut : S.genuine → r.controlVersion ≠ 1 → e.eventType.output = false) :
    Ok S { s with log := extend s.log n [e] } ∧
      Moves S True vote s { s with log := extend s.log n [e] } := by
  obtain ⟨m, hd⟩ := h.dense
  obtain rfl := hn.unique hd.top
  have hterminal : ∀ q x, extend s.log n [e] q = some x → x.eventType.terminal = true →
      s.log q = some x := by
    intro q x hx ht
    rcases extend_mem hx with hx | hx
    · exact hx
    · rw [mem_singleton.mp hx, he] at ht
      cases ht
  refine ⟨{ h with dense := ⟨_, hd.longer⟩, ended := ?_, last := ?_, outcome := ?_,
                   absent := fun hg => absurd (hr.symm.trans hg) (by simp) }, ?_⟩
  · intro r₁ hr₁
    rw [h.ended r₁ hr₁]
    exact ⟨fun ⟨q, x, hx, ht⟩ => ⟨q, x, hn.extend_old hx, ht⟩,
      fun ⟨q, x, hx, ht⟩ => ⟨q, x, hterminal q x hx ht, ht⟩⟩
  · intro q x hx ht q' x' hq hx'
    have hold := hterminal q x hx ht
    rcases extend_mem hx' with hx' | hx'
    · exact h.last q x hold ht q' x' hq hx'
    · rw [mem_singleton.mp hx']
      exact hclick ((h.ended r hr).mpr ⟨q, x, hold, ht⟩)
  · exact fun hS r₁ hr₁ q x hx ht => h.outcome hS r₁ hr₁ q x (hterminal q x hx ht) ht
  · refine { Moves.refl S True vote s with
      kept := fun hk => absurd trivial hk, log := fun q x hx => hn.extend_old hx, cutOff := ?_ }
    intro hS r₁ hr₁ hc
    cases hr.symm.trans hr₁
    refine ⟨fun q x hx ho => ?_, fun m hm => ⟨m, hm, rfl, rfl, rfl⟩⟩
    rcases extend_mem hx with hx | hx
    · exact hx
    · rw [mem_singleton.mp hx, hcut hS hc] at ho
      cases ho

/-- A message with the same text and status. -/
theorem Ok.notices (h : Ok S s) {m : MessageRow} (hm : s.msg = some m) (hst : m'.status = m.status)
    (hcontent : m'.content = m.content) (hmode : m'.answerMode = m.answerMode)
    (hcit : m'.citations = m.citations) :
    Ok S { s with msg := some m' } ∧ Moves S locked vote s { s with msg := some m' } := by
  refine ⟨{ h with message := ?_ }, { Moves.refl S locked vote s with kept := ?_, cutOff := ?_ }⟩
  · intro r hr
    obtain ⟨m₁, hm₁, h₁⟩ := h.message r hr
    obtain rfl := some.inj (hm.symm.trans hm₁)
    exact ⟨m', rfl, hst.trans h₁⟩
  · intro _
    refine ⟨rfl, rfl, ?_⟩
    rw [hm]
    exact congrArg some hst
  · intro hS r hr hc
    refine ⟨fun q x hx _ => hx, fun m₁ hm₁ => ?_⟩
    obtain rfl := some.inj (hm.symm.trans hm₁)
    exact ⟨m', rfl, hcontent, hmode, hcit⟩

/-- What a discard, an expiry or a publication makes of a pair that was not voted. -/
structure Resolves (S : Strict) (p p' : PairRow) : Prop where
  windowId : p'.windowId = p.windowId
  voted : p'.voted = p.voted
  choice : p'.choice = p.choice
  unvoted : S.discard → p.status ≠ .voted
  status : p'.status = .expired ∨ p'.status = .opened
  opened : p'.status = .opened → S.publisher → p.status = .pending

theorem Resolves.moves {p' : PairRow} (h : Resolves S p p') (hp : S.publisher) (hd : S.discard)
    (vote : Prop) : PairMoves vote p.status p'.status := by
  rcases h.status with hst | hst
  · rw [hst]
    have := h.unvoted hd
    cases hs : p.status with
    | pending => exact .inr (.inl ⟨rfl, .inr rfl⟩)
    | opened => exact .inr (.inr (.inl ⟨rfl, rfl⟩))
    | voted => exact absurd hs this
    | expired => exact .inl rfl
  · rw [hst, h.opened hst hp]
    exact .inr (.inl ⟨rfl, .inl rfl⟩)

/-- The pair stays, or is resolved. -/
def Settles (S : Strict) (a b : Option PairRow) : Prop :=
  b = a ∨ ∃ p p', a = some p ∧ b = some p' ∧ Resolves S p p'

theorem Settles.moves (h : Settles S s.pair b) (vote : Prop) :
    ∀ p, s.pair = some p → ∃ p', b = some p' ∧ p'.windowId = p.windowId ∧
      (S.publisher → S.discard → PairMoves vote p.status p'.status) := by
  intro p hp
  rcases h with rfl | ⟨p₁, p', hp₁, rfl, hres⟩
  · exact ⟨p, hp, rfl, fun _ _ => .refl _ _⟩
  · cases hp.symm.trans hp₁
    exact ⟨p', rfl, hres.windowId, fun h1 h2 => hres.moves h1 h2 vote⟩

/-- What holds of the pair and its votes holds of a resolved pair. -/
theorem Settles.ok (hs : Settles S s.pair b) (h : Ok S s) :
    (∀ p w, b = some p → p.windowId = some w → s.windows w) ∧
    (S.discard → ∀ p, b = some p → (p.voted = true ↔ p.status = .voted)) ∧
    (S.discard → ∀ u x, s.votes u = some x →
      ∃ p, b = some p ∧ p.status = .voted ∧ p.choice = some x.choice) ∧
    (S.discard → ∀ p, b = some p → p.status = .voted →
      ∃ u, (s.votes u).isSome = true ∧ ∀ u', (s.votes u').isSome = true → u' = u) := by
  rcases hs with rfl | ⟨p, p', hp, rfl, hres⟩
  · exact ⟨h.window, h.voted, h.vote, h.voter⟩
  · have hnot : p'.status ≠ .voted := by
      rcases hres.status with h | h <;> rw [h] <;> decide
    refine ⟨?_, fun hd => ?_, fun hd u x hx => ?_, fun _ => ?_⟩
    · rintro _ w ⟨⟩ hw
      exact h.window p w hp (hres.windowId ▸ hw)
    · rintro _ ⟨⟩
      rw [hres.voted, h.voted hd p hp]
      exact iff_of_false (hres.unvoted hd) hnot
    · obtain ⟨p₁, hp₁, hst, -⟩ := h.vote hd u x hx
      cases hp.symm.trans hp₁
      exact absurd hst (hres.unvoted hd)
    · rintro _ ⟨⟩ hv
      exact absurd hv hnot

theorem Ok.unsettled (h : Ok S s) (hr : s.gen = some r) (hlive : r.status.terminal = false)
    (hp : s.pair = some p) : p.status ≠ .opened ∧ p.status ≠ .voted := by
  by_contra hne
  have hst : p.status = .opened ∨ p.status = .voted := by
    by_cases ho : p.status = .opened
    · exact .inl ho
    · exact .inr (by_contra fun hv => hne ⟨ho, hv⟩)
  obtain ⟨r₁, hr₁, ht, -⟩ := h.settled p hp hst
  cases hr.symm.trans hr₁
  rw [hlive] at ht
  cases ht

/-- **The end of a generation**: its row, its message, some events and the terminal one, and its
pair. -/
theorem Ok.finish (h : Ok S s) {m : MessageRow} {n : ℕ} (es : List EventRow) {e : EventRow}
    (hr : s.gen = some r) (hm : s.msg = some m) (hn : Top s.log n)
    (hlive : r.status.terminal = false) (hterm : r'.status.terminal = true) (hctrl : Control r')
    (hmsg : m'.status = r'.status.message) (hes : ∀ x ∈ es, x.eventType.terminal = false)
    (he : e.eventType = r'.status.event) (hpair : Settles S s.pair b)
    (hopen : ∀ p, b = some p → p.status = .opened → r'.controlVersion = 1)
    (hcut : r.controlVersion ≠ 1 → r'.controlVersion ≠ 1 ∧
      (∀ x ∈ es, x.eventType.output = false) ∧ e.eventType.output = false ∧
      m'.content = m.content ∧ m'.answerMode = m.answerMode ∧ m'.citations = m.citations) :
    Ok S ⟨some r', some m', extend s.log n (es ++ [e]), b, s.votes, s.windows⟩ ∧
      Moves S True vote s
        ⟨some r', some m', extend s.log n (es ++ [e]), b, s.votes, s.windows⟩ := by
  obtain ⟨k, hd⟩ := h.dense
  obtain rfl := hn.unique hd.top
  have hterminal : e.eventType.terminal = true := by
    rw [he]
    revert hterm
    cases r'.status <;> simp [GenerationStatus.event, GenerationStatus.terminal,
      EventType.terminal]
  have hold : ∀ q x, s.log q = some x → x.eventType.terminal = false := by
    intro q x hx
    by_contra ht
    have := (h.ended r hr).mpr ⟨q, x, hx, by simpa using ht⟩
    rw [hlive] at this
    cases this
  -- the only terminal event is the last one
  have hlast : ∀ q x, extend s.log n (es ++ [e]) q = some x → x.eventType.terminal = true →
      q = n + es.length + 1 ∧ x = e := by
    intro q x hx ht
    rcases extend_cases hx with ⟨-, hx⟩ | ⟨hq, hx⟩
    · rw [hold q x hx] at ht
      cases ht
    · by_cases hlt : q - n - 1 < es.length
      · rw [List.getElem?_append_left hlt] at hx
        rw [hes x (List.mem_of_getElem? hx)] at ht
        cases ht
      · rw [List.getElem?_append_right (by omega)] at hx
        have hq' : q - n - 1 - es.length = 0 := by
          have := (List.getElem?_eq_some_iff.mp hx).1
          simpa using this
        rw [hq'] at hx
        exact ⟨by omega, (some.inj hx).symm⟩
  have hat : extend s.log n (es ++ [e]) (n + es.length + 1) = some e := by
    unfold extend
    rw [if_neg (by omega), List.getElem?_append_right (by omega)]
    have : n + es.length + 1 - n - 1 - es.length = 0 := by omega
    rw [this]
    rfl
  obtain ⟨hwin, hvoted, hvote, hvoter⟩ := hpair.ok h
  refine ⟨{ dense := ⟨_, hd.longer⟩, absent := fun hg => (by cases hg), message := ?_,
            control := ?_, ended := ?_, last := ?_, outcome := ?_, settled := ?_, window := hwin,
            voted := hvoted, vote := hvote, voter := hvoter }, ?_⟩
  · rintro _ ⟨⟩
    exact ⟨m', rfl, hmsg⟩
  · rintro _ ⟨⟩
    exact hctrl
  · rintro _ ⟨⟩
    exact ⟨fun _ => ⟨_, e, hat, hterminal⟩, fun _ => hterm⟩
  · intro q x hx ht q' x' hq hx'
    obtain ⟨rfl, -⟩ := hlast q x hx ht
    have hlonger : Dense (extend s.log n (es ++ [e])) _ := hd.longer
    have hlen := (hlonger q').mp
      (by rw [show extend s.log n (es ++ [e]) q' = some x' from hx']; rfl)
    simp only [length_append, length_cons, length_nil] at hlen
    omega
  · rintro - _ ⟨⟩ q x hx ht
    obtain ⟨-, rfl⟩ := hlast q x hx ht
    exact he
  · intro p hp hst
    refine ⟨r', rfl, hterm, ?_⟩
    rcases hst with hst | hst
    · exact hopen p hp hst
    · rcases hpair with rfl | ⟨p₁, p', -, rfl, hres⟩
      · exact absurd hst (h.unsettled hr hlive hp).2
      · cases hp
        rcases hres.status with h | h <;> rw [h] at hst <;> cases hst
  · refine { kept := fun hk => absurd trivial hk, log := fun q x hx => hn.extend_old hx,
             pair := hpair.moves vote, votes := fun _ _ hx => hx, unvoted := fun _ => rfl,
             windows := fun _ hw => hw, row := ?_, cutOff := ?_ }
    · intro r₁ hr₁
      cases hr.symm.trans hr₁
      refine ⟨r', rfl, fun _ => hterm, fun hc => (hcut hc).1, fun _ ht => ?_⟩
      rw [hlive] at ht
      cases ht
    · intro _ r₁ hr₁ hc
      cases hr.symm.trans hr₁
      obtain ⟨-, h1, h2, h3⟩ := hcut hc
      refine ⟨fun q x hx ho => ?_, fun m₁ hm₁ => ?_⟩
      · rcases extend_mem hx with hx | hx
        · exact hx
        · rcases mem_append.mp hx with hx | hx
          · rw [h1 x hx] at ho
            cases ho
          · rw [mem_singleton.mp hx, h2] at ho
            cases ho
      · cases hm.symm.trans hm₁
        exact ⟨m', rfl, h3⟩

/-- The defect: a failure is written over a generation that has ended. -/
theorem Ok.overwrite (h : Ok S s) {m : MessageRow} (hr : s.gen = some r) (hm : s.msg = some m)
    (hterm : r.status.terminal = true) (hst : r'.status = .failed)
    (hc : r'.controlVersion = r.controlVersion) (hS : S.recovery → r.status = .failed)
    (hmsg : m'.status = .failed) (hcontent : m'.content = m.content)
    (hmode : m'.answerMode = m.answerMode) (hcit : m'.citations = m.citations)
    (hpair : Settles S s.pair b) (hopen : ∀ p, b = some p → p.status = .opened → b = s.pair) :
    Ok S ⟨some r', some m', s.log, b, s.votes, s.windows⟩ ∧
      Moves S True vote s ⟨some r', some m', s.log, b, s.votes, s.windows⟩ := by
  have hterm' : r'.status.terminal = true := by rw [hst]; rfl
  obtain ⟨hwin, hvoted, hvote, hvoter⟩ := hpair.ok h
  refine ⟨{ dense := h.dense, absent := fun hg => (by cases hg), last := h.last, window := hwin,
            voted := hvoted, vote := hvote, voter := hvoter, message := ?_, control := ?_,
            ended := ?_, outcome := ?_, settled := ?_ }, ?_⟩
  · rintro _ ⟨⟩
    exact ⟨m', rfl, by rw [hmsg, hst]; rfl⟩
  · rintro _ ⟨⟩
    exact ⟨by simp [hst], by simp [hst], by simp [hst]⟩
  · rintro _ ⟨⟩
    rw [hterm', ← h.ended r hr, hterm]
  · rintro hrec _ ⟨⟩ q e he ht
    rw [hst, ← hS hrec]
    exact h.outcome hrec r hr q e he ht
  · intro p hp hps
    rcases hpair with rfl | ⟨p₁, p', hp₁, rfl, hres⟩
    · obtain ⟨r₁, hr₁, -, h1⟩ := h.settled p hp hps
      cases hr.symm.trans hr₁
      exact ⟨r', rfl, hterm', hc.trans h1⟩
    · obtain rfl := some.inj hp
      rcases hps with ho | hv
      · obtain ⟨r₁, hr₁, -, h1⟩ := h.settled p' (hopen p' rfl ho).symm (.inl ho)
        cases hr.symm.trans hr₁
        exact ⟨r', rfl, hterm', hc.trans h1⟩
      · rcases hres.status with h | h <;> rw [h] at hv <;> cases hv
  · refine { kept := fun hk => absurd trivial hk, log := fun _ _ hx => hx,
             pair := hpair.moves vote, votes := fun _ _ hx => hx, unvoted := fun _ => rfl,
             windows := fun _ hw => hw, row := ?_, cutOff := ?_ }
    · intro r₁ hr₁
      cases hr.symm.trans hr₁
      exact ⟨r', rfl, fun _ => hterm', fun h1 => by rwa [hc],
        fun hrec _ => hst.trans (hS hrec).symm⟩
    · intro _ r₁ hr₁ _
      refine ⟨fun _ _ hx _ => hx, fun m₁ hm₁ => ?_⟩
      cases hm.symm.trans hm₁
      exact ⟨m', rfl, hcontent, hmode, hcit⟩

/-- A pair expires that was not voted. -/
theorem Ok.expire (h : Ok S s) {p' : PairRow} (hp : s.pair = some p) (hw : p'.windowId = p.windowId)
    (hvoted : p'.voted = p.voted) (hchoice : p'.choice = p.choice) (hst : p'.status = .expired)
    (hnot : p.status ≠ .voted) :
    Ok S { s with pair := some p' } ∧ Moves S locked vote s { s with pair := some p' } := by
  have hres : Resolves S p p' := ⟨hw, hvoted, hchoice, fun _ => hnot, .inl hst, by simp [hst]⟩
  have hset : Settles S s.pair (some p') := .inr ⟨p, p', hp, rfl, hres⟩
  obtain ⟨hwin, hvoted, hvote, hvoter⟩ := hset.ok h
  refine ⟨{ h with absent := ?_, settled := ?_, window := hwin, voted := hvoted, vote := hvote,
                   voter := hvoter }, { Moves.refl S locked vote s with pair := hset.moves vote }⟩
  · intro hg
    have := (h.absent hg).2.1
    rw [hp] at this
    cases this
  · rintro _ ⟨⟩ ho
    rcases ho with ho | ho <;> rw [hst] at ho <;> cases ho

/-- A generation is created. -/
theorem Ok.create (h : Ok S s) {m : MessageRow} {es : List EventRow} (hg : s.gen = none)
    (hst : r.status = .running) (hc : r.controlVersion = 1) (hmsg : m.status = .generating)
    (hes : ∀ x ∈ es, x.eventType.terminal = false)
    (hpair : ∀ p, b = some p → p.status = .pending ∧ p.voted = false ∧
      ∀ w, p.windowId = some w → s.windows w) :
    Ok S ⟨some r, some m, extend s.log 0 es, b, s.votes, s.windows⟩ ∧
      Moves S True vote s ⟨some r, some m, extend s.log 0 es, b, s.votes, s.windows⟩ := by
  obtain ⟨hlog, hp, hv⟩ := h.absent hg
  have hlog' : ∀ q x, extend s.log 0 es q = some x → x.eventType.terminal = false := by
    intro q x hx
    rcases extend_mem hx with hx | hx
    · rw [hlog] at hx
      cases hx
    · exact hes x hx
  have hd : Dense s.log 0 := by
    intro q
    rw [hlog q]
    simp only [isSome_none, Bool.false_eq_true, false_iff]
    omega
  refine ⟨{ dense := ⟨_, hd.longer⟩, absent := fun h => (by cases h), message := ?_,
            control := ?_, ended := ?_, last := ?_, outcome := ?_, settled := ?_, window := ?_,
            voted := ?_, vote := ?_, voter := ?_ }, ?_⟩
  · rintro _ ⟨⟩
    exact ⟨m, rfl, by rw [hmsg, hst]; rfl⟩
  · rintro _ ⟨⟩
    exact ⟨fun _ => hc, by simp [hst], by simp [hst]⟩
  · rintro _ ⟨⟩
    refine iff_of_false (by rw [hst]; decide) ?_
    rintro ⟨q, x, hx, ht⟩
    rw [hlog' q x hx] at ht
    cases ht
  · intro q x hx ht
    rw [hlog' q x hx] at ht
    cases ht
  · intro _ _ _ q x hx ht
    rw [hlog' q x hx] at ht
    cases ht
  · intro p hp ho
    rcases ho with ho | ho <;> rw [(hpair p hp).1] at ho <;> cases ho
  · exact fun p w hp hw => (hpair p hp).2.2 w hw
  · intro _ p hp
    rw [(hpair p hp).1, (hpair p hp).2.1]
    simp
  · intro _ u x hx
    exact absurd ((hv u).symm.trans hx) (by simp)
  · intro _ p hp ho
    rw [(hpair p hp).1] at ho
    cases ho
  · refine { kept := fun hk => absurd trivial hk, votes := fun _ _ hx => hx,
             unvoted := fun _ => rfl, windows := fun _ hw => hw, row := ?_, log := ?_,
             cutOff := ?_, pair := ?_ }
    · intro r₁ hr₁
      exact absurd (hg.symm.trans hr₁) (by simp)
    · intro q x hx
      exact absurd ((hlog q).symm.trans hx) (by simp)
    · intro _ r₁ hr₁
      exact absurd (hg.symm.trans hr₁) (by simp)
    · intro p hp'
      exact absurd (hp.symm.trans hp') (by simp)

/-- A vote on an open pair. -/
theorem Ok.cast (h : Ok S s) {u : String} {x : VoteRow} {p' : PairRow} {m : MessageRow}
    (hp : s.pair = some p) (ho : p.status = .opened) (hnew : s.votes u = none) (hm : s.msg = some m)
    (hst : m'.status = m.status) (hw : p'.windowId = p.windowId) (hps : p'.status = .voted)
    (hvoted : p'.voted = true) (hchoice : p'.choice = some x.choice) :
    Ok S { s with msg := some m', pair := some p', votes := update s.votes u (some x) } ∧
      Moves S locked True s
        { s with msg := some m', pair := some p', votes := update s.votes u (some x) } := by
  obtain ⟨r, hr, hterm, hc⟩ := h.settled p hp (.inl ho)
  -- nobody has voted on an open pair
  have hnone : S.discard → ∀ u', s.votes u' = none := by
    intro hd u'
    cases hu : s.votes u' with
    | none => rfl
    | some y =>
      obtain ⟨p₁, hp₁, hv, -⟩ := h.vote hd u' y hu
      cases hp.symm.trans hp₁
      rw [ho] at hv
      cases hv
  have honly : S.discard → ∀ u' y, update s.votes u (some x) u' = some y →
      u' = u ∧ y = x := by
    intro hd u' y hy
    by_cases hu : u' = u
    · subst hu
      rw [update_self] at hy
      exact ⟨rfl, (some.inj hy).symm⟩
    · rw [update_of_ne hu, hnone hd] at hy
      cases hy
  refine ⟨{ h with absent := fun hg => absurd (hr.symm.trans hg) (by simp), message := ?_,
                   settled := ?_, window := ?_, voted := ?_, vote := ?_, voter := ?_ }, ?_⟩
  · intro r₁ hr₁
    obtain ⟨m₁, hm₁, h₁⟩ := h.message r₁ hr₁
    cases hm.symm.trans hm₁
    exact ⟨m', rfl, hst.trans h₁⟩
  · rintro _ ⟨⟩ -
    exact ⟨r, hr, hterm, hc⟩
  · rintro _ w ⟨⟩ hpw
    exact h.window p w hp (hw ▸ hpw)
  · rintro - _ ⟨⟩
    exact iff_of_true hvoted hps
  · intro hd u' y hy
    obtain ⟨-, rfl⟩ := honly hd u' y hy
    exact ⟨p', rfl, hps, hchoice⟩
  · rintro hd _ ⟨⟩ -
    refine ⟨u, by simp, fun u' hu' => ?_⟩
    obtain ⟨y, hy⟩ := isSome_iff_exists.mp hu'
    exact (honly hd u' y hy).1
  · refine { Moves.refl S locked True s with
      kept := ?_, cutOff := ?_, pair := ?_, votes := ?_, unvoted := fun hk => absurd trivial hk }
    · intro _
      refine ⟨rfl, rfl, ?_⟩
      rw [hm]
      exact congrArg some hst
    · intro _ r₁ hr₁ hc₁
      cases hr.symm.trans hr₁
      exact absurd hc hc₁
    · intro p₁ hp₁
      cases hp.symm.trans hp₁
      refine ⟨p', rfl, hw, fun _ _ => .inr (.inr (.inr ⟨trivial, hps, .inr ho⟩))⟩
    · intro u' y hy
      have hu : u' ≠ u := by
        rintro rfl
        rw [hnew] at hy
        cases hy
      show update s.votes u (some x) u' = some y
      rw [update_of_ne hu]
      exact hy

end RagQs.Chat
