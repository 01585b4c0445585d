import RagQs.Chat.LifecycleRuns

/-!
# The event stream

A stream replays the events of a generation after the number its client received last, and then
polls for more until it has sent a terminal event or its subscription lease is lost.  The clicks
share the log but are not sent.

The log grows at its end only, so that whatever a chain of streams delivers is the log without
its clicks.  A stream ends when it reads a terminal event: one that is opened at the terminal
event, or after it, reads nothing and polls on.

## Main definitions

* `listEventsAfter`, `openStream`, `Stream.poll` — what a stream reads and sends.
* `stream`, `reconnects` — a stream and a chain of streams, while the system runs.
* `Replays` — the events after a number, in order, without a gap.

## Main results

* `stream_replay` — what a chain of streams delivers, and which streams end.
* `stream_past_terminal` — a stream that never ends.
-/

namespace RagQs.Chat

open Txn List Option

variable {env : Env} {g : String}
variable {v : Db} {s t : System}

/-! ### What a stream reads and sends -/

/-- An event as a stream reads it. -/
structure StoredEvent where
  seq : ℕ
  eventType : EventType
  data : JsonObject

/-- `list_events_after` -/
def listEventsAfter (v : Db) (generationId : String) (afterSeq : ℕ) : List StoredEvent :=
  (((eventsOf v generationId).filter fun e =>
      afterSeq < e.1 ∧ e.2.eventType ≠ .citationClick).insertionSort fun x y => x.1 ≤ y.1).map
    fun e => ⟨e.1, e.2.eventType, e.2.data⟩

/-- What is sent: `sse_frame` and `sse_comment`. -/
inductive Frame
  | event (e : StoredEvent)
  | comment (text : String)

/-- The event of a frame. -/
def Frame.event? : Frame → Option StoredEvent
  | .event e => some e
  | .comment _ => none

/-- A stream between two polls: the largest number it has sent, and whether it has returned. -/
structure Stream where
  lastSeq : ℕ
  returned : Bool

/-- What the check of the heartbeat does after a poll. -/
inductive Heartbeat
  | notDue
  | renewed
  | lost

/-- The events of a poll are sent; the stream returns when the last one is a terminal event. -/
def Stream.send (x : Stream) (events : List StoredEvent) : Stream where
  lastSeq := events.foldl (fun n e => max n e.seq) x.lastSeq
  returned := events.getLast?.any (·.eventType.terminal)

/-- One round of the loop of `stream`. -/
def Stream.poll (v : Db) (generationId : String) (heartbeat : Heartbeat) (x : Stream) :
    Stream × List Frame :=
  let events := listEventsAfter v generationId x.lastSeq
  let sent := x.send events
  if sent.returned then (sent, events.map .event)
  else match heartbeat with
    | .notDue => (sent, events.map .event)
    | .renewed => (sent, events.map .event ++ [.comment "keep-alive"])
    | .lost => ({ sent with returned := true }, events.map .event)

/-- `_open`: the replay of a generation for its owner.  The subscription lease it inserts is a
transaction of the system. -/
def openStream (userId : String) (verified : Except Err Unit) (v : Db) (generationId : String)
    (lastSeq : ℕ) : Except Err (List StoredEvent) := do
  verified
  match (v.get (.generation generationId) : Option GenerationRow) with
  | none => .error generationNotFound
  | some r =>
    if r.ownerUserId ≠ userId then .error generationNotFound
    else .ok (listEventsAfter v generationId lastSeq)

/-! ### Streams while the system runs -/

/-- One round of a stream: what the system does before it, and its heartbeat. -/
structure Poll where
  moves : List (Move Op)
  heartbeat : Heartbeat

/-- A call of `stream`: who calls, what the system does before it opens, and its rounds. -/
structure Call where
  userId : String
  verified : Except Err Unit
  moves : List (Move Op)
  polls : List Poll

/-- No check of a heartbeat finds the lease lost. -/
def Kept (ps : List Poll) : Prop := ∀ p ∈ ps, p.heartbeat ≠ .lost

/-- The rounds of a stream that has been opened. -/
def Stream.polls (env : Env) (generationId : String) :
    System → Stream → List Poll → Option (System × Stream × List Frame)
  | s, x, [] => some (s, x, [])
  | s, x, p :: ps => do
    let s ← run (body env) s p.moves
    let (x, frames) :=
      if x.returned then (x, []) else x.poll s.db generationId p.heartbeat
    let (t, y, rest) ← Stream.polls env generationId s x ps
    pure (t, y, frames ++ rest)

/-- `stream`: it raises, and has sent nothing, or it is as far as its rounds have brought it. -/
def stream (env : Env) (generationId : String) (s : System) (lastEventId : ℕ) (c : Call) :
    Option (System × Except Err Stream × List Frame) := do
  let s ← run (body env) s c.moves
  match openStream c.userId c.verified s.db generationId lastEventId with
  | .error e => pure (s, .error e, [])
  | .ok replay =>
    let (t, x, rest) ←
      Stream.polls env generationId s (Stream.send ⟨lastEventId, false⟩ replay) c.polls
    pure (t, .ok x, replay.map .event ++ rest)

/-- The number of the last event a client received. -/
def lastReceived (n : ℕ) (es : List StoredEvent) : ℕ := (es.getLast?.map (·.seq)).getD n

/-- A chain of streams, each with how many of its frames the client receives before it is cut
off, and the events the client receives. -/
def reconnects (env : Env) (generationId : String) :
    System → ℕ → List (Call × ℕ) → Option (System × List StoredEvent)
  | s, _, [] => some (s, [])
  | s, lastEventId, (c, received) :: cs => do
    let (s, _, frames) ← stream env generationId s lastEventId c
    let es := (frames.take received).filterMap Frame.event?
    let (t, rest) ← reconnects env generationId s (lastReceived lastEventId es) cs
    pure (t, es ++ rest)

/-! ### Replays of a log -/

/-- The events of a log after `n` without the clicks, up to the last of `es`, are `es`: in
order, none missing and none twice. -/
structure Replays (log : ℕ → Option EventRow) (n : ℕ) (es : List StoredEvent) : Prop where
  sorted : es.Pairwise fun a b => a.seq < b.seq
  mem : ∀ e, e ∈ es ↔ n < e.seq ∧ e.seq ≤ lastReceived n es ∧
    log e.seq = some ⟨e.eventType, e.data⟩ ∧ e.eventType ≠ .citationClick

section Replays

variable {log log' : ℕ → Option EventRow} {n : ℕ} {es es' : List StoredEvent} {e : StoredEvent}

@[simp] theorem lastReceived_nil (n : ℕ) : lastReceived n [] = n := rfl

theorem lastReceived_concat (n : ℕ) (es : List StoredEvent) (e : StoredEvent) :
    lastReceived n (es ++ [e]) = e.seq := by
  unfold lastReceived
  rw [List.getLast?_concat]
  rfl

theorem lastReceived_append (n : ℕ) (es es' : List StoredEvent) :
    lastReceived n (es ++ es') = lastReceived (lastReceived n es) es' := by
  induction es' using reverseRecOn with
  | nil => rw [append_nil, lastReceived_nil]
  | append_singleton l e _ =>
    rw [← append_assoc, lastReceived_concat, lastReceived_concat]

theorem exists_lastReceived (h : es ≠ []) : ∃ e ∈ es, e.seq = lastReceived n es := by
  induction es using reverseRecOn with
  | nil => exact absurd rfl h
  | append_singleton l e _ =>
    exact ⟨e, mem_append_right _ (mem_singleton_self e),
      (lastReceived_concat n l e).symm⟩

theorem le_lastReceived (h : es.Pairwise fun a b => a.seq < b.seq) (he : e ∈ es) :
    e.seq ≤ lastReceived n es := by
  induction es using reverseRecOn with
  | nil => cases he
  | append_singleton l x _ =>
    rw [lastReceived_concat]
    rcases mem_append.mp he with he | he
    · exact ((pairwise_append.mp h).2.2 e he x (mem_singleton_self x)).le
    · rw [mem_singleton.mp he]

theorem Replays.nil (log : ℕ → Option EventRow) (n : ℕ) : Replays log n [] where
  sorted := .nil
  mem e := by
    rw [lastReceived_nil]
    constructor
    · rintro ⟨⟩
    · rintro ⟨h, h', -⟩
      omega

theorem Replays.le (h : Replays log n es) : n ≤ lastReceived n es := by
  by_cases hne : es = []
  · rw [hne, lastReceived_nil]
  · obtain ⟨e, he, hlast⟩ := exists_lastReceived (n := n) hne
    have := ((h.mem e).mp he).1
    omega

theorem Replays.append (h : Replays log n es) (h' : Replays log (lastReceived n es) es') :
    Replays log n (es ++ es') where
  sorted := by
    refine pairwise_append.mpr ⟨h.sorted, h'.sorted, fun a ha b hb => ?_⟩
    have := ((h.mem a).mp ha).2.1
    have := ((h'.mem b).mp hb).1
    omega
  mem e := by
    have hle := h.le
    have hle' := h'.le
    rw [mem_append, h.mem, h'.mem, lastReceived_append]
    constructor
    · rintro (⟨h₁, h₂, h₃⟩ | ⟨h₁, h₂, h₃⟩)
      · exact ⟨h₁, by omega, h₃⟩
      · exact ⟨by omega, h₂, h₃⟩
    · rintro ⟨h₁, h₂, h₃⟩
      rcases Nat.lt_or_ge (lastReceived n es) e.seq with hlt | hge
      · exact .inr ⟨hlt, h₂, h₃⟩
      · exact .inl ⟨h₁, hge, h₃⟩

theorem Replays.left (h : Replays log n (es ++ es')) : Replays log n es where
  sorted := (pairwise_append.mp h.sorted).1
  mem e := by
    obtain ⟨hsorted, -, hbefore⟩ := pairwise_append.mp h.sorted
    constructor
    · intro he
      obtain ⟨h₁, -, h₃⟩ := (h.mem e).mp (mem_append_left _ he)
      exact ⟨h₁, le_lastReceived hsorted he, h₃⟩
    · rintro ⟨h₁, h₂, h₃⟩
      have hne : es ≠ [] := by
        rintro rfl
        rw [lastReceived_nil] at h₂
        omega
      obtain ⟨x, hx, hlast⟩ := exists_lastReceived (n := n) hne
      have hxle := ((h.mem x).mp (mem_append_left _ hx)).2.1
      rcases mem_append.mp ((h.mem e).mpr ⟨h₁, by omega, h₃⟩) with he | he
      · exact he
      · have := hbefore x hx e he
        omega

theorem Replays.later {N : ℕ} (h : Replays log n es) (hlog : ∀ q e, log q = some e → log' q = some e)
    (hdense : Dense log N) : Replays log' n es where
  sorted := h.sorted
  mem e := by
    rw [h.mem]
    refine and_congr_right fun h₁ => and_congr_right fun h₂ => and_congr_left fun _ => ?_
    refine ⟨hlog _ _, fun he => ?_⟩
    have hne : es ≠ [] := by
      rintro rfl
      rw [lastReceived_nil] at h₂
      omega
    -- the last event sent was in the log, and so is every number before it
    obtain ⟨x, hx, hlast⟩ := exists_lastReceived (n := n) hne
    have hxin := (hdense x.seq).mp (by rw [((h.mem x).mp hx).2.2.1]; rfl)
    obtain ⟨e', he'⟩ := isSome_iff_exists.mp ((hdense e.seq).mpr ⟨by omega, by omega⟩)
    rw [he', ← he]
    exact (hlog _ _ he').symm

end Replays

/-! ### What a poll reads -/

theorem mem_listEventsAfter {n : ℕ} {e : StoredEvent} :
    e ∈ listEventsAfter v g n ↔ n < e.seq ∧ (snap v g).log e.seq = some ⟨e.eventType, e.data⟩ ∧
      e.eventType ≠ .citationClick := by
  unfold listEventsAfter
  rw [List.mem_map]
  constructor
  · rintro ⟨⟨q, r⟩, hmem, rfl⟩
    rw [mem_insertionSort, mem_filter, mem_eventsOf] at hmem
    obtain ⟨hlog, hcond⟩ := hmem
    obtain ⟨hlt, hclick⟩ := of_decide_eq_true hcond
    exact ⟨hlt, hlog, hclick⟩
  · rintro ⟨hlt, hlog, hclick⟩
    refine ⟨(e.seq, ⟨e.eventType, e.data⟩), ?_, rfl⟩
    rw [mem_insertionSort, mem_filter, mem_eventsOf]
    exact ⟨hlog, decide_eq_true ⟨hlt, hclick⟩⟩

theorem nodup_eventsOf (v : Db) (g : String) : ((eventsOf v g).map Prod.fst).Nodup := by
  refine nodup_table fun k r b k' r' b' hb hb' heq => ?_
  cases k with
  | event g₁ q =>
    cases k' with
    | event g₂ q' =>
      simp only [ite_none_right_eq_some, some.injEq] at hb hb'
      obtain ⟨rfl, rfl⟩ := hb
      obtain ⟨rfl, rfl⟩ := hb'
      rw [show q = q' from heq]
    | _ => cases hb'
  | _ => cases hb

theorem pairwise_listEventsAfter (v : Db) (g : String) (n : ℕ) :
    (listEventsAfter v g n).Pairwise fun a b => a.seq < b.seq := by
  let read := (eventsOf v g).filter fun e => n < e.1 ∧ e.2.eventType ≠ .citationClick
  have hperm := perm_insertionSort (fun x y : ℕ × EventRow => x.1 ≤ y.1) read
  have hnodup : read.Pairwise fun a b => a.1 ≠ b.1 :=
    (pairwise_map.mp (nodup_eventsOf v g)).filter _
  have hsorted := pairwise_insertionSort (fun x y : ℕ × EventRow => x.1 ≤ y.1) read
  unfold listEventsAfter
  refine pairwise_map.mpr ?_
  refine (hsorted.and ((hperm.pairwise_iff fun h => h.symm).mpr hnodup)).imp ?_
  rintro a b ⟨hle, hne⟩
  exact Nat.lt_of_le_of_ne hle hne

theorem replays_listEventsAfter (v : Db) (g : String) (n : ℕ) :
    Replays (snap v g).log n (listEventsAfter v g n) where
  sorted := pairwise_listEventsAfter v g n
  mem e := by
    rw [mem_listEventsAfter]
    refine and_congr_right fun h₁ => ⟨fun h => ⟨?_, h⟩, fun h => h.2⟩
    exact le_lastReceived (pairwise_listEventsAfter v g n) (mem_listEventsAfter.mpr ⟨h₁, h⟩)

theorem foldl_max {n : ℕ} {es : List StoredEvent} (h : es.Pairwise fun a b => a.seq < b.seq)
    (hn : ∀ e ∈ es, n < e.seq) : es.foldl (fun n e => max n e.seq) n = lastReceived n es := by
  induction es using reverseRecOn with
  | nil => rfl
  | append_singleton l x ih =>
    obtain ⟨hl, -, hbefore⟩ := pairwise_append.mp h
    rw [foldl_append, ih hl fun e he => hn e (mem_append_left _ he), lastReceived_concat]
    refine Nat.max_eq_right ?_
    by_cases hne : l = []
    · rw [hne, lastReceived_nil]
      exact (hn x (mem_append_right _ (mem_singleton_self x))).le
    · obtain ⟨e, he, hlast⟩ := exists_lastReceived (n := n) hne
      rw [← hlast]
      exact (hbefore e he x (mem_singleton_self x)).le

theorem terminal_getLast {S : Strict} {n : ℕ} (h : Ok S (snap v g)) :
    (listEventsAfter v g n).getLast?.any (·.eventType.terminal) = true ↔
      ∃ e ∈ listEventsAfter v g n, e.eventType.terminal = true := by
  rw [Option.any_eq_true]
  constructor
  · rintro ⟨e, he, ht⟩
    exact ⟨e, List.mem_of_getLast? he, ht⟩
  · rintro ⟨e, he, ht⟩
    obtain ⟨l, x, hl⟩ : ∃ l x, listEventsAfter v g n = l ++ [x] := by
      refine (eq_nil_or_concat' _).resolve_left fun hnil => ?_
      rw [hnil] at he
      cases he
    refine ⟨x, by rw [hl, List.getLast?_concat], ?_⟩
    rw [hl] at he
    rcases mem_append.mp he with hel | hex
    · -- an event after the terminal one would be a click
      have hsorted := pairwise_listEventsAfter v g n
      rw [hl] at hsorted
      have hlt := (pairwise_append.mp hsorted).2.2 e hel x (mem_singleton_self x)
      have hxmem : x ∈ listEventsAfter v g n := by
        rw [hl]
        exact mem_append_right _ (mem_singleton_self x)
      have hemem : e ∈ listEventsAfter v g n := by
        rw [hl]
        exact he
      obtain ⟨-, hxlog, hclick⟩ := mem_listEventsAfter.mp hxmem
      obtain ⟨-, helog, -⟩ := mem_listEventsAfter.mp hemem
      exact absurd (h.last _ _ helog ht _ _ hlt hxlog) hclick
    · rw [← mem_singleton.mp hex]
      exact ht

/-! ### What a stream has sent -/

/-- What a stream has sent once it has polled the log: everything after `n`, and a terminal event
exactly when it has returned, unless `L` ended it. -/
structure Sent (L : Prop) (log : ℕ → Option EventRow) (n : ℕ) (x : Stream)
    (es : List StoredEvent) : Prop where
  replays : Replays log n es
  lastSeq : x.returned = false → x.lastSeq = lastReceived n es
  going : x.returned = false → ∀ e ∈ es, e.eventType.terminal = false
  current : x.returned = false → ∀ q r, log q = some r → n < q →
    r.eventType ≠ .citationClick → ∃ e ∈ es, e.seq = q
  returned : x.returned = true → (∃ e ∈ es, e.eventType.terminal = true) ∨ L

variable {S : Strict} {L : Prop} {n : ℕ} {x : Stream} {es : List StoredEvent}

theorem Sent.mono {L' : Prop} {log : ℕ → Option EventRow} (h : Sent L log n x es) (hL : L → L') :
    Sent L' log n x es :=
  { h with returned := fun hx => (h.returned hx).imp id hL }

theorem Sent.send (h : Ok S (snap v g)) (hes : Replays (snap v g).log n es)
    (hx : x.lastSeq = lastReceived n es) (hgoing : ∀ e ∈ es, e.eventType.terminal = false) :
    Sent False (snap v g).log n (x.send (listEventsAfter v g x.lastSeq))
      (es ++ listEventsAfter v g x.lastSeq) := by
  have hread := replays_listEventsAfter v g x.lastSeq
  have hlast : (x.send (listEventsAfter v g x.lastSeq)).lastSeq
      = lastReceived n (es ++ listEventsAfter v g x.lastSeq) := by
    rw [lastReceived_append, ← hx]
    exact foldl_max hread.sorted fun e he => ((hread.mem e).mp he).1
  have hreturned := terminal_getLast (n := x.lastSeq) h
  refine ⟨hes.append (by rw [← hx]; exact hread), fun _ => hlast, fun hsend e he => ?_,
    fun hsend q r hq hnq hclick => ?_, fun hsend => ?_⟩
  · rcases mem_append.mp he with he | he
    · exact hgoing e he
    · by_contra ht
      rw [Bool.not_eq_false] at ht
      exact absurd (hsend.symm.trans (hreturned.mpr ⟨e, he, ht⟩)) Bool.false_ne_true
  · rcases Nat.lt_or_ge x.lastSeq q with hlt | hge
    · exact ⟨⟨q, r.eventType, r.data⟩,
        mem_append_right _ (mem_listEventsAfter.mpr ⟨hlt, hq, hclick⟩), rfl⟩
    · exact ⟨⟨q, r.eventType, r.data⟩, mem_append_left _
        ((hes.mem _).mpr ⟨hnq, by rw [← hx]; exact hge, hq, hclick⟩), rfl⟩
  · obtain ⟨e, he, ht⟩ := hreturned.mp hsend
    exact .inl ⟨e, mem_append_right _ he, ht⟩

theorem Sent.poll {heartbeat : Heartbeat} (h : Ok S (snap v g)) (hes : Replays (snap v g).log n es)
    (hx : x.lastSeq = lastReceived n es) (hgoing : ∀ e ∈ es, e.eventType.terminal = false) :
    Sent (heartbeat = .lost) (snap v g).log n (x.poll v g heartbeat).1
      (es ++ (x.poll v g heartbeat).2.filterMap Frame.event?) := by
  have hsent := Sent.send h hes hx hgoing
  have hframes : ∀ l : List StoredEvent, (l.map Frame.event).filterMap Frame.event? = l := by
    intro l
    rw [filterMap_map]
    exact filterMap_some
  unfold Stream.poll
  dsimp only
  split
  · rw [hframes]
    exact hsent.mono False.elim
  · cases heartbeat with
    | notDue =>
      rw [hframes]
      exact hsent.mono False.elim
    | renewed =>
      rw [filterMap_append, hframes, show ([Frame.comment "keep-alive"].filterMap
        Frame.event?) = [] from rfl, append_nil]
      exact hsent.mono False.elim
    | lost =>
      rw [hframes]
      refine ⟨hsent.replays, ?_, ?_, ?_, fun _ => .inr rfl⟩ <;> rintro ⟨⟩

theorem chat_moves {ms : List (Move Op)} (hs : ChatOk Strict.none s)
    (hrun : run (body env) s ms = some t) :
    ChatOk Strict.none t ∧ ∀ q e, (snap s.db g).log q = some e → (snap t.db g).log q = some e := by
  have hI : Genuine Strict.none env s ms :=
    (opensRun_true (body env) ms s).mono fun _ _ _ h => h.elim
  obtain ⟨ht, hg⟩ := chat_run hs (permitted_of_not id id id s ms) hI hrun
  exact ⟨ht, (hg g).log⟩

theorem Replays.moves {ms : List (Move Op)} (hs : ChatOk Strict.none s)
    (hrun : run (body env) s ms = some t) (h : Replays (snap s.db g).log n es) :
    Replays (snap t.db g).log n es :=
  have ⟨_, hdense⟩ := (hs.inv.ok g).dense
  h.later (chat_moves hs hrun).2 hdense

theorem Sent.polls {ps : List Poll} : ∀ {s t : System} {x y : Stream} {frames : List Frame}
    {es : List StoredEvent} {L : Prop}, ChatOk Strict.none s → Sent L (snap s.db g).log n x es →
    Stream.polls env g s x ps = some (t, y, frames) →
    ChatOk Strict.none t ∧ (∀ q e, (snap s.db g).log q = some e → (snap t.db g).log q = some e) ∧
      Sent (L ∨ ¬ Kept ps) (snap t.db g).log n y (es ++ frames.filterMap Frame.event?) := by
  induction ps with
  | nil =>
    intro s t x y frames es L hs h hrun
    obtain ⟨⟩ := hrun
    rw [filterMap_nil, append_nil]
    exact ⟨hs, fun _ _ h => h, h.mono .inl⟩
  | cons p ps ih =>
    intro s t x y frames es L hs h hrun
    unfold Stream.polls at hrun
    obtain ⟨s', hs', hrun⟩ := bind_eq_some_iff.mp hrun
    obtain ⟨hok, hlog⟩ := chat_moves (g := g) hs hs'
    have hes : Replays (snap s'.db g).log n es := h.replays.moves hs hs'
    have hround : Sent (L ∨ p.heartbeat = .lost) (snap s'.db g).log n
        (if x.returned then (x, []) else x.poll s'.db g p.heartbeat).1
        (es ++ (if x.returned then (x, []) else x.poll s'.db g p.heartbeat).2.filterMap
          Frame.event?) := by
      cases hx : x.returned with
      | true =>
        rw [if_pos rfl, filterMap_nil, append_nil]
        refine ⟨hes, ?_, ?_, ?_, fun hr => (h.returned hr).imp id .inl⟩ <;>
          exact fun hr => absurd (hx.symm.trans hr) (by simp)
      | false =>
        rw [if_neg (by simp)]
        exact (Sent.poll (hok.inv.ok g) hes (h.lastSeq hx) (h.going hx)).mono .inr
    dsimp only at hrun
    obtain ⟨⟨t', y', rest⟩, hrest, hrun⟩ := bind_eq_some_iff.mp hrun
    obtain ⟨⟩ := hrun
    obtain ⟨ht, hlog', hsent⟩ := ih hok hround hrest
    refine ⟨ht, fun q e he => hlog' q e (hlog q e he), ?_⟩
    rw [filterMap_append, ← append_assoc]
    refine hsent.mono ?_
    rintro ((hL | hlost) | hkept)
    · exact .inl hL
    · exact .inr fun hk => hk p mem_cons_self hlost
    · exact .inr fun hk => hkept fun p' hp' => hk p' (mem_cons_of_mem _ hp')

theorem openStream_ok {userId : String} {verified : Except Err Unit} {n : ℕ}
    {replay : List StoredEvent} (h : openStream userId verified v g n = .ok replay) :
    replay = listEventsAfter v g n := by
  unfold openStream at h
  cases verified with
  | error e => cases h
  | ok u =>
    change (match (v.get (.generation g) : Option GenerationRow) with
      | none => Except.error generationNotFound
      | some r => if r.ownerUserId ≠ userId then .error generationNotFound
        else .ok (listEventsAfter v g n)) = .ok replay at h
    split at h
    · cases h
    · split at h
      · cases h
      · exact (Except.ok.inj h).symm

theorem sent_stream {c : Call} {o : Except Err Stream} {frames : List Frame}
    (hs : ChatOk Strict.none s) (h : stream env g s n c = some (t, o, frames)) :
    ChatOk Strict.none t ∧ (∀ q e, (snap s.db g).log q = some e → (snap t.db g).log q = some e) ∧
      Replays (snap t.db g).log n (frames.filterMap Frame.event?) ∧
      ∀ x, o = .ok x →
        Sent (¬ Kept c.polls) (snap t.db g).log n x (frames.filterMap Frame.event?) := by
  unfold stream at h
  obtain ⟨s', hs', h⟩ := bind_eq_some_iff.mp h
  obtain ⟨hok, hlog⟩ := chat_moves (g := g) hs hs'
  split at h
  · obtain ⟨⟩ := h
    exact ⟨hok, hlog, .nil _ _, fun x hx => by cases hx⟩
  · next replay hopen =>
    obtain rfl := openStream_ok hopen
    obtain ⟨⟨t', y, rest⟩, hpolls, h⟩ := bind_eq_some_iff.mp h
    obtain ⟨⟩ := h
    have hsent := Sent.send (x := ⟨n, false⟩) (hok.inv.ok g) (.nil _ n) rfl fun e he => by cases he
    obtain ⟨ht, hlog', hpolled⟩ := hsent.polls hok hpolls
    have hframes : ((listEventsAfter s'.db g n).map Frame.event ++ rest).filterMap Frame.event?
        = listEventsAfter s'.db g n ++ rest.filterMap Frame.event? := by
      rw [filterMap_append, filterMap_map]
      exact congrArg (· ++ _) filterMap_some
    rw [hframes]
    refine ⟨ht, fun q e he => hlog' q e (hlog q e he), hpolled.replays, ?_⟩
    rintro x ⟨⟩
    exact hpolled.mono (Or.resolve_left · id)

/-! ### Chains of streams -/

theorem replays_reconnects {cs : List (Call × ℕ)} : ∀ {s t : System} {n : ℕ}
    {es : List StoredEvent}, ChatOk Strict.none s → reconnects env g s n cs = some (t, es) →
    ChatOk Strict.none t ∧ (∀ q e, (snap s.db g).log q = some e → (snap t.db g).log q = some e) ∧
      Replays (snap t.db g).log n es := by
  induction cs with
  | nil =>
    intro s t n es hs h
    obtain ⟨⟩ := h
    exact ⟨hs, fun _ _ h => h, .nil _ _⟩
  | cons c cs ih =>
    obtain ⟨c, received⟩ := c
    intro s t n es hs h
    unfold reconnects at h
    obtain ⟨⟨s', o, frames⟩, hstream, h⟩ := bind_eq_some_iff.mp h
    obtain ⟨⟨t', rest⟩, hrest, h⟩ := bind_eq_some_iff.mp h
    obtain ⟨⟩ := h
    obtain ⟨hok, hlog, hsent, -⟩ := sent_stream hs hstream
    obtain ⟨ht, hlog', hreplays⟩ := ih hok hrest
    rw [← take_append_drop received frames, filterMap_append] at hsent
    obtain ⟨_, hdense⟩ := (hok.inv.ok g).dense
    exact ⟨ht, fun q e he => hlog' q e (hlog q e he),
      (hsent.left.later hlog' hdense).append hreplays⟩

theorem Replays.whole (h : Ok S (snap v g)) (hes : Replays (snap v g).log n es) {e : StoredEvent}
    (he : e ∈ es) (ht : e.eventType.terminal = true) : es = listEventsAfter v g n := by
  have : Std.Irrefl fun a b : StoredEvent => a.seq < b.seq := ⟨fun a => Nat.lt_irrefl a.seq⟩
  have : Std.Antisymm fun a b : StoredEvent => a.seq < b.seq :=
    ⟨fun a b hab hba => absurd hba (Nat.lt_asymm hab)⟩
  refine hes.sorted.eq_of_mem_iff (pairwise_listEventsAfter v g n) fun e' => ?_
  rw [hes.mem, mem_listEventsAfter]
  refine and_congr_right fun _ => ⟨fun h => h.2, fun h' => ⟨?_, h'⟩⟩
  obtain ⟨-, hle, helog, -⟩ := (hes.mem e).mp he
  by_contra hlt
  exact h'.2 (h.last _ _ helog ht _ _ (by omega) h'.1)

theorem Ok.terminal_unique {s : Snapshot} {q q' : ℕ} {e e' : EventRow} (h : Ok S s)
    (hq : s.log q = some e) (ht : e.eventType.terminal = true) (hq' : s.log q' = some e')
    (ht' : e'.eventType.terminal = true) : q' = q := by
  by_contra hne
  rcases Nat.lt_or_gt_of_ne hne with hlt | hlt
  · rw [h.last q' e' hq' ht' q e hlt hq] at ht
    cases ht
  · rw [h.last q e hq ht q' e' hlt hq'] at ht'
    cases ht'

theorem returned_iff {c : Call} {frames : List Frame} (hs : ChatOk Strict.none s)
    (h : stream env g s n c = some (t, .ok x, frames)) (hkept : Kept c.polls) :
    x.returned = true ↔ ∃ q r, (snap t.db g).log q = some r ∧ r.eventType.terminal = true ∧
      n < q := by
  obtain ⟨ht, -, -, hsent⟩ := sent_stream hs h
  have hsent := hsent x rfl
  constructor
  · intro hr
    obtain ⟨e, he, hterm⟩ := (hsent.returned hr).resolve_right fun hlost => hlost hkept
    obtain ⟨hlt, -, hlog, -⟩ := (hsent.replays.mem e).mp he
    exact ⟨e.seq, _, hlog, hterm, hlt⟩
  · rintro ⟨q, r, hq, hterm, hlt⟩
    by_contra hr
    rw [Bool.not_eq_true] at hr
    have hclick : r.eventType ≠ .citationClick := by
      intro hclick
      rw [hclick] at hterm
      cases hterm
    obtain ⟨e, he, rfl⟩ := hsent.current hr q r hq hlt hclick
    obtain ⟨-, -, hlog, -⟩ := (hsent.replays.mem e).mp he
    cases hq.symm.trans hlog
    exact absurd (hterm.symm.trans (hsent.going hr e he)) (by simp)

/-- The streams a user opens after an event end: there is a number of rounds after which each of
them has returned, whatever the system does, unless its lease is lost. -/
def Ends (env : Env) (generationId userId : String) (s : System) (lastEventId : ℕ) : Prop :=
  ∃ k, ∀ c : Call, c.userId = userId → k ≤ c.polls.length → Kept c.polls → ∀ t x frames,
    stream env generationId s lastEventId c = some (t, .ok x, frames) → x.returned = true

/-- A stream that polls while nothing happens. -/
def idle (userId : String) (k : ℕ) : Call := ⟨userId, .ok (), [], replicate k ⟨[], .renewed⟩⟩

theorem kept_idle (userId : String) (k : ℕ) : Kept (idle userId k).polls := by
  intro p hp
  rw [eq_of_mem_replicate hp]
  rintro ⟨⟩

theorem exists_stream_idle {r : GenerationRow} (hr : s.db.get (.generation g) = some r) (n k : ℕ) :
    ∃ x frames, stream env g s n (idle r.ownerUserId k) = some (s, .ok x, frames) := by
  have hpolls : ∀ k x, ∃ y frames, Stream.polls env g s x
      (replicate k ⟨[], .renewed⟩) = some (s, y, frames) := by
    intro k
    induction k with
    | zero => exact fun x => ⟨x, [], rfl⟩
    | succ k ih =>
      intro x
      obtain ⟨y, frames, h⟩ := ih
        (if x.returned then (x, []) else x.poll s.db g .renewed).1
      refine ⟨y, (if x.returned then (x, []) else x.poll s.db g .renewed).2 ++ frames, ?_⟩
      rw [replicate_succ]
      unfold Stream.polls
      rw [show run (body env) s [] = some s from rfl, bind_eq_bind, bind_some]
      dsimp only
      rw [h]
      rfl
  have hopen : openStream r.ownerUserId (.ok ()) s.db g n = .ok (listEventsAfter s.db g n) := by
    unfold openStream
    rw [hr]
    exact if_neg fun h => h rfl
  obtain ⟨y, frames, h⟩ := hpolls k (Stream.send ⟨n, false⟩ (listEventsAfter s.db g n))
  refine ⟨y, (listEventsAfter s.db g n).map .event ++ frames, ?_⟩
  unfold stream idle
  dsimp only
  rw [show run (body env) s [] = some s from rfl, bind_eq_bind, bind_some, hopen]
  dsimp only
  rw [h]
  rfl

theorem ends_iff {q : ℕ} {e : EventRow} {r : GenerationRow} (hs : ChatOk Strict.none s)
    (hq : s.db.get (.event g q) = some e) (ht : e.eventType.terminal = true)
    (hr : s.db.get (.generation g) = some r) : Ends env g r.ownerUserId s n ↔ n < q := by
  constructor
  · rintro ⟨k, hk⟩
    obtain ⟨x, frames, h⟩ : ∃ x frames,
        stream env g s n (idle r.ownerUserId k) = some (s, .ok x, frames) :=
      exists_stream_idle hr n k
    have hx := hk (idle r.ownerUserId k) rfl (by simp [idle]) (kept_idle _ k) _ _ _ h
    obtain ⟨q', r', hq', ht', hlt⟩ := (returned_iff hs h (kept_idle _ k)).mp hx
    rw [← (hs.inv.ok g).terminal_unique hq ht hq' ht']
    exact hlt
  · intro hlt
    refine ⟨0, fun c _ _ hkept t x frames h => (returned_iff hs h hkept).mpr ?_⟩
    obtain ⟨-, hlog, -⟩ := sent_stream hs h
    exact ⟨q, e, hlog q e hq, ht, hlt⟩

/-- **What a chain of streams delivers, and which streams end.**  In every run the events a client
receives over a chain of streams are the log after the number it started from, without the
clicks, in order, none missing and none twice, and all of them once it has received a terminal
event.  A stream whose lease is kept has returned when the terminal event comes after the number
it was opened with; with the terminal event committed, the streams that are opened end when that
number is less than the one of the terminal event. -/
theorem stream_replay {ms : List (Move Op)} {s : System}
    (hs : run (body env) (Sys.init ∅) ms = some s) (g : String) :
    (∀ n cs t es, reconnects env g s n cs = some (t, es) → Replays (snap t.db g).log n es ∧
      ((∃ e ∈ es, e.eventType.terminal = true) → es = listEventsAfter t.db g n)) ∧
    (∀ n c t x frames, stream env g s n c = some (t, .ok x, frames) → Kept c.polls →
      (x.returned = true ↔ ∃ q r, (snap t.db g).log q = some r ∧ r.eventType.terminal = true ∧
        n < q)) ∧
    ∀ q (e : EventRow) (r : GenerationRow), s.db.get (.event g q) = some e →
      e.eventType.terminal = true → s.db.get (.generation g) = some r →
      ∀ n, Ends env g r.ownerUserId s n ↔ n < q := by
  have hok : ChatOk Strict.none s := (chat_moves (g := g) (chatOk_init _) hs).1
  refine ⟨fun n cs t es h => ?_, fun n c t x frames h hkept => returned_iff hok h hkept,
    fun q e r hq ht hr n => ends_iff hok hq ht hr⟩
  obtain ⟨htok, -, hes⟩ := replays_reconnects hok h
  exact ⟨hes, fun ⟨e, he, ht⟩ => hes.whole (htok.inv.ok g) he ht⟩

/-- A client clicks on a citation while its generation runs. -/
def sampleClicked : List (Move Op) :=
  sampleStart ++ alone 3 (.click "u" "g" (.ok ()) []) 5

/-- The generation goes on, is stopped, and is clicked on again. -/
def sampleOn : List (Move Op) :=
  alone 4 (.delta sampleHeld false "a") 5 ++ alone 5 (.stop "u" "g" (.ok ())) 3

def sampleOver : List (Move Op) :=
  alone 6 (.fail sampleHeld false 5 ⟨"generation_state_conflict", "", []⟩) 10 ++
    alone 7 (.click "u" "g" (.ok ()) []) 5

/-- The client is cut off after the first event, and comes back. -/
def sampleChain : List (Call × ℕ) :=
  [(⟨"u", .ok (), [], [⟨sampleOn, .renewed⟩]⟩, 1),
    (⟨"u", .ok (), [], [⟨[], .notDue⟩, ⟨sampleOver, .renewed⟩]⟩, 5)]

theorem sampleOver_stopped : ∃ (s : System) (e : EventRow) (r : GenerationRow),
    run (body sampleEnv) (Sys.init ∅) (sampleClicked ++ sampleOn ++ sampleOver) = some s ∧
      s.db.get (.event "g" 4) = some e ∧ e.eventType.terminal = true ∧
      s.db.get (.generation "g") = some r ∧ r.ownerUserId = "u" := by
  have hrun : ((run (body sampleEnv) (Sys.init ∅) (sampleClicked ++ sampleOn ++ sampleOver)).bind
      fun s => (s.db.get (.event "g" 4)).bind fun e : EventRow =>
        (s.db.get (.generation "g")).map fun r : GenerationRow =>
          (e.eventType, r.ownerUserId)) = some (.stopped, "u") := by
    decide +kernel
  obtain ⟨s, hs, hrest⟩ := bind_eq_some_iff.mp hrun
  obtain ⟨e, he, hrest⟩ := bind_eq_some_iff.mp hrest
  obtain ⟨r, hr, hpair⟩ := map_eq_some_iff.mp hrest
  obtain ⟨het, hro⟩ := Prod.mk.inj hpair
  exact ⟨s, e, r, hs, he, by rw [het]; rfl, hr, hro⟩

theorem stream_replay_sample :
    (∃ (s t : System) (es : List StoredEvent),
      run (body sampleEnv) (Sys.init ∅) sampleClicked = some s ∧
      reconnects sampleEnv "g" s 0 sampleChain = some (t, es) ∧ es.map (·.seq) = [1, 3, 4] ∧
      Replays (snap t.db "g").log 0 es ∧ es = listEventsAfter t.db "g" 0) ∧
    ∃ s : System,
      run (body sampleEnv) (Sys.init ∅) (sampleClicked ++ sampleOn ++ sampleOver) = some s ∧
      Ends sampleEnv "g" "u" s 3 := by
  constructor
  · have hrun : ((run (body sampleEnv) (Sys.init ∅) sampleClicked).bind fun s =>
        (reconnects sampleEnv "g" s 0 sampleChain).map fun x =>
          (x.2.map (·.seq), x.2.any (·.eventType.terminal))) = some ([1, 3, 4], true) := by
      decide +kernel
    obtain ⟨s, hs, hrest⟩ := Option.bind_eq_some_iff.mp hrun
    obtain ⟨⟨t, es⟩, h, hpair⟩ := Option.map_eq_some_iff.mp hrest
    obtain ⟨hseq, hterm⟩ := Prod.mk.inj hpair
    obtain ⟨hes, hwhole⟩ := (stream_replay hs "g").1 0 sampleChain t es h
    exact ⟨s, t, es, hs, h, hseq, hes, hwhole (List.any_eq_true.mp hterm)⟩
  · obtain ⟨s, e, r, hs, he, ht, hr, hro⟩ := sampleOver_stopped
    refine ⟨s, hs, ?_⟩
    rw [← hro]
    exact ((stream_replay hs "g").2.2 4 e r he ht hr 3).mpr (by decide)

/-- **A stream that is opened at the terminal event never ends**: it reads nothing. -/
theorem stream_past_terminal :
    ¬ ∀ (env : Env) (ms : List (Move Op)) (s : System) (g : String) (q n : ℕ) (e : EventRow)
      (r : GenerationRow), run (body env) (Sys.init ∅) ms = some s →
      s.db.get (.event g q) = some e → e.eventType.terminal = true →
      s.db.get (.generation g) = some r → Ends env g r.ownerUserId s n := by
  intro h
  obtain ⟨s, e, r, hs, he, ht, hr, -⟩ := sampleOver_stopped
  have hok : ChatOk Strict.none s := (chat_moves (g := "g") (chatOk_init _) hs).1
  have hlt := (ends_iff hok he ht hr).mp (h sampleEnv _ s "g" 4 4 e r hs he ht hr)
  omega

end RagQs.Chat
