import RagQs.Chat.Events
import RagQs.Chat.Lifecycle
import RagQs.Txn.Triple
import Mathlib.Logic.Relation

/-!
# What a transaction does to a generation

The invariant of the chat tables and what a transaction may do to a generation with its lock and
without it, as a discipline.  A part of a transaction that works on one generation is described
by the relation between what the generation is seen as before it and after it; the relations of
the parts compose, and where the composed relation keeps the life of the generation the writes
may be committed.

## Main definitions

* `snap`, `tally` — a generation as the database shows it, and the voted pairs of a window.
* `chat` — the discipline.
* `Good` — the pending writes may be committed as they are.
* `Work`, `Changes` — the pending writes of a part of a transaction, and what the part does.

## Main results

* `Changes.bind` — parts of a transaction compose.
* `Changes.updateGeneration`, `Changes.updateMessage`, `Changes.updatePair`,
  `Changes.appendEvent`, … — what the statements do.
* `Changes.good` — a part that keeps the life of its generation.
-/

namespace RagQs.Chat

open Txn Discipline List Option Function Store AList

variable {v : Db} {k : Key}

/-! ### The database as it is seen -/

/-- A generation as the database shows it. -/
def snap (v : Db) (g : String) : Snapshot where
  gen := v.get (.generation g)
  msg := v.get (.message g)
  log q := v.get (.event g q)
  pair := v.get (.pair g)
  votes u := v.get (.vote g u)
  windows w := (v.get (.window w)).isSome = true

/-- What a row counts as a voted pair of a window. -/
def votedIn (windowId : String) : (k : Key) → Row k → ℕ
  | .pair _, (r : PairRow) => if r.windowId = some windowId ∧ r.voted = true then 1 else 0
  | _, _ => 0

/-- The voted pairs of a window. -/
def tally (v : Db) (windowId : String) : ℕ := Store.total (votedIn windowId) v

/-- The row shows in what a generation is seen as. -/
def Key.observed : Key → Bool
  | .generation _ | .message _ | .event _ _ | .pair _ | .vote _ _ | .window _ => true
  | _ => false

theorem snap_congr {v' : Db} {g : String}
    (h : ∀ k : Key, k.observed = true → k.owner = some g ∨ k.owner = none → v'.get k = v.get k) :
    snap v' g = snap v g := by
  unfold snap
  congr 1
  · exact h (.generation g) rfl (.inl rfl)
  · exact h (.message g) rfl (.inl rfl)
  · funext q
    exact h (.event g q) rfl (.inl rfl)
  · exact h (.pair g) rfl (.inl rfl)
  · funext u
    exact h (.vote g u) rfl (.inl rfl)
  · funext w
    rw [h (.window w) rfl (.inr rfl)]

theorem snap_set_unobserved (hk : k.observed = false) (r : Option (Row k)) (g : String) :
    snap (v.set k r) g = snap v g := by
  refine snap_congr fun k' hk' _ => get_set_of_ne ?_
  rintro rfl
  rw [hk] at hk'
  cases hk'

theorem snap_set_other {g g' : String} (hk : k.owner = some g) (hg : g' ≠ g) (r : Option (Row k)) :
    snap (v.set k r) g' = snap v g' := by
  refine snap_congr fun k' _ ho => get_set_of_ne ?_
  rintro rfl
  rcases ho with ho | ho <;> rw [hk] at ho
  · exact hg (some.inj ho).symm
  · cases ho

theorem get_set_window {g : String} (hk : k.owner = some g) (r : Option (Row k)) (w : String) :
    (v.set k r).get (.window w) = v.get (.window w) := by
  refine get_set_of_ne ?_
  rintro rfl
  cases hk

theorem snap_set_generation (v : Db) (g : String) (r : Option GenerationRow) :
    snap (v.set (.generation g) r) g = { snap v g with gen := r } := by
  unfold snap
  congr 1
  · exact get_set_self _ _ _
  all_goals
    first
      | exact get_set_of_ne (by simp)
      | (funext x; first
          | exact get_set_of_ne (by simp)
          | rw [get_set_of_ne (by simp)])

theorem snap_set_message (v : Db) (g : String) (r : Option MessageRow) :
    snap (v.set (.message g) r) g = { snap v g with msg := r } := by
  unfold snap
  congr 1
  · exact get_set_of_ne (by simp)
  · exact get_set_self _ _ _
  all_goals
    first
      | exact get_set_of_ne (by simp)
      | (funext x; first
          | exact get_set_of_ne (by simp)
          | rw [get_set_of_ne (by simp)])

theorem snap_set_pair (v : Db) (g : String) (r : Option PairRow) :
    snap (v.set (.pair g) r) g = { snap v g with pair := r } := by
  unfold snap
  congr 1
  · exact get_set_of_ne (by simp)
  · exact get_set_of_ne (by simp)
  · funext q
    exact get_set_of_ne (by simp)
  · exact get_set_self _ _ _
  · funext u
    exact get_set_of_ne (by simp)
  · funext w
    rw [get_set_of_ne (by simp)]

theorem snap_set_vote (v : Db) (g u : String) (r : Option VoteRow) :
    snap (v.set (.vote g u) r) g
      = { snap v g with votes := update (snap v g).votes u r } := by
  unfold snap
  congr 1
  · exact get_set_of_ne (by simp)
  · exact get_set_of_ne (by simp)
  · funext q
    exact get_set_of_ne (by simp)
  · exact get_set_of_ne (by simp)
  · funext u'
    by_cases hu : u' = u
    · subst hu
      simp
    · rw [update_of_ne hu]
      exact get_set_of_ne (by simp [hu])
  · funext w
    rw [get_set_of_ne (by simp)]

theorem snap_set_event {g : String} {n : ℕ} (hn : Top (snap v g).log n) (e : EventRow) :
    snap (v.set (.event g (n + 1)) (some e)) g
      = { snap v g with log := extend (snap v g).log n [e] } := by
  unfold snap
  congr 1
  · exact get_set_of_ne (by simp)
  · exact get_set_of_ne (by simp)
  · funext q
    unfold extend
    by_cases hq : q = n + 1
    · subst hq
      rw [get_set_self, if_neg (by omega), Nat.add_sub_cancel_left]
      rfl
    · rw [get_set_of_ne (by simp [hq])]
      split
      · rfl
      · next hlt =>
        rw [List.getElem?_eq_none (by simp only [length_cons, length_nil]; omega)]
        cases hl : (v.get (.event g q) : Option EventRow) with
        | none => rfl
        | some x => exact absurd (hn.le q x hl) hlt
  · exact get_set_of_ne (by simp)
  · funext u
    exact get_set_of_ne (by simp)
  · funext w
    rw [get_set_of_ne (by simp)]

theorem tally_set {r : Option (Row k)} {w : String}
    (h : weight (votedIn w) k r = weight (votedIn w) k (v.get k)) :
    tally (v.set k r) w = tally v w := by
  have := total_set (votedIn w) v k r
  rw [h] at this
  exact Nat.add_right_cancel this

theorem weight_votedIn_of_not_pair (hk : ∀ g, k ≠ .pair g) (w : String) (r : Option (Row k)) :
    weight (votedIn w) k r = 0 := by
  cases r with
  | none => rfl
  | some r =>
    cases k with
    | pair g => exact absurd rfl (hk g)
    | _ => rfl

theorem tally_set_of_not_pair (hk : ∀ g, k ≠ .pair g) (r : Option (Row k)) (w : String) :
    tally (v.set k r) w = tally v w :=
  tally_set (by rw [weight_votedIn_of_not_pair hk, weight_votedIn_of_not_pair hk])

/-- A pair with the same window and the same vote counts the same. -/
theorem tally_set_pair {g : String} {p p' : PairRow} (hp : v.get (.pair g) = some p)
    (hw : p'.windowId = p.windowId) (hv : p'.voted = p.voted) (w : String) :
    tally (v.set (.pair g) (some p')) w = tally v w := by
  refine tally_set ?_
  rw [hp]
  simp only [weight_some, votedIn, hw, hv]

/-! ### The discipline -/

/-- What holds of every committed state. -/
structure Inv (S : Strict) (v : Db) : Prop where
  ok : ∀ g, Ok S (snap v g)
  /-- A window has counted its voted pairs. -/
  counted : ∀ w (row : WindowRow), v.get (.window w) = some row → row.pairsCollected = tally v w

/-- What a transaction may do with its locks, with a vote or without one. -/
def Guar (S : Strict) (vote : Prop) (W : Key → Prop) (c c' : Db) : Prop :=
  ∀ g, Moves S (W (.generation g)) vote (snap c g) (snap c' g)

/-- The discipline of the chat tables. -/
def chat (S : Strict) : Discipline Row where
  Inv := Inv S
  guar := Guar S True
  refl _ _ _ := .refl _ _ _ _
  trans h h' g := (h g).trans (h' g)
  mono hW h g := (h g).mono (hW _) id

/-- The pending writes may be committed as they are. -/
structure Good (S : Strict) (vote : Prop) (c d : Db) (H : Key → Prop) : Prop where
  inv : Inv S (d ∪ c)
  guar : Guar S vote H c (d ∪ c)

variable {S : Strict} {vote : Prop} {c c' d d₀ : Db} {H H' : Key → Prop} {g : String}

theorem Guar.trans {W : Key → Prop} {c₁ c₂ c₃ : Db} (h : Guar S vote W c₁ c₂)
    (h' : Guar S vote W c₂ c₃) : Guar S vote W c₁ c₃ := fun g => (h g).trans (h' g)

theorem Guar.mono {W W' : Key → Prop} {vote' : Prop} (h : Guar S vote W c c')
    (hW : ∀ k, W k → W' k) (hv : vote → vote') : Guar S vote' W' c c' :=
  fun g => (h g).mono (hW _) hv

theorem Good.empty (hc : Inv S c) : Good S vote c ∅ H := by
  constructor
  · rwa [empty_union]
  · rw [empty_union]
    exact fun g => .refl _ _ _ _

theorem Good.mono (h : Good S vote c d H) (hH : ∀ k, H k → H' k) : Good S vote c d H' :=
  ⟨h.inv, h.guar.mono hH id⟩

/-! ### Pending writes on one generation -/

/-- The pending writes `d` change what one generation is seen as by `P`, compared with the
pending writes `d₀`, which may be committed; with `L` its row is locked. -/
structure Work (S : Strict) (vote : Prop) (d₀ : Db) (g : String) (L : Prop)
    (P : Snapshot → Snapshot → Prop) (c d : Db) (H : Key → Prop) : Prop where
  good : Good S vote c d₀ H
  held : L → H (.generation g)
  view : P (snap (d₀ ∪ c : Db) g) (snap (d ∪ c : Db) g)
  others : ∀ g', g' ≠ g → snap (d ∪ c : Db) g' = snap (d₀ ∪ c : Db) g'
  tally : ∀ w, tally (d ∪ c : Db) w = tally (d₀ ∪ c : Db) w
  window : ∀ w, (d ∪ c : Db).get (.window w) = (d₀ ∪ c : Db).get (.window w)

variable {L : Prop} {P P' : Snapshot → Snapshot → Prop}

theorem Work.mono (h : Work S vote d₀ g L P c d H)
    (hP : Ok S (snap (d₀ ∪ c : Db) g) → P (snap (d₀ ∪ c : Db) g) (snap (d ∪ c : Db) g) →
      P' (snap (d₀ ∪ c : Db) g) (snap (d ∪ c : Db) g)) : Work S vote d₀ g L P' c d H :=
  ⟨h.good, h.held, hP (h.good.inv.ok g) h.view, h.others, h.tally, h.window⟩

theorem Work.close (h : Work S vote d₀ g L P c d H)
    (hP : ∀ s t, Ok S s → P s t → Ok S t ∧ Moves S L vote s t) : Good S vote c d H := by
  obtain ⟨hok, hmoves⟩ := hP _ _ (h.good.inv.ok g) h.view
  constructor
  · refine ⟨fun g' => ?_, fun w row hget => ?_⟩
    · by_cases hg : g' = g
      · rw [hg]
        exact hok
      · rw [h.others g' hg]
        exact h.good.inv.ok g'
    · rw [h.tally]
      exact h.good.inv.counted w row ((h.window w).symm.trans hget)
  · intro g'
    by_cases hg : g' = g
    · rw [hg]
      exact (h.good.guar g).trans (hmoves.mono h.held id)
    · rw [h.others g' hg]
      exact h.good.guar g'

/-- One more write on the generation. -/
theorem Work.write {r : Option (Row k)} {L' : Prop}
    (h : (chat S).Always (Work S vote d₀ g L P) c d H) (hk : k.owner = some g)
    (hL : L' → L ∨ k = .generation g) (htally : ∀ c', (chat S).Rely (fun k' => H k' ∨ k' = k) c c' →
      ∀ w, Chat.tally ((d ∪ c' : Db).set k r) w = Chat.tally (d ∪ c' : Db) w)
    (hstep : ∀ c', (chat S).Rely (fun k' => H k' ∨ k' = k) c c' → ∀ s, Ok S s →
      P s (snap (d ∪ c' : Db) g) → P' s (snap ((d ∪ c' : Db).set k r) g)) :
    (chat S).Always (Work S vote d₀ g L' P') c (d.set k r) fun k' => H k' ∨ k' = k := by
  intro c' hr
  have hw := h c' (hr.mono fun k hk => .inl hk)
  refine ⟨hw.good.mono fun k hk => .inl hk, fun hl => ?_, ?_, fun g' hg => ?_, fun w => ?_,
    fun w => ?_⟩
  · rcases hL hl with hl | rfl
    · exact .inl (hw.held hl)
    · exact .inr rfl
  · rw [set_union]
    exact hstep c' hr _ (hw.good.inv.ok g) hw.view
  · rw [set_union, snap_set_other hk hg]
    exact hw.others g' hg
  · rw [set_union, htally c' hr]
    exact hw.tally w
  · rw [set_union, get_set_window hk]
    exact hw.window w

/-- The row of a generation whose lock is held, its log and the status of its message are the
same in every view there may be. -/
theorem rely_locked (hr : (chat S).Rely H c c') (hg : H (.generation g)) :
    (∀ d : Db, (snap (d ∪ c' : Db) g).gen = (snap (d ∪ c : Db) g).gen) ∧
    (∀ d : Db, (snap (d ∪ c' : Db) g).log = (snap (d ∪ c : Db) g).log) ∧
    ∀ d : Db, (snap (d ∪ c : Db) g).msg = none → (snap (d ∪ c' : Db) g).msg = none := by
  obtain ⟨hgen, hlog, hmsg⟩ := (hr.guar g).kept fun hk => hk hg
  refine ⟨fun d => get_union_congr hgen, fun d => ?_, fun d hnone => ?_⟩
  · funext q
    exact get_union_congr (congrFun hlog q)
  · by_cases hk : Key.message g ∈ d
    · exact (get_union_of_mem hk).trans ((get_union_of_mem hk).symm.trans hnone)
    · have hc : (snap c g).msg = none := (get_union_of_notMem hk).symm.trans hnone
      rw [hc] at hmsg
      exact (get_union_of_notMem hk).trans (map_eq_none_iff.mp hmsg)

theorem rely_window (hr : (chat S).Rely H c c') {w : String}
    (h : (snap (d ∪ c : Db) g).windows w) : (snap (d ∪ c' : Db) g).windows w := by
  by_cases hk : Key.window w ∈ d
  · have h' : ((d ∪ c : Db).get (.window w)).isSome = true := h
    show ((d ∪ c' : Db).get (.window w)).isSome = true
    rw [get_union_of_mem hk] at h' ⊢
    exact h'
  · have h' : ((d ∪ c : Db).get (.window w)).isSome = true := h
    show ((d ∪ c' : Db).get (.window w)).isSome = true
    rw [get_union_of_notMem hk] at h' ⊢
    exact (hr.guar g).windows w h'

theorem rely_present (hr : (chat S).Rely H c c') (h : (snap (d ∪ c : Db) g).gen.isSome = true) :
    (snap (d ∪ c' : Db) g).gen.isSome = true := by
  by_cases hk : Key.generation g ∈ d
  · have h' : ((d ∪ c : Db).get (.generation g)).isSome = true := h
    show ((d ∪ c' : Db).get (.generation g)).isSome = true
    rw [get_union_of_mem hk] at h' ⊢
    exact h'
  · have h' : ((d ∪ c : Db).get (.generation g)).isSome = true := h
    show ((d ∪ c' : Db).get (.generation g)).isSome = true
    rw [get_union_of_notMem hk] at h' ⊢
    obtain ⟨r, hr'⟩ := isSome_iff_exists.mp h'
    obtain ⟨r', hr'', -⟩ := (hr.guar g).row r hr'
    exact isSome_iff_exists.mpr ⟨r', hr''⟩

end RagQs.Chat
