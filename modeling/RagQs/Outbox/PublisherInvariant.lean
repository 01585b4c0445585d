import RagQs.Outbox.PublisherProof

/-!
# Whole publications

What the outbox holds is whole publications: an event, its recipients and its delivery, of
which each transition has at most one.  The pending writes of a producer are whole
publications as well, which nobody else has published.

## Main definitions

* `Publication.Stored`, `WholeEvents` — every event is stored with all it was published with.
* `Kept` — what was published stays as it is.
* `Draft` — the pending writes of a producer.

## Main results

* `Draft.stored`, `Draft.kept`, `Draft.wholeEvents` — what a commit of them does.
-/

namespace RagQs.Outbox

open Txn Txn.Discipline Store List

/-! ### Stored publications -/

/-- The publication is stored, with these recipients and this delivery and no others. -/
structure Publication.Stored (p : Publication) (c : Db) : Prop where
  event : c.get (.event p.eventId) = some p.event
  index : c.get (.eventKey p.event.key) = some p.eventId
  recipients : ∀ userId, (c.get (.recipient p.eventId userId) : Option RecipientRow)
    = p.recipients.lookup userId
  delivery : ∀ consumerName, (c.get (.delivery p.eventId consumerName) : Option DeliveryRow)
    = if consumerName = v1Consumer then p.delivery else none

/-- Every event is stored whole, and nothing is stored without its event. -/
structure WholeEvents (c : Db) : Prop where
  stored : ∀ eventId (row : EventRow), c.get (.event eventId) = some row →
    ∃ p : Publication, p.eventId = eventId ∧ p.event = row ∧ p.WellFormed ∧ p.Stored c
  recipients : ∀ eventId userId, c.get (.event eventId) = none →
    c.get (.recipient eventId userId) = none
  delivery : ∀ eventId consumerName, c.get (.event eventId) = none →
    c.get (.delivery eventId consumerName) = none
  index : ∀ key eventId, c.get (.eventKey key) = some eventId →
    ∃ row : EventRow, c.get (.event eventId) = some row ∧ row.key = key

theorem wholeEvents_empty : WholeEvents ∅ where
  stored _ _ h := by simp at h
  recipients _ _ _ := by simp
  delivery _ _ _ := by simp
  index _ _ h := by simp at h

/-- What was published stays as it is. -/
def Kept (c c' : Db) : Prop := ∀ p : Publication, p.Stored c → p.Stored c'

/-- The tables of the publisher. -/
def isOutbox : Key → Bool
  | .event _ | .eventKey _ | .recipient _ _ | .delivery _ _ => true
  | _ => false

variable {env : Env} {c c₀ c' d : Db} {H H' : Key → Prop} {p : Publication}
  {pubs : List Publication}

theorem Publication.Stored.congr (h : p.Stored c)
    (hk : ∀ k, isOutbox k = true → c'.get k = c.get k) : p.Stored c' where
  event := (hk (.event p.eventId) rfl).trans h.event
  index := (hk (.eventKey p.event.key) rfl).trans h.index
  recipients userId := (hk (.recipient p.eventId userId) rfl).trans (h.recipients userId)
  delivery consumerName := (hk (.delivery p.eventId consumerName) rfl).trans (h.delivery consumerName)

theorem WholeEvents.congr (h : WholeEvents c) (hk : ∀ k, isOutbox k = true → c'.get k = c.get k) :
    WholeEvents c' where
  stored eventId row hrow := by
    obtain ⟨p, hid, hev, hwf, hst⟩ := h.stored eventId row (hk (.event eventId) rfl ▸ hrow)
    exact ⟨p, hid, hev, hwf, hst.congr hk⟩
  recipients eventId userId hn := by
    rw [hk _ rfl]
    exact h.recipients eventId userId (hk (.event eventId) rfl ▸ hn)
  delivery eventId consumerName hn := by
    rw [hk _ rfl]
    exact h.delivery eventId consumerName (hk (.event eventId) rfl ▸ hn)
  index key eventId hkey := by
    obtain ⟨row, hrow, hrest⟩ := h.index key eventId (hk (.eventKey key) rfl ▸ hkey)
    exact ⟨row, (hk (.event eventId) rfl).trans hrow, hrest⟩

theorem Publication.Stored.eventOf (h : p.Stored c) :
    eventOf c p.event.key = some (p.eventId, p.event) := by
  unfold Outbox.eventOf
  rw [h.index]
  simp only [Option.bind_some]
  rw [h.event]
  rfl

theorem WholeEvents.of_eventOf (h : WholeEvents c) {key : EventKey} {event : String × EventRow}
    (hev : eventOf c key = some event) :
    ∃ p : Publication, p.eventId = event.1 ∧ p.event = event.2 ∧ p.event.key = key ∧
      p.WellFormed ∧ p.Stored c := by
  unfold eventOf at hev
  obtain ⟨eventId, hkey, hev⟩ := Option.bind_eq_some_iff.mp hev
  obtain ⟨row, hrow, rfl⟩ := Option.map_eq_some_iff.mp hev
  obtain ⟨row', hrow', hk⟩ := h.index key eventId hkey
  cases hrow.symm.trans hrow'
  obtain ⟨p, rfl, rfl, hwf, hst⟩ := h.stored eventId row hrow
  exact ⟨p, rfl, rfl, hk, hwf, hst⟩

/-! ### The rows of a publication -/

theorem Publication.mem_keys {k : Key} : k ∈ p.keys ↔
    k = .event p.eventId ∨ k = .eventKey p.event.key ∨
      (∃ e ∈ p.recipients, k = .recipient p.eventId e.1) ∨
      p.delivery.isSome ∧ k = .delivery p.eventId v1Consumer := by
  unfold Publication.keys Publication.writes eventWrites recipientWrites
  cases hd : p.delivery <;> simp [deliveryWrites, eq_comm]

theorem Publication.WellFormed.nodup_keys (h : p.WellFormed) : p.keys.Nodup := by
  have hrecipients : ((recipientWrites p.eventId p.recipients).map Sigma.fst).Nodup := by
    have hmap : (recipientWrites p.eventId p.recipients).map Sigma.fst
        = (p.recipients.map (·.1)).map fun u => Key.recipient p.eventId u := by
      simp [recipientWrites]
    rw [hmap]
    exact h.nodup.map fun _ _ heq => by simpa using heq
  unfold Publication.keys Publication.writes
  rw [map_append, map_append, nodup_append', nodup_append']
  refine ⟨by simp [eventWrites], ⟨hrecipients, ?_, ?_⟩, ?_⟩
  · cases p.delivery <;> simp [deliveryWrites]
  · intro k hk hk'
    obtain ⟨w, hw, rfl⟩ := mem_map.mp hk
    obtain ⟨e, -, rfl⟩ := mem_map.mp hw
    cases hd : p.delivery <;> simp [hd, deliveryWrites] at hk'
  · intro k hk hk'
    rcases mem_append.mp hk' with hk' | hk'
    · obtain ⟨w, hw, rfl⟩ := mem_map.mp hk'
      obtain ⟨e, -, rfl⟩ := mem_map.mp hw
      simp [eventWrites] at hk
    · cases hd : p.delivery with
      | none => simp [hd, deliveryWrites] at hk'
      | some row =>
        obtain rfl : k = .delivery p.eventId v1Consumer := by simpa [hd, deliveryWrites] using hk'
        simp [eventWrites] at hk

/-! ### The pending writes of a producer -/

/-- The keys of several publications. -/
def keysOf (pubs : List Publication) : List Key := (pubs.flatMap Publication.writes).map Sigma.fst

theorem mem_keysOf {k : Key} : k ∈ keysOf pubs ↔ ∃ p ∈ pubs, k ∈ p.keys := by
  simp only [keysOf, mem_map, mem_flatMap, Publication.keys]
  constructor
  · rintro ⟨w, ⟨p, hp, hw⟩, rfl⟩
    exact ⟨p, hp, w, hw, rfl⟩
  · rintro ⟨p, hp, w, hw, rfl⟩
    exact ⟨w, ⟨p, hp, hw⟩, rfl⟩

/-- The pending writes are the rows of whole publications, which are locked and of which the
committed store has none. -/
structure Draft (pubs : List Publication) (c d : Db) (H : Key → Prop) : Prop where
  patch : d = (∅ : Db).applyAll (pubs.flatMap Publication.writes)
  locked : ∀ k ∈ keysOf pubs, H k
  fresh : ∀ k ∈ keysOf pubs, c.get k = none
  nodup : (keysOf pubs).Nodup
  ids : (pubs.map (·.eventId)).Nodup
  wellFormed : ∀ p ∈ pubs, p.WellFormed

theorem draft_nil : Draft [] c ∅ H where
  patch := rfl
  locked _ h := by cases h
  fresh _ h := by cases h
  nodup := nodup_nil
  ids := nodup_nil
  wellFormed _ h := by cases h

theorem Draft.view (h : Draft pubs c d H) (s : Db) :
    (d ∪ s : Db) = s.applyAll (pubs.flatMap Publication.writes) := by
  rw [h.patch, applyAll_union, AList.empty_union]

theorem Draft.get_of_notMem (h : Draft pubs c d H) (s : Db) {k : Key} (hk : k ∉ keysOf pubs) :
    (d ∪ s : Db).get k = s.get k := by
  rw [h.view, get_applyAll_of_notMem hk]

theorem Draft.get_of_mem (h : Draft pubs c d H) (s : Db) {k : Key} {r : Option (Row k)}
    (hp : p ∈ pubs) (hk : ⟨k, r⟩ ∈ p.writes) : (d ∪ s : Db).get k = r := by
  rw [h.view]
  exact get_applyAll_of_mem h.nodup (mem_flatMap.mpr ⟨p, hp, hk⟩)

theorem Draft.get_ne_none (h : Draft pubs c d H) (s : Db) {k : Key} (hk : k ∈ keysOf pubs) :
    (d ∪ s : Db).get k ≠ none := by
  obtain ⟨w, hw, rfl⟩ := mem_map.mp hk
  obtain ⟨p, hp, hwp⟩ := mem_flatMap.mp hw
  have hsome : w.2.isSome := by
    unfold Publication.writes at hwp
    rcases mem_append.mp hwp with hw | hw
    · simp only [eventWrites, mem_cons, not_mem_nil, or_false] at hw
      rcases hw with rfl | rfl <;> rfl
    · rcases mem_append.mp hw with hw | hw
      · obtain ⟨e, -, rfl⟩ := mem_map.mp hw
        rfl
      · unfold deliveryWrites at hw
        split at hw
        · cases hw
        · obtain rfl := mem_singleton.mp hw
          rfl
  rw [h.get_of_mem s hp hwp]
  intro hnone
  rw [hnone] at hsome
  cases hsome

theorem Draft.rely {D : Discipline Row} (h : Draft pubs c d H) (hr : D.Rely H c c') :
    Draft pubs c' d H :=
  { h with fresh := fun k hk => (hr.rows k (h.locked k hk)).trans (h.fresh k hk) }

theorem Draft.publish (h : Draft pubs c d H) (hwf : p.WellFormed) (hfresh : Fresh (d ∪ c) p) :
    Draft (pubs ++ [p]) c (d.applyAll p.writes) (writing H p.writes) := by
  have hkeys : keysOf (pubs ++ [p]) = keysOf pubs ++ p.keys := by
    simp [keysOf, Publication.keys]
  have hdisj : ∀ k ∈ p.keys, k ∉ keysOf pubs := fun k hk hmem =>
    h.get_ne_none c hmem (hfresh k hk)
  refine ⟨?_, fun k hk => ?_, fun k hk => ?_, ?_, ?_, fun q hq => ?_⟩
  · rw [h.patch, ← applyAll_append]
    congr 1
    simp
  · rw [hkeys] at hk
    rcases mem_append.mp hk with hk | hk
    · exact .inl (h.locked k hk)
    · exact .inr hk
  · rw [hkeys] at hk
    rcases mem_append.mp hk with hk | hk
    · exact h.fresh k hk
    · rw [← h.get_of_notMem c (hdisj k hk)]
      exact hfresh k hk
  · rw [hkeys]
    exact Nodup.append h.nodup hwf.nodup_keys fun k hk hk' => hdisj k hk' hk
  · rw [map_append, nodup_append']
    refine ⟨h.ids, nodup_singleton _, fun eventId hid hid' => ?_⟩
    obtain ⟨q, hq, rfl⟩ := mem_map.mp hid
    have heq : q.eventId = p.eventId := by simpa using hid'
    refine hdisj (.event p.eventId) (Publication.mem_keys.mpr (.inl rfl)) ?_
    exact mem_keysOf.mpr ⟨q, hq, Publication.mem_keys.mpr (.inl (by rw [heq]))⟩
  · rcases mem_append.mp hq with hq | hq
    · exact h.wellFormed q hq
    · rw [mem_singleton.mp hq]
      exact hwf

theorem Draft.other (h : Draft pubs c d H) (s : Db) {eventId : String}
    (hid : .event eventId ∉ keysOf pubs) :
    (∀ userId, (d ∪ s : Db).get (.recipient eventId userId) = s.get (.recipient eventId userId)) ∧
      ∀ consumerName, (d ∪ s : Db).get (.delivery eventId consumerName)
        = s.get (.delivery eventId consumerName) := by
  have hmine : ∀ q ∈ pubs, q.eventId ≠ eventId := by
    rintro q hq rfl
    exact hid (mem_keysOf.mpr ⟨q, hq, Publication.mem_keys.mpr (.inl rfl)⟩)
  constructor
  · intro userId
    refine h.get_of_notMem s fun hmem => ?_
    obtain ⟨q, hq, hk⟩ := mem_keysOf.mp hmem
    rw [Publication.mem_keys] at hk
    rcases hk with hk | hk | ⟨e, -, hk⟩ | ⟨-, hk⟩
    · cases hk
    · cases hk
    · simp only [Key.recipient.injEq] at hk
      exact hmine q hq hk.1.symm
    · cases hk
  · intro consumerName
    refine h.get_of_notMem s fun hmem => ?_
    obtain ⟨q, hq, hk⟩ := mem_keysOf.mp hmem
    rw [Publication.mem_keys] at hk
    rcases hk with hk | hk | ⟨e, -, hk⟩ | ⟨-, hk⟩
    · cases hk
    · cases hk
    · cases hk
    · simp only [Key.delivery.injEq] at hk
      exact hmine q hq hk.1.symm

theorem Draft.owner (h : Draft pubs c d H) (hp : p ∈ pubs) {q : Publication} (hq : q ∈ pubs)
    (hid : q.eventId = p.eventId) : q = p :=
  inj_on_of_nodup_map h.ids hq hp hid

/-- **A publication is whole at the commit.** -/
theorem Draft.stored (h : Draft pubs c d H) (hc : WholeEvents c) (hp : p ∈ pubs) :
    p.Stored (d ∪ c) := by
  have hfresh : c.get (.event p.eventId) = none :=
    h.fresh _ (mem_keysOf.mpr ⟨p, hp, Publication.mem_keys.mpr (.inl rfl)⟩)
  refine ⟨h.get_of_mem c hp ?_, h.get_of_mem c hp ?_, fun userId => ?_, fun consumerName => ?_⟩
  · simp [Publication.writes, eventWrites]
  · simp [Publication.writes, eventWrites]
  · cases hl : p.recipients.lookup userId with
    | some row =>
      refine h.get_of_mem c hp (mem_append_right _ (mem_append_left _ ?_))
      obtain ⟨l₁, l₂, heq, -⟩ := lookup_eq_some_iff.mp hl
      refine mem_map.mpr ⟨(userId, row), ?_, rfl⟩
      rw [heq]
      simp
    | none =>
      refine (h.get_of_notMem c fun hmem => ?_).trans (hc.recipients _ userId hfresh)
      obtain ⟨q, hq, hk⟩ := mem_keysOf.mp hmem
      rcases Publication.mem_keys.mp hk with hk | hk | ⟨e, he, hk⟩ | ⟨-, hk⟩
      · cases hk
      · cases hk
      · simp only [Key.recipient.injEq] at hk
        obtain rfl := h.owner hp hq hk.1.symm
        have := lookup_eq_none_iff.mp hl e he
        simp [hk.2] at this
      · cases hk
  · by_cases hv : consumerName = v1Consumer ∧ p.delivery.isSome
    · obtain ⟨rfl, hsome⟩ := hv
      obtain ⟨row, hrow⟩ := Option.isSome_iff_exists.mp hsome
      rw [if_pos rfl, hrow]
      refine h.get_of_mem c hp (mem_append_right _ (mem_append_right _ ?_))
      simp [hrow, deliveryWrites]
    · have hnone : (if consumerName = v1Consumer then p.delivery else none) = none := by
        by_cases hn : consumerName = v1Consumer
        · rw [if_pos hn]
          simpa [hn] using hv
        · rw [if_neg hn]
      rw [hnone]
      refine (h.get_of_notMem c fun hmem => ?_).trans (hc.delivery _ consumerName hfresh)
      obtain ⟨q, hq, hk⟩ := mem_keysOf.mp hmem
      rcases Publication.mem_keys.mp hk with hk | hk | ⟨e, -, hk⟩ | ⟨hsome, hk⟩
      · cases hk
      · cases hk
      · cases hk
      · simp only [Key.delivery.injEq] at hk
        obtain rfl := h.owner hp hq hk.1.symm
        exact hv ⟨hk.2, hsome⟩

theorem Draft.kept (h : Draft pubs c d H) : Kept c (d ∪ c) := by
  intro p hp
  have hid : .event p.eventId ∉ keysOf pubs := fun hmem => by
    have hev := hp.event
    rw [h.fresh _ hmem] at hev
    cases hev
  obtain ⟨hrecipients, hdelivery⟩ := h.other c hid
  refine ⟨(h.get_of_notMem c hid).trans hp.event, ?_, fun userId => ?_, fun consumerName => ?_⟩
  · refine (h.get_of_notMem c fun hmem => ?_).trans hp.index
    have hindex := hp.index
    rw [h.fresh _ hmem] at hindex
    cases hindex
  · exact (hrecipients userId).trans (hp.recipients userId)
  · exact (hdelivery consumerName).trans (hp.delivery consumerName)

theorem Draft.event (h : Draft pubs c d H) {eventId : String} {row : EventRow}
    (hrow : (d ∪ c : Db).get (.event eventId) = some row) :
    (∃ p ∈ pubs, p.eventId = eventId ∧ p.event = row) ∨ c.get (.event eventId) = some row := by
  by_cases hmem : .event eventId ∈ keysOf pubs
  · obtain ⟨p, hp, hk⟩ := mem_keysOf.mp hmem
    have hid : p.eventId = eventId := by
      rcases Publication.mem_keys.mp hk with hk | hk | ⟨e, -, hk⟩ | ⟨-, hk⟩
      · simpa using hk.symm
      all_goals cases hk
    subst hid
    have hget := h.get_of_mem (r := (some p.event : Option (Row (.event p.eventId)))) c hp
      (by simp [Publication.writes, eventWrites])
    exact .inl ⟨p, hp, rfl, Option.some.inj (hget.symm.trans hrow)⟩
  · exact .inr ((h.get_of_notMem c hmem).symm.trans hrow)

/-- **The pending writes keep every event whole.** -/
theorem Draft.wholeEvents (h : Draft pubs c d H) (hc : WholeEvents c) : WholeEvents (d ∪ c) where
  stored eventId row hrow := by
    rcases h.event hrow with ⟨p, hp, hid, hev⟩ | hold
    · exact ⟨p, hid, hev, h.wellFormed p hp, h.stored hc hp⟩
    · obtain ⟨p, hid, hev, hwf, hst⟩ := hc.stored eventId row hold
      exact ⟨p, hid, hev, hwf, h.kept p hst⟩
  recipients eventId userId hn := by
    have hid : .event eventId ∉ keysOf pubs := fun hmem => h.get_ne_none c hmem hn
    rw [(h.other c hid).1]
    exact hc.recipients eventId userId ((h.get_of_notMem c hid).symm.trans hn)
  delivery eventId consumerName hn := by
    have hid : .event eventId ∉ keysOf pubs := fun hmem => h.get_ne_none c hmem hn
    rw [(h.other c hid).2]
    exact hc.delivery eventId consumerName ((h.get_of_notMem c hid).symm.trans hn)
  index key eventId hkey := by
    by_cases hmem : .eventKey key ∈ keysOf pubs
    · obtain ⟨p, hp, hk⟩ := mem_keysOf.mp hmem
      have heq : p.event.key = key := by
        rcases Publication.mem_keys.mp hk with hk | hk | ⟨e, -, hk⟩ | ⟨-, hk⟩
        · cases hk
        · simpa using hk.symm
        all_goals cases hk
      subst heq
      have hst := h.stored hc hp
      cases hst.index.symm.trans hkey
      exact ⟨p.event, hst.event, rfl⟩
    · rw [h.get_of_notMem c hmem] at hkey
      obtain ⟨row, hrow, hk⟩ := hc.index key eventId hkey
      obtain ⟨p, rfl, rfl, -, hst⟩ := hc.stored eventId row hrow
      exact ⟨p.event, (h.kept p hst).event, hk⟩

end RagQs.Outbox
