import RagQs.Outbox.Publisher

/-!
# The publisher under interference

What a call of the publisher comes to, whatever other transactions do between its
statements: it returns an event that is there, adds a whole publication, or raises.

## Main definitions

* `Publication` — an event with its recipients and its delivery, the unit that is published.
* `Publication.Of` — the publication of a command.
* `Fresh` — none of the rows of a publication is there.

## Main results

* `wp_recipientRecords_bind` — the rule of the recipients.
* `wp_publishAuthorized_bind` — the rule of a call of the publisher.
-/

namespace RagQs.Outbox

open Txn Txn.Discipline Store List

variable {command : OutboxPublishCommand}
variable {now : Time} {call : PublishCall} {selections : List RecipientSelection} {l : List (String
  × RecipientRow)}

/-! ### Publications -/

/-- An event with its recipients and its delivery. -/
structure Publication where
  eventId : String
  event : EventRow
  recipients : List (String × RecipientRow)
  delivery : Option DeliveryRow

/-- The rows of a publication. -/
def Publication.writes (p : Publication) : List (Write Row) :=
  eventWrites p.eventId p.event ++
    (recipientWrites p.eventId p.recipients ++ deliveryWrites p.eventId p.delivery)

/-- The keys of the rows. -/
def Publication.keys (p : Publication) : List Key := p.writes.map Sigma.fst

/-- What holds of every publication. -/
structure Publication.WellFormed (p : Publication) : Prop where
  nodup : (p.recipients.map (·.1)).Nodup
  delivery : p.delivery =
    if p.event.key.eventType.outboxOnly then none else some (newDelivery p.event.createdAtUtc)
  silent : p.event.key.eventType.outboxOnly → p.recipients = []
  notified : ¬ p.event.key.eventType.outboxOnly → ¬ p.event.key.eventType.roleSnapshot →
    p.recipients ≠ []
  single : p.event.key.eventType = .graphBuildCompleted → p.recipients.length = 1

/-- The recipients are those of the command, or, for an alert, operators. -/
def Selects (command : OutboxPublishCommand) (recipients : List (String × RecipientRow)) : Prop :=
  if command.eventType.roleSnapshot then
    ∀ e ∈ recipients, e.2.recipientKind = .roleSnapshot ∧ e.2.requiredRole = some "ops" ∧
      e.2.roleSnapshot = "ops"
  else recipients.map (·.1) = command.recipients.map (·.recipientUserId)

/-- The fingerprint of a command. -/
def OutboxPublishCommand.fingerprint (env : Env) (command : OutboxPublishCommand) : String :=
  env.fingerprintEvent command.eventType command.schemaVersion command.payload

/-- The publication of a command that has been checked. -/
structure Publication.Of (env : Env) (command : OutboxPublishCommand) (now : Time)
    (p : Publication) : Prop where
  eventId : p.eventId = command.eventId
  event : p.event = newEvent env command (command.fingerprint env) now
  selects : Selects command p.recipients
  wellFormed : p.WellFormed

theorem Publication.Of.key {env : Env} {p : Publication} (h : p.Of env command now) :
    p.event.key = command.key := by
  rw [h.event]
  rfl

/-- None of the rows of the publication is there. -/
def Fresh (v : Db) (p : Publication) : Prop := ∀ k ∈ p.keys, v.get k = none

theorem taken_eq_false {v : Db} {keys : List Key} :
    taken v keys = false ↔ ∀ k ∈ keys, v.get k = none := by
  simp [taken]

theorem refuseIf_ok {bad : Bool} {e : Err} (h : refuseIf bad e = .ok ()) : bad = false := by
  cases bad with
  | false => rfl
  | true => cases h

theorem prepare_ok {env : Env} (h : prepare env call = .ok command) :
    command.key = call.command.key ∧ call.caller ∈ (PRODUCER_MATRIX call.command.eventType).1 := by
  unfold prepare at h
  obtain ⟨command', hc, h⟩ := exists_of_bind_ok h
  obtain ⟨_, -, h⟩ := exists_of_bind_ok h
  obtain ⟨_, hcaller, h⟩ := exists_of_bind_ok h
  obtain ⟨_, -, h⟩ := exists_of_bind_ok h
  replace hcaller : call.caller ∈ (PRODUCER_MATRIX command'.eventType).1 :=
    of_decide_eq_false (refuseIf_ok hcaller) |> not_not.mp
  have heq : command' = command := by
    split at h
    · obtain ⟨_, -, h⟩ := exists_of_bind_ok h
      exact Except.ok.inj h
    · exact Except.ok.inj h
  subst heq
  unfold withEnvelope at hc
  split at hc
  · cases hp : canonicalGraphPayload env call.command with
    | error e =>
      rw [hp] at hc
      cases hc
    | ok payload =>
      rw [hp] at hc
      obtain rfl := Except.ok.inj hc
      exact ⟨rfl, hcaller⟩
  · obtain rfl := Except.ok.inj hc
    exact ⟨rfl, hcaller⟩

/-! ### The rules -/

section Rules

variable {α : Type} {D : Discipline Row} {env : Env} {A : Tx α → Db → Prop} {Q : α → Assn Row}
  {E : Err → Assn Row} {c c' d d' : Db} {H : Key → Prop}

/-- The row of a recipient is that of its selection. -/
structure RecordOf (selection : RecipientSelection) (e : String × RecipientRow) : Prop where
  user : e.1 = selection.recipientUserId
  kind : e.2.recipientKind = selection.recipientKind
  required : e.2.requiredRole = selection.requiredRole
  role : selection.recipientKind = .roleSnapshot → ∀ role, selection.requiredRole = some role →
    e.2.roleSnapshot = role

theorem wp_recipientRecords_bind {f : List (String × RecipientRow) → Tx α} (hc : D.Inv c)
    (h : ∀ c' l, D.Rely H c c' → Forall₂ RecordOf selections l → D.wp A (f l) Q E c' d H)
    (hE : ∀ e c', D.Rely H c c' → E e c' d H) :
    D.wp A (recipientRecords now selections >>= f) Q E c d H := by
  induction selections generalizing c f with
  | nil => exact h c [] (.refl hc) .nil
  | cons selection selections ih =>
    unfold recipientRecords
    simp only [Prog.bind_assoc]
    refine wp_readRow_bind fun c₁ hr₁ => ?_
    refine wp_orRaise_bind (fun account _ => ?_) fun _ c₂ hr₂ => hE _ c₂ (hr₁.trans hr₂)
    refine wp_raiseIf_bind (fun hrole => ?_) fun _ c₂ hr₂ => hE _ c₂ (hr₁.trans hr₂)
    refine ih hr₁.inv (fun c₂ l hr₂ hl => ?_) fun e c₂ hr₂ => hE e c₂ (hr₁.trans hr₂)
    refine h c₂ _ (hr₁.trans hr₂) (.cons ⟨rfl, rfl, rfl, fun hkind role hreq => ?_⟩ hl)
    by_contra hne
    exact hrole ⟨hkind, by simpa [hreq] using hne⟩

theorem wp_freezeActiveOps_bind {f : OutboxPublishCommand → Tx α} (hc : D.Inv c)
    (h : ∀ c' recipients, D.Rely H c c' →
      (if command.eventType.roleSnapshot then ∃ v : Db, recipients = activeOps v
        else recipients = command.recipients) →
      D.wp A (f { command with recipients }) Q E c' d H) :
    D.wp A (freezeActiveOpsRecipients command >>= f) Q E c d H := by
  unfold freezeActiveOpsRecipients
  by_cases hs : command.eventType.roleSnapshot
  · rw [if_pos hs, Prog.bind_assoc]
    refine wp_select_bind fun c' hr => ?_
    exact h c' _ hr (by rw [if_pos hs]; exact ⟨_, rfl⟩)
  · rw [if_neg hs]
    exact h c command.recipients (.refl hc) (by rw [if_neg hs])

theorem records_users (h : Forall₂ RecordOf selections l) :
    l.map (·.1) = selections.map (·.recipientUserId) := by
  induction h with
  | nil => rfl
  | cons hrec _ ih => rw [map_cons, map_cons, hrec.user, ih]

theorem publication_of {recipients : List RecipientSelection}
    (hfrozen : if command.eventType.roleSnapshot then ∃ v : Db, recipients = activeOps v
      else recipients = command.recipients)
    (hv : validateRecipients { command with recipients } = .ok ())
    (hl : Forall₂ RecordOf recipients l) (hnodup : (l.map (·.1)).Nodup) :
    Publication.Of env command now {
      eventId := command.eventId
      event := newEvent env command (command.fingerprint env) now
      recipients := l
      delivery := if command.eventType.outboxOnly then none else some (newDelivery now) } := by
  have hlength := hl.length_eq
  have hnil : recipients = [] → l = [] := fun h => by
    subst h
    exact forall₂_nil_left_iff.mp hl
  refine ⟨rfl, rfl, ?_, hnodup, rfl, fun h => ?_, fun h hs => ?_, fun h => ?_⟩
  · show Selects command l
    unfold Selects
    by_cases hs : command.eventType.roleSnapshot
    · rw [if_pos hs] at hfrozen ⊢
      obtain ⟨v, rfl⟩ := hfrozen
      intro e he
      obtain ⟨selection, hsel, hrec⟩ : ∃ s ∈ activeOps v, RecordOf s e := by
        obtain ⟨i, hi, rfl⟩ := getElem_of_mem he
        exact ⟨_, getElem_mem (hlength ▸ hi), Forall₂.get hl (hlength ▸ hi) hi⟩
      obtain ⟨x, -, rfl⟩ := mem_map.mp hsel
      exact ⟨hrec.kind, hrec.required, hrec.role rfl "ops" rfl⟩
    · rw [if_neg hs] at hfrozen ⊢
      rw [← hfrozen]
      exact records_users hl
  · refine hnil ?_
    unfold validateRecipients at hv
    rw [if_pos (by exact h)] at hv
    simpa using refuseIf_ok hv
  · unfold validateRecipients at hv
    rw [if_neg (by exact h)] at hv
    obtain ⟨_, hempty, -⟩ := exists_of_bind_ok hv
    have := refuseIf_ok hempty
    rintro rfl
    have hrec : recipients = [] := forall₂_nil_right_iff.mp hl
    have hs' : command.eventType.roleSnapshot = false := Bool.eq_false_of_not_eq_true hs
    simp [hrec, hs'] at this
  · have hgraph : command.eventType = .graphBuildCompleted := h
    unfold validateRecipients at hv
    rw [if_neg (by rw [hgraph]; decide)] at hv
    obtain ⟨_, -, hv⟩ := exists_of_bind_ok hv
    obtain ⟨_, hone, -⟩ := exists_of_bind_ok hv
    have := refuseIf_ok hone
    simp only [hgraph, true_and, decide_eq_false_iff_not, not_not] at this
    rw [← hlength]
    exact this

theorem wp_insertEvent_bind {eventId : String} {row : EventRow} {f : Bool → Tx α}
    (htaken : ∀ c', D.Rely H c c' → D.wp A (f false) Q E c' d H)
    (hfree : ∀ c', D.Rely H c c' → taken (d ∪ c') [.event eventId, .eventKey row.key] = false →
      D.wp A (f true) Q E c' (d.applyAll (eventWrites eventId row))
        (writing H (eventWrites eventId row))) :
    D.wp A (insertEvent eventId row >>= f) Q E c d H :=
  wp_tryInsert_bind htaken hfree

variable {f : OutboxPublishReceipt → Tx α}

theorem wp_reuse_bind {fingerprint : String} {event : String × EventRow}
    (h : event.2.payloadFingerprint = fingerprint →
      D.wp A (f ⟨event.1, fingerprint, true⟩) Q E c d H)
    (hE : event.2.payloadFingerprint ≠ fingerprint → ∀ c', D.Rely H c c' →
      E (fingerprintConflict command.eventId) c' d H) :
    D.wp A (reuse command fingerprint event >>= f) Q E c d H := by
  unfold reuse
  rw [Prog.bind_assoc]
  exact wp_raiseIf_bind (fun hfp => h (not_not.mp hfp)) fun hfp c' hr => hE hfp c' hr

/-- The call is refused before its transition is looked up. -/
def Invalid (env : Env) (call : PublishCall) (e : Err) : Prop :=
  prepare env call = .error e ∨
    ∃ command recipients, prepare env call = .ok command ∧
      (if command.eventType.roleSnapshot then ∃ v : Db, recipients = activeOps v
        else recipients = command.recipients) ∧
      validateRecipients { command with recipients } = .error e

/-- **The rule of a call of the publisher.** -/
theorem wp_publishAuthorized_bind (hc : D.Inv c)
    (hinvalid : ∀ e c', Invalid env call e → D.Rely H c c' → E e c' d H)
    (hreuse : ∀ command event c', prepare env call = .ok command → D.Rely H c c' →
      eventOf (d ∪ c') command.key = some event →
      event.2.payloadFingerprint = command.fingerprint env →
      D.wp A (f ⟨event.1, command.fingerprint env, true⟩) Q E c' d H)
    (hconflict : ∀ command event c₁ c', prepare env call = .ok command → D.Rely H c c₁ →
      eventOf (d ∪ c₁) command.key = some event →
      event.2.payloadFingerprint ≠ command.fingerprint env → D.Rely H c₁ c' →
      E (fingerprintConflict command.eventId) c' d H)
    (hreject : ∀ command e c₁ c', prepare env call = .ok command → D.Rely H c c₁ →
      eventOf (d ∪ c₁) command.key = none → D.Rely H c₁ c' → E e c' d H)
    (hintegrity : ∀ command c₁ c' d' H', prepare env call = .ok command → D.Rely H c c₁ →
      eventOf (d ∪ c₁) command.key = none → D.Rely H c₁ c' → E .integrity c' d' H')
    (hnew : ∀ command p c₁ c', prepare env call = .ok command → p.Of env command call.now →
      D.Rely H c c₁ → eventOf (d ∪ c₁) command.key = none → D.Rely H c₁ c' → Fresh (d ∪ c') p →
      D.wp A (f ⟨p.eventId, command.fingerprint env, false⟩) Q E c' (d.applyAll p.writes)
        (writing H p.writes)) : D.wp A (publishAuthorized env call >>= f) Q E c d H := by
  unfold publishAuthorized
  simp only [Prog.bind_assoc]
  refine wp_check_bind (fun command hprep => ?_) fun e he c' hr => hinvalid e c' (.inl he) hr
  refine wp_freezeActiveOps_bind hc fun c₁ recipients hr₁ hfrozen => ?_
  refine wp_check_bind (fun _ hv => ?_) fun e he c' hr =>
    hinvalid e c' (.inr ⟨command, recipients, hprep, hfrozen, he⟩) (hr₁.trans hr)
  have hfound : ∀ c₂ (event : String × EventRow), D.Rely H c c₂ →
      eventOf (d ∪ c₂) command.key = some event →
      D.wp A (reuse { command with recipients } (command.fingerprint env) event >>= f) Q E c₂ d H :=
    fun c₂ event hr₂ hev => wp_reuse_bind (fun hfp => hreuse command event c₂ hprep hr₂ hev hfp)
      fun hfp c' hr => hconflict command event c₂ c' hprep hr₂ hev hfp hr
  refine wp_select_bind fun c₂ hr₂ => ?_
  replace hr₂ := hr₁.trans hr₂
  cases hev : eventOf (d ∪ c₂) command.key with
  | some event =>
    have hev' : eventOf (d ∪ c₂) ({ command with recipients } : OutboxPublishCommand).key
        = some event := hev
    simp only [hev']
    exact hfound c₂ event hr₂ hev
  | none =>
    have hev' : eventOf (d ∪ c₂) ({ command with recipients } : OutboxPublishCommand).key
        = none := hev
    simp only [hev', Prog.bind_assoc]
    have hrej : ∀ e c', D.Rely H c₂ c' → E e c' d H := fun e c' hr =>
      hreject command e c₂ c' hprep hr₂ hev hr
    refine wp_readRow_bind fun c₃ hr₃ => ?_
    refine wp_raiseIf_bind (fun _ => ?_) fun _ c' hr => hrej _ c' (hr₃.trans hr)
    refine wp_recipientRecords_bind hr₃.inv (fun c₄ l hr₄ hl => ?_)
      fun e c' hr => hrej e c' (hr₃.trans hr)
    replace hr₄ := hr₃.trans hr₄
    refine wp_insertEvent_bind (fun c₅ hr₅ => ?_) fun c₅ hr₅ hfree => ?_
    · -- another transaction was first
      simp only [if_neg Bool.false_ne_true, Prog.bind_assoc]
      refine wp_select_bind fun c₆ hr₆ => ?_
      replace hr₆ := (hr₄.trans hr₅).trans hr₆
      cases hagain : eventOf (d ∪ c₆) command.key with
      | some event =>
        have hagain' : eventOf (d ∪ c₆) ({ command with recipients } : OutboxPublishCommand).key
            = some event := hagain
        simp only [hagain']
        exact hfound c₆ event (hr₂.trans hr₆) hagain
      | none =>
        have hagain' : eventOf (d ∪ c₆) ({ command with recipients } : OutboxPublishCommand).key
            = none := hagain
        simp only [hagain']
        exact fun c' hr => hrej _ c' (hr₆.trans hr)
    · simp only [if_true, insertRecipients, insertDelivery, Prog.bind_assoc]
      replace hr₅ := hr₄.trans hr₅
      have hgrow : ∀ {ws : List (Write Row)} {a b : Db}, D.Rely (writing H ws) a b →
          D.Rely H a b := fun hr => hr.mono fun _ hk => .inl hk
      have hint : ∀ c' d' H', D.Rely H c₂ c' → E .integrity c' d' H' := fun c' d' H' hr =>
        hintegrity command c₂ c' d' H' hprep hr₂ hev hr
      refine wp_raiseIf_bind (fun hnodup => ?_) fun _ c' hr => hint c' _ _ (hr₅.trans (hgrow hr))
      refine wp_insert_bind (fun c' hr => hint c' _ _ (hr₅.trans (hgrow hr)))
        fun c₆ hr₆ hrecipients => ?_
      rw [← applyAll_append, writing_writing]
      refine wp_insert_bind (fun c' hr => hint c' _ _ ((hr₅.trans (hgrow hr₆)).trans (hgrow hr)))
        fun c₇ hr₇ hdelivery => ?_
      rw [← applyAll_append, writing_writing, append_assoc]
      have hr := (hr₅.trans (hgrow hr₆)).trans (hgrow hr₇)
      refine hnew command _ c₂ c₇ hprep (publication_of hfrozen hv hl (not_not.mp hnodup)) hr₂ hev
        hr fun k hk => ?_
      -- the rows were free when they were inserted, and have been locked since
      rw [taken_eq_false] at hfree hrecipients hdelivery
      simp only [Publication.keys, Publication.writes, map_append, mem_append] at hk
      rcases hk with hk | hk | hk
      · have hlock : writing H (eventWrites command.eventId
            (newEvent env command (command.fingerprint env) call.now)) k := .inr hk
        rw [hr₇.view d (by rw [← writing_writing]; exact .inl hlock), hr₆.view d hlock]
        exact hfree k hk
      · have hne : k ∉ (eventWrites command.eventId
            (newEvent env command (command.fingerprint env) call.now)).map Sigma.fst := by
          simp only [recipientWrites, map_map, mem_map] at hk
          obtain ⟨e, -, rfl⟩ := hk
          simp [eventWrites]
        have hget := hrecipients k (by simpa [recipientWrites, map_map] using hk)
        rw [applyAll_union] at hget
        replace hget := (get_applyAll_of_notMem hne).symm.trans hget
        rw [hr₇.view d (by rw [← writing_writing]; exact .inr hk)]
        exact hget
      · have hget := hdelivery k hk
        rw [applyAll_union, get_applyAll_of_notMem] at hget
        · exact hget
        · intro hmem
          rw [map_append, mem_append] at hmem
          unfold deliveryWrites at hk
          split at hk
          · cases hk
          · obtain rfl := mem_singleton.mp hk
            rcases hmem with hmem | hmem
            · simp [eventWrites] at hmem
            · simp [recipientWrites] at hmem

end Rules

end RagQs.Outbox
