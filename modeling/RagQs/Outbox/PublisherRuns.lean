import RagQs.Outbox.PublisherInvariant

/-!
# Runs of publishers

Producers publish any events with any recipients in transactions of theirs, interleaved
statement by statement, from an empty outbox; the accounts come, go and change their roles
at any time.

## Main definitions

* `PublishOp`, `publishBody` — the transactions.
* `Answer`, `Refusal` — what a call of the publisher comes to.
* `Published` — what the outbox and the answers of the publisher say together.

## Main results

* `publish_verified` — every transaction adds whole publications and answers truthfully.
* `publication_exact` — what holds after every run.
* `recipients_ignored` — a different set of recipients is no conflict.
-/

namespace RagQs.Outbox

open Txn Txn.Discipline Store List

variable {S' : Publication → Prop} {call : PublishCall} {calls : List PublishCall} {key : EventKey}
  {event : String × EventRow}

variable {a : Except Err OutboxPublishReceipt} {ps : List Publication} {r : OutboxPublishReceipt}

/-- The transactions of producers, and changes of the accounts by others. -/
inductive PublishOp
  | publish (calls : List PublishCall)
  | setUser (id : String) (row : Option IdentityUserRow)

/-- The answers of the publisher to the calls of a transaction. -/
abbrev Answers := List (Except Err OutboxPublishReceipt)

/-- The program of each transaction. -/
def publishBody (env : Env) : PublishOp → Tx Answers
  | .publish calls => publishAll env calls
  | .setUser id row => do
    Prog.update (fun _ => [⟨.identityUser id, row⟩]) fun _ => ()
    return []

/-- The discipline of the publishers. -/
def publishDiscipline : Discipline Row where
  Inv := WholeEvents
  guar _ c c' := Kept c c'
  refl _ _ _ h := h
  trans h₁ h₂ p h := h₂ p (h₁ p h)
  mono _ h := h

variable {env : Env} {c c₀ c' d : Db} {H : Key → Prop} {pubs : List Publication}

/-! ### Answers -/

section Answers

variable (env) (c₀ : Db) (S : Publication → Prop)

/-- What a call may be refused with, where `c₀` was committed when its transaction was
opened and the publications of `S` are there. -/
inductive Refusal (call : PublishCall) : Err → Prop
  | invalid {e : Err} (h : Invalid env call e) : Refusal call e
  | conflict {command : OutboxPublishCommand} {p : Publication}
      (h : prepare env call = .ok command) (hp : S p) (hkey : p.event.key = command.key)
      (hne : p.event.payloadFingerprint ≠ command.fingerprint env) :
      Refusal call (fingerprintConflict command.eventId)
  | rejected {command : OutboxPublishCommand} {e : Err} (h : prepare env call = .ok command)
      (hnew : eventOf c₀ command.key = none) : Refusal call e

/-- What a call may answer, and the publications it has added. -/
inductive Answer (call : PublishCall) :
    Except Err OutboxPublishReceipt → List Publication → Prop
  | created {command : OutboxPublishCommand} {p : Publication}
      (h : prepare env call = .ok command) (hp : p.Of env command call.now)
      (hnew : eventOf c₀ command.key = none) :
      Answer call (.ok ⟨p.eventId, command.fingerprint env, false⟩) [p]
  | reused {command : OutboxPublishCommand} {p : Publication}
      (h : prepare env call = .ok command) (hp : S p) (hkey : p.event.key = command.key)
      (heq : p.event.payloadFingerprint = command.fingerprint env) :
      Answer call (.ok ⟨p.eventId, command.fingerprint env, true⟩) []
  | refused {e : Err} (h : Refusal env c₀ S call e) : Answer call (.error e) []

/-- What the calls of a transaction may answer. -/
inductive AnswerAll : List PublishCall → Answers → List Publication → Prop
  | nil : AnswerAll [] [] []
  | cons {call : PublishCall} {calls : List PublishCall}
      {answer : Except Err OutboxPublishReceipt} {answers : Answers} {ps qs : List Publication}
      (h : Answer env c₀ S call answer ps) (hs : AnswerAll calls answers qs) :
      AnswerAll (call :: calls) (answer :: answers) (ps ++ qs)

end Answers

theorem Refusal.mono {S : Publication → Prop} (hS : ∀ p, S p → S' p) {e : Err}
    (h : Refusal env c₀ S call e) : Refusal env c₀ S' call e := by
  cases h with
  | invalid h => exact .invalid h
  | conflict h hp hkey hne => exact .conflict h (hS _ hp) hkey hne
  | rejected h hnew => exact .rejected h hnew

theorem Answer.mono {S : Publication → Prop} (hS : ∀ p, S p → S' p) (h : Answer env c₀ S call a ps) :
    Answer env c₀ S' call a ps := by
  cases h with
  | created h hp hnew => exact .created h hp hnew
  | reused h hp hkey heq => exact .reused h (hS _ hp) hkey heq
  | refused h => exact .refused (h.mono hS)

variable {answers : Answers}

theorem AnswerAll.mono {S : Publication → Prop} (hS : ∀ p, S p → S' p)
    (h : AnswerAll env c₀ S calls answers ps) : AnswerAll env c₀ S' calls answers ps := by
  induction h with
  | nil => exact .nil
  | cons h _ ih => exact .cons (h.mono hS) ih

/-! ### The transactions keep the discipline -/

/-- The publication is in the pending writes or stored. -/
def Seen (pubs : List Publication) (c : Db) (p : Publication) : Prop := p ∈ pubs ∨ p.Stored c

theorem Draft.found (h : Draft pubs c d H) (hc : WholeEvents c)
    (hev : eventOf (d ∪ c) key = some event) :
    ∃ p, Seen pubs c p ∧ p.eventId = event.1 ∧ p.event = event.2 ∧ p.event.key = key := by
  obtain ⟨p, hid, hrow, hkey, -, hst⟩ := (h.wholeEvents hc).of_eventOf hev
  rcases h.event hst.event with ⟨q, hq, hid', hrow'⟩ | hold
  · exact ⟨q, .inl hq, hid'.trans hid, hrow'.trans hrow, hrow' ▸ hkey⟩
  · obtain ⟨q, hid', hrow', -, hst'⟩ := hc.stored _ _ hold
    exact ⟨q, .inr hst', hid'.trans hid, hrow'.trans hrow, hrow' ▸ hkey⟩

theorem Draft.unknown (h : Draft pubs c d H) (h₀ : WholeEvents c₀) (hk : Kept c₀ c)
    (hev : eventOf (d ∪ c) key = none) : eventOf c₀ key = none := by
  cases hold : eventOf c₀ key with
  | none => rfl
  | some event =>
    obtain ⟨p, -, -, rfl, -, hst⟩ := h₀.of_eventOf hold
    rw [(h.kept p (hk p hst)).eventOf] at hev
    cases hev

section Rules

variable {α : Type} {A : Tx α → Db → Prop} {Q : α → Assn Row} {E : Err → Assn Row}

/-- The call may be refused with the error; what the transaction itself has published so far
was new when it was opened. -/
abbrev RefusedSince (env : Env) (c₀ c : Db) (call : PublishCall) (e : Err) : Prop :=
  Refusal env c₀ (fun p => p.Stored c ∨ eventOf c₀ p.event.key = none) call e

/-- **The rule of the calls of a transaction.** -/
theorem wp_publishAll_bind {f : Answers → Tx α} (hd : Draft pubs c d H) (hc : WholeEvents c)
    (h₀ : WholeEvents c₀) (hk : Kept c₀ c) (hnew : ∀ p ∈ pubs, eventOf c₀ p.event.key = none)
    (h : ∀ c' d' H' answers qs, publishDiscipline.Rely H c c' → Draft (pubs ++ qs) c' d' H' →
      AnswerAll env c₀ (Seen (pubs ++ qs) c') calls answers qs →
      publishDiscipline.wp A (f answers) Q E c' d' H')
    (hE : ∀ e c' d' H', (∃ call ∈ calls, RefusedSince env c₀ c' call e) → E e c' d' H') :
    publishDiscipline.wp A (publishAll env calls >>= f) Q E c d H := by
  induction calls generalizing pubs c d H f with
  | nil => exact h c d H [] [] (.refl hc) (by rwa [append_nil]) .nil
  | cons call calls ih =>
    unfold publishAll
    simp only [Prog.bind_assoc]
    have hseen : ∀ {c₁ p}, Seen pubs c₁ p → p.Stored c₁ ∨ eventOf c₀ p.event.key = none :=
      fun hp => hp.symm.imp_right (hnew _)
    -- what is left after the answer to the first call
    have hrest : ∀ ps {c₁ d₁ H₁ answer}, publishDiscipline.Rely H c c₁ →
        Draft (pubs ++ ps) c₁ d₁ H₁ → (∀ p ∈ ps, eventOf c₀ p.event.key = none) →
        (∀ k, H k → H₁ k) → Answer env c₀ (Seen (pubs ++ ps) c₁) call answer ps →
        publishDiscipline.wp A (publishAll env calls >>= fun answers =>
          Prog.done (answer :: answers) >>= f) Q E c₁ d₁ H₁ := by
      intro ps c₁ d₁ H₁ answer hr₁ hd₁ hps hH₁ hans
      refine ih hd₁ hr₁.inv (fun p hp => hr₁.guar p (hk p hp)) (fun p hp => ?_)
        (fun c₂ d₂ H₂ answers qs hr₂ hd₂ hall => ?_) fun e c₂ d₂ H₂ hrefused => ?_
      · rcases mem_append.mp hp with hp | hp
        · exact hnew p hp
        · exact hps p hp
      · refine h c₂ d₂ H₂ _ (ps ++ qs) (hr₁.trans (hr₂.mono hH₁)) ?_ (.cons (hans.mono ?_) ?_)
        · rwa [← append_assoc]
        · rintro p (hp | hp)
          · exact .inl (by rw [← append_assoc]; exact mem_append_left _ hp)
          · exact .inr (hr₂.guar p hp)
        · rwa [← append_assoc]
      · obtain ⟨call', hmem, href⟩ := hrefused
        exact hE e c₂ d₂ H₂ ⟨call', mem_cons_of_mem _ hmem, href⟩
    refine wp_tryCatch_bind ?_ hc
    -- an error of the first call is caught, or ends the transaction
    have hcaught : ∀ {e c₁}, publishDiscipline.Rely H c c₁ →
        Refusal env c₀ (Seen pubs c₁) call e →
        publishDiscipline.wp A ((if e.code.any (· ∈ call.tolerated) then return .error e
          else throw e : Tx (Except Err OutboxPublishReceipt)) >>= fun answer =>
            publishAll env calls >>= fun answers => Prog.done (answer :: answers) >>= f)
          Q E c₁ d H := by
      intro e c₁ hr₁ href
      by_cases ht : e.code.any (· ∈ call.tolerated)
      · rw [if_pos ht]
        refine hrest [] hr₁ ?_ (fun p hp => by cases hp) (fun _ hk => hk) (.refused ?_)
        · rw [append_nil]
          exact hd.rely hr₁
        · rwa [append_nil]
      · rw [if_neg ht]
        refine fun c₂ hr₂ => hE e c₂ d H ⟨call, mem_cons_self, href.mono fun p hp => ?_⟩
        exact (hseen hp).imp_left (hr₂.guar p)
    refine wp_publishAuthorized_bind hc (fun e c₁ hinv hr₁ => ?_)
      (fun command event c₁ hprep hr₁ hev hfp => ?_)
      (fun command event c₁ c₂ hprep hr₁ hev hfp hr₂ => ?_)
      (fun command e c₁ c₂ hprep hr₁ hev hr₂ => ?_)
      (fun command c₁ c₂ d₂ H₂ hprep hr₁ hev hr₂ => ?_)
      fun command p c₁ c₂ hprep hof hr₁ hev hr₂ hfresh => ?_
    · exact hcaught hr₁ (.invalid hinv)
    · obtain ⟨p, hp, hid, hrow, hkey⟩ := (hd.rely hr₁).found hr₁.inv hev
      refine fun c₂ hr₂ => hrest [] (hr₁.trans hr₂) ?_ (fun p hp => by cases hp)
        (fun _ hk => hk) ?_
      · rw [append_nil]
        exact hd.rely (hr₁.trans hr₂)
      · rw [append_nil, ← hid]
        exact .reused hprep (hp.imp_right (hr₂.guar p)) hkey (by rw [hrow, hfp])
    · obtain ⟨p, hp, hid, hrow, hkey⟩ := (hd.rely hr₁).found hr₁.inv hev
      exact hcaught (hr₁.trans hr₂)
        (.conflict hprep (hp.imp_right (hr₂.guar p)) hkey (by rw [hrow]; exact hfp))
    · exact hcaught (hr₁.trans hr₂) (.rejected hprep
        ((hd.rely hr₁).unknown h₀ (fun p hp => hr₁.guar p (hk p hp)) hev))
    · refine fun c₃ _ => hE _ c₃ d₂ H₂ ⟨call, mem_cons_self, .rejected hprep ?_⟩
      exact (hd.rely hr₁).unknown h₀ (fun p hp => hr₁.guar p (hk p hp)) hev
    · have hunknown := (hd.rely hr₁).unknown h₀ (fun p hp => hr₁.guar p (hk p hp)) hev
      have hd₂ := (hd.rely (hr₁.trans hr₂)).publish hof.wellFormed hfresh
      refine fun c₃ hr₃ => hrest [p] ((hr₁.trans hr₂).trans (hr₃.mono fun _ hk => .inl hk))
        (hd₂.rely hr₃) (fun q hq => ?_) (fun _ hk => .inl hk) (.created hprep hof hunknown)
      rw [mem_singleton.mp hq, hof.key]
      exact hunknown

end Rules

/-- The publications are added to the store, and nothing else is changed. -/
structure Adds (c c' : Db) (pubs : List Publication) : Prop where
  rows : ∀ k, c'.get k = (c.applyAll (pubs.flatMap Publication.writes)).get k
  fresh : ∀ p ∈ pubs, c.get (.event p.eventId) = none ∧ c.get (.eventKey p.event.key) = none
  keys : (pubs.map (·.event.key)).Nodup
  wellFormed : ∀ p ∈ pubs, p.WellFormed
  stored : ∀ p ∈ pubs, p.Stored c'

theorem Draft.adds (h : Draft pubs c d H) (hc : WholeEvents c) : Adds c (d ∪ c) pubs where
  rows k := by rw [h.view]
  fresh p hp := ⟨h.fresh _ (mem_keysOf.mpr ⟨p, hp, Publication.mem_keys.mpr (.inl rfl)⟩),
    h.fresh _ (mem_keysOf.mpr ⟨p, hp, Publication.mem_keys.mpr (.inr (.inl rfl))⟩)⟩
  keys := by
    have hsub : ∀ l : List Publication, (l.map fun p => Key.eventKey p.event.key).Sublist
        (keysOf l) := by
      intro l
      induction l with
      | nil => exact Sublist.slnil
      | cons p l ih =>
        have hone : [Key.eventKey p.event.key].Sublist p.keys :=
          singleton_sublist.mpr (Publication.mem_keys.mpr (.inr (.inl rfl)))
        have hcons : keysOf (p :: l) = p.keys ++ keysOf l := by simp [keysOf, Publication.keys]
        rw [hcons]
        exact hone.append ih
    have hnodup := (hsub pubs).nodup h.nodup
    rw [show pubs.map (fun p => Key.eventKey p.event.key)
      = (pubs.map (·.event.key)).map Key.eventKey by simp] at hnodup
    exact hnodup.of_map _
  wellFormed := h.wellFormed
  stored _ hp := h.stored hc hp

/-- What a commit says: the answers, and what was added for them. -/
def Commits (env : Env) (op : PublishOp) (c₀ : Db) (answers : Answers) (c c' : Db) : Prop :=
  match op with
  | .publish calls =>
    ∃ pubs, AnswerAll env c₀ (·.Stored c') calls answers pubs ∧ Adds c c' pubs
  | .setUser _ _ => ∀ k, isOutbox k = true → c'.get k = c.get k

/-- What an error says: one of the calls was refused. -/
def Fails (env : Env) (op : PublishOp) (c₀ : Db) (e : Err) (c : Db) : Prop :=
  match op with
  | .publish calls => ∃ call ∈ calls, RefusedSince env c₀ c call e
  | .setUser _ _ => True

/-- **Every transaction adds whole publications and answers truthfully.** -/
theorem publish_verified (env : Env) (A : PublishOp → Tx Answers → Db → Prop) :
    Verified publishDiscipline A (publishBody env) (Commits env) (Fails env) where
  wp op c₀ hc₀ := by
    cases op with
    | publish calls =>
      rw [publishBody, ← Prog.bind_done (publishAll env calls)]
      have hnil : Draft [] c₀ ∅ fun _ => False := draft_nil
      refine wp_publishAll_bind hnil hc₀ hc₀ (fun _ h => h)
        (fun p hp => by cases hp) (fun c d H answers pubs _ hd hall c' hr => ?_)
        fun e c d H h => h
      rw [nil_append] at hd hall
      have hd' := hd.rely hr
      refine ⟨hd'.wholeEvents hr.inv, hd'.kept, pubs, hall.mono fun p hp => ?_, hd'.adds hr.inv⟩
      rcases hp with hp | hp
      · exact hd'.stored hr.inv hp
      · exact hd'.kept p (hr.guar p hp)
    | setUser id row =>
      refine wp_statement_bind fun c hr => ?_
      intro c' hr'
      have hsame : ∀ k, isOutbox k = true →
          ((∅ : Db).applyAll [⟨.identityUser id, row⟩] ∪ c' : Db).get k = c'.get k := by
        intro k hk
        have hne : k ≠ .identityUser id := by
          rintro rfl
          cases hk
        rw [applyAll_union, AList.empty_union, applyAll_cons, applyAll_nil, get_set_of_ne hne]
      exact ⟨hr'.inv.congr hsame, fun p hp => hp.congr hsame, hsame⟩

/-! ### What the history says -/

/-- The receipts of the events that were created, with their transitions. -/
def createdOf : List PublishCall → Answers → List (EventKey × OutboxPublishReceipt)
  | call :: calls, .ok r :: answers =>
    if r.reused then createdOf calls answers
    else (call.command.key, r) :: createdOf calls answers
  | _ :: calls, .error _ :: answers => createdOf calls answers
  | _, _ => []

/-- The events a transaction has created. -/
def createdBy (x : Ended PublishOp Err Answers) : List (EventKey × OutboxPublishReceipt) :=
  match x.op, x.result with
  | .publish calls, .ok answers => createdOf calls answers
  | _, _ => []

/-- The event of the transition, its identifier and its fingerprint, was created by one of the
transactions. -/
def Created (h : List (Ended PublishOp Err Answers)) (key : EventKey)
    (eventId fingerprint : String) : Prop :=
  (key, ⟨eventId, fingerprint, false⟩) ∈ h.flatMap createdBy

/-- What a call may be refused with, after the transactions of `h`: what is wrong with the
command itself, or, where its transition has an event, a different fingerprint. -/
def Refused (env : Env) (h : List (Ended PublishOp Err Answers)) (call : PublishCall)
    (e : Err) : Prop :=
  Invalid env call e ∨ ∃ command, prepare env call = .ok command ∧
    ∀ eventId fingerprint, Created h command.key eventId fingerprint →
      fingerprint ≠ command.fingerprint env ∧ e = fingerprintConflict command.eventId

/-- What a call may answer, after the transactions of `h`: a receipt is that of an event of
the store with its transition and its fingerprint, and of the event there was. -/
def Answered (env : Env) (h : List (Ended PublishOp Err Answers)) (c : Db) (call : PublishCall) :
    Except Err OutboxPublishReceipt → Prop
  | .ok r => ∃ command row, prepare env call = .ok command ∧
      call.caller ∈ (PRODUCER_MATRIX call.command.eventType).1 ∧
      r.fingerprint = command.fingerprint env ∧
      eventOf c command.key = some (r.eventId, row) ∧ row.payloadFingerprint = r.fingerprint ∧
      ∀ eventId fingerprint, Created h command.key eventId fingerprint →
        r = ⟨eventId, fingerprint, true⟩
  | .error e => Refused env h call e

/-- What a transaction may end with, after the transactions of `h`. -/
def Truthful (env : Env) (h : List (Ended PublishOp Err Answers)) (c : Db)
    (x : Ended PublishOp Err Answers) : Prop :=
  match x.op, x.result with
  | .publish calls, .ok answers => Forall₂ (Answered env h c) calls answers
  | .publish calls, .error e => ∃ call ∈ calls, Refused env h call e
  | .setUser _ _, _ => True

/-- What the outbox and the answers of the publisher say together. -/
structure Published (env : Env) (c : Db) (h : List (Ended PublishOp Err Answers)) : Prop where
  /-- The events of the store are those that were created. -/
  created : ∀ key eventId fingerprint, Created h key eventId fingerprint ↔
    ∃ row, eventOf c key = some (eventId, row) ∧ row.payloadFingerprint = fingerprint
  /-- No transition had its event created twice. -/
  once : ((h.flatMap createdBy).map (·.1)).Nodup
  /-- Every transaction has answered from what there was when it was opened. -/
  outcome : ∀ x earlier, x :: earlier <:+ h → Truthful env (earlier.rtake x.opened) c x

/-- The receipt of a publication. -/
def Publication.created (p : Publication) : EventKey × OutboxPublishReceipt :=
  (p.event.key, ⟨p.eventId, p.event.payloadFingerprint, false⟩)

theorem AnswerAll.created {S : Publication → Prop} (h : AnswerAll env c₀ S calls answers pubs) :
    createdOf calls answers = pubs.map Publication.created := by
  induction h with
  | nil => rfl
  | cons h _ ih =>
    rw [map_append, ← ih]
    cases h with
    | created hprep hp _ =>
      have hkey := hp.key.trans (prepare_ok hprep).1
      have hfp := congrArg EventRow.payloadFingerprint hp.event
      simp [createdOf, Publication.created, hkey, hfp, newEvent]
    | reused => rfl
    | refused => rfl

theorem createdOf_reused (h : (key, r) ∈ createdOf calls answers) : r.reused = false := by
  induction calls, answers using createdOf.induct with
  | case1 call calls r' answers hreused ih =>
    rw [createdOf, if_pos hreused] at h
    exact ih h
  | case2 call calls r' answers hreused ih =>
    rw [createdOf, if_neg hreused, mem_cons] at h
    rcases h with heq | h
    · obtain ⟨-, rfl⟩ := Prod.mk.inj heq
      simpa using hreused
    · exact ih h
  | case3 call calls e answers ih =>
    rw [createdOf] at h
    exact ih h
  | case4 calls answers h₁ h₂ => cases calls <;> cases answers <;> simp_all [createdOf]

variable {x : Ended PublishOp Err Answers}

theorem createdBy_reused (h : (key, r) ∈ createdBy x) : r.reused = false := by
  unfold createdBy at h
  split at h
  · exact createdOf_reused h
  · cases h

section History

variable {h : List (Ended PublishOp Err Answers)}

theorem Kept.eventOf (hk : Kept c c') (hc : WholeEvents c) (hev : eventOf c key = some event) :
    eventOf c' key = some event := by
  obtain ⟨p, hid, hrow, rfl, -, hst⟩ := hc.of_eventOf hev
  rw [(hk p hst).eventOf, hid, hrow]

theorem Published.stored (hP : Published env c h) (hc : WholeEvents c)
    {eventId fingerprint : String} (hcr : Created h key eventId fingerprint) :
    ∃ p : Publication, p.eventId = eventId ∧ p.event.payloadFingerprint = fingerprint ∧
      p.event.key = key ∧ p.Stored c := by
  obtain ⟨row, hev, rfl⟩ := (hP.created key eventId fingerprint).mp hcr
  obtain ⟨p, hid, hrow, hkey, -, hst⟩ := hc.of_eventOf hev
  exact ⟨p, hid, by rw [hrow], hkey, hst⟩

theorem Publication.Stored.unique {p q : Publication} (hp : p.Stored c) (hq : q.Stored c)
    (hkey : p.event.key = q.event.key) : p.eventId = q.eventId ∧ p.event = q.event := by
  have := hp.eventOf.symm.trans (hkey ▸ hq.eventOf)
  simpa using this

theorem Refusal.refused {S : Publication → Prop} {e : Err} (hP : Published env c₀ h)
    (h₀ : WholeEvents c₀) (hk : Kept c₀ c)
    (hS : ∀ p, S p → p.Stored c ∨ eventOf c₀ p.event.key = none) (href : Refusal env c₀ S call e) :
    Refused env h call e := by
  cases href with
  | invalid hinv => exact .inl hinv
  | @conflict command p hprep hp hkey hne =>
    refine .inr ⟨command, hprep, fun eventId fingerprint hcr => ?_⟩
    obtain ⟨q, rfl, rfl, hkeyq, hq⟩ := hP.stored h₀ hcr
    rcases hS p hp with hst | hnone
    · obtain ⟨-, hev⟩ := (hk q hq).unique hst (hkeyq.trans hkey.symm)
      exact ⟨by rw [hev]; exact hne, rfl⟩
    · rw [hkey, ← hkeyq, hq.eventOf] at hnone
      cases hnone
  | @rejected command _ hprep hnew =>
    refine .inr ⟨command, hprep, fun eventId fingerprint hcr => ?_⟩
    obtain ⟨q, rfl, rfl, hkeyq, hq⟩ := hP.stored h₀ hcr
    rw [← hkeyq, hq.eventOf] at hnew
    cases hnew

theorem Answer.answered (hP : Published env c₀ h) (h₀ : WholeEvents c₀) (hk : Kept c₀ c)
    (hpubs : ∀ p ∈ pubs, p.Stored c) (ha : Answer env c₀ (·.Stored c) call a pubs) :
    Answered env h c call a := by
  cases ha with
  | @created command p hprep hof hnew =>
    have hst := hpubs p (mem_singleton.mpr rfl)
    refine ⟨command, p.event, hprep, (prepare_ok hprep).2, rfl, hof.key ▸ hst.eventOf, ?_, ?_⟩
    · rw [hof.event]
      rfl
    · intro eventId fingerprint hcr
      obtain ⟨q, rfl, rfl, hkeyq, hq⟩ := hP.stored h₀ hcr
      rw [← hkeyq, hq.eventOf] at hnew
      cases hnew
  | @reused command p hprep hp hkey heq =>
    refine ⟨command, p.event, hprep, (prepare_ok hprep).2, rfl, hkey ▸ hp.eventOf, heq, ?_⟩
    intro eventId fingerprint hcr
    obtain ⟨q, rfl, rfl, hkeyq, hq⟩ := hP.stored h₀ hcr
    obtain ⟨hid, hev⟩ := (hk q hq).unique hp (hkeyq.trans hkey.symm)
    rw [hid, hev, heq]
  | refused href => exact href.refused hP h₀ hk fun p hp => .inl hp

theorem AnswerAll.answered (hP : Published env c₀ h) (h₀ : WholeEvents c₀) (hk : Kept c₀ c)
    (hpubs : ∀ p ∈ pubs, p.Stored c) (ha : AnswerAll env c₀ (·.Stored c) calls answers pubs) :
    Forall₂ (Answered env h c) calls answers := by
  induction ha with
  | nil => exact .nil
  | cons ha _ ih =>
    exact .cons (ha.answered hP h₀ hk fun p hp => hpubs p (mem_append_left _ hp))
      (ih fun p hp => hpubs p (mem_append_right _ hp))

theorem Truthful.kept (hk : Kept c c') (hc : WholeEvents c) (hx : Truthful env h c x) :
    Truthful env h c' x := by
  obtain ⟨op, n, result⟩ := x
  cases op with
  | setUser => trivial
  | publish calls =>
    cases result with
    | error e => exact hx
    | ok answers =>
      refine Forall₂.imp (fun call a ha => ?_) hx
      cases a with
      | error e => exact ha
      | ok r =>
        obtain ⟨command, row, hprep, hcaller, hfp, hev, hrest⟩ := ha
        exact ⟨command, row, hprep, hcaller, hfp, hk.eventOf hc hev, hrest⟩

theorem published_empty (env : Env) : Published env ∅ [] where
  created key eventId fingerprint := by simp [Created, eventOf]
  once := nodup_nil
  outcome x earlier hx := by
    have := suffix_nil.mp hx
    cases this

theorem Adds.eventOf (ha : Adds c c' pubs) (hc : WholeEvents c) (hc' : WholeEvents c')
    (hev : eventOf c' key = some event) :
    eventOf c key = some event ∨
      ∃ p ∈ pubs, p.event.key = key ∧ p.eventId = event.1 ∧ p.event = event.2 := by
  obtain ⟨q, hid, hrow, rfl, -, hst⟩ := hc'.of_eventOf hev
  by_cases hmem : .event q.eventId ∈ keysOf pubs
  · obtain ⟨p, hp, hk⟩ := mem_keysOf.mp hmem
    have hpid : p.eventId = q.eventId := by
      rcases Publication.mem_keys.mp hk with hk | hk | ⟨e, -, hk⟩ | ⟨-, hk⟩
      · simpa using hk.symm
      all_goals cases hk
    have hev' := (ha.stored p hp).event
    rw [hpid] at hev'
    obtain heq := Option.some.inj (hev'.symm.trans hst.event)
    exact .inr ⟨p, hp, by rw [heq], hpid.trans hid, heq.trans hrow⟩
  · have hold : c.get (.event q.eventId) = some q.event := by
      rw [← hst.event, ha.rows, get_applyAll_of_notMem hmem]
    obtain ⟨p, hpid, hprow, -, hp⟩ := hc.stored _ _ hold
    refine .inl ?_
    rw [← hprow, hp.eventOf, hpid, hprow, hid, hrow]

/-- **The history of the publishers is preserved.** -/
theorem published_preserved (env : Env) :
    Preserved publishDiscipline (Commits env) (Fails env) (Published env) where
  commit c₀ c c' h op n answers hs hc hc' hg hR hP := by
    have hsuffix : ∀ {x earlier}, x :: earlier <:+ ⟨op, n, .ok answers⟩ :: h →
        (x = ⟨op, n, .ok answers⟩ ∧ earlier = h) ∨ x :: earlier <:+ h := fun hx =>
      (suffix_cons_iff.mp hx).imp_left fun heq => by simpa using heq
    cases op with
    | setUser id row =>
      have hevent : ∀ key, eventOf c' key = eventOf c key := by
        intro key
        unfold eventOf
        rw [hR (.eventKey key) rfl]
        cases c.get (.eventKey key) with
        | none => rfl
        | some eventId =>
          simp only [Option.bind_some]
          rw [hR (.event eventId) rfl]
      refine ⟨fun key eventId fingerprint => ?_, hP.once, fun x earlier hx => ?_⟩
      · rw [hevent]
        exact hP.created key eventId fingerprint
      · rcases hsuffix hx with ⟨rfl, rfl⟩ | hx
        · trivial
        · exact (hP.outcome x earlier hx).kept hg hc
    | publish calls =>
      obtain ⟨pubs, hall, hadds⟩ := hR
      have hcreated : createdBy ⟨.publish calls, n, .ok answers⟩
          = pubs.map Publication.created := hall.created
      refine ⟨fun key eventId fingerprint => ?_, ?_, fun x earlier hx => ?_⟩
      · unfold Created
        rw [flatMap_cons, mem_append, hcreated]
        constructor
        · rintro (hmem | hold)
          · obtain ⟨p, hp, heq⟩ := mem_map.mp hmem
            simp only [Publication.created, Prod.mk.injEq, OutboxPublishReceipt.mk.injEq] at heq
            obtain ⟨rfl, rfl, rfl, -⟩ := heq
            exact ⟨p.event, (hadds.stored p hp).eventOf, rfl⟩
          · obtain ⟨row, hev, hfp⟩ := (hP.created key eventId fingerprint).mp hold
            exact ⟨row, hg.eventOf hc hev, hfp⟩
        · rintro ⟨row, hev, rfl⟩
          rcases hadds.eventOf hc hc' hev with hold | ⟨p, hp, rfl, rfl, rfl⟩
          · exact .inr ((hP.created key eventId _).mpr ⟨row, hold, rfl⟩)
          · exact .inl (mem_map.mpr ⟨p, hp, rfl⟩)
      · rw [flatMap_cons, hcreated, map_append, nodup_append', map_map]
        refine ⟨hadds.keys, hP.once, fun key hkey hold => ?_⟩
        -- a transition whose event was created before had an index entry
        obtain ⟨p, hp, rfl⟩ := mem_map.mp hkey
        obtain ⟨⟨key, r⟩, hmem, heq⟩ := mem_map.mp hold
        have hr : r = ⟨r.eventId, r.fingerprint, false⟩ := by
          obtain ⟨x, -, hx⟩ := mem_flatMap.mp hmem
          rw [← createdBy_reused hx]
        rw [hr] at hmem
        obtain ⟨row, hev, -⟩ := (hP.created key r.eventId r.fingerprint).mp hmem
        obtain ⟨q, -, -, hkeyq, -, hq⟩ := hc.of_eventOf hev
        have hnone := (hadds.fresh p hp).2
        dsimp only at heq
        rw [show p.event.key = q.event.key from heq.symm.trans hkeyq.symm, hq.index] at hnone
        cases hnone
      · rcases hsuffix hx with ⟨rfl, rfl⟩ | hx
        · exact hall.answered hs.holds hs.inv (fun p hp => hg p (hs.guar p hp)) hadds.stored
        · exact (hP.outcome x earlier hx).kept hg hc
  error c₀ c h op n e hs hc hF hP := by
    refine ⟨fun key eventId fingerprint => ?_, ?_, fun x earlier hx => ?_⟩
    · unfold Created
      rw [flatMap_cons]
      cases op <;> exact hP.created key eventId fingerprint
    · rw [flatMap_cons]
      cases op <;> exact hP.once
    · rcases suffix_cons_iff.mp hx with heq | hx
      · obtain ⟨rfl, rfl⟩ := List.cons.inj heq
        cases op with
        | setUser => trivial
        | publish calls =>
          obtain ⟨call, hcall, href⟩ := hF
          exact ⟨call, hcall, href.refused hs.holds hs.inv hs.guar fun p hp => hp⟩
      · exact hP.outcome x earlier hx

end History

/-! ### What holds after every run -/

/-- A step of the system leaves everything as it is, or ends one transaction and adds the
publications its answers say it has created: whole ones, and to the outbox nothing else. -/
def StepPublishes (s t : Sys Row PublishOp Err Answers) : Prop :=
  (t.hist = s.hist ∧ t.db = s.db) ∨
    ∃ (x : Ended PublishOp Err Answers) (pubs : List Publication), t.hist = x :: s.hist ∧
      createdBy x = pubs.map Publication.created ∧
      (∀ p ∈ pubs, p.WellFormed ∧ p.Stored t.db ∧ s.db.get (.event p.eventId) = none) ∧
      ∀ k, isOutbox k = true →
        t.db.get k = (s.db.applyAll (pubs.flatMap Publication.writes)).get k

variable {ms : List (Move PublishOp)} {s t : Sys Row PublishOp Err Answers}

/-- **One step publishes whole events or nothing.** -/
theorem step_publishes {A : PublishOp → Tx Answers → Db → Prop}
    (hok : SysOk publishDiscipline A (Commits env) (Fails env) (Published env) s)
    {m : Move PublishOp} (hm : step (publishBody env) s m = some t) : StepPublishes s t := by
  cases m with
  | start i op =>
    simp only [step] at hm
    split at hm <;> cases hm
    exact .inl ⟨rfl, rfl⟩
  | abort i =>
    simp only [step] at hm
    split at hm <;> cases hm
    exact .inl ⟨rfl, rfl⟩
  | advance i =>
    simp only [step] at hm
    split at hm
    · cases hm
    · next op answers d n hx =>
      cases hm
      obtain ⟨c₀, -, hR⟩ := hok.committed hx
      cases op with
      | setUser id row =>
        exact .inr ⟨_, [], rfl, rfl, fun p hp => (by cases hp), fun k hk => hR k hk⟩
      | publish calls =>
        obtain ⟨pubs, hall, hadds⟩ := hR
        exact .inr ⟨_, pubs, rfl, hall.created,
          fun p hp => ⟨hadds.wellFormed p hp, hadds.stored p hp, (hadds.fresh p hp).1⟩,
          fun k _ => hadds.rows k⟩
    · next op e d n hx =>
      cases hm
      refine .inr ⟨_, [], rfl, ?_, fun p hp => (by cases hp), fun k _ => rfl⟩
      cases op <;> rfl
    · split at hm <;> cases hm
      exact .inl ⟨rfl, rfl⟩

/-- **Publication is at most once for each transition, and all or nothing**: in every state of
a run every event is stored whole, with its recipients and its delivery; no two events have
one transition; every transaction has answered from what was published before it was opened;
and every step from there adds whole publications or nothing. -/
theorem publication_exact (hs : run (publishBody env) (Sys.init ∅) ms = some s) :
    WholeEvents s.db ∧
      (∀ eventId eventId' (row row' : EventRow), s.db.get (.event eventId) = some row →
        s.db.get (.event eventId') = some row' → row.key = row'.key → eventId = eventId') ∧
      Published env s.db s.hist ∧
      ∀ m t, step (publishBody env) s m = some t → StepPublishes s t ∧ Kept s.db t.db := by
  have hv := publish_verified env fun _ _ _ => True
  have hinit : SysOk publishDiscipline (fun _ _ _ => True) (Commits env) (Fails env)
      (Published env) (Sys.init ∅ : Sys Row PublishOp Err Answers) :=
    SysOk.init wholeEvents_empty (published_empty env)
  have hp := published_preserved env
  have hok := (hv.run hp ms (allowsRun_true _ ms _) hinit hs).1
  refine ⟨hok.inv, fun eventId eventId' row row' hrow hrow' hkey => ?_, hok.holds,
    fun m t hm => ⟨step_publishes hok hm, ?_⟩⟩
  · obtain ⟨p, rfl, rfl, -, hp⟩ := hok.inv.stored eventId row hrow
    obtain ⟨q, rfl, rfl, -, hq⟩ := hok.inv.stored eventId' row' hrow'
    exact (hp.unique hq hkey).1
  · exact (hv.step hp hok (fun _ _ _ _ => trivial) hm).2

/-! ### A run of two producers -/

/-- Library functions that are right about the sample runs. -/
def sampleEnv : Env where
  sha256 s := s
  dumps
    | .dict [("request_id", .str s)] => "\x7b\"request_id\":\"" ++ s ++ "\"\x7d"
    | _ => ""
  isoformat _ := ""

/-- A quota request is approved. -/
def sampleCall (eventId userId requestId : String) : PublishCall where
  command := {
    eventId
    eventType := .quotaApproved
    schemaVersion := 1
    aggregateType := "quota_request"
    aggregateId := "q"
    transitionVersion := 2
    occurredAt := 0
    payload := [("request_id", .str requestId)]
    recipients := [{ recipientUserId := userId }] }
  caller := "quota"
  now := 1

/-- The approval is published for one user while it is published for another one, and then
with another payload. -/
def sampleRun : List (Move PublishOp) :=
  alone 0 (.setUser "a" (some ⟨"user", "active"⟩)) 2
    ++ alone 1 (.setUser "b" (some ⟨"user", "active"⟩)) 2
    ++ alone 2 (.publish [sampleCall "e" "a" "r"]) 7
    ++ alone 3 (.publish [sampleCall "f" "b" "r"]) 2
    ++ alone 4 (.publish [sampleCall "g" "a" "s"]) 2

/-- The receipts a transaction has got, with the transition and the recipients asked for. -/
def receiptsOf (x : Ended PublishOp Err Answers) :
    List (EventKey × List String × OutboxPublishReceipt) :=
  match x.op, x.result with
  | .publish calls, .ok answers => (calls.zip answers).filterMap fun
    | (call, .ok r) => some (call.command.key, call.command.recipients.map (·.recipientUserId), r)
    | _ => none
  | _, _ => []

/-- What the history of a run says of the receipts. -/
def receiptsAfter (o : Option (Sys Row PublishOp Err Answers)) :
    Option (List (List (EventKey × List String × OutboxPublishReceipt))) :=
  o.map fun s => s.hist.map receiptsOf

/-- The event of the sample runs. -/
def sampleReceipt (reused : Bool) : OutboxPublishReceipt where
  eventId := "e"
  fingerprint := "outbox-event-v1\x00quota_approved\x001\x00\x7b\"request_id\":\"r\"\x7d"
  reused

theorem sampleRun_receipts :
    receiptsAfter (run (publishBody sampleEnv) (Sys.init ∅) sampleRun)
      = some [[], [((sampleCall "e" "a" "r").command.key, ["b"], sampleReceipt true)],
          [((sampleCall "e" "a" "r").command.key, ["a"], sampleReceipt false)], [], []] := by
  decide +kernel

theorem publication_exact_sample :
    ∃ s, run (publishBody sampleEnv) (Sys.init ∅) sampleRun = some s ∧ WholeEvents s.db ∧
      Published sampleEnv s.db s.hist ∧ s.hist.length = 5 := by
  have hrun := sampleRun_receipts
  cases hs : run (publishBody sampleEnv) (Sys.init ∅) sampleRun with
  | none =>
    rw [hs] at hrun
    cases hrun
  | some s =>
    rw [hs] at hrun
    obtain ⟨hwhole, -, hpublished, -⟩ := publication_exact hs
    have hlen := congrArg List.length (Option.some.inj hrun)
    exact ⟨s, rfl, hwhole, hpublished, by simpa using hlen⟩

/-- Two transactions that got receipts for one transition asked for the same recipients. -/
def SameRecipients (h : List (Ended PublishOp Err Answers)) : Prop :=
  ∀ x ∈ h, ∀ y ∈ h, ∀ key users users' r r', (key, users, r) ∈ receiptsOf x →
    (key, users', r') ∈ receiptsOf y → users = users'

/-- **A different set of recipients is no conflict**: the transaction gets the receipt of the
event there is. -/
theorem recipients_ignored :
    ¬ ∀ ms s, run (publishBody sampleEnv) (Sys.init ∅) ms = some s → SameRecipients s.hist := by
  intro hall
  have hrun := sampleRun_receipts
  cases hs : run (publishBody sampleEnv) (Sys.init ∅) sampleRun with
  | none =>
    rw [hs] at hrun
    cases hrun
  | some s =>
    rw [hs] at hrun
    have hmap := Option.some.inj hrun
    have hreceipts : ∀ l ∈ s.hist.map receiptsOf, ∃ x ∈ s.hist, receiptsOf x = l := fun l hl => by
      obtain ⟨x, hx, rfl⟩ := List.mem_map.mp hl
      exact ⟨x, hx, rfl⟩
    rw [show s.hist.map receiptsOf = _ from hmap] at hreceipts
    obtain ⟨x, hx, hxr⟩ := hreceipts _ (List.mem_cons_of_mem _ List.mem_cons_self)
    obtain ⟨y, hy, hyr⟩ := hreceipts _
      (List.mem_cons_of_mem _ (List.mem_cons_of_mem _ List.mem_cons_self))
    have hsame := hall _ s hs x hx y hy _ _ _ _ _ (by rw [hxr]; exact List.mem_cons_self)
      (by rw [hyr]; exact List.mem_cons_self)
    revert hsame
    decide

end RagQs.Outbox
