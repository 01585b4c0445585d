import RagQs.Usage.QuotaRuns
import RagQs.Usage.RequestProof

/-!
# Runs of quota requests

Creations, reviews and cancellations by any users and under any idempotency keys,
interleaved statement by statement, from an empty database; the accounts of the users come,
go and are frozen at any time.

## Main definitions

* `RequestOp`, `requestBody` — the transactions.
* `RequestsExact` — approvals grant exactly what was approved.
* `Repeats` — a transaction repeats another one with the same key and the same facts.

## Main results

* `request_verified` — every transaction keeps the discipline and answers from its key.
* `quota_requests_exact` — what holds after every run.
-/

namespace RagQs.Usage.Requests

open Txn Txn.Discipline Store List Option

variable {result : Response}

/-- The transactions on requests, and changes of the accounts by others. -/
inductive RequestOp
  | create (a : CreateArgs)
  | approve (a : ReviewArgs) (approvedPages : Val)
  | reject (a : ReviewArgs)
  | cancelForAccount (userId reason : String) (now : Time)
  | cancelClosedPeriods (lock : CalendarLock) (now : Time)
  | revokeAllPending (reason : String) (now : Time)
  /-- `UsageMaintenanceWorker._cancel` -/
  | cancel (requestId reason : String) (now : Time)
  | setUser (id : String) (row : Option IdentityUserRow)

/-- What a transaction returns. -/
inductive Outcome
  /-- The answer of an idempotent transaction; a review may commit and then raise. -/
  | answer (a : Except Err Response)
  /-- The number of requests a cancellation has cancelled. -/
  | affected (n : ℕ)

/-- The program of each transaction. -/
def requestBody (env : Env) : RequestOp → Tx Outcome
  | .create a => do
    let response ← create env a
    return .answer (.ok response)
  | .approve a pages => do
    let answer ← approve env a pages
    return .answer answer
  | .reject a => do
    let answer ← reject env a
    return .answer answer
  | .cancelForAccount userId reason now => do
    let n ← cancelForAccount userId reason now
    return .affected n
  | .cancelClosedPeriods lock now => do
    let n ← cancelClosedPeriods env lock now
    return .affected n
  | .revokeAllPending reason now => do
    let n ← revokeAllPending reason now
    return .affected n
  | .cancel requestId reason now => do
    let n ← cancelTransition requestId reason now
    return .affected n
  | .setUser id row => do
    Prog.update (fun _ => [⟨.identityUser id, row⟩]) fun _ => ()
    return .affected 0

/-! ### Idempotency -/

/-- A row of `platform_idempotency` a request refers to: its key and its hash. -/
structure IdemKey where
  scope : String
  key : String
  hash : String

/-- A stored response of the request. -/
def IdemKey.Stored (k : IdemKey) (c : Db) (result : Response) : Prop :=
  Requests.Stored c k.scope k.key k.hash result

/-- The idempotency key of a review. -/
def Review.idemKey (env : Env) (r : Review) : IdemKey := ⟨r.scope env, r.key, r.hash env⟩

/-- The idempotency key of a transaction whose arguments are accepted. -/
def idemKey (env : Env) : RequestOp → Option IdemKey
  | .create a => (validateCreate a).toOption.map fun x =>
    ⟨createScope a.actor, x.1, requestHash env a.actor x.2⟩
  | .approve a pages => (validateReview "approve" a pages).toOption.map (·.idemKey env)
  | .reject a => (validateReview "reject" a .null).toOption.map (·.idemKey env)
  | _ => none

/-- The transaction has an idempotency key. -/
def RequestOp.keyed : RequestOp → Bool
  | .create _ | .approve _ _ | .reject _ => true
  | _ => false

/-- What a transaction answers from a stored response. -/
def RequestOp.replayed : RequestOp → Response → Except Err Response
  | .create _, result => .ok result
  | _, result => replayedApproval result

/-- The two reviews have the same key and the same facts. -/
structure SameReview (a b : ReviewArgs) : Prop where
  actor : a.actor = b.actor
  requestId : a.requestId = b.requestId
  expectedVersion : a.expectedVersion = b.expectedVersion
  idempotencyKey : a.idempotencyKey = b.idempotencyKey

/-- The transaction repeats the other one with the same key and the same facts, at another
time. -/
def Repeats : RequestOp → RequestOp → Prop
  | .create a, .create b => a.actor = b.actor ∧ a.requestedPages = b.requestedPages ∧
    a.idempotencyKey = b.idempotencyKey
  | .approve a pages, .approve b pages' => SameReview a b ∧ pages = pages'
  | .reject a, .reject b => SameReview a b
  | _, _ => False

theorem SameReview.validate {a b : ReviewArgs} (h : SameReview a b) (action : String)
    (pages : Val) : validateReview action a pages = validateReview action b pages := by
  unfold validateReview
  rw [h.actor, h.requestId, h.expectedVersion, h.idempotencyKey]

variable {op : RequestOp}

theorem Repeats.same {op' : RequestOp} (h : Repeats op op') (env : Env) :
    idemKey env op = idemKey env op' ∧ op.replayed = op'.replayed ∧ op.keyed = true ∧
      op'.keyed = true := by
  cases op <;> cases op' <;> try exact h.elim
  case create.create a b =>
    obtain ⟨hactor, hpages, hkey⟩ := h
    have hv : validateCreate a = validateCreate b := by
      unfold validateCreate
      rw [hactor, hpages, hkey]
    exact ⟨by rw [idemKey, idemKey, hv, hactor], rfl, rfl, rfl⟩
  case approve.approve a pages b pages' =>
    obtain ⟨hsame, rfl⟩ := h
    exact ⟨by rw [idemKey, idemKey, hsame.validate], rfl, rfl, rfl⟩
  case reject.reject a b =>
    exact ⟨by rw [idemKey, idemKey, h.validate], rfl, rfl, rfl⟩

/-! ### The transactions keep the discipline -/

/-- What a commit says: the answer is the one stored under the key, and where one was stored
before nothing has changed. -/
def Answers (env : Env) (op : RequestOp) (_ : Db) (o : Outcome) (c c' : Db) : Prop :=
  op.keyed = true → ∃ k result, idemKey env op = some k ∧ k.Stored c' result ∧
    o = .answer (op.replayed result) ∧ ∀ earlier, k.Stored c earlier → c' = c

/-- What an error says: no answer is stored under the key, or the error is the one stored. -/
def Refuses (env : Env) (op : RequestOp) (_ : Db) (e : Err) (c : Db) : Prop :=
  ∀ k, idemKey env op = some k →
    (∀ result, ¬ k.Stored c result) ∨ ∃ result, k.Stored c result ∧ op.replayed result = .error e

variable {env : Env} {c c' d : Db} {H : Key → Prop}

variable {k : IdemKey}

private theorem commit_answers {c₀ : Db} (hk : idemKey env op = some k) (hd : Draft c d H)
    (ha : Answered k.scope k.key k.hash result c d H) (hc : requestDiscipline.Inv c) :
    requestDiscipline.Commit (Answers env op c₀) (.answer (op.replayed result)) c d H := by
  obtain ⟨hinv, hguar, hstored⟩ := hd.commit ha hc
  refine ⟨hinv, hguar, fun _ => ⟨k, result, hk, hstored, rfl, ?_⟩⟩
  rintro earlier ⟨row, hrow, -⟩
  rw [ha.fresh] at hrow
  cases hrow

private theorem commit_replay {c₀ : Db} (hk : idemKey env op = some k) (hs : k.Stored c result)
    (hc : requestDiscipline.Inv c) :
    requestDiscipline.Commit (Answers env op c₀) (.answer (op.replayed result)) c ∅ H := by
  unfold Commit
  rw [AList.empty_union]
  exact ⟨hc, requestDiscipline.refl _ _, fun _ => ⟨k, result, hk, hs, rfl, fun _ _ => rfl⟩⟩

private theorem commit_keyless {c₀ : Db} {o : Outcome} (hop : op.keyed = false) (hd : Draft c d H)
    (hkeys : SameKeys ∅ d) (hc : requestDiscipline.Inv c) :
    requestDiscipline.Commit (Answers env op c₀) o c d H := by
  obtain ⟨hinv, hguar⟩ := hd.commit_keyless hkeys hc
  exact ⟨hinv, hguar, fun hkeyed => absurd (hop.symm.trans hkeyed) nofun⟩

theorem IdemKey.Stored.rely (h : k.Stored c result) {W : Key → Prop}
    (hg : requestDiscipline.guar W c c') : k.Stored c' result := by
  obtain ⟨row, hrow, hans⟩ := h
  exact ⟨row, hg.2.idempotency _ _ _ hrow, hans⟩

private theorem wp_review {r : Review} {t : Readings}
    {decide : QuotaRequestRow → CalendarLock → Tx Response} {A : Tx Outcome → Db → Prop}
    (hk : idemKey env op = some (r.idemKey env)) (hop : op.replayed = replayedApproval)
    (hdecide : Decides env A (requestDiscipline.Commit (Answers env op c))
      (fun e c' _ _ => Refuses env op c e c') r t decide) :
    requestDiscipline.wp A (review env r t decide >>= fun answer => .done (.answer answer))
      (requestDiscipline.Commit (Answers env op c)) (fun e c' _ _ => Refuses env op c e c') c' ∅ H := by
  refine wp_review_bind hdecide (fun c₁ d₁ H₁ result hr₁ hd₁ hans c₂ hr₂ => ?_)
    (fun c₁ result response hr₁ hs hresponse c₂ hr₂ => ?_) fun e c₁ _ _ _ hor k hk' => ?_
  · rw [← hop]
    exact commit_answers hk (hd₁.rely hr₂) (hans.later hr₂ (fun _ hk => hk) (.refl _))
      hr₂.inv
  · rw [← hresponse, ← hop]
    exact commit_replay hk (.rely (k := r.idemKey env) hs hr₂.guar) hr₂.inv
  · cases hk.symm.trans hk'
    rw [hop]
    exact hor

/-- **Every transaction keeps the discipline and answers from its key.** -/
theorem request_verified (env : Env) (A : RequestOp → Tx Outcome → Db → Prop) :
    Verified requestDiscipline A (requestBody env) (Answers env) (Refuses env) where
  wp op c hc := by
    have hdone : ∀ {op : RequestOp} {o : Outcome} {c' d' H'}, op.keyed = false → Draft c' d' H' →
        SameKeys ∅ d' → ∀ c'', requestDiscipline.Rely H' c' c'' →
        requestDiscipline.Commit (Answers env op c) o c'' d' H' := fun hop hd hkeys c'' hr =>
      commit_keyless hop (hd.rely hr) hkeys hr.inv
    have hE : ∀ {op : RequestOp}, op.keyed = false → ∀ e c', Refuses env op c e c' := by
      intro op hop e c' k hk
      cases op <;> cases hop <;> cases hk
    cases op with
    | create a =>
      refine wp_create_bind (fun e he c' _ k hk => ?_)
        (fun key pages c₁ d₁ H₁ result hv hr₁ hd₁ hans c₂ hr₂ => ?_)
        (fun key pages c₁ result hv hr₁ hs c₂ hr₂ => ?_)
        fun key pages e c₁ _ _ hv hr₁ hun k hk => ?_
      · rw [idemKey, he] at hk
        cases hk
      · exact commit_answers (k := ⟨createScope a.actor, key, requestHash env a.actor pages⟩)
          (by rw [idemKey, hv]; rfl) (hd₁.rely hr₂) (hans.later hr₂ (fun _ hk => hk) (.refl _)) hr₂.inv
      · exact commit_replay (k := ⟨createScope a.actor, key, requestHash env a.actor pages⟩)
          (by rw [idemKey, hv]; rfl) (.rely hs hr₂.guar) hr₂.inv
      · rw [idemKey, hv] at hk
        cases hk
        exact .inl hun
    | approve a pages =>
      unfold requestBody approve
      simp only [Prog.bind_assoc]
      refine wp_check_bind (fun r hr => ?_) fun e he c' _ k hk => ?_
      · exact wp_review (by rw [idemKey, hr]; rfl) rfl (grant_decides (validateReview_ok hr))
      · rw [idemKey, he] at hk
        cases hk
    | reject a =>
      unfold requestBody reject
      simp only [Prog.bind_assoc]
      refine wp_check_bind (fun r hr => ?_) fun e he c' _ k hk => ?_
      · exact wp_review (by rw [idemKey, hr]; rfl) rfl refuse_decides
      · rw [idemKey, he] at hk
        cases hk
    | cancelForAccount userId reason now =>
      unfold requestBody cancelForAccount
      simp only [Prog.bind_assoc]
      refine wp_check_bind (fun _ _ => ?_) fun e _ c' _ => hE rfl e c'
      refine wp_statement_bind fun c₁ hr₁ => ?_
      refine wp_cancelEach_bind clean_empty.draft hr₁.inv fun n c₂ d₂ H₂ _ _ hd₂ hkeys => ?_
      exact hdone rfl hd₂ hkeys
    | cancelClosedPeriods lock now =>
      unfold requestBody cancelClosedPeriods listCancelCandidates
      simp only [Prog.bind_assoc]
      refine wp_select_bind fun c₁ hr₁ => ?_
      refine wp_cancelCandidates_bind hr₁.inv fun l c₂ hr₂ => ?_
      refine wp_cancelEach_bind clean_empty.draft hr₂.inv fun n c₃ d₃ H₃ _ _ hd₃ hkeys => ?_
      exact hdone rfl hd₃ hkeys
    | revokeAllPending reason now =>
      unfold requestBody revokeAllPending
      simp only [Prog.bind_assoc]
      refine wp_check_bind (fun _ _ => ?_) fun e _ c' _ => hE rfl e c'
      refine wp_select_bind fun c₁ hr₁ => ?_
      refine wp_cancelEach_bind clean_empty.draft hr₁.inv fun n c₂ d₂ H₂ _ _ hd₂ hkeys => ?_
      exact hdone rfl hd₂ hkeys
    | cancel requestId reason now =>
      exact wp_cancelTransition_bind clean_empty.draft fun n c₁ d₁ H₁ _ _ hd₁ hkeys =>
        hdone rfl hd₁ hkeys
    | setUser id row =>
      refine wp_statement_bind fun c₁ hr₁ => ?_
      refine hdone rfl (clean_empty.draft.frame (.refl hr₁.inv) (fun k hk => .inl hk) ?_) ?_
      · intro k hk s
        have hne : k ≠ .identityUser id := by
          rintro rfl
          cases hk
        rw [applyAll_union, applyAll_cons, applyAll_nil, get_set_of_ne hne]
      · intro scope key s
        rw [applyAll_union, applyAll_cons, applyAll_nil, get_set_of_ne (by simp)]

/-! ### What holds after every run -/

/-- The entry is a credit that names the request as its source. -/
structure CreditFor (rid : String) (q : QuotaDebitRow) : Prop where
  kind : q.entryKind = .credit
  source : q.adjustmentSourceNamespace = some "quota_request" ∧ q.adjustmentSourceId = some rid

/-- Exactly one credit names the request, and grants the pages approved, which are no more
than requested. -/
def GrantedOnce (c : Db) (rid : String) (r : QuotaRequestRow) : Prop :=
  ∃ id q, c.get (.quotaDebit id) = some q ∧ CreditFor rid q ∧
    r.approvedPages = some (-q.pageDelta) ∧ 1 ≤ -q.pageDelta ∧ -q.pageDelta ≤ r.requestedPages ∧
    ∀ id' q', c.get (.quotaDebit id') = some q' → CreditFor rid q' → id' = id

/-- Approvals grant exactly what was approved. -/
structure RequestsExact (c : Db) : Prop where
  version : ∀ rid (r : QuotaRequestRow), c.get (.quotaRequest rid) = some r →
    r.version = if r.status = .pending then 1 else 2
  pending : ∀ rid rid' (r r' : QuotaRequestRow), c.get (.quotaRequest rid) = some r →
    c.get (.quotaRequest rid') = some r' → r.status = .pending → r'.status = .pending →
    r.applicantUserId = r'.applicantUserId → r.quotaPeriod = r'.quotaPeriod → rid = rid'
  approved : ∀ rid (r : QuotaRequestRow), c.get (.quotaRequest rid) = some r →
    (r.status = .approved ↔ GrantedOnce c rid r)
  granted : ∀ userId period, grantedOf c userId period = approvedTotal c userId period

theorem RequestInv.exact (hc : RequestInv c) (hq : QuotaInv c) : RequestsExact c where
  version := hc.version
  pending rid rid' r r' hr hr' hp hp' hu hperiod := by
    have hindex := (hc.index _ _ rid).mpr ⟨r, hr, hp, rfl, rfl⟩
    have hindex' := (hc.index _ _ rid').mpr ⟨r', hr', hp', rfl, rfl⟩
    rw [hu, hperiod] at hindex
    exact some.inj (hindex.symm.trans hindex')
  approved rid r hr := by
    constructor
    · intro hs
      obtain ⟨id, q, -, hget, hcredit⟩ := hc.approved rid r hr hs
      refine ⟨id, q, hget, ⟨hcredit.kind, hcredit.source⟩, hcredit.pages, hcredit.positive,
        hcredit.bound, fun id' q' hget' hfor => ?_⟩
      exact hq.agrees.adjustment id' id q' q _ _ hget' hget (hfor.kind.trans hcredit.kind.symm)
        hfor.source.1 hcredit.source.1 hfor.source.2 hcredit.source.2
    · rintro ⟨id, q, hget, hfor, -⟩
      obtain ⟨rid', r', hr', hs, hcredit⟩ := hc.credit id q hget
      cases hfor.source.2.symm.trans hcredit.source.2
      cases hr.symm.trans hr'
      exact hs
  granted := hc.granted

/-- What the caller of an idempotent transaction gets. -/
def answerOf : Except Err Outcome → Option (Except Err Response)
  | .ok (.answer a) => some a
  | .ok (.affected _) => none
  | .error e => some (.error e)

/-- A transaction that has committed, and its repetition. -/
def Repeated (later earlier : Ended RequestOp Err Outcome) : Prop :=
  Repeats later.op earlier.op ∧ ∃ o, earlier.result = .ok o

/-- The answers that have been given are stored, and repetitions have been given the same. -/
structure Replays (env : Env) (c : Db) (h : List (Ended RequestOp Err Outcome)) : Prop where
  stored : ∀ x ∈ h, x.op.keyed = true → ∀ o, x.result = .ok o → ∃ k result,
    idemKey env x.op = some k ∧ k.Stored c result ∧ o = .answer (x.op.replayed result)
  same : h.Pairwise fun later earlier => Repeated later earlier →
    answerOf later.result = answerOf earlier.result

theorem IdemKey.Stored.unique {result' : Response} (h : k.Stored c result) (h' : k.Stored c result') :
    result = result' := by
  obtain ⟨row, hrow, hans⟩ := h
  obtain ⟨row', hrow', hans'⟩ := h'
  cases hrow.symm.trans hrow'
  exact some.inj (hans.2.2.symm.trans hans'.2.2)

theorem replays_preserved :
    Preserved requestDiscipline (Answers env) (Refuses env) (Replays env) where
  commit c₀ c c' h op n o _ _ _ hg hR hP := by
    have hkept : ∀ x ∈ h, x.op.keyed = true → ∀ o, x.result = .ok o → ∃ k result,
        idemKey env x.op = some k ∧ k.Stored c' result ∧ o = .answer (x.op.replayed result) := by
      intro x hx hkeyed o ho
      obtain ⟨k, result, hk, hs, heq⟩ := hP.stored x hx hkeyed o ho
      exact ⟨k, result, hk, hs.rely hg, heq⟩
    refine ⟨fun x hx hkeyed o' ho => ?_, pairwise_cons.mpr ⟨fun x hx hrep => ?_, hP.same⟩⟩
    · rcases mem_cons.mp hx with rfl | hx
      · obtain ⟨k, result, hk, hs, heq, -⟩ := hR hkeyed
        obtain rfl := Except.ok.inj ho
        exact ⟨k, result, hk, hs, heq⟩
      · exact hkept x hx hkeyed o' ho
    · obtain ⟨hrep, o', ho'⟩ := hrep
      obtain ⟨hkey, hreplay, hkeyed, hkeyed'⟩ := hrep.same env
      obtain ⟨k, result, hk, hs, heq⟩ := hkept x hx hkeyed' o' ho'
      obtain ⟨k', result', hk', hs', heq', -⟩ := hR hkeyed
      cases (hkey.trans hk).symm.trans hk'
      obtain rfl := hs.unique hs'
      show answerOf (.ok o) = _
      rw [ho', heq, heq', hreplay]
  error c₀ c h op n e _ _ hF hP := by
    refine ⟨fun x hx hkeyed o ho => ?_, pairwise_cons.mpr ⟨fun x hx hrep => ?_, hP.same⟩⟩
    · rcases mem_cons.mp hx with rfl | hx
      · cases ho
      · exact hP.stored x hx hkeyed o ho
    · obtain ⟨hrep, o, ho⟩ := hrep
      obtain ⟨hkey, hreplay, -, hkeyed⟩ := hrep.same env
      obtain ⟨k, result, hk, hs, heq⟩ := hP.stored x hx hkeyed o ho
      rcases hF k (hkey.trans hk) with hun | ⟨result', hs', he⟩
      · exact absurd hs (hun result)
      · obtain rfl := hs.unique hs'
        rw [ho, heq]
        show some (Except.error e) = some _
        rw [← he, hreplay]

variable {ms : List (Move RequestOp)} {s : Sys Row RequestOp Err Outcome}

/-- **Approvals grant exactly what was approved** in every state of a run; from any state on a
request leaves the status pending at most once, which counts its version up once; and a
transaction that repeats a committed one gets the same answer and changes nothing. -/
theorem quota_requests_exact (hs : run (requestBody env) (Sys.init ∅) ms = some s) :
    RequestsExact s.db ∧
      (∀ ns t, run (requestBody env) s ns = some t → Moved s.db t.db) ∧
      (s.hist.Pairwise fun later earlier => Repeated later earlier →
        answerOf later.result = answerOf earlier.result) ∧
      ∀ i x t, s.sessions i = some x →
        (∃ y ∈ s.hist, Repeats x.op y.op ∧ ∃ o, y.result = .ok o) →
        step (requestBody env) s (.advance i) = some t → t.db = s.db := by
  have hv := request_verified env fun _ _ _ => True
  have hinit : SysOk requestDiscipline (fun _ _ _ => True) (Answers env) (Refuses env)
      (Replays env) (Sys.init ∅ : Sys Row RequestOp Err Outcome) :=
    SysOk.init ⟨quotaInv_empty, requestInv_empty, fun _ _ _ h => by simp at h⟩
      ⟨by simp, List.Pairwise.nil⟩
  have hok := (hv.run replays_preserved ms (allowsRun_true _ ms _) hinit hs).1
  refine ⟨hok.inv.2.1.exact hok.inv.1, fun ns t ht => ?_, hok.holds.same,
    fun i x t hx hrep ht => ?_⟩
  · exact (hv.run replays_preserved ns (allowsRun_true _ ns _) hok ht).2.2.request
  · obtain ⟨y, hy, hrep, o, ho⟩ := hrep
    rcases step_advance_db hx ht with hdb | ⟨a, hprog, hdb⟩
    · exact hdb
    · obtain ⟨op, prog, d, n⟩ := x
      dsimp only at hrep hprog hdb
      subst hprog
      obtain ⟨hkey, -, hop, hkeyed⟩ := hrep.same env
      obtain ⟨k, result, hk, hstored, -⟩ := hok.holds.stored y hy hkeyed o ho
      obtain ⟨c₀, -, hR⟩ := hok.committed hx
      obtain ⟨k', _, hk', -, -, hsame⟩ := hR hop
      obtain rfl := Option.some.inj ((hkey.trans hk).symm.trans hk')
      rw [hdb]
      exact hsame result hstored

/-! ### A run of an approval and its repetition -/

/-- The clock and the tokens of the sample runs. -/
def sampleReadings (now : Time) (token : String) : Readings :=
  ⟨now, now, "c", now, token, now⟩

/-- The user `"u"` asks for ten pages. -/
def sampleCreate : CreateArgs where
  actor := ⟨"u", "user", none⟩
  requestedPages := .int 10
  idempotencyKey := "k"
  readings := sampleReadings 1 "a"

/-- An operator approves five of them. -/
def sampleApprove (now : Time) (token : String) : RequestOp :=
  .approve {
    actor := ⟨"o", "ops", none⟩
    requestId := "qr_a"
    expectedVersion := .int 1
    idempotencyKey := "k"
    enqueue := .ok ()
    readings := sampleReadings now token } (.int 5)

/-- The approval is repeated while it is under way; then all requests are revoked. -/
def sampleRequests : List (Move RequestOp) :=
  alone 0 (.setUser "u" (some ⟨"active"⟩)) 2 ++ alone 1 (.create sampleCreate) 6
    ++ alone 2 (sampleApprove 2 "b") 4 ++ [.start 3 (sampleApprove 3 "c")]
    ++ replicate 9 (.advance 2) ++ replicate 3 (.advance 3)
    ++ alone 4 (.revokeAllPending "stop" 5) 2

/-- What has been granted after a run, and how many transactions have ended. -/
def grantedAfter (o : Option (Sys Row RequestOp Err Outcome)) (userId period : String) :
    Option (ℤ × ℤ × ℕ) :=
  o.map fun s => (grantedOf s.db userId period, approvedTotal s.db userId period, s.hist.length)

theorem quota_requests_exact_sample :
    ∃ s, run (requestBody sampleEnv) (Sys.init ∅) sampleRequests = some s ∧
      RequestsExact s.db ∧ grantedOf s.db "u" "2026-01" = 5 ∧ s.hist.length = 5 := by
  have hgranted : grantedAfter (run (requestBody sampleEnv) (Sys.init ∅) sampleRequests) "u"
      "2026-01" = some (5, 5, 5) := by decide +kernel
  cases hs : run (requestBody sampleEnv) (Sys.init ∅) sampleRequests with
  | none =>
    rw [hs] at hgranted
    cases hgranted
  | some s =>
    rw [hs] at hgranted
    obtain ⟨hg, hrest⟩ := Prod.mk.inj (Option.some.inj hgranted)
    exact ⟨s, rfl, (quota_requests_exact hs).1, hg, (Prod.mk.inj hrest).2⟩

end RagQs.Usage.Requests
