import RagQs.Chat.System
import RagQs.Chat.WorkerProof

/-!
# Runs of the chat

Any number of transactions of the chat, interleaved statement by statement from an empty
database: every one keeps the life of every generation, and what holds of one step holds of whole
runs.

## Main definitions

* `Spec` — what a committed transaction has done.
* `Claims` — the claims the workers were given.

## Main results

* `chat_verified` — every transaction keeps the discipline of the chat.
* `chat_run` — what holds after every run.
-/

namespace RagQs.Chat

open Txn Discipline List Option Store

variable {S : Strict} {vote : Prop} {C : List (Write Row) → Db → Prop} {c c' c₀ d : Db}
  {H : Key → Prop} {g : String} {β : Type} {w : Held} {env : Env}

variable {ms : List (Move Op)}

/-! ### New windows -/

theorem snap_set_newWindow (v : Db) (w : String) (row : WindowRow) (g : String) :
    snap (v.set (.window w) (some row)) g
      = { snap v g with windows := fun w' => w' = w ∨ (snap v g).windows w' } := by
  unfold snap
  congr 1
  · exact get_set_of_ne (by simp)
  · exact get_set_of_ne (by simp)
  · funext q
    exact get_set_of_ne (by simp)
  · exact get_set_of_ne (by simp)
  · funext u
    exact get_set_of_ne (by simp)
  · funext w'
    by_cases hw : w' = w
    · subst hw
      rw [get_set_self]
      simp
    · rw [get_set_of_ne (by simp [hw])]
      simp [hw]

theorem Ok.addWindow {s : Snapshot} {W : String → Prop} {locked : Prop} (h : Ok S s)
    (hW : ∀ w, s.windows w → W w) :
    Ok S { s with windows := W } ∧ Moves S locked vote s { s with windows := W } :=
  ⟨{ h with window := fun p w hp hw => hW w (h.window p w hp hw) },
    { Moves.refl S locked vote s with windows := hW }⟩

theorem Inv.tally_absent {v : Db} (h : Inv S v) {w : String} (hw : v.get (.window w) = none) :
    tally v w = 0 := by
  refine (total_congr (t := ∅) fun k => ?_).trans (total_empty (votedIn w))
  rw [get_empty, weight_none]
  cases hget : v.get k with
  | none => rfl
  | some r =>
    cases k with
    | pair g =>
      refine if_neg fun hr => ?_
      have hwin : (v.get (.window w)).isSome = true := (h.ok g).window r w hget hr.1
      rw [hw] at hwin
      cases hwin
    | _ => rfl

theorem triple_createWindow {windowId : String} :
    (chat S).Triple C (Good S vote) (createWindow windowId) fun _ => Good S vote := by
  refine .insert fun c d H _ hφ hfree _ c' hr => ?_
  have hH : writing H [(⟨.window windowId, some ⟨0⟩⟩ : Write Row)]
      = fun k => H k ∨ k = .window windowId := by
    funext k
    simp [writing]
  rw [hH] at hr ⊢
  have hnew : (d ∪ c' : Db).get (.window windowId) = none := by
    rw [hr.view d (.inr rfl)]
    simpa [taken] using hfree
  have hgood := hφ c' (hr.mono fun k hk => .inl hk)
  have key : ∀ g, Ok S (snap ((d ∪ c' : Db).set (.window windowId) (some ⟨0⟩)) g) ∧
      Moves S (H (.generation g)) vote (snap (d ∪ c' : Db) g)
        (snap ((d ∪ c' : Db).set (.window windowId) (some ⟨0⟩)) g) := by
    intro g
    rw [snap_set_newWindow]
    exact (hgood.inv.ok g).addWindow fun w hw => .inr hw
  show Good S vote c' (d.set (.window windowId) (some ⟨0⟩)) _
  refine ⟨⟨fun g => ?_, fun w row hrow => ?_⟩, fun g => ?_⟩
  · rw [set_union]
    exact (key g).1
  · rw [set_union] at hrow ⊢
    rw [tally_set_of_not_pair (by simp)]
    by_cases hw : w = windowId
    · subst hw
      rw [get_set_self] at hrow
      cases hrow
      exact (hgood.inv.tally_absent hnew).symm
    · rw [get_set_of_ne (by simp [hw])] at hrow
      exact hgood.inv.counted w row hrow
  · rw [set_union]
    exact ((hgood.guar g).trans (key g).2).mono (fun hk => .inl hk) id

/-! ### What a worker starts from -/

theorem rely_given (hr : (chat S).Rely H c c') (h : Given S w (snap (d ∪ c : Db) w.generationId)) :
    Given S w (snap (d ∪ c' : Db) w.generationId) := by
  intro hS
  refine (h hS).imp id fun ⟨r, hget, hterm⟩ => ?_
  by_cases hk : Key.generation w.generationId ∈ d
  · have hr' : (d ∪ c : Db).get (.generation w.generationId) = some r := hget
    refine ⟨r, ?_, hterm⟩
    show (d ∪ c' : Db).get (.generation w.generationId) = some r
    rw [get_union_of_mem hk] at hr' ⊢
    exact hr'
  · have hr' : (d ∪ c : Db).get (.generation w.generationId) = some r := hget
    rw [get_union_of_notMem hk] at hr'
    obtain ⟨r', hr'', hterm', -⟩ := (hr.guar w.generationId).row r hr'
    refine ⟨r', ?_, hterm' hterm⟩
    show (d ∪ c' : Db).get (.generation w.generationId) = some r'
    rw [get_union_of_notMem hk]
    exact hr''

theorem triple_openExecution {e : String} :
    (chat S).Triple C (Good S vote) (openExecution g e) fun o c d H => Good S vote c d H ∧
      ∀ w, o = .held w → Given S w (snap (d ∪ c : Db) w.generationId) := by
  -- what is known of the row that was read first
  let Read : GenerationRow → Assn Row := fun r c d H => Good S vote c d H ∧
    (r.status ≠ .stopRequested → ∀ w : Held, w.generationId = g →
      w.controlVersion = r.controlVersion → Given S w (snap (d ∪ c : Db) g))
  have hkeep : ∀ {β : Type} {p : Tx β} {r : GenerationRow}, Quiet S vote C p →
      (chat S).Triple C (Read r) p fun _ => Read r := by
    intro β p r hp
    refine ((hp.keep (g := g) (L := False) (F := fun s => r.status ≠ .stopRequested →
      ∀ w : Held, w.generationId = g → w.controlVersion = r.controlVersion →
        Given S w s)).conseq (fun _ _ _ _ h => ⟨h.1, False.elim, h.2⟩)
      fun _ _ _ _ _ h => ⟨h.1, h.2.2⟩)
  unfold openExecution
  refine .bind (ψ := fun o c d H => Good S vote c d H ∧ ∀ r, o = some r → Read r c d H)
    (.select fun c d H hc hφ c' hr => ⟨hφ c' hr, fun r hget => ⟨hφ c' hr, ?_⟩⟩) fun o => ?_
  · rintro hst w rfl hw
    refine rely_given hr fun _ => ?_
    cases hterm : r.status.terminal with
    | true => exact .inr ⟨r, hget, hterm⟩
    | false =>
      have hctrl := ((hφ.now hc).inv.ok w.generationId).control r hget
      refine .inl (hw.trans (hctrl.running ?_))
      revert hst hterm
      cases r.status <;> simp [GenerationStatus.terminal]
  · refine .bind (ψ := Read) (.orRaise fun r ho c d H _ h => h.2 r ho) fun r => ?_
    split
    · exact .done fun _ _ _ _ h => ⟨h.1, fun w hw => by cases hw⟩
    · next hst =>
      refine .bind (hkeep .readRow) fun execution =>
        .bind (hkeep .orRaise) fun execution => .done fun c d H _ h => ⟨h.1, ?_⟩
      rintro w ⟨⟩
      exact h.2 hst _ rfl rfl

/-! ### The transactions -/

/-- The transaction is a vote. -/
def Op.votes : Op → Prop
  | .vote _ => True
  | _ => False

/-- What a committed transaction has done, between the state before its commit and the one
after it. -/
structure Spec (S : Strict) (op : Op) (_ : Db) (a : Reply) (c c' : Db) : Prop where
  guar : Guar S op.votes (fun _ => True) c c'
  /-- A claim that is given has the first control version, or its generation has ended. -/
  given : ∀ w, a = .opened (.held w) → Given S w (snap c' w.generationId)

/-- What was given to the workers stays as it was given. -/
def Claims (S : Strict) (c : Db) (h : List Past) : Prop :=
  ∀ e ∈ h, ∀ w, e.result = .ok (.opened (.held w)) → Given S w (snap c w.generationId)

theorem Claims.given {op : Op} {h : List Past} (hP : Claims S c h)
    (hpre : S.genuine → Issued op h) (hw : op.held = some w) :
    Given S w (snap c w.generationId) := by
  intro hS
  obtain ⟨e, he, hres⟩ := hpre hS w hw
  exact hP e he w hres hS

theorem always_good : (chat S).Always (Good S vote) c ∅ H :=
  fun _ hr => .empty hr.inv

theorem always_given (hw : Given S w (snap c w.generationId)) :
    (chat S).Always (fun c d H => Good S vote c d H ∧ Given S w (snap (d ∪ c : Db) w.generationId))
      c ∅ H := by
  intro c' hr
  refine ⟨.empty hr.inv, rely_given (c := c) hr ?_⟩
  rw [AList.empty_union]
  exact hw

theorem wp_reply {op : Op} {p : Tx β} {f : β → Reply} {φ : Assn Row} (hc : Inv S c)
    (hp : (chat S).Triple (Permits S) φ p fun _ => Good S op.votes)
    (hφ : (chat S).Always φ c ∅ fun _ => False) (hf : ∀ b w, f b ≠ .opened (.held w)) :
    (chat S).wp (onWrites (Permits S)) (p >>= fun b => pure (f b))
      ((chat S).Commit (Spec S op c₀)) (fun _ _ _ _ => True) c ∅ fun _ => False := by
  refine Triple.commit (ψ := fun a c d H => Good S op.votes c d H ∧ ∃ b, a = f b)
    (Triple.bind hp fun b => Triple.done fun _ _ _ _ h => ⟨h, b, rfl⟩) hc hφ ?_
  rintro _ c d H - ⟨h, b, rfl⟩
  exact ⟨h.inv, h.guar.mono (fun _ hk => hk) fun _ => trivial,
    h.guar.mono (fun _ _ => trivial) id, fun w hw => absurd hw (hf b w)⟩

/-- `_emit_stage` and `_emit_step`: an event of a worker, which fails when its claim is lost. -/
theorem triple_emitOrThrow {busy : Bool} {eventType : EventType} {data : JsonObject}
    (he : eventType.terminal = false) :
    (chat S).Triple C
      (fun c d H => Good S vote c d H ∧ Given S w (snap (d ∪ c : Db) w.generationId))
      (do if ← emitFenced w busy eventType data then pure () else throw stateConflict : Tx Unit)
      fun _ => Good S vote := by
  refine .bind (triple_emitFenced he) fun held => ?_
  split
  · exact Quiet.done.good
  · exact Quiet.fail.good

/-- The reads of `_execute`. -/
theorem wp_openExecution {e : String} (hc : Inv S c) :
    (chat S).wp (onWrites (Permits S)) (body env (.openExecution g e))
      ((chat S).Commit (Spec S (.openExecution g e) c₀)) (fun _ _ _ _ => True) c ∅
      fun _ => False := by
  refine Triple.commit (φ := Good S False) (ψ := fun a c d H => Good S False c d H ∧
    ∀ w, a = .opened (.held w) → Given S w (snap (d ∪ c : Db) w.generationId))
    (Triple.bind triple_openExecution fun o => Triple.done fun c d H _ h => ⟨h.1, ?_⟩) hc
    always_good ?_
  · exact fun w hw => h.2 w (Reply.opened.inj hw)
  · exact fun a c d H _ h => ⟨h.1.inv, h.1.guar.mono (fun _ hk => hk) fun _ => trivial,
      h.1.guar.mono (fun _ _ => trivial) id, h.2⟩

/-- **Every transaction keeps the discipline of the chat.** -/
theorem chat_verified (S : Strict) (env : Env) :
    VerifiedFrom (chat S) (fun _ => onWrites (Permits S)) (body env)
      (fun op h => S.genuine → Issued op h) (Spec S) (fun _ _ _ _ => True) (Claims S) := by
  refine ⟨fun op c h hc hP hpre => ?_⟩
  have hgood : ∀ vote, (chat S).Always (Good S vote) c ∅ fun _ => False :=
    fun _ => always_good
  have hgiven : ∀ w vote, op.held = some w → (chat S).Always (fun c d H => Good S vote c d H ∧
      Given S w (snap (d ∪ c : Db) w.generationId)) c ∅ fun _ => False :=
    fun w _ hw => always_given (hP.given hpre hw)
  have hnothing : ∀ β (b : β) (w : Held), Reply.nothing ≠ .opened (.held w) := by simp
  cases op with
  | createConversation id userId now =>
    exact wp_reply hc quiet_createConversationRow.good (hgood _) (hnothing _)
  | ask a => exact wp_reply hc triple_ask (hgood _) (hnothing _)
  | retry a => exact wp_reply hc triple_retry (hgood _) (hnothing _)
  | stop userId g verified => exact wp_reply hc triple_stop (hgood _) (hnothing _)
  | click userId g verified data =>
    exact wp_reply hc triple_recordCitationClick (hgood _) (hnothing _)
  | vote a => exact wp_reply hc triple_submitAbVote (hgood _) (hnothing _)
  | createLease token g session now =>
    exact wp_reply hc triple_createLease (hgood _) (hnothing _)
  | renewLease token now =>
    exact wp_reply hc quiet_renewLease.good (hgood _) (hnothing _)
  | invalidateLease token now =>
    exact wp_reply hc triple_invalidateLease (hgood _) (hnothing _)
  | revoke operationId scope => exact wp_reply hc triple_revoke (hgood _) (hnothing _)
  | recordRevocation operationId scope =>
    refine wp_reply hc (Quiet.insert fun x hx => ?_).good (hgood _) (hnothing _)
    rw [mem_singleton.mp hx]
    rfl
  | createWindow windowId =>
    exact wp_reply hc triple_createWindow (hgood _) (hnothing _)
  | expireWindowPairs windowId =>
    exact wp_reply hc triple_expireWindowPairs (hgood _) (hnothing _)
  | hasVotablePairs windowId =>
    exact wp_reply hc Quiet.select.good (hgood _) (by simp)
  | claim a => exact wp_reply hc quiet_claimExecution.good (hgood _) (by simp)
  | openExecution g e => exact wp_openExecution hc
  | heartbeat g e token now =>
    exact wp_reply hc quiet_heartbeat.good (hgood _) (by simp)
  | stage w busy phase detail =>
    exact wp_reply hc (triple_emitOrThrow rfl) (hgiven w _ rfl) (hnothing _)
  | step w busy index label state =>
    exact wp_reply hc (triple_emitOrThrow rfl) (hgiven w _ rfl) (hnothing _)
  | delta w busy content =>
    exact wp_reply hc (.bind (triple_emitFenced rfl) fun _ => Quiet.done.good)
      (hgiven w _ rfl) (hnothing _)
  | notice w busy kind detail =>
    exact wp_reply hc triple_emitNotice (hgiven w _ rfl) (hnothing _)
  | upgrade w busy busyAgain previous upgraded =>
    exact wp_reply hc triple_persistEffortUpgrade (hgood _) (hnothing _)
  | checkpoint w checkpoint =>
    exact wp_reply hc quiet_persistCheckpoint.good (hgood _) (hnothing _)
  | publish w p => exact wp_reply hc triple_publish (hgood _) (hnothing _)
  | stopTerminal w busy reason =>
    exact wp_reply hc triple_stopTerminal (hgood _) (hnothing _)
  | fail w busy now error =>
    exact wp_reply hc triple_failExecution (hgood _) (hnothing _)
  | maintenance newId busy now =>
    exact wp_reply hc triple_runMaintenance (hgood _) (hnothing _)
  | expiry busy now => exact wp_reply hc triple_runExpiry (hgood _) (hnothing _)
  | reconcile g e now decision =>
    exact wp_reply hc quiet_reconcileProvider.good (hgood _) (hnothing _)

/-! ### Whole runs -/

theorem Given.later {W : Key → Prop} (h : Given S w (snap c w.generationId))
    (hg : Guar S vote W c c') : Given S w (snap c' w.generationId) := by
  intro hS
  refine (h hS).imp id fun ⟨r, hr, hterm⟩ => ?_
  obtain ⟨r', hr', hterm', -⟩ := (hg w.generationId).row r hr
  exact ⟨r', hr', hterm' hterm⟩

theorem claims_preserved :
    Preserved (chat S) (Spec S) (fun _ _ _ _ => True) (Claims S) where
  commit c₀ c c' h op n a _ _ _ _ hR hP := by
    intro e he w hw
    rcases mem_cons.mp he with rfl | he
    · exact hR.given w (Except.ok.inj hw)
    · exact (hP e he w hw).later hR.guar
  error c₀ c h op n e _ _ _ hP := by
    intro x hx w hw
    rcases mem_cons.mp hx with rfl | hx
    · cases hw
    · exact hP x hx w hw

theorem inv_empty (S : Strict) : Inv S (∅ : Db) := by
  refine ⟨fun g => ?_, fun w row h => by simp at h⟩
  refine { dense := ⟨0, fun q => ?_⟩, absent := fun _ => ⟨fun _ => rfl, rfl, fun _ => rfl⟩,
           message := ?_, control := ?_, ended := ?_, last := ?_, outcome := ?_, settled := ?_,
           window := ?_, voted := ?_, vote := ?_, voter := ?_ }
  · simp [snap]
    omega
  all_goals simp [snap]

/-- The workers of a run use the claims they were given, where that is asked for. -/
abbrev Genuine (S : Strict) (env : Env) : System → List (Move Op) → Prop :=
  OpensRun (fun op h => S.genuine → Issued op h) (body env)

/-- The statements of a run are none of the steps that are excluded. -/
abbrev Permitted (S : Strict) (env : Env) : System → List (Move Op) → Prop :=
  AllowsRun (fun _ => onWrites (Permits S)) (body env)

/-- What holds of every state that is reached. -/
abbrev ChatOk (S : Strict) : System → Prop :=
  SysOk (chat S) (fun _ => onWrites (Permits S)) (Spec S) (fun _ _ _ _ => True) (Claims S)

theorem chatOk_init (S : Strict) : ChatOk S (Sys.init ∅) :=
  .init (inv_empty S) fun _ he => by cases he

/-- **Every run keeps the life of every generation**, and between two of its states nothing
happens to a generation that may not happen. -/
theorem chat_run {s t : System} (hs : ChatOk S s) (hA : Permitted S env s ms)
    (hI : Genuine S env s ms) (hrun : run (body env) s ms = some t) :
    ChatOk S t ∧ Guar S True (fun _ => True) s.db t.db :=
  (chat_verified S env).run claims_preserved ms hA hI hs hrun

theorem permitted_of_not (hr : ¬ S.recovery) (hp : ¬ S.publisher) (hd : ¬ S.discard) (s : System)
    (ms : List (Move Op)) : Permitted S env s ms := by
  refine (allowsRun_true (body env) ms s).mono fun _ p v _ => ?_
  cases p with
  | stmt l w f => exact permits_of_not hr hp hd _ _
  | _ => trivial

/-- No step is excluded, and nothing is asked of the workers. -/
def Strict.none : Strict := ⟨False, False, False, False⟩

/-! ### Runs of a few transactions -/

/-- The writes are none of the steps that may be excluded. -/
def harmless (ws : List (Write Row)) (v : Db) : Bool :=
  ws.all fun
    | ⟨.generation g, some r'⟩ => (v.get (.generation g) : Option GenerationRow).all fun r =>
      !(GenerationRow.isUnrecovered r') || (r.status ≠ .completed && r.status ≠ .stopped)
    | ⟨.pair g, some p'⟩ => (v.get (.pair g) : Option PairRow).all fun p =>
      (PairRow.status p' ≠ .opened || p.status = .pending) &&
        (PairRow.status p' ≠ .expired || p.status ≠ .voted)
    | _ => true

theorem permits_of_harmless {ws : List (Write Row)} {v : Db} (h : harmless ws v = true) :
    Permits S ws v := by
  have hall := List.all_eq_true.mp h
  refine ⟨fun _ g r r' hmem hget hr => ?_, fun _ g p p' hmem hget hp => ?_,
    fun _ g p p' hmem hget hp => ?_⟩
  · have := hall _ hmem
    simp only [hget, all_some] at this
    simpa [isUnrecovered_iff.mpr hr] using this
  · have := hall _ hmem
    simp only [hget, all_some] at this
    simpa [hp] using this
  · have := hall _ hmem
    simp only [hget, all_some] at this
    simpa [hp] using this

/-- The worker was given the claim. -/
def issued (op : Op) (h : List Past) : Bool :=
  op.held.all fun w => h.any fun e =>
    match e.result with
    | .ok (.opened (.held w')) => w' = w
    | _ => false

theorem issued_sound {op : Op} {h : List Past} (hi : issued op h = true) : Issued op h := by
  intro w hw
  unfold issued at hi
  rw [hw, all_some, List.any_eq_true] at hi
  obtain ⟨e, he, hres⟩ := hi
  refine ⟨e, he, ?_⟩
  split at hres
  · next w' hw' =>
    rw [hw', of_decide_eq_true hres]
  · cases hres

/-- Every claim of a run was given, and no statement is a step that may be excluded. -/
def goodRun (env : Env) : System → List (Move Op) → Bool
  | _, [] => true
  | s, m :: ms =>
    (match m with
      | .start _ op => issued op s.hist
      | .advance i =>
        match s.sessions i with
        | some ⟨_, .stmt _ w _, d, _⟩ => harmless (w (d ∪ s.db)) (d ∪ s.db)
        | _ => true
      | .abort _ => true) &&
    (step (body env) s m).all fun t => goodRun env t ms

theorem permitted_of_goodRun : ∀ {s : System}, goodRun env s ms = true → Permitted S env s ms := by
  induction ms with
  | nil => exact fun _ => trivial
  | cons m ms ih =>
    intro s h
    unfold goodRun at h
    rw [Bool.and_eq_true] at h
    refine ⟨?_, fun t ht => ih ?_⟩
    · rintro i ⟨op, p, d, n⟩ rfl hx
      cases p with
      | stmt l w f =>
        simp only [hx] at h
        exact permits_of_harmless h.1
      | _ => trivial
    · rw [ht] at h
      exact h.2

theorem opensRun_of_goodRun :
    ∀ {s : System}, goodRun env s ms = true → OpensRun Issued (body env) s ms := by
  induction ms with
  | nil => exact fun _ => trivial
  | cons m ms ih =>
    intro s h
    unfold goodRun at h
    rw [Bool.and_eq_true] at h
    refine ⟨?_, fun t ht => ih ?_⟩
    · rintro i op rfl
      exact issued_sound h.1
    · rw [ht] at h
      exact h.2

/-- A question without a comparison. -/
def sampleAsk : Op := .ask
  { creation :=
      { ids := ⟨"g", "e", "p"⟩, userId := "u", authSessionId := "s", requestId := none
        conversationId := "c", content := "?", effortLevel := "quick", scope := [], now := 0
        window := none, abConfigs := none }
    verified := .ok (), conversationId := none, newConversationId := "c"
    idempotencyKey := "k", fingerprint := "f" }

/-- A claim of an execution of it. -/
def sampleClaim (executionId : String) (now : ℕ) : Op :=
  .claim { picked := some ("g", executionId), leaseOwner := "o", now := seconds now }

/-- The claim the first worker is given. -/
def sampleHeld : Held := ⟨"g", "e", 2, 1⟩

/-- A maintenance that names the successor of an execution after it. -/
def sampleMaintenance (now : ℕ) : Op :=
  .maintenance (fun e => e ++ "'") (fun _ => false) (seconds now)

/-- The settings the code has by default. -/
def sampleEnv : Env := {}

/-- A question whose execution is claimed and opened. -/
def sampleStart : List (Move Op) :=
  alone 0 sampleAsk 13 ++ alone 1 (sampleClaim "e" 1) 5 ++ alone 2 (.openExecution "g" "e") 3

/-! ### Stopping cuts the output off -/

/-- Only the workers are asked for something. -/
def Strict.workers : Strict := ⟨False, False, False, True⟩

/-- **Stopping cuts the output off**: once a generation has been asked to stop (its row says so,
or its control version has moved with a stop in the same transaction) no later commit adds an
answer, a delta or a done event, changes the text of its message, or completes it. -/
theorem stop_cuts_off {s t : System} {ms ms' : List (Move Op)} {r : GenerationRow}
    (hI : OpensRun Issued (body env) (Sys.init ∅) (ms ++ ms'))
    (hs : run (body env) (Sys.init ∅) ms = some s) (ht : run (body env) s ms' = some t)
    (hr : s.db.get (.generation g) = some r)
    (hstop : r.status = .stopRequested ∨ r.controlVersion ≠ 1) :
    (∀ q (e : EventRow), t.db.get (.event g q) = some e → e.eventType.output = true →
      s.db.get (.event g q) = some e) ∧
    (∃ m m' : MessageRow, s.db.get (.message g) = some m ∧ t.db.get (.message g) = some m' ∧
      m'.content = m.content ∧ m'.answerMode = m.answerMode ∧ m'.citations = m.citations) ∧
    ∃ r' : GenerationRow, t.db.get (.generation g) = some r' ∧ r'.status ≠ .completed := by
  obtain ⟨hI₁, hI₂⟩ := opensRun_append hI hs
  have hA : ∀ s ms, Permitted Strict.workers env s ms :=
    permitted_of_not not_false not_false not_false
  obtain ⟨hok, -⟩ := chat_run (chatOk_init Strict.workers) (hA _ _)
    (hI₁.mono fun _ _ h _ => h) hs
  obtain ⟨hok', hg⟩ := chat_run hok (hA _ _) (hI₂.mono fun _ _ h _ => h) ht
  have hc : r.controlVersion ≠ 1 :=
    hstop.elim ((hok.inv.ok g).control r hr).stopRequested id
  obtain ⟨m, hm, -⟩ := (hok.inv.ok g).message r hr
  obtain ⟨hlog, hmsg⟩ := (hg g).cutOff trivial r hr hc
  obtain ⟨m', hm', hfields⟩ := hmsg m hm
  obtain ⟨r', hr', -, hc', -⟩ := (hg g).row r hr
  exact ⟨hlog, ⟨m, m', hm, hm', hfields⟩, r', hr',
    fun h => hc' hc (((hok'.inv.ok g).control r' hr').completed h)⟩

/-- A worker has put out the first part of an answer when its generation is asked to stop. -/
def sampleStopped : List (Move Op) :=
  sampleStart ++ alone 3 (.delta sampleHeld false "a") 5 ++ alone 4 (.stop "u" "g" (.ok ())) 3

/-- What the worker does then. -/
def sampleAfterStop : List (Move Op) :=
  alone 5 (.delta sampleHeld false "b") 3 ++
    alone 6 (.fail sampleHeld false 5 ⟨"generation_state_conflict", "", []⟩) 10

theorem stop_cuts_off_sample : ∃ s t : System,
    run (body sampleEnv) (Sys.init ∅) sampleStopped = some s ∧
    run (body sampleEnv) s sampleAfterStop = some t ∧
    (∀ q (e : EventRow), t.db.get (.event "g" q) = some e → e.eventType.output = true →
      s.db.get (.event "g" q) = some e) ∧
    (∃ m m' : MessageRow, s.db.get (.message "g") = some m ∧ t.db.get (.message "g") = some m' ∧
      m'.content = m.content ∧ m'.answerMode = m.answerMode ∧ m'.citations = m.citations) ∧
    ∃ r' : GenerationRow, t.db.get (.generation "g") = some r' ∧ r'.status ≠ .completed := by
  have hgood : goodRun sampleEnv (Sys.init ∅) (sampleStopped ++ sampleAfterStop) = true := by
    decide +kernel
  have hrun : ((run (body sampleEnv) (Sys.init ∅) sampleStopped).bind fun s =>
      (run (body sampleEnv) s sampleAfterStop).bind fun _ =>
        (s.db.get (.generation "g")).map fun r : GenerationRow => r.status)
      = some .stopRequested := by
    decide +kernel
  obtain ⟨s, hs, hrest⟩ := Option.bind_eq_some_iff.mp hrun
  obtain ⟨t, ht, hrest⟩ := Option.bind_eq_some_iff.mp hrest
  obtain ⟨r, hr, hst⟩ := Option.map_eq_some_iff.mp hrest
  exact ⟨s, t, hs, ht,
    stop_cuts_off (opensRun_of_goodRun hgood) hs ht hr (.inl hst)⟩

/-! ### The ends agree -/

/-- The recoveries are asked for something. -/
def Strict.recoveries : Strict := ⟨True, False, False, False⟩

/-- The log of a generation has exactly one terminal event, and it is this one. -/
def EndsWith (v : Db) (g : String) (t : EventType) : Prop :=
  ∃ q e, v.get (.event g q) = some e ∧ e.eventType = t ∧
    ∀ q' e', v.get (.event g q') = some e' → e'.eventType.terminal = true → q' = q

/-- The row of a generation, its log and its message agree. -/
structure Agrees (v : Db) (g : String) : Prop where
  completed : ∀ r, v.get (.generation g) = some r → (r.status = .completed ↔ EndsWith v g .done)
  failed : ∀ r, v.get (.generation g) = some r → (r.status = .failed ↔ EndsWith v g .error)
  stopped : ∀ r, v.get (.generation g) = some r → (r.status = .stopped ↔ EndsWith v g .stopped)
  message : ∀ r : GenerationRow, v.get (.generation g) = some r →
    ∃ m : MessageRow, v.get (.message g) = some m ∧ m.status = r.status.message
  /-- Only clicks come after the terminal event. -/
  last : ∀ q (e : EventRow) q' (e' : EventRow), v.get (.event g q) = some e →
    e.eventType.terminal = true → q < q' → v.get (.event g q') = some e' →
    e'.eventType = .citationClick
  /-- The events are numbered `1..n`. -/
  numbered : ∃ n, ∀ q, (v.get (.event g q)).isSome = true ↔ 1 ≤ q ∧ q ≤ n

/-- What happens to a generation between two states: a terminal status stays, the events stay,
and new ones have larger numbers. -/
structure Follows (v v' : Db) (g : String) : Prop where
  status : ∀ r : GenerationRow, v.get (.generation g) = some r → r.status.terminal = true →
    ∃ r' : GenerationRow, v'.get (.generation g) = some r' ∧ r'.status = r.status
  events : ∀ q (e : EventRow), v.get (.event g q) = some e → v'.get (.event g q) = some e
  later : ∀ q q', (v.get (.event g q)).isSome = true → v.get (.event g q') = none →
    (v'.get (.event g q')).isSome = true → q < q'

theorem Ok.endsWith {v : Db} {r : GenerationRow} (h : Ok S (snap v g)) (hS : S.recovery)
    (hr : v.get (.generation g) = some r) {st : GenerationStatus} (hst : st.terminal = true) :
    r.status = st ↔ EndsWith v g st.event := by
  constructor
  · rintro rfl
    obtain ⟨q, e, he, ht⟩ := (h.ended r hr).mp hst
    refine ⟨q, e, he, h.outcome hS r hr q e he ht, fun q' e' he' ht' => ?_⟩
    by_contra hne
    rcases Nat.lt_or_gt_of_ne hne with hlt | hlt
    · rw [h.last q' e' he' ht' q e hlt he] at ht
      cases ht
    · rw [h.last q e he ht q' e' hlt he'] at ht'
      cases ht'
  · rintro ⟨q, e, he, ht, -⟩
    have hterm : e.eventType.terminal = true := by
      rw [ht]
      revert hst
      cases st <;> simp [GenerationStatus.terminal, GenerationStatus.event, EventType.terminal]
    have hr' := (h.ended r hr).mpr ⟨q, e, he, hterm⟩
    have hsame := (h.outcome hS r hr q e he hterm).symm.trans ht
    revert hsame hst hr'
    cases st <;> cases r.status <;> simp [GenerationStatus.terminal, GenerationStatus.event]

theorem Ok.agrees {v : Db} (h : Ok S (snap v g)) (hS : S.recovery) : Agrees v g where
  completed _ hr := h.endsWith hS hr rfl
  failed _ hr := h.endsWith hS hr rfl
  stopped _ hr := h.endsWith hS hr rfl
  message := h.message
  last q e q' e' he ht hq he' := h.last q e he ht q' e' hq he'
  numbered := h.dense

theorem Moves.follows {v v' : Db} {locked : Prop} (h : Ok S (snap v g)) (h' : Ok S (snap v' g))
    (hm : Moves S locked vote (snap v g) (snap v' g)) (hS : S.recovery) : Follows v v' g where
  status r hr ht := by
    obtain ⟨r', hr', -, -, hst⟩ := hm.row r hr
    exact ⟨r', hr', hst hS ht⟩
  events := hm.log
  later q q' hq hq' hnew := by
    obtain ⟨n, hn⟩ := h.dense
    obtain ⟨n', hn'⟩ := h'.dense
    have hle : 1 ≤ q ∧ q ≤ n := (hn q).mp hq
    have hpos : 1 ≤ q' ∧ q' ≤ n' := (hn' q').mp hnew
    have hout : ¬ (1 ≤ q' ∧ q' ≤ n) := fun hin => by
      have hsome : (v.get (.event g q')).isSome = true := (hn q').mpr hin
      rw [hq'] at hsome
      cases hsome
    omega

/-- **The ends of the generations agree** with their logs and messages in every run in which no
recovery writes its failure over a generation that was completed or stopped meanwhile. -/
theorem terminal_agreement {s t : System} {ms ms' : List (Move Op)}
    (hA : Permitted Strict.recoveries env (Sys.init ∅) (ms ++ ms'))
    (hs : run (body env) (Sys.init ∅) ms = some s) (ht : run (body env) s ms' = some t)
    (g : String) : Agrees s.db g ∧ Follows s.db t.db g := by
  obtain ⟨hA₁, hA₂⟩ := allowsRun_append hA hs
  have hI : ∀ s ms, Genuine Strict.recoveries env s ms :=
    fun s ms => (opensRun_true (body env) ms s).mono fun _ _ _ h => h.elim
  obtain ⟨hok, -⟩ := chat_run (chatOk_init _) hA₁ (hI _ _) hs
  obtain ⟨hok', hg⟩ := chat_run hok hA₂ (hI _ _) ht
  exact ⟨(hok.inv.ok g).agrees trivial, (hg g).follows (hok.inv.ok g) (hok'.inv.ok g) trivial⟩

/-- A recovered execution runs when its generation is asked to stop. -/
def sampleRecovered : List (Move Op) :=
  sampleStart ++ alone 3 (sampleMaintenance 100) 9 ++ alone 4 (sampleClaim "e'" 101) 5 ++
    alone 5 (.stop "u" "g" (.ok ())) 3

theorem terminal_agreement_sample : ∃ s t : System,
    run (body sampleEnv) (Sys.init ∅) sampleRecovered = some s ∧
    run (body sampleEnv) s (alone 6 (.stopTerminal ⟨"g", "e'", 3, 1⟩ false .manualRequest) 10)
      = some t ∧ Agrees s.db "g" ∧ Follows s.db t.db "g" := by
  have hgood : goodRun sampleEnv (Sys.init ∅) (sampleRecovered ++
      alone 6 (.stopTerminal ⟨"g", "e'", 3, 1⟩ false .manualRequest) 10) = true := by
    decide +kernel
  have hrun : ((run (body sampleEnv) (Sys.init ∅) sampleRecovered).bind fun s =>
      (run (body sampleEnv) s
        (alone 6 (.stopTerminal ⟨"g", "e'", 3, 1⟩ false .manualRequest) 10)).map
          fun _ => true) = some true := by
    decide +kernel
  obtain ⟨s, hs, hrest⟩ := Option.bind_eq_some_iff.mp hrun
  obtain ⟨t, ht, -⟩ := Option.map_eq_some_iff.mp hrest
  exact ⟨s, t, hs, ht, terminal_agreement (permitted_of_goodRun hgood) hs ht "g"⟩

/-- A recovery past the deadline has read the generation when the worker that was superseded
stops it; then the recovery writes its failure. -/
def sampleOverwritten : List (Move Op) :=
  sampleRecovered ++ .start 6 (sampleMaintenance 2000) :: replicate 7 (.advance 6) ++
    alone 7 (.fail sampleHeld false (seconds 2000) ⟨"generation_state_conflict", "", []⟩) 10 ++
    replicate 6 (.advance 6)

theorem failure_overwrites_stop :
    ¬ ∀ (env : Env) (ms : List (Move Op)) (s : System) (g : String),
      run (body env) (Sys.init ∅) ms = some s → Agrees s.db g := by
  intro h
  have hrun : (run (body sampleEnv) (Sys.init ∅) sampleOverwritten).map (fun s =>
      ((s.db.get (.generation "g")).map fun r : GenerationRow => r.status,
        (s.db.get (.event "g" 2)).map fun e : EventRow => e.eventType))
      = some (some .failed, some .stopped) := by
    decide +kernel
  obtain ⟨s, hs, hpair⟩ := Option.map_eq_some_iff.mp hrun
  obtain ⟨hst, hlog⟩ := Prod.mk.inj hpair
  obtain ⟨r, hr, hst⟩ := Option.map_eq_some_iff.mp hst
  obtain ⟨e, he, het⟩ := Option.map_eq_some_iff.mp hlog
  obtain ⟨q, e', he', het', honly⟩ := ((h _ _ s "g" hs).failed r hr).mp hst
  obtain rfl := honly 2 e he (by rw [het]; rfl)
  obtain rfl := Option.some.inj (he.symm.trans he')
  rw [het] at het'
  cases het'

end RagQs.Chat
