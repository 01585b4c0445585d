import RagQs.Usage.LedgerRuns

/-!
# Who may send a call

At most one `mark_dispatching` of a call returns `True`.  One that finds the deadline
reached marks the call as not sent, whatever has become of it since it was read; so the
call stays with the sender as long as no late one gets there while the call is open.

## Main definitions

* `owns`, `ownedSince` — the transactions that won a call, and the send time of the
  latest as long as no other transition of a call has committed since.
* `NoLateExpiry` — no late `mark_dispatching` runs while the call is with its sender.

## Main results

* `single_dispatch_owner` — the owner is the only one, and keeps the call.
-/

namespace RagQs.Usage

open Txn Txn.Discipline List Option

variable {env : Env} {ms : List (Move LedgerOp)} {s : LedgerSys}
variable {id : String} {h : List (Ended LedgerOp Err LedgerResult)}

/-- The send time of the latest `mark_dispatching` of the call that returned `True`, when
since then transactions have only failed or been others of the same kind. -/
def ownedSince (id : String) : List (Ended LedgerOp Err LedgerResult) → Option Time
  | [] => none
  | ⟨_, _, .error _⟩ :: h => ownedSince id h
  | ⟨.dispatch id' _ _, _, .ok b⟩ :: h =>
    if id' = id then
      match b with
      | .dispatched (some (_, u)) => some u
      | _ => ownedSince id h
    else none
  | ⟨_, _, .ok _⟩ :: _ => none

/-- The call belongs to one sender: at most one `mark_dispatching` returned `True`, and
nothing that others of the same kind did since has taken the call from it. -/
def SingleOwner (id : String) (c : Db) (h : List (Ended LedgerOp Err LedgerResult)) : Prop :=
  (h.filter (owns id)).length ≤ 1 ∧
    ∀ u, ownedSince id h = some u → ∃ r : CallRow, c.get (.call id) = some r ∧
      r.status = .dispatching ∧ r.startedAtUtc = some u

/-- No `mark_dispatching` that finds the deadline reached runs its update while the call is
dispatching or unknown. -/
def NoLateExpiry : LedgerOp → Tx LedgerResult → Db → Prop
  | .dispatch id _ _, p, v => ∀ now f, p = expire id now >>= f →
    ∀ r : CallRow, v.get (.call id) = some r → r.status ≠ .dispatching ∧ r.status ≠ .unknown
  | _, _, _ => True

/-- The facts about owners of one call that are preserved. -/
structure OwnerFacts (id : String) (c : Db) (h : List (Ended LedgerOp Err LedgerResult)) :
    Prop where
  single : SingleOwner id c h
  left : h.filter (owns id) ≠ [] →
    ∃ r : CallRow, c.get (.call id) = some r ∧ r.status ≠ .prepared

theorem ownerFacts_empty (id : String) : OwnerFacts id ∅ [] :=
  ⟨⟨Nat.zero_le _, fun _ h => by cases h⟩, fun h => absurd rfl h⟩

theorem filter_owns_cons {x : Ended LedgerOp Err LedgerResult} (hx : owns id x = false) :
    (x :: h).filter (owns id) = h.filter (owns id) := by
  rw [filter_cons, hx]
  exact if_neg Bool.false_ne_true

/-- A call that has left `prepared` does not come back to it. -/
theorem left_guar {c c' : Db} (hg : Guar (fun _ => True) c c')
    (h : ∃ r : CallRow, c.get (.call id) = some r ∧ r.status ≠ .prepared) :
    ∃ r : CallRow, c'.get (.call id) = some r ∧ r.status ≠ .prepared := by
  obtain ⟨r, hr, hne⟩ := h
  obtain ⟨r', hr', hstep⟩ := hg.step id r hr
  have hleads := hstep.leads
  refine ⟨r', hr', fun hp => ?_⟩
  rw [hp] at hleads
  cases hst : r.status <;> simp_all [CallStatus.leads, CallStatus.terminal]

theorem OwnerFacts.other {c c' : Db} {x : Ended LedgerOp Err LedgerResult} (hf : OwnerFacts id c h)
    (hg : Guar (fun _ => True) c c') (hx : owns id x = false)
    (hchain : ∀ u, ownedSince id (x :: h) = some u → ownedSince id h = some u ∧
      c'.get (.call id) = c.get (.call id)) : OwnerFacts id c' (x :: h) := by
  refine ⟨⟨?_, fun u hu => ?_⟩, fun hne => ?_⟩
  · rw [filter_owns_cons hx]
    exact hf.single.1
  · obtain ⟨hu, hsame⟩ := hchain u hu
    rw [hsame]
    exact hf.single.2 u hu
  · rw [filter_owns_cons hx] at hne
    exact left_guar hg (hf.left hne)

/-- A `mark_dispatching` that returns `True` is the first of its call. -/
theorem OwnerFacts.win {c c' : Db} {provider : StartedAtProvider} {clock : ℕ → Time} {n : ℕ}
    {price : PriceVersion} {u : Time} (hf : OwnerFacts id c h) {r : CallRow}
    (hr : c.get (.call id) = some r) (hst : r.status = .prepared)
    (hr' : ∃ now, c'.get (.call id) = some (r.dispatch now u)) :
    OwnerFacts id c' (⟨.dispatch id provider clock, n, .ok (.dispatched (some (price, u)))⟩ :: h) := by
  obtain ⟨now, hr'⟩ := hr'
  have hnone : h.filter (owns id) = [] := by
    by_contra hne
    obtain ⟨x, hx, hxs⟩ := hf.left hne
    obtain rfl : r = x := some.inj (hr.symm.trans hx)
    exact hxs hst
  refine ⟨⟨?_, fun w hw => ?_⟩, fun _ => ⟨_, hr', by simp [CallRow.dispatch]⟩⟩
  · rw [filter_cons, hnone]
    simp [owns]
  · simp only [ownedSince, if_true, some.injEq] at hw
    exact ⟨_, hr', rfl, congrArg some hw⟩

/-- **The facts about owners are preserved** where no late expiry runs. -/
theorem ownerFacts_preserved (env : Env) (id : String) :
    Preserved (ledgerDiscipline env) (LedgerPost env NoLateExpiry) (LedgerFail env)
      (OwnerFacts id) where
  commit c₀ c c' h op n b hs hc hc' hg hR hP := by
    replace hg : Guar (fun _ => True) c c' := hg
    cases op with
    | dispatch id' provider clock =>
      by_cases hid : id' = id
      · subst hid
        rcases hR with ⟨price, u, r, rfl, hr, hst, hr', _⟩ | ⟨rfl, hR⟩
        · exact hP.win hr hst hr'
        · refine hP.other hg (by simp [owns]) fun u hu => ?_
          simp only [ownedSince, if_true] at hu
          refine ⟨hu, ?_⟩
          rcases hR with hsame | ⟨r, hr, hopen, now, f, v, hv, hA⟩
          · exact hsame
          · -- the call is dispatching, so the update is one `NoLateExpiry` forbids
            obtain ⟨x, hx, hxs, _⟩ := hP.single.2 u hu
            obtain rfl : r = x := some.inj (hr.symm.trans hx)
            exact absurd hxs (hA now f rfl r hv).1
      · refine hP.other hg ?_ fun u hu => by simp [ownedSince, hid] at hu
        unfold owns
        split
        · next heq _ =>
          cases heq
          simpa using hid
        · rfl
    | _ => exact hP.other hg rfl fun u hu => by simp [ownedSince] at hu
  error c₀ c h op n e hs hc hF hP := by
    refine hP.other (.refl _ c) (by cases op <;> rfl) fun u hu => ⟨?_, rfl⟩
    cases op <;> exact hu

/-- **Who owns a call.**  Where no late `mark_dispatching` runs its update while the call
is with its sender, at most one returns `True`, and as long as transactions only fail or
are others of the same kind the call stays dispatching with the owner's send time. -/
theorem single_dispatch_owner (hs : run (ledgerBody env) (Sys.init ∅) ms = some s)
    (hA : AllowsRun NoLateExpiry (ledgerBody env) (Sys.init ∅) ms) (id : String) :
    SingleOwner id s.db s.hist :=
  ((ledger_verified env _).run (ownerFacts_preserved env id) ms hA
    (SysOk.init (ledgerInv_empty env) (ownerFacts_empty id)) hs).1.holds.single

/-- The write leaves a call not sent. -/
def retires : Write Row → Bool
  | ⟨.call _, some r⟩ => CallRow.status r = .notSent
  | _ => false

/-- Whether a move takes a call from its sender. -/
def takes (s : LedgerSys) : Move LedgerOp → Bool
  | .advance i =>
    match s.sessions i with
    | some ⟨.dispatch id _ _, .stmt _ w _, d, _⟩ =>
      ((d ∪ s.db : Db).get (.call id) : Option CallRow).any (fun r =>
        r.status = .dispatching || r.status = .unknown) && (w (d ∪ s.db)).any retires
    | _ => false
  | _ => false

/-- Whether no move of a run does. -/
def calmRun (env : Env) : LedgerSys → List (Move LedgerOp) → Bool
  | _, [] => true
  | s, m :: ms => !takes s m && (step (ledgerBody env) s m).all fun t => calmRun env t ms

theorem allows_of_not_takes {m : Move LedgerOp} (h : takes s m = false) :
    Allows NoLateExpiry s m := by
  rintro i ⟨op, p, d, n⟩ rfl hx
  cases op with
  | dispatch id provider clock =>
    rintro now f rfl r hr
    have hprog : expire id now >>= f = .stmt (fun _ => [])
        (fun v : Db => (((v.get (.call id) : Option CallRow)).filter CallRow.open).toList.map
          fun r => ⟨.call id, some (r.notSend now)⟩) _ := rfl
    simp only at hr
    unfold takes at h
    simp only [hx, hprog, hr] at h
    constructor <;>
    · intro hst
      simp [hst, CallRow.open, CallStatus.terminal, retires, CallRow.notSend] at h
  | _ => trivial

theorem allowsRun_of_calmRun (ms : List (Move LedgerOp)) :
    ∀ s, calmRun env s ms = true → AllowsRun NoLateExpiry (ledgerBody env) s ms := by
  induction ms with
  | nil => exact fun _ _ => trivial
  | cons m ms ih =>
    intro s h
    unfold calmRun at h
    rw [Bool.and_eq_true, Bool.not_eq_true'] at h
    refine ⟨allows_of_not_takes h.1, fun t ht => ih t ?_⟩
    rw [ht] at h
    exact h.2

/-- The second of two `mark_dispatching` that both found the call prepared. -/
def sampleContest : List (Move LedgerOp) :=
  samplePrefix ++ [.start 2 (.dispatch "c" (.fixed 20) fun _ => 21), .advance 2]
    ++ alone 3 (.dispatch "c" (.fixed 10) fun _ => 11) 5 ++ replicate 4 (.advance 2)

/-- One that starts at the deadline instead. -/
def sampleLateContest : List (Move LedgerOp) :=
  samplePrefix ++ [.start 2 (.dispatch "c" (.fixed 100) fun _ => 100), .advance 2]
    ++ alone 3 (.dispatch "c" (.fixed 10) fun _ => 11) 5 ++ replicate 3 (.advance 2)

theorem single_dispatch_owner_sample :
    ∃ s, run (ledgerBody sampleEnv) (Sys.init ∅) sampleContest = some s ∧
      ownedSince "c" s.hist = some 10 ∧ SingleOwner "c" s.db s.hist := by
  have hrun : (run (ledgerBody sampleEnv) (Sys.init ∅) sampleContest).map
      (fun s => ownedSince "c" s.hist) = some (some 10) := by decide +kernel
  have hcalm : calmRun sampleEnv (Sys.init ∅) sampleContest = true := by decide +kernel
  obtain ⟨s, hs, howned⟩ := Option.map_eq_some_iff.mp hrun
  exact ⟨s, hs, howned, single_dispatch_owner hs (allowsRun_of_calmRun _ _ hcalm) "c"⟩

/-- In the second it does not: it is dispatched at `10` and then marked as not sent. -/
theorem late_dispatch_takes_call :
    ¬ ∀ (env : Env) (ms : List (Move LedgerOp)) (s : LedgerSys) (id : String),
      run (ledgerBody env) (Sys.init ∅) ms = some s → SingleOwner id s.db s.hist := by
  intro h
  have hrun : (run (ledgerBody sampleEnv) (Sys.init ∅) sampleLateContest).map
      (fun s => (ownedSince "c" s.hist, statusAfter (some s) "c"))
      = some (some 10, some .notSent) := by decide +kernel
  obtain ⟨s, hs, hpair⟩ := Option.map_eq_some_iff.mp hrun
  obtain ⟨howned, hst⟩ := Prod.mk.inj hpair
  obtain ⟨r, hr, hrst, _⟩ := (h sampleEnv sampleLateContest s "c" hs).2 10 howned
  obtain ⟨r', hr', hrst'⟩ := Option.map_eq_some_iff.mp hst
  obtain rfl : r = r' := Option.some.inj (hr.symm.trans hr')
  rw [hrst] at hrst'
  cases hrst'

end RagQs.Usage
