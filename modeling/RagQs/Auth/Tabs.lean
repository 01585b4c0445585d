import RagQs.Auth.SessionRuns

/-!
# The tabs of a browser

Any number of tabs, opened at any time, each with a session store of its own.  What one posts is
delivered to the others that are open, in any order.

## Main definitions

* `Tab`, `Tabs` — a tab with the messages still to arrive, and the browser.
* `Tabs.step` — what happens in the browser.
* `Completes`, `Reached` — a logout or a revocation completes, and reaches every tab.
* `Agrees`, `Joins` — every tab that is signed in has the identity that is ended, and one that
  signs in afterwards is still to hear of it.
* `OneSession` — one login makes the session of the device.

## Main results

* `logout_reaches_tabs` — the end of a session reaches every tab.
* `logout_misses_tab` — a run of the browser in which it does not.
-/

namespace RagQs.Auth

open Machine List Option

/-- A tab: its store, and the messages that are still to arrive. -/
structure Tab where
  store : AuthStore := {}
  inbox : List Val := []

/-- The tabs that have been opened. -/
abbrev Tabs := ℕ → Option Tab

/-- What happens in the browser. -/
inductive TabMove
  /-- A tab is opened. -/
  | opens (i : ℕ)
  /-- Something happens in a tab, other than the arrival of a message. -/
  | acts (i : ℕ) (m : Move)
  /-- One of the messages arrives. -/
  | arrives (i n : ℕ)
  /-- A tab is closed. -/
  | closes (i : ℕ)

/-- A move of the tab alone. -/
def Move.isLocal : Move → Bool
  | .deliver _ => false
  | _ => true

/-- The tabs once a tab has its new store: what it has posted is on its way to the others. -/
def Tabs.update (tabs : Tabs) (i : ℕ) (tab : Tab) : Tabs := fun j =>
  if j = i then some { tab with store := { tab.store with posted := [] } }
  else (tabs j).map fun other =>
    { other with inbox := other.inbox ++ tab.store.posted.map BusMessage.payload }

/-- One move in the browser. -/
def Tabs.step (tabs : Tabs) : TabMove → Option Tabs
  | .opens i =>
    match tabs i with
    | none => some fun j => if j = i then some {} else tabs j
    | some _ => none
  | .acts i m =>
    (tabs i).bind fun tab =>
      if m.isLocal then (tab.store.step m).map fun store => tabs.update i { tab with store }
      else none
  | .arrives i n =>
    (tabs i).bind fun tab => tab.inbox[n]?.bind fun payload =>
      (tab.store.step (.deliver payload)).map fun store =>
        tabs.update i ⟨store, tab.inbox.eraseIdx n⟩
  | .closes i => (tabs i).map fun _ => fun j => if j = i then none else tabs j

/-- Nothing is open. -/
def Tabs.closed : Tabs := fun _ => none

/-! ### The end of a session -/

/-- The response completes a logout, the revocation of the device or that of all devices. -/
def Pending.endedBy : Pending → Response → Bool
  | .logout _, .done => true
  | .logout _, .failed => true
  | .revokeSession _ true _, .done => true
  | .revokeAll _, .done => true
  | _, _ => false

/-- After the moves `ms₁` the response `r` completes the end `o` of a session in the tab `i`. -/
structure Completes (ms₁ : List TabMove) (i n : ℕ) (r : Response) (tabs : Tabs) (o : Operation) :
    Prop where
  runs : run Tabs.step Tabs.closed ms₁ = some tabs
  awaits : ∃ tab, tabs i = some tab ∧ tab.store.operation n = some o
  ends : o.pending.endedBy r = true

/-- Once it has completed and all messages have arrived, nobody is signed in. -/
def Reached (ms₁ : List TabMove) (i n : ℕ) (r : Response) (ms₂ : List TabMove) : Prop :=
  ∀ tabs, run Tabs.step Tabs.closed (ms₁ ++ .acts i (.settle n r) :: ms₂) = some tabs →
    (∀ j tab, tabs j = some tab → tab.inbox = []) →
      ∀ j tab, tabs j = some tab → tab.store.status ≠ .authenticated

/-- Every tab that is signed in has the identity that is ended. -/
structure Agrees (tabs : Tabs) (o : Operation) (id : String) : Prop where
  initiated : o.pending.initiated = some id
  nonempty : id ≠ ""
  agree : ∀ j tab, tabs j = some tab → tab.store.status = .authenticated →
    tab.store.authSessionId = some id

/-- The message ends the session of the identity. -/
def EndsIdentity (payload : Val) (id : String) : Prop :=
  match readBus payload with
  | some (.ended id') => id' = id
  | _ => False

/-- Such a message is still to arrive in the tab. -/
def Tab.WillHear (tab : Tab) (id : String) : Prop :=
  ∃ payload ∈ tab.inbox, EndsIdentity payload id

/-- The tab that a move signs in, with what is still to arrive, and its identity. -/
def Tabs.joins (tabs : Tabs) : TabMove → Option (Tab × String)
  | .acts i m =>
    (tabs i).bind fun tab => (newIdentity tab.store m).map fun id => (tab, id)
  | .arrives i n =>
    (tabs i).bind fun tab => tab.inbox[n]?.bind fun payload =>
      (newIdentity tab.store (.deliver payload)).map fun id =>
        ({ tab with inbox := tab.inbox.eraseIdx n }, id)
  | _ => none

/-- A tab that signs in takes the identity and is still to hear that it has ended. -/
def Joins (id : String) (tabs : Tabs) (m : TabMove) : Prop :=
  ∀ tab id', tabs.joins m = some (tab, id') → id' = id ∧ tab.WillHear id

variable {tabs tabs' : Tabs} {tab tab' : Tab} {m : Move} {s t : AuthStore} {o : Operation}
  {id : String} {i j n : ℕ} {r : Response} {ms₁ ms₂ : List TabMove}

/-! ### Messages -/

theorem nonempty_of_field {v : Val} (name : String) (hv : Val.field v name = some (.str id))
    (hid : id ≠ "") : Val.nonempty v name = some id := by
  simp [Val.nonempty, hv, Val.text, Option.filter, hid]

theorem endsIdentity_logout (hid : id ≠ "") : EndsIdentity (BusMessage.logout id).payload id := by
  have hread : readBus (BusMessage.logout id).payload = some (.ended id) := by
    unfold readBus
    rw [nonempty_of_field "authSessionId" (by rfl) hid]
    rfl
  rw [EndsIdentity, hread]

theorem endsIdentity_sessionRevoked (hid : id ≠ "") (device : String) :
    EndsIdentity (BusMessage.sessionRevoked device (some id)).payload id := by
  have hread : readBus (BusMessage.sessionRevoked device (some id)).payload = some (.ended id) := by
    unfold readBus
    rw [nonempty_of_field "authSessionId" (by rfl) hid]
    rfl
  rw [EndsIdentity, hread]

theorem endsIdentity_sessionsRevokedAll (hid : id ≠ "") :
    EndsIdentity (BusMessage.sessionsRevokedAll id).payload id := by
  have hread : readBus (BusMessage.sessionsRevokedAll id).payload = some (.ended id) := by
    unfold readBus
    rw [nonempty_of_field "authSessionId" (by rfl) hid]
    rfl
  rw [EndsIdentity, hread]

theorem readBus_of_endsIdentity {payload : Val} (h : EndsIdentity payload id) :
    readBus payload = some (.ended id) := by
  unfold EndsIdentity at h
  split at h
  · next hread => rw [hread, h]
  · exact h.elim

theorem deliver_endsIdentity {payload : Val} (h : EndsIdentity payload id)
    (hid : s.authSessionId = some id) (ht : s.step (.deliver payload) = some t) :
    t.status ≠ .authenticated := by
  simp only [AuthStore.step] at ht
  split at ht
  · cases ht
    rw [AuthStore.deliver, readBus_of_endsIdentity h]
    simp only [if_pos hid]
    exact fun h => by cases h
  · cases ht

theorem endSession_ends {message : String → BusMessage}
    (hmessage : EndsIdentity (message id).payload id) :
    (∃ m ∈ (s.endSession (some id) message).posted, EndsIdentity m.payload id) ∧
      ((s.endSession (some id) message).status = .authenticated →
        s.status = .authenticated ∧ s.authSessionId ≠ some id) := by
  unfold AuthStore.endSession
  simp only
  split
  · exact ⟨⟨_, mem_append_right _ mem_cons_self, hmessage⟩, nofun⟩
  · next hne =>
    exact ⟨⟨_, mem_append_right _ mem_cons_self, hmessage⟩, fun h => ⟨h, hne⟩⟩

theorem settle_ends (hends : o.pending.endedBy r = true)
    (hinitiated : o.pending.initiated = some id)
    (hid : id ≠ "") (ht : s.settle o r = some t) :
    (∃ message ∈ t.posted, EndsIdentity message.payload id) ∧
      (t.status = .authenticated → s.status = .authenticated ∧ s.authSessionId ≠ some id) := by
  obtain ⟨number, key, pending⟩ := o
  unfold Pending.endedBy at hends
  split at hends
  · rename_i initiated hp
    obtain rfl : pending = _ := hp
    obtain rfl : initiated = some id := hinitiated
    cases ht
    exact endSession_ends (endsIdentity_logout hid)
  · rename_i initiated hp
    obtain rfl : pending = _ := hp
    obtain rfl : initiated = some id := hinitiated
    cases ht
    exact endSession_ends (endsIdentity_logout hid)
  · rename_i device initiated hp
    obtain rfl : pending = _ := hp
    obtain rfl : initiated = some id := hinitiated
    cases ht
    exact endSession_ends (endsIdentity_sessionRevoked hid device)
  · rename_i initiated hp
    obtain rfl : pending = _ := hp
    obtain rfl : initiated = some id := hinitiated
    cases ht
    exact endSession_ends (endsIdentity_sessionsRevokedAll hid)
  · cases hends

/-! ### After the end of a session -/

/-- Who is signed in has the identity, and is still to hear that it has ended. -/
def Hearing (id : String) (tabs : Tabs) : Prop :=
  ∀ j tab, tabs j = some tab → tab.store.status = .authenticated →
    tab.store.authSessionId = some id ∧ tab.WillHear id

theorem Tab.WillHear.append {payloads : List Val} (h : tab.WillHear id) :
    ({ tab with inbox := tab.inbox ++ payloads } : Tab).WillHear id := by
  obtain ⟨payload, hpayload, hends⟩ := h
  exact ⟨payload, mem_append_left _ hpayload, hends⟩

theorem Tab.WillHear.erase {payload : Val} {store : AuthStore} (h : tab.WillHear id)
    (hn : tab.inbox[n]? = some payload) (hpayload : ¬ EndsIdentity payload id) :
    (⟨store, tab.inbox.eraseIdx n⟩ : Tab).WillHear id := by
  obtain ⟨payload', hmem, hends⟩ := h
  obtain ⟨k, hk⟩ := List.mem_iff_getElem?.mp hmem
  refine ⟨payload', List.mem_eraseIdx_iff_getElem?.mpr ⟨k, ?_, hk⟩, hends⟩
  rintro rfl
  cases hn.symm.trans hk
  exact hpayload hends

theorem Tabs.update_some (h : (tabs.update i tab) j = some tab') :
    j = i ∧ tab' = { tab with store := { tab.store with posted := [] } } ∨
      ∃ other, tabs j = some other ∧
        tab' = { other with inbox := other.inbox ++ tab.store.posted.map BusMessage.payload } := by
  unfold Tabs.update at h
  split at h
  · next hj => exact .inl ⟨hj, (some.inj h).symm⟩
  · obtain ⟨other, hother, rfl⟩ := map_eq_some_iff.mp h
    exact .inr ⟨other, hother, rfl⟩

theorem Hearing.update (h : Hearing id tabs)
    (htab : tab.store.status = .authenticated →
      tab.store.authSessionId = some id ∧ tab.WillHear id) : Hearing id (tabs.update i tab) := by
  intro j tab' htab' hs
  rcases Tabs.update_some htab' with ⟨-, rfl⟩ | ⟨other, hother, rfl⟩
  · exact htab hs
  · obtain ⟨hid, hhear⟩ := h j other hother hs
    exact ⟨hid, hhear.append⟩

theorem Hearing.step {m : TabMove} (h : Hearing id tabs) (hjoins : Joins id tabs m)
    (ht : tabs.step m = some tabs') : Hearing id tabs' := by
  cases m with
  | opens i =>
    simp only [Tabs.step] at ht
    split at ht
    · cases ht
      intro j tab htab hs
      dsimp only at htab
      split at htab
      · cases htab
        cases hs
      · exact h j tab htab hs
    · cases ht
  | acts i m =>
    obtain ⟨tab, htab, ht⟩ := bind_eq_some_iff.mp ht
    split at ht
    · obtain ⟨store, hstore, rfl⟩ := map_eq_some_iff.mp ht
      refine h.update fun hs => ?_
      rcases follows_step hstore hs with ⟨hs, hkept⟩ | ⟨hnew, hsome⟩
      · obtain ⟨hid, hhear⟩ := h i tab htab hs
        exact ⟨hkept id hid, hhear⟩
      · obtain ⟨id', hid'⟩ := isSome_iff_exists.mp hsome
        obtain ⟨rfl, hhear⟩ := hjoins tab id' (by simp [Tabs.joins, htab, hnew, hid'])
        exact ⟨hid', hhear⟩
    · cases ht
  | arrives i n =>
    obtain ⟨tab, htab, ht⟩ := bind_eq_some_iff.mp ht
    obtain ⟨payload, hpayload, ht⟩ := bind_eq_some_iff.mp ht
    obtain ⟨store, hstore, rfl⟩ := map_eq_some_iff.mp ht
    refine h.update fun hs => ?_
    rcases follows_step hstore hs with ⟨hs', hkept⟩ | ⟨hnew, hsome⟩
    · obtain ⟨hid, hhear⟩ := h i tab htab hs'
      refine ⟨hkept id hid, hhear.erase hpayload fun hends => ?_⟩
      exact deliver_endsIdentity hends hid hstore hs
    · obtain ⟨id', hid'⟩ := isSome_iff_exists.mp hsome
      obtain ⟨rfl, hhear⟩ := hjoins { tab with inbox := tab.inbox.eraseIdx n } id'
        (by simp [Tabs.joins, htab, hpayload, hnew, hid'])
      exact ⟨hid', hhear⟩
  | closes i =>
    obtain ⟨tab, -, rfl⟩ := map_eq_some_iff.mp ht
    intro j tab htab hs
    dsimp only at htab
    split at htab
    · cases htab
    · exact h j tab htab hs

theorem Agrees.hearing (h : Agrees tabs o id) (htab : tabs i = some tab)
    (ho : tab.store.operation n = some o) (hends : o.pending.endedBy r = true)
    (ht : tabs.step (.acts i (.settle n r)) = some tabs') : Hearing id tabs' := by
  obtain ⟨tab', htab', ht⟩ := bind_eq_some_iff.mp ht
  cases htab.symm.trans htab'
  obtain ⟨store, hstore, rfl⟩ := map_eq_some_iff.mp ht
  have hsettle : tab.store.settle o r = some store := by
    simp only [AuthStore.step] at hstore
    split at hstore
    · rwa [ho] at hstore
    · cases hstore
  obtain ⟨⟨message, hmessage, hends⟩, hout⟩ := settle_ends hends h.initiated h.nonempty hsettle
  intro j tab' htab' hs
  rcases Tabs.update_some htab' with ⟨-, rfl⟩ | ⟨other, hother, rfl⟩
  · obtain ⟨hs, hne⟩ := hout hs
    exact absurd (h.agree i tab htab hs) hne
  · exact ⟨h.agree j other hother hs,
      message.payload, mem_append_right _ (List.mem_map_of_mem hmessage), hends⟩

/-- **The end of a session reaches every tab** when the tabs that are signed in have the identity
it was started under, and who signs in afterwards is still to hear of it. -/
theorem logout_reaches_tabs (hc : Completes ms₁ i n r tabs o) (hagree : Agrees tabs o id)
    (hjoins : ∀ tabs₂, tabs.step (.acts i (.settle n r)) = some tabs₂ →
      Moves Tabs.step (Joins id) tabs₂ ms₂) : Reached ms₁ i n r ms₂ := by
  intro tabs' hrun hempty j tab htab hs
  rw [run_append, hc.runs, Option.bind_some, run] at hrun
  obtain ⟨tabs₂, hsettle, hrun⟩ := Option.bind_eq_some_iff.mp hrun
  obtain ⟨tab₁, htab₁, ho⟩ := hc.awaits
  have hstep : ∀ tabs m tabs', Hearing id tabs → Joins id tabs m → Tabs.step tabs m = some tabs' →
      Hearing id tabs' := fun _ _ _ h hm ht => h.step hm ht
  have hhearing := run_preserves hstep (hagree.hearing htab₁ ho hc.ends hsettle)
    (hjoins tabs₂ hsettle) hrun
  obtain ⟨-, payload, hpayload, -⟩ := hhearing j tab htab hs
  rw [hempty j tab htab] at hpayload
  cases hpayload

/-! ### One session -/

/-- The token that the server returns. -/
def TabMove.granted : TabMove → Option String
  | .acts _ (.settle _ (.loggedIn token _)) => some token
  | .acts _ (.settle _ (.refreshed token)) => some token
  | _ => none

/-- The server makes a session. -/
def TabMove.logsIn : TabMove → Bool
  | .acts _ (.settle _ (.loggedIn _ _)) => true
  | _ => false

/-- One login makes the session of the device, and every token is a new one. -/
structure OneSession (ms : List TabMove) : Prop where
  login : ms.countP TabMove.logsIn = 1
  fresh : (ms.filterMap TabMove.granted).Nodup
  nonempty : "" ∉ ms.filterMap TabMove.granted

theorem run_not_opened {ms : List TabMove} (hms : ∀ m ∈ ms, m ≠ .opens j) (h : tabs j = none)
    (ht : run Tabs.step tabs ms = some tabs') : tabs' j = none := by
  induction ms generalizing tabs with
  | nil =>
    cases ht
    exact h
  | cons m ms ih =>
    obtain ⟨tabs₁, hm, ht⟩ := bind_eq_some_iff.mp ht
    refine ih (fun m' hm' => hms m' (mem_cons_of_mem _ hm')) ?_ ht
    have hupdate : ∀ {k tab₀ tab}, tabs k = some tab₀ → (tabs.update k tab) j = none := by
      intro k tab₀ tab hk
      have hne : j ≠ k := by
        rintro rfl
        rw [h] at hk
        cases hk
      simp [Tabs.update, hne, h]
    cases m with
    | opens i =>
      have hne : j ≠ i := fun heq => hms _ mem_cons_self (by rw [heq])
      simp only [Tabs.step] at hm
      split at hm
      · cases hm
        simp [hne, h]
      · cases hm
    | acts i m =>
      obtain ⟨tab, htab, hm⟩ := bind_eq_some_iff.mp hm
      split at hm
      · obtain ⟨store, -, rfl⟩ := map_eq_some_iff.mp hm
        exact hupdate htab
      · cases hm
    | arrives i n =>
      obtain ⟨tab, htab, hm⟩ := bind_eq_some_iff.mp hm
      obtain ⟨payload, -, hm⟩ := bind_eq_some_iff.mp hm
      obtain ⟨store, -, rfl⟩ := map_eq_some_iff.mp hm
      exact hupdate htab
    | closes i =>
      obtain ⟨tab, -, rfl⟩ := map_eq_some_iff.mp hm
      simp [h]

/-! ### Runs that can be checked -/

/-- The operation whose response completes the run. -/
def completion (ms : List TabMove) (i n : ℕ) : Option (Tabs × Operation) :=
  (run Tabs.step Tabs.closed ms).bind fun tabs => (tabs i).bind fun tab =>
    (tab.store.operation n).map fun o => (tabs, o)

theorem completes_of_completion (h : completion ms₁ i n = some (tabs, o))
    (hends : o.pending.endedBy r = true) : Completes ms₁ i n r tabs o := by
  obtain ⟨tabs', hrun, h⟩ := bind_eq_some_iff.mp h
  obtain ⟨tab, htab, h⟩ := bind_eq_some_iff.mp h
  obtain ⟨o', ho, heq⟩ := map_eq_some_iff.mp h
  obtain ⟨rfl, rfl⟩ := Prod.mk.inj heq
  exact ⟨hrun, ⟨tab, htab, ho⟩, hends⟩

/-- The tabs `0` and `1` that are signed in have the identity. -/
def twoAgree (tabs : Tabs) (o : Operation) (id : String) : Bool :=
  o.pending.initiated = some id && id ≠ "" && [0, 1].all fun j =>
    (tabs j).all fun tab => tab.store.status ≠ .authenticated || tab.store.authSessionId = some id

theorem agrees_of_twoAgree (h : twoAgree tabs o id = true)
    (hothers : ∀ j, 2 ≤ j → tabs j = none) : Agrees tabs o id := by
  simp only [twoAgree, Bool.and_eq_true, decide_eq_true_eq] at h
  obtain ⟨⟨hinitiated, hid⟩, hall⟩ := h
  refine ⟨hinitiated, hid, fun j tab htab hs => ?_⟩
  by_cases hj : 2 ≤ j
  · rw [hothers j hj] at htab
    cases htab
  · have hone := List.all_eq_true.mp hall j (by simp; omega)
    rw [htab] at hone
    simpa [hs] using hone

/-- A tab signs in, and a tab that is opened later gets its own token: the first tab logs out. -/
def signedInApart : List TabMove :=
  [.opens 0, .acts 0 (.call .login), .acts 0 (.settle 0 (.loggedIn "a" sampleUser)),
    .acts 0 .resume, .opens 1, .acts 1 (.call .bootstrap), .acts 1 (.settle 0 (.refreshed "b")),
    .acts 1 .resume, .arrives 0 0, .acts 0 (.call .logout)]

theorem logout_misses_tab : ¬ ∀ ms₁ i n r ms₂ tabs o,
    OneSession (ms₁ ++ .acts i (.settle n r) :: ms₂) → Completes ms₁ i n r tabs o →
      Reached ms₁ i n r ms₂ := by
  intro h
  have hcompletes : (completion signedInApart 0 1).map (fun c => c.2.pending.endedBy .done) =
      some true := by
    decide +kernel
  obtain ⟨⟨tabs, o⟩, hcompletion, hends⟩ := Option.map_eq_some_iff.mp hcompletes
  let ms := signedInApart ++ .acts 0 (.settle 1 .done) :: [.acts 0 .resume, .arrives 1 0]
  have hend : (run Tabs.step Tabs.closed ms).map (fun tabs =>
      ((tabs 0).all fun tab => tab.inbox.isEmpty,
        (tabs 1).map fun tab => (tab.inbox.isEmpty, tab.store.status))) =
      some (true, some (true, .authenticated)) := by
    decide +kernel
  obtain ⟨tabs', hrun, hvals⟩ := Option.map_eq_some_iff.mp hend
  obtain ⟨hzero, hone⟩ := Prod.mk.inj hvals
  obtain ⟨tab, htab, hone⟩ := Option.map_eq_some_iff.mp hone
  obtain ⟨hempty, hstatus⟩ := Prod.mk.inj hone
  refine h signedInApart 0 1 .done [.acts 0 .resume, .arrives 1 0] tabs o
    ⟨by decide +kernel, by decide +kernel, by decide +kernel⟩
    (completes_of_completion hcompletion hends) tabs' hrun (fun j tab' htab' => ?_) 1 tab htab
    hstatus
  match j with
  | 0 =>
    rw [htab'] at hzero
    simpa using hzero
  | 1 =>
    obtain rfl := Option.some.inj (htab.symm.trans htab')
    simpa using hempty
  | j + 2 =>
    have hnone : tabs' (j + 2) = none := by
      refine run_not_opened (fun m hm => ?_) rfl hrun
      rintro rfl
      simp [ms, signedInApart] at hm
    rw [hnone] at htab'
    cases htab'

/-- Two tabs, the second signed in by the login it is told of: the first logs out. -/
def signedInTogether : List TabMove :=
  [.opens 0, .opens 1, .acts 0 (.call .login),
    .acts 0 (.settle 0 (.loggedIn "a" sampleUser)), .acts 0 .resume, .arrives 1 0, .acts 1 .resume,
    .acts 0 (.call .logout)]

theorem logout_reaches_tabs_sample :
    Reached signedInTogether 0 1 .done [.acts 0 .resume, .arrives 1 0, .acts 1 .resume] ∧
      (run Tabs.step Tabs.closed (signedInTogether ++ .acts 0 (.settle 1 .done) ::
        [.acts 0 .resume, .arrives 1 0, .acts 1 .resume])).map (fun tabs =>
          (tabs 1).map fun tab => (tab.store.status, tab.inbox.isEmpty)) =
        some (some (.unauthenticated, true)) := by
  have hcompletes : (completion signedInTogether 0 1).map (fun c =>
      (c.2.pending.endedBy .done, twoAgree c.1 c.2 "a",
        ((c.1.step (.acts 0 (.settle 1 .done))).all fun tabs =>
          checks Tabs.step (fun tabs m => (tabs.joins m).isNone) tabs
            [.acts 0 .resume, .arrives 1 0, .acts 1 .resume]))) = some (true, true, true) := by
    decide +kernel
  obtain ⟨⟨tabs, o⟩, hcompletion, hvals⟩ := Option.map_eq_some_iff.mp hcompletes
  obtain ⟨hends, hvals⟩ := Prod.mk.inj hvals
  obtain ⟨hagree, hchecks⟩ := Prod.mk.inj hvals
  have hc := completes_of_completion hcompletion hends
  refine ⟨logout_reaches_tabs hc (agrees_of_twoAgree hagree fun j hj => ?_)
    fun tabs₂ htabs₂ => ?_, by decide +kernel⟩
  · refine run_not_opened (fun m hm => ?_) rfl hc.runs
    rintro rfl
    simp [signedInTogether] at hm
    omega
  · rw [htabs₂, Option.all_some] at hchecks
    refine moves_of_checks (fun tabs m hm tab id' hjoins => ?_) hchecks
    rw [hjoins] at hm
    cases hm

end RagQs.Auth
