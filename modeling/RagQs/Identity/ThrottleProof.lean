import RagQs.Identity.Login

/-!
# What a login does to the throttle rows

Who changes the throttle row of a username that has an account has locked the account, and nobody
deletes the row of a username that has none.  So a failure is counted after at most two tries.

## Main definitions

* `AtPassword`, `MeetsNoLock` — where a login may come to a lock, and that it does not.
* `ThrottlesOk`, `ThrottleChange` — the throttle rows, and what becomes of them.
* `LoginPost` — what a login leaves of them.

## Main results

* `login_verified` — every login meets its specification.
-/

namespace RagQs.Identity

open Txn Discipline Store AList

variable {env : AuthEnv} {call : LoginCall} {c c' c₀ b v d : Db} {H : Key → Prop}
variable {u : String × UserRow} {r : ThrottleRow}

/-! ### The throttle rows -/

/-- No lock of the username is in force at the time of the login. -/
def Unlocked (call : LoginCall) (v : Db) : Prop :=
  ∀ r : ThrottleRow, v.get (.throttle call.normalizedUsername) = some r →
    r.lockedAt call.now = false

/-- The login is about to read the account, or to record its failure. -/
def AtPassword (env : AuthEnv) (call : LoginCall) (p : Tx LoginResult) : Prop :=
  p = authenticate env call ∨ ∃ tries, p = failLogin env call (tries + 1)

/-- Where a login reads the account, or records its failure, no lock is in force at its time. -/
def MeetsNoLock (env : AuthEnv) (call : LoginCall) (p : Tx LoginResult) (v : Db) : Prop :=
  AtPassword env call p → Unlocked call v

/-- The throttle rows: a username is locked from as many failures on as are allowed. -/
def ThrottlesOk (env : AuthEnv) (c : Db) : Prop :=
  ∀ name (r : ThrottleRow), c.get (.throttle name) = some r →
    (r.lockedUntil = none ↔ r.failedAttempts < env.loginMaxAttempts)

/-- The accounts stay.  Who changes the throttle row of an account has locked the account, and
without an account the row is not deleted. -/
structure ThrottleChange (W : Key → Prop) (c c' : Db) : Prop where
  user : ∀ id, c'.get (.user id) = c.get (.user id)
  username : ∀ name, c'.get (.username name) = c.get (.username name)
  held : ∀ name u, userOf name c = some u →
    c'.get (.throttle name) ≠ c.get (.throttle name) → W (.user u.1)
  kept : ∀ name, userOf name c = none → (c.get (.throttle name)).isSome = true →
    (c'.get (.throttle name)).isSome = true

theorem userOf_congr {name : String} (hname : c'.get (.username name) = c.get (.username name))
    (huser : ∀ id, c'.get (.user id) = c.get (.user id)) : userOf name c' = userOf name c := by
  unfold userOf
  rw [hname]
  cases c.get (.username name) with
  | none => rfl
  | some id => simp [huser]

theorem ThrottleChange.userOf (h : ThrottleChange H c c') (name : String) :
    userOf name c' = Identity.userOf name c :=
  userOf_congr (h.username name) h.user

/-- The discipline of the throttle rows. -/
def throttleDiscipline (env : AuthEnv) : Discipline Row where
  Inv := ThrottlesOk env
  guar := ThrottleChange
  refl _ _ := ⟨fun _ => rfl, fun _ => rfl, fun _ _ _ h => absurd rfl h, fun _ _ h => h⟩
  trans {W a b c} h h' := by
    refine ⟨fun id => (h'.user id).trans (h.user id),
      fun name => (h'.username name).trans (h.username name), fun name u hu hne => ?_,
      fun name hu hsome => h'.kept name (by rw [h.userOf, hu]) (h.kept name hu hsome)⟩
    by_cases hsame : b.get (.throttle name) = a.get (.throttle name)
    · exact h'.held name u (by rw [h.userOf, hu]) (by rw [hsame]; exact hne)
    · exact h.held name u hu hsame
  mono hW h := ⟨h.user, h.username, fun name u hu hne => hW _ (h.held name u hu hne), h.kept⟩

/-- The account that the username has is locked. -/
def Owns (call : LoginCall) (c : Db) (H : Key → Prop) : Prop :=
  ∀ u, userOf call.normalizedUsername c = some u → H (.user u.1)

theorem Owns.rely (h : Owns call c H) (hr : (throttleDiscipline env).Rely H c c') :
    Owns call c' H := by
  intro u hu
  rw [hr.guar.userOf] at hu
  exact h u hu

theorem Owns.mono {H' : Key → Prop} (h : Owns call c H) (hH : ∀ k, H k → H' k) :
    Owns call c H' := fun u hu => hH _ (h u hu)

theorem throttle_stays (hu : userOf call.normalizedUsername c = some u) (hH : H (.user u.1))
    (hr : (throttleDiscipline env).Rely H c c') :
    c'.get (.throttle call.normalizedUsername) = c.get (.throttle call.normalizedUsername) := by
  by_contra hne
  exact hr.guar.held _ u hu hne hH

theorem Owns.present (h : Owns call c H) (hr : (throttleDiscipline env).Rely H c c')
    (hsome : (c.get (.throttle call.normalizedUsername)).isSome = true) :
    (c'.get (.throttle call.normalizedUsername)).isSome = true := by
  cases hu : userOf call.normalizedUsername c with
  | none => exact hr.guar.kept _ hu hsome
  | some u => rwa [throttle_stays hu (h u hu) hr]

/-- The failure was counted: the first one, or one more. -/
def Counted (env : AuthEnv) (call : LoginCall) (o : Option ThrottleRow) (r : ThrottleRow) : Prop :=
  o = none ∧ r = ⟨1, none, call.now⟩ ∨
    ∃ r₀, o = some r₀ ∧ r₀.lockedAt call.now = false ∧ r = r₀.fail env call.now

/-- What a login leaves of the throttle rows. -/
structure LoginPost (env : AuthEnv) (call : LoginCall) (a : LoginResult) (b v : Db) : Prop where
  other : ∀ name, name ≠ call.normalizedUsername → v.get (.throttle name) = b.get (.throttle name)
  locked : ∀ lockedUntil, a = .locked lockedUntil → v = b
  failed : ∀ attempts lockedUntil, a = .failed attempts lockedUntil →
    ∃ r : ThrottleRow, v.get (.throttle call.normalizedUsername) = some r ∧
      r.failedAttempts = attempts ∧ r.lockedUntil = lockedUntil ∧
      Counted env call (b.get (.throttle call.normalizedUsername)) r
  succeeded : ∀ userId, a = .succeeded userId → Unlocked call b ∧
    (userOf call.normalizedUsername b).isSome = true ∧
      v.get (.throttle call.normalizedUsername) = none

/-! ### The parts of a login -/

/-- What a login owes at its commit. -/
abbrev LoginCommit (env : AuthEnv) (call : LoginCall) : LoginResult → Assn Row :=
  (throttleDiscipline env).Commit (LoginPost env call)

/-- A part of a login meets the specification of the login, whose only error is an identifier that
is taken. -/
abbrev Meets (env : AuthEnv) (call : LoginCall) (p : Tx LoginResult) : Assn Row :=
  (throttleDiscipline env).wp (MeetsNoLock env call) p (LoginCommit env call)
    fun e _ _ _ => e = .integrity

/-- The accounts are not among the pending writes, and the only throttle row that may be is that
of the username. -/
structure OwnThrottle (call : LoginCall) (d : Db) : Prop where
  user : ∀ id, Key.user id ∉ d
  username : ∀ name, Key.username name ∉ d
  throttle : ∀ name, Key.throttle name ∈ d → name = call.normalizedUsername

theorem ownThrottle_empty : OwnThrottle call ∅ :=
  ⟨fun _ => notMem_empty _, fun _ => notMem_empty _,
    fun _ h => absurd h (notMem_empty _)⟩

theorem OwnThrottle.set {k : Key} {row : Option (Row k)} (h : OwnThrottle call d)
    (huser : ∀ id, k ≠ .user id) (husername : ∀ name, k ≠ .username name)
    (hthrottle : ∀ name, k = .throttle name → name = call.normalizedUsername) :
    OwnThrottle call (d.set k row) where
  user id hmem := by
    rcases (mem_set ..).mp hmem with heq | hmem
    · exact huser id heq.symm
    · exact h.user id hmem
  username name hmem := by
    rcases (mem_set ..).mp hmem with heq | hmem
    · exact husername name heq.symm
    · exact h.username name hmem
  throttle name hmem := by
    rcases (mem_set ..).mp hmem with heq | hmem
    · exact hthrottle name heq.symm
    · exact h.throttle name hmem

theorem ownThrottle_set {row : Option ThrottleRow} :
    OwnThrottle call ((∅ : Db).set (.throttle call.normalizedUsername) row) :=
  ownThrottle_empty.set (by simp) (by simp) fun _ h => (Key.throttle.inj h).symm

theorem OwnThrottle.other (h : OwnThrottle call d) {name : String}
    (hne : name ≠ call.normalizedUsername) :
    (d ∪ c : Db).get (.throttle name) = c.get (.throttle name) :=
  get_union_of_notMem fun hmem => hne (h.throttle name hmem)

theorem OwnThrottle.change (h : OwnThrottle call d) (howns : Owns call c H)
    (hkept : userOf call.normalizedUsername c = none →
      (c.get (.throttle call.normalizedUsername)).isSome = true →
        ((d ∪ c : Db).get (.throttle call.normalizedUsername)).isSome = true) :
    ThrottleChange H c (d ∪ c) where
  user id := get_union_of_notMem (h.user id)
  username name := get_union_of_notMem (h.username name)
  held name u hu hne := by
    by_cases hname : name = call.normalizedUsername
    · rw [hname] at hu
      exact howns u hu
    · exact absurd (h.other hname) hne
  kept name hu hsome := by
    by_cases hname : name = call.normalizedUsername
    · subst hname
      exact hkept hu hsome
    · rwa [h.other hname]

theorem OwnThrottle.inv (h : OwnThrottle call d) (hc : ThrottlesOk env c)
    (hown : ∀ r : ThrottleRow, (d ∪ c : Db).get (.throttle call.normalizedUsername) = some r →
      (r.lockedUntil = none ↔ r.failedAttempts < env.loginMaxAttempts)) :
    ThrottlesOk env (d ∪ c) := by
  intro name r hget
  by_cases hname : name = call.normalizedUsername
  · subst hname
    exact hown r hget
  · rw [h.other hname] at hget
    exact hc name r hget

theorem ThrottleRow.fail_locked {now : Time} :
    (r.fail env now).lockedUntil = none ↔
      (r.fail env now).failedAttempts < env.loginMaxAttempts := by
  simp [ThrottleRow.fail]

theorem meets_counted (hmax : 2 ≤ env.loginMaxAttempts) (howns : Owns call c H)
    (hH : H (.throttle call.normalizedUsername))
    (hcounted : Counted env call (c.get (.throttle call.normalizedUsername)) r) :
    Meets env call (.done (.failed r.failedAttempts r.lockedUntil)) c
      ((∅ : Db).set (.throttle call.normalizedUsername) (some r)) H := by
  intro c' hrely
  have hget : ((∅ : Db).set (.throttle call.normalizedUsername) (some r) ∪ c' : Db).get
      (.throttle call.normalizedUsername) = some r := by
    rw [set_union, get_set_self]
  refine ⟨ownThrottle_set.inv hrely.inv fun r' hget' => ?_,
    ownThrottle_set.change (howns.rely hrely) fun _ _ => by rw [hget]; rfl,
    fun name hne => ownThrottle_set.other hne, fun _ h => (by cases h), fun _ _ h => ?_,
    fun _ h => (by cases h)⟩
  · rw [hget] at hget'
    cases hget'
    rcases hcounted with ⟨-, rfl⟩ | ⟨r₀, -, -, rfl⟩
    · exact ⟨fun _ => hmax, fun _ => rfl⟩
    · exact ThrottleRow.fail_locked
  · cases h
    refine ⟨r, hget, rfl, rfl, ?_⟩
    rw [hrely.rows _ hH]
    exact hcounted

theorem meets_recordOn (hmax : 2 ≤ env.loginMaxAttempts) (howns : Owns call c H)
    (hH : H (.throttle call.normalizedUsername))
    (hget : c.get (.throttle call.normalizedUsername) = some r)
    (hfree : r.lockedAt call.now = false) (again : Tx (ℕ × Option Time)) :
    Meets env call (recordOn env call.normalizedUsername call.now r again >>=
      fun counted => .done (.failed counted.1 counted.2)) c ∅ H := by
  unfold recordOn
  rw [if_neg (by simp [hfree]), Prog.bind_assoc]
  refine wp_updateWhere_bind (fun c₁ hr hmiss => ?_) fun c₁ r₁ hr hget₁ _ => ?_
  · rw [empty_union, hr.rows _ hH] at hmiss
    have := hmiss r hget
    simp at this
  · have hrow : c₁.get (.throttle call.normalizedUsername) = some r := by rw [hr.rows _ hH, hget]
    exact meets_counted hmax ((howns.rely hr).mono fun _ => .inl) (.inr rfl)
      (.inr ⟨r, hrow, hfree, rfl⟩)

/-- What a failed login does with the throttle row it has read, with the tries that are left. -/
def failOn (env : AuthEnv) (call : LoginCall) (tries : ℕ) (o : Option ThrottleRow) :
    Tx LoginResult :=
  (match o with
    | none => recordFirst call.normalizedUsername call.now
        (recordFailedLogin env call.normalizedUsername call.now tries)
    | some r => recordOn env call.normalizedUsername call.now r
        (recordFailedLogin env call.normalizedUsername call.now tries)) >>=
    fun counted => .done (.failed counted.1 counted.2)

theorem failLogin_succ (tries : ℕ) : failLogin env call (tries + 1) =
    (lockRow (Key.throttle call.normalizedUsername) >>= failOn env call tries) := rfl

theorem meets_failLogin_present (hmax : 2 ≤ env.loginMaxAttempts) (howns : Owns call c H)
    (hsome : (c.get (.throttle call.normalizedUsername)).isSome = true) (tries : ℕ) :
    Meets env call (failLogin env call (tries + 1)) c ∅ H := by
  rw [failLogin_succ]
  refine wp_lockRow_allowed_bind (fun c₁ hr hget _ => ?_) fun c₁ r hr hget hA => ?_
  · rw [empty_union] at hget
    have := howns.present hr hsome
    simp [hget] at this
  · have hfree := hA (.inr ⟨tries, rfl⟩)
    rw [empty_union] at hget hfree
    exact meets_recordOn hmax ((howns.rely hr).mono fun _ => .inl) (.inr rfl) hget (hfree r hget) _

/-- **A failure is counted**, after one more try where another login has inserted the row. -/
theorem meets_failLogin (hmax : 2 ≤ env.loginMaxAttempts) (howns : Owns call c H) (tries : ℕ) :
    Meets env call (failLogin env call (tries + 2)) c ∅ H := by
  rw [failLogin_succ]
  refine wp_lockRow_allowed_bind (fun c₁ hr hget _ => ?_) fun c₁ r hr hget hA => ?_
  · have howns₁ := howns.rely hr
    simp only [failOn, recordFirst]
    rw [Prog.bind_assoc]
    refine wp_insertOrSkip_bind (fun c₂ hr₂ hsome => ?_) (fun c₂ c₃ _ htaken _ => ?_)
      fun c₂ hr₂ hfree _ => ?_
    · rw [empty_union] at hsome
      exact meets_failLogin_present hmax (howns₁.rely hr₂) hsome tries
    · simp [taken] at htaken
    · rw [empty_union] at hfree
      exact meets_counted hmax ((howns₁.rely hr₂).mono fun _ => .inl) (.inr (by simp))
        (.inl ⟨hfree, rfl⟩)
  · have hfree := hA (.inr ⟨tries + 1, rfl⟩)
    rw [empty_union] at hget hfree
    exact meets_recordOn hmax ((howns.rely hr).mono fun _ => .inl) (.inr rfl) hget (hfree r hget) _

/-- A login is opening a session: it has locked the account, no lock of the username is in force,
and its throttle row is deleted. -/
structure Opening (call : LoginCall) (u : String × UserRow) (c d : Db) (H : Key → Prop) : Prop where
  account : userOf call.normalizedUsername c = some u
  locked : H (.user u.1)
  free : Unlocked call c
  own : OwnThrottle call d
  cleared : (d ∪ c : Db).get (.throttle call.normalizedUsername) = none

theorem Opening.rely (h : Opening call u c d H) (hr : (throttleDiscipline env).Rely H c c') :
    Opening call u c' d H := by
  have hsame := throttle_stays h.account h.locked hr
  refine ⟨by rw [hr.guar.userOf, h.account], h.locked, fun r hget => ?_, h.own, ?_⟩
  · exact h.free r (by rw [← hsame, hget])
  · rw [get_union_congr hsame, h.cleared]

theorem Opening.set {k : Key} {row : Option (Row k)} {H' : Key → Prop} (h : Opening call u c d H)
    (huser : ∀ id, k ≠ .user id) (husername : ∀ name, k ≠ .username name)
    (hthrottle : ∀ name, k ≠ .throttle name) (hH : ∀ k, H k → H' k) :
    Opening call u c (d.set k row) H' :=
  ⟨h.account, hH _ h.locked, h.free,
    h.own.set huser husername fun name heq => absurd heq (hthrottle name),
    by rw [set_union, get_set_of_ne (hthrottle _).symm, h.cleared]⟩

theorem Opening.commit (h : Opening call u c d H) (hc : ThrottlesOk env c) :
    LoginCommit env call (.succeeded u.1) c d H := by
  refine ⟨h.own.inv hc fun r hget => ?_, h.own.change (fun u' hu' => ?_) fun hnone _ => ?_,
    fun name hne => h.own.other hne, fun _ heq => (by cases heq), fun _ _ heq => (by cases heq),
    fun _ _ => ⟨h.free, by rw [h.account]; rfl, h.cleared⟩⟩
  · rw [h.cleared] at hget
    cases hget
  · rw [h.account] at hu'
    cases hu'
    exact h.locked
  · rw [h.account] at hnone
    cases hnone

theorem meets_openSession (hu : userOf call.normalizedUsername c = some u) (hH : H (.user u.1))
    (hfree : Unlocked call c) : Meets env call (openSession env call u.1 u.2) c ∅ H := by
  have hinserts : ∀ {c d H}, Opening call u c d H → Meets env call (do
      insert .integrity [.session call.sessionId]
        [⟨.session call.sessionId, some (call.session env u.1 u.2)⟩]
      insert .integrity
        [.refreshToken call.sessionId 1, .tokenHash (env.hashRefreshToken call.refreshToken)]
        [⟨.refreshToken call.sessionId 1, some (call.token env)⟩,
          ⟨.tokenHash (env.hashRefreshToken call.refreshToken), some (call.sessionId, 1)⟩]
      return .succeeded u.1) c d H := by
    intro c d H h
    refine wp_insert_bind (fun _ _ => rfl) fun c₁ hr₁ _ => ?_
    refine wp_insert_bind (fun _ _ => rfl) fun c₂ hr₂ _ c₃ hr₃ => ?_
    have h₂ : Opening call u c₂ (d.set (.session call.sessionId)
        (some (call.session env u.1 u.2))) (writing H _) :=
      ((h.rely hr₁).set (by simp) (by simp) (by simp) fun _ => .inl).rely hr₂
    refine Opening.commit ?_ hr₃.inv
    refine Opening.rely ?_ hr₃
    exact (h₂.set (by simp) (by simp) (by simp) fun _ h => h).set (by simp) (by simp) (by simp)
      fun _ => .inl
  refine wp_deleteRow_bind (fun c₁ hr hget => ?_) fun c₁ r hr hget => ?_
  · rw [empty_union] at hget
    have hsame := throttle_stays hu hH hr
    exact hinserts ⟨by rw [hr.guar.userOf, hu], hH, fun r h => hfree r (by rw [← hsame, h]),
      ownThrottle_empty, by rw [empty_union, hget]⟩
  · have hsame := throttle_stays hu hH hr
    exact hinserts ⟨by rw [hr.guar.userOf, hu], .inl hH, fun r h => hfree r (by rw [← hsame, h]),
      ownThrottle_set, by rw [set_union, get_set_self]⟩

theorem meets_authenticate (hmax : 2 ≤ env.loginMaxAttempts) :
    Meets env call (authenticate env call) c ∅ H := by
  intro c₁ hr hA
  have hfree : Unlocked call (∅ ∪ c₁) := hA (.inl rfl)
  rw [empty_union] at hfree ⊢
  rw [applyAll_nil]
  change Meets env call (judge env call (userOf call.normalizedUsername c₁)) c₁ ∅ _
  cases hu : userOf call.normalizedUsername c₁ with
  | none =>
    refine meets_failLogin hmax (fun u hu' => ?_) 2
    rw [hu] at hu'
    cases hu'
  | some u =>
    have hlock : grow H (fun v => (userOf call.normalizedUsername v).toList.map fun u => .user u.1)
        (fun _ => []) c₁ (.user u.1) := .inr (by simp [needed, hu])
    simp only [judge]
    by_cases hvalid : valid env call (some u) = true
    · rw [if_pos hvalid]
      exact meets_openSession hu hlock hfree
    · rw [if_neg hvalid]
      refine meets_failLogin hmax (fun u' hu' => ?_) 2
      rw [hu] at hu'
      cases hu'
      exact hlock

theorem meets_locked {lockedUntil : Time} :
    Meets env call (.done (.locked lockedUntil)) c ∅ H := by
  intro c' hr
  unfold LoginCommit Commit
  rw [empty_union]
  exact ⟨hr.inv, (throttleDiscipline env).refl _ _, fun _ _ => rfl, fun _ _ => rfl,
    fun _ _ heq => (by cases heq), fun _ heq => (by cases heq)⟩

theorem meets_unlessLocked {call : LoginCall} (hmax : 2 ≤ env.loginMaxAttempts)
    (o : Option ThrottleRow) {c₁ : Db} {H₁ : Key → Prop} : Meets env call
      (match o.bind fun r => r.lockedUntil.filter (call.now < ·) with
        | some lockedUntil => return .locked lockedUntil
        | none => authenticate env call) c₁ ∅ H₁ := by
  cases o.bind fun r => r.lockedUntil.filter (call.now < ·) with
  | some lockedUntil => exact meets_locked
  | none => exact meets_authenticate hmax

/-- **Every login meets its specification**, where no lock is in force when it reads the account
or records its failure. -/
theorem login_verified (hmax : 2 ≤ env.loginMaxAttempts) :
    Verified (throttleDiscipline env) (MeetsNoLock env) (login env)
      (fun call _ => LoginPost env call) fun _ _ e _ => e = .integrity where
  wp call c hc := by
    exact wp_lockRow_bind (fun _ _ _ => meets_unlessLocked hmax none)
      fun _ r _ _ => meets_unlessLocked hmax (some r)

end RagQs.Identity
