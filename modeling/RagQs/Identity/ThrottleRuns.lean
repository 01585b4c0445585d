import RagQs.Identity.ThrottleStages
import RagQs.Machine.Run
import RagQs.Txn.Views

/-!
# Login throttling, in every run of the system

However any number of logins interleave, every failure that was evaluated is counted, the username
is locked when as many have been evaluated as are allowed, no password is evaluated under a lock
and a lock stays until it has expired and a login succeeds, as long as no login that found no
throttle row comes to a lock or is one too many.

## Main definitions

* `attempts`, `failures` — the failures on the throttle row, and those in the history.
* `Calm` — no login that found no throttle row comes to a lock, or is one too many.
* `Throttled` — what is asked of the logins.

## Main results

* `logins_throttled` — the logins in every run of the system.
* `login_under_lock` — a run of the system in which a login ends the lock of its username.
-/

namespace RagQs.Identity

open Txn Discipline List Option Function Store AList

variable {call : LoginCall} {a : LoginResult} {x : Session Row LoginCall Err LoginResult}

/-- The system. -/
abbrev LoginSystem := Sys Row LoginCall Err LoginResult

variable {env : AuthEnv} {s t : LoginSystem} {m : Move LoginCall} {ms ms₁ : List (Move LoginCall)}
  {db : Db} {name : String} {i j : ℕ}

/-- The failures that the throttle row of a username counts. -/
def attempts (name : String) (c : Db) : ℕ :=
  match c.get (.throttle name) with
  | some (r : ThrottleRow) => r.failedAttempts
  | none => 0

/-- The failures since the last login that succeeded, after one more login. -/
def LoginResult.count (n : ℕ) : LoginResult → ℕ
  | .failed _ _ => n + 1
  | .succeeded _ => 0
  | .locked _ => n

/-- The failures of a history since the last login that succeeded, or on top of the `n` there were
before it. -/
def failures (name : String) (n : ℕ) : List (Ended LoginCall Err LoginResult) → ℕ
  | [] => n
  | e :: h =>
    if e.op.normalizedUsername = name then
      match e.result with
      | .ok a => a.count (failures name n h)
      | .error _ => failures name n h
    else failures name n h

/-- No lock is set for the username, be it in force or expired. -/
def NoLockSet (name : String) (c : Db) : Prop :=
  ∀ r : ThrottleRow, c.get (.throttle name) = some r → r.lockedUntil = none

/-- The open transaction under the number `i` is a login of the username that has evaluated a wrong
password. -/
def FailingIn (env : AuthEnv) (s : LoginSystem) (name : String) (i : ℕ) : Prop :=
  ∃ x, s.sessions i = some x ∧ x.op.normalizedUsername = name ∧ Failing env x.op x.prog

/-- A login that does not hold the throttle row reads the account, or records its failure, only
while no lock is in force at its time.  While no lock is set and one of the logins that evaluate
does not hold the throttle row, no more evaluate than failures are left. -/
def Calm (env : AuthEnv) (s : LoginSystem) (m : Move LoginCall) : Prop :=
  ∀ i x, m = .advance i → s.sessions i = some x →
    (AtPassword env x.op x.prog → s.owner (.throttle x.op.normalizedUsername) ≠ some i →
      Unlocked x.op s.db) ∧
    (x.prog = authenticate env x.op →
      valid env x.op (userOf x.op.normalizedUsername s.db) = false →
      NoLockSet x.op.normalizedUsername s.db →
      ∀ I : Finset ℕ, (∀ j ∈ I, FailingIn env s x.op.normalizedUsername j) →
        (∃ j ∈ insert i I, s.owner (.throttle x.op.normalizedUsername) ≠ some j) →
        attempts x.op.normalizedUsername s.db + I.card < env.loginMaxAttempts)

/-! ### The invariant -/

/-- The throttle rows count the failures of the history, and the only errors are identifiers that
were taken. -/
def Counts (start : Db) (c : Db) (h : List (Ended LoginCall Err LoginResult)) : Prop :=
  (∀ name, attempts name c = failures name (attempts name start) h) ∧
    ∀ e ∈ h, ∀ err, e.result = .error err → err = .integrity

/-- What the verification says of a state. -/
abbrev LoginSysOk (env : AuthEnv) (start : Db) : LoginSystem → Prop :=
  SysOk (throttleDiscipline env) (MeetsNoLock env) (fun call _ => LoginPost env call)
    (fun _ _ e _ => e = .integrity) (Counts start)

theorem LoginPost.attempts {b v : Db} (h : LoginPost env call a b v) :
    attempts call.normalizedUsername v = a.count (Identity.attempts call.normalizedUsername b) := by
  cases a with
  | locked lockedUntil =>
    rw [h.locked _ rfl]
    rfl
  | failed attempts lockedUntil =>
    obtain ⟨r, hget, -, -, hcounted⟩ := h.failed _ _ rfl
    rcases hcounted with ⟨hnone, rfl⟩ | ⟨r₀, hsome, -, rfl⟩
    · simp [Identity.attempts, LoginResult.count, hget, hnone]
    · simp [Identity.attempts, LoginResult.count, hget, hsome, ThrottleRow.fail]
  | succeeded userId => simp [Identity.attempts, LoginResult.count, (h.succeeded _ rfl).2.2]

theorem LoginPost.attempts_other {b v : Db} (h : LoginPost env call a b v)
    (hne : name ≠ call.normalizedUsername) :
    Identity.attempts name v = Identity.attempts name b := by
  unfold Identity.attempts
  rw [h.other name hne]

theorem counts_preserved (start : Db) : Preserved (throttleDiscipline env)
    (fun (call : LoginCall) _ => LoginPost env call) (fun _ _ e _ => e = .integrity)
    (Counts start) where
  commit c₀ c c' h call n a _ _ _ _ hpost hcounts := by
    refine ⟨fun name => ?_, fun e hmem err herr => ?_⟩
    · by_cases hname : call.normalizedUsername = name
      · subst hname
        rw [hpost.attempts, hcounts.1]
        simp [failures]
      · rw [hpost.attempts_other (Ne.symm hname), hcounts.1]
        simp [failures, hname]
    · rcases mem_cons.mp hmem with rfl | hmem
      · cases herr
      · exact hcounts.2 e hmem err herr
  error c₀ c h call n e _ _ he hcounts := by
    refine ⟨fun name => ?_, fun e' hmem err herr => ?_⟩
    · rw [hcounts.1]
      by_cases hname : call.normalizedUsername = name
      · simp [failures, hname]
      · simp [failures, hname]
    · rcases mem_cons.mp hmem with rfl | hmem
      · cases herr
        exact he
      · exact hcounts.2 e' hmem err herr

/-- The invariant: what the verification says, where the open logins stand, and that no more
wrong passwords have been evaluated than are allowed while no lock is set. -/
structure LoginsOk (env : AuthEnv) (start : Db) (s : LoginSystem) : Prop where
  ok : LoginSysOk env start s
  stage : ∀ i x, s.sessions i = some x →
    StageIn env x.op s.db (fun k => s.owner k = some i) x.prog x.patch
  room : ∀ name, NoLockSet name s.db → ∀ I : Finset ℕ, (∀ i ∈ I, FailingIn env s name i) →
    attempts name s.db + I.card ≤ env.loginMaxAttempts

variable {start : Db}

theorem loginsOk_init (hdb : ThrottlesOk env start) : LoginsOk env start (Sys.init start) where
  ok := .init hdb ⟨fun _ => rfl, fun _ hmem => by cases hmem⟩
  stage i x hx := by cases hx
  room name hset I hI := by
    have hempty : I = ∅ := by
      refine Finset.eq_empty_of_forall_notMem fun i hi => ?_
      obtain ⟨x, hx, -⟩ := hI i hi
      cases hx
    subst hempty
    unfold attempts
    split
    · next r hget => exact ((hdb name r hget).mp (hset r hget)).le
    · exact Nat.zero_le _

theorem LoginsOk.allows (h : LoginsOk env start s) (hcalm : Calm env s m) :
    Allows (MeetsNoLock env) s m := by
  intro i x hm hx hat
  have hstage := h.stage i x hx
  rw [hstage.patch_empty hat, empty_union]
  by_cases hown : s.owner (.throttle x.op.normalizedUsername) = some i
  · obtain ⟨-, r, hrow, hfree⟩ := hstage.unlocked hown hat
    intro r' hget
    rw [hrow] at hget
    cases hget
    exact hfree
  · exact (hcalm i x hm hx).1 hat hown

theorem LoginsOk.stage_other (h : LoginsOk env start s)
    (hchange : ThrottleChange (fun _ => True) s.db t.db) (hm : step (login env) s m = some t)
    (hi : m.number ≠ i) (hx : s.sessions i = some x) :
    StageIn env x.op t.db (fun k => t.owner k = some i) x.prog x.patch := by
  refine (h.stage i x hx).later ⟨fun hk => owner_of_step hm hi hk, fun hk => step_owner hm hi hk⟩
    (fun hk => ?_) fun howns u hu => ?_
  · rcases step_ends hm with hdb | ⟨j, op, a, d, n, rfl, hx', hdb⟩
    · rw [hdb]
    · rw [hdb]
      refine get_union_of_notMem fun hmem => hi ?_
      have hlocked := (h.ok.session j _ hx').locked _ hmem
      rw [hk] at hlocked
      exact (some.inj hlocked).symm
  · rw [hchange.userOf] at hu
    exact step_owner hm hi (howns u hu)

theorem acquire_grow {l : Db → List Key} {w : Db → List (Write Row)} {v : Db} (k : Key) :
    acquire s.owner i (needed l w v) k = some i ↔ grow (fun k => s.owner k = some i) l w v k := by
  unfold acquire grow
  by_cases hmem : k ∈ needed l w v
  · simp [hmem]
  · simp [hmem]

theorem LoginsOk.step_stage (h : LoginsOk env start s) (hallows : Allows (MeetsNoLock env) s m)
    (hchange : ThrottleChange (fun _ => True) s.db t.db) (hm : step (login env) s m = some t)
    (hx : t.sessions i = some x) :
    StageIn env x.op t.db (fun k => t.owner k = some i) x.prog x.patch := by
  by_cases hi : m.number = i
  · cases m with
    | start j op =>
      obtain rfl : j = i := hi
      simp only [step] at hm
      split at hm
      · cases hm
      · next hfree =>
        cases hm
        simp only [update_self, some.injEq] at hx
        subst hx
        exact .first fun hown => h.ok.held _ _ hown hfree
    | advance j =>
      obtain rfl : j = i := hi
      simp only [step] at hm
      split at hm
      · cases hm
      · cases hm
        simp at hx
      · cases hm
        simp at hx
      · next op l w f d n hold =>
        split at hm
        · cases hm
          simp only [update_self, some.injEq] at hx
          subst hx
          have hstage := (h.stage j _ hold).advance (hallows j _ rfl hold)
          exact hstage.later (acquire_grow _) (fun _ => rfl) fun howns u hu =>
            (acquire_grow _).mpr (howns u hu)
        · cases hm
    | abort j =>
      obtain rfl : j = i := hi
      simp only [step] at hm
      split at hm <;> cases hm
      simp at hx
  · rw [step_sessions hm hi] at hx
    exact h.stage_other hchange hm hi hx

theorem LoginsOk.failing_of_step (h : LoginsOk env start s) (hm : step (login env) s m = some t)
    (hi : FailingIn env t name i) : FailingIn env s name i ∨ ∃ x, m = .advance i ∧
      s.sessions i = some x ∧ x.op.normalizedUsername = name ∧ x.prog = authenticate env x.op ∧
        valid env x.op (userOf name s.db) = false := by
  obtain ⟨x, hx, hname, hfails⟩ := hi
  by_cases hi : m.number = i
  · cases m with
    | start j op =>
      obtain rfl : j = i := hi
      simp only [step] at hm
      split at hm
      · cases hm
      · cases hm
        simp only [update_self, some.injEq] at hx
        subst hx
        exact absurd hfails.fails not_fails_login
    | advance j =>
      obtain rfl : j = i := hi
      simp only [step] at hm
      split at hm
      · cases hm
      · cases hm
        simp at hx
      · cases hm
        simp at hx
      · next op l w f d n hold =>
        split at hm
        · cases hm
          simp only [update_self, some.injEq] at hx
          subst hx
          have hstage := h.stage j _ hold
          rcases hstage.evaluates hfails with hbefore | ⟨hat, hvalid⟩
          · exact .inl ⟨_, hold, hname, hbefore⟩
          · have hpatch := hstage.patch_empty (.inl hat)
            simp only at hpatch hname
            rw [hpatch, empty_union, hname] at hvalid
            exact .inr ⟨_, rfl, hold, hname, hat, hvalid⟩
        · cases hm
    | abort j =>
      obtain rfl : j = i := hi
      simp only [step] at hm
      split at hm <;> cases hm
      simp at hx
  · rw [step_sessions hm hi] at hx
    exact .inl ⟨x, hx, hname, hfails⟩

theorem sessions_of_commit {d : Db} {n : ℕ} (hx : s.sessions i = some ⟨call, .done a, d, n⟩)
    (hm : step (login env) s (.advance i) = some t) : t.sessions i = none := by
  simp only [step, hx] at hm
  cases hm
  simp

theorem LoginsOk.failing_of_commit (h : LoginsOk env start s) {d : Db} {n : ℕ}
    (hx : s.sessions j = some ⟨call, .done a, d, n⟩) (hm : step (login env) s (.advance j) = some t)
    (hi : FailingIn env t name i) : FailingIn env s name i ∧ i ≠ j := by
  have hne : i ≠ j := by
    rintro rfl
    obtain ⟨x, hx', -⟩ := hi
    rw [sessions_of_commit hx hm] at hx'
    cases hx'
  rcases h.failing_of_step hm hi with hbefore | ⟨x, heq, -⟩
  · exact ⟨hbefore, hne⟩
  · cases heq
    exact absurd rfl hne

theorem LoginsOk.room_of_commit (h : LoginsOk env start s) {d : Db} {n : ℕ}
    (hx : s.sessions j = some ⟨call, .done a, d, n⟩) (hm : step (login env) s (.advance j) = some t)
    (hpost : LoginPost env call a s.db t.db) (hset : NoLockSet name t.db) {I : Finset ℕ}
    (hI : ∀ i ∈ I, FailingIn env t name i) :
    attempts name t.db + I.card ≤ env.loginMaxAttempts := by
  have hbefore : ∀ i ∈ I, FailingIn env s name i := fun i hi =>
    (h.failing_of_commit hx hm (hI i hi)).1
  by_cases hname : name = call.normalizedUsername
  · subst hname
    cases a with
    | locked lockedUntil =>
      rw [hpost.locked _ rfl] at hset ⊢
      exact h.room _ hset I hbefore
    | failed n₀ lockedUntil =>
      obtain ⟨r, hget, -, -, hcounted⟩ := hpost.failed _ _ rfl
      have hopen := hset r hget
      have hset' : NoLockSet call.normalizedUsername s.db := by
        intro r' hget'
        rcases hcounted with ⟨hnone, -⟩ | ⟨r₀, hsome, -, rfl⟩
        · rw [hnone] at hget'
          cases hget'
        · rw [hsome] at hget'
          cases hget'
          refine (h.ok.inv _ _ hsome).mpr ?_
          have := ThrottleRow.fail_locked.mp hopen
          simp only [ThrottleRow.fail] at this
          omega
      have hroom := h.room _ hset' (insert j I) fun i hi => by
        rcases Finset.mem_insert.mp hi with rfl | hi
        · exact ⟨_, hx, rfl, .ends n₀ lockedUntil⟩
        · exact hbefore i hi
      rw [Finset.card_insert_of_notMem fun hmem =>
        (h.failing_of_commit hx hm (hI j hmem)).2 rfl] at hroom
      rw [hpost.attempts]
      simp only [LoginResult.count]
      omega
    | succeeded userId =>
      -- the account is locked, so that no other login has evaluated a password for it
      obtain ⟨-, haccount, -⟩ := hpost.succeeded _ rfl
      obtain ⟨u, hu⟩ := isSome_iff_exists.mp haccount
      have hlocked : s.owner (.user u.1) = some j := by
        have howns : Owns call s.db fun k => s.owner k = some j := (h.stage j _ hx).succeeded
        exact howns u hu
      have hempty : I = ∅ := by
        refine Finset.eq_empty_of_forall_notMem fun i hi => ?_
        obtain ⟨x, hx', hname, hfails⟩ := hbefore i hi
        have hother : s.owner (.user u.1) = some i :=
          (h.stage i x hx').failing hfails u (by rw [hname, hu])
        rw [hlocked] at hother
        exact (h.failing_of_commit hx hm (hI i hi)).2 (some.inj hother).symm
      rw [hpost.attempts, hempty]
      exact Nat.zero_le _
  · rw [hpost.attempts_other hname]
    refine h.room _ (fun r hget => hset r ?_) I hbefore
    rw [hpost.other _ hname, hget]

theorem LoginsOk.room_of_owner (h : LoginsOk env start s) (hx : s.sessions i = some x)
    (hat : x.prog = authenticate env x.op)
    (hown : s.owner (.throttle x.op.normalizedUsername) = some i)
    (hset : NoLockSet x.op.normalizedUsername s.db) :
    attempts x.op.normalizedUsername s.db < env.loginMaxAttempts := by
  obtain ⟨-, r, hrow, -⟩ := (h.stage i x hx).unlocked hown (.inl hat)
  have := (h.ok.inv _ _ hrow).mp (hset r hrow)
  simpa [attempts, hrow] using this

theorem LoginsOk.room_of_statement (h : LoginsOk env start s) (hcalm : Calm env s m)
    (hm : step (login env) s m = some t) (hdb : t.db = s.db) (hset : NoLockSet name t.db)
    {I : Finset ℕ} (hI : ∀ i ∈ I, FailingIn env t name i) :
    attempts name t.db + I.card ≤ env.loginMaxAttempts := by
  rw [hdb] at hset ⊢
  by_cases hall : ∀ i ∈ I, FailingIn env s name i
  · exact h.room name hset I hall
  push Not at hall
  obtain ⟨i, hi, hnew⟩ := hall
  obtain ⟨x, rfl, hx, rfl, hat, hvalid⟩ := (h.failing_of_step hm (hI i hi)).resolve_left hnew
  have hothers : ∀ j ∈ I.erase i, FailingIn env s x.op.normalizedUsername j := by
    intro j hj
    obtain ⟨hne, hj⟩ := Finset.mem_erase.mp hj
    refine (h.failing_of_step hm (hI j hj)).resolve_right ?_
    rintro ⟨y, heq, -⟩
    cases heq
    exact hne rfl
  have hcard := Finset.card_erase_add_one hi
  by_cases hrowless : ∃ j ∈ insert i (I.erase i),
      s.owner (.throttle x.op.normalizedUsername) ≠ some j
  · have := (hcalm i x rfl hx).2 hat hvalid hset (I.erase i) hothers hrowless
    omega
  · push Not at hrowless
    have hown := hrowless i (Finset.mem_insert_self ..)
    have hempty : I.erase i = ∅ := by
      refine Finset.eq_empty_of_forall_notMem fun j hj => ?_
      have hown' := hrowless j (Finset.mem_insert_of_mem hj)
      rw [hown] at hown'
      exact (Finset.mem_erase.mp hj).1 (some.inj hown').symm
    have := h.room_of_owner hx hat hown hset
    rw [hempty, Finset.card_empty] at hcard
    omega

/-- **What a calm move preserves.** -/
theorem LoginsOk.step (hmax : 2 ≤ env.loginMaxAttempts) (h : LoginsOk env start s)
    (hcalm : Calm env s m) (hm : Txn.step (login env) s m = some t) : LoginsOk env start t := by
  have hallows := h.allows hcalm
  obtain ⟨hok, hchange⟩ := (login_verified hmax).step (counts_preserved start) h.ok hallows hm
  refine ⟨hok, fun i x hx => h.step_stage hallows hchange hm hx, fun name hset I hI => ?_⟩
  rcases h.ok.step_commit hm with hdb | ⟨j, call, c₀, a, d, n, rfl, hx, -, hpost⟩
  · exact h.room_of_statement hcalm hm hdb hset hI
  · exact h.room_of_commit hx hm hpost hset hI

/-! ### The logins in every run of the system -/

/-- The run from the store `db` makes the move `m` from `s` to `t`. -/
abbrev LoginAt (env : AuthEnv) (db : Db) : List (Move LoginCall) → Move LoginCall → LoginSystem →
    LoginSystem → Prop :=
  Machine.At (step (login env)) (Sys.init db)

/-- What is asked of the logins of a run from the store `db`. -/
structure Throttled (env : AuthEnv) (db : Db) (ms : List (Move LoginCall)) : Prop where
  /-- No password is evaluated while a lock is in force. -/
  evaluated : ∀ i s t x, LoginAt env db ms (.advance i) s t → s.sessions i = some x →
    x.prog = authenticate env x.op → Unlocked x.op s.db
  /-- No login succeeds while a lock is in force. -/
  succeeded : ∀ i s t x userId, LoginAt env db ms (.advance i) s t →
    s.sessions i = some x → x.prog = .done (.succeeded userId) → Unlocked x.op s.db
  /-- A login that has evaluated a wrong password counts it when it ends. -/
  counted : ∀ i s t x, LoginAt env db ms (.advance i) s t → s.sessions i = some x →
    Failing env x.op x.prog → t.sessions i = none →
      attempts x.op.normalizedUsername t.db = attempts x.op.normalizedUsername s.db + 1
  /-- A lock that is set is not shortened, and a login that succeeds removes it only once it has
  expired. -/
  kept : ∀ m s t, LoginAt env db ms m s t → ∀ name (r : ThrottleRow) lockedUntil,
    s.db.get (.throttle name) = some r → r.lockedUntil = some lockedUntil →
      (∃ (r' : ThrottleRow) (later : Time), t.db.get (.throttle name) = some r' ∧
        r'.lockedUntil = some later ∧ lockedUntil ≤ later) ∨
      ∃ i x userId, m = .advance i ∧ s.sessions i = some x ∧ x.prog = .done (.succeeded userId) ∧
        x.op.normalizedUsername = name ∧ lockedUntil ≤ x.op.now
  /-- While no lock is set the failures since the last login that succeeded are, together with the
  open logins that have evaluated a wrong password, no more than are allowed. -/
  bounded : ∀ s, Machine.Reaches (step (login env)) (Sys.init db) ms s → ∀ name,
    NoLockSet name s.db → ∀ I : Finset ℕ, (∀ i ∈ I, FailingIn env s name i) →
      failures name (attempts name db) s.hist + I.card ≤ env.loginMaxAttempts

theorem Counted.kept {o : Option ThrottleRow} {r r₀ : ThrottleRow} {lockedUntil : Time}
    (h : Counted env call o r) (ho : o = some r₀) (hlocked : r₀.lockedUntil = some lockedUntil)
    (hok : r₀.lockedUntil = none ↔ r₀.failedAttempts < env.loginMaxAttempts) :
    ∃ later, r.lockedUntil = some later ∧ lockedUntil ≤ later := by
  rcases h with ⟨hnone, -⟩ | ⟨r₁, hsome, hfree, rfl⟩
  · rw [ho] at hnone
    cases hnone
  · rw [ho] at hsome
    cases hsome
    have hmany : env.loginMaxAttempts ≤ r₀.failedAttempts := by
      rw [hlocked] at hok
      simpa using hok
    refine ⟨call.now + 1000000 * env.loginLockSeconds, ?_, ?_⟩
    · simp only [ThrottleRow.fail]
      rw [if_pos (hmany.trans (Nat.le_succ _))]
    · have hexpired : lockedUntil ≤ call.now := by
        simpa [ThrottleRow.lockedAt, hlocked] using hfree
      exact hexpired.trans (le_add_of_nonneg_right
        (Int.mul_nonneg (by decide) (Int.natCast_nonneg _)))

/-- **The logins in every run of the system**, when two failures at least are allowed and no login
that found no throttle row comes to a lock or is one too many. -/
theorem logins_throttled (hmax : 2 ≤ env.loginMaxAttempts) (hdb : ThrottlesOk env db)
    (hcalm : Machine.Moves (step (login env)) (Calm env) (Sys.init db) ms) : Throttled env db ms := by
  have hstep : ∀ s m t, LoginsOk env db s → Calm env s m → step (login env) s m = some t →
      LoginsOk env db t := fun s m t hs hm ht => hs.step hmax hm ht
  have hbefore : ∀ {m s t}, LoginAt env db ms m s t → LoginsOk env db s ∧ Calm env s m :=
    fun hat => Machine.at_preserves hstep (loginsOk_init hdb) hcalm hat
  have hcommit : ∀ {i s t x a}, LoginsOk env db s → Txn.step (login env) s (.advance i) = some t →
      s.sessions i = some x → x.prog = .done a → LoginPost env x.op a s.db t.db := by
    intro i s t ⟨call, p, d, n⟩ a hok hm hx hp
    obtain rfl : p = .done a := hp
    obtain ⟨c₀, -, hpost⟩ := hok.ok.committed hx
    simp only [step, hx] at hm
    cases hm
    exact hpost
  have hmove : ∀ {m s t}, LoginAt env db ms m s t → step (login env) s m = some t := by
    rintro m s t ⟨_, _, _, hm⟩
    exact hm
  refine ⟨fun i s t x hat hx hp => ?_, fun i s t x userId hat hx hp => ?_,
    fun i s t x hat hx hfails hended => ?_, fun m s t hat name r lockedUntil hget hlocked => ?_,
    fun s hs name hset I hI => ?_⟩
  · obtain ⟨hok, hcalm⟩ := hbefore hat
    have hallowed := hok.allows hcalm i x rfl hx (.inl hp)
    rwa [(hok.stage i x hx).patch_empty (.inl hp), AList.empty_union] at hallowed
  · exact ((hcommit (hbefore hat).1 (hmove hat) hx hp).succeeded userId rfl).1
  · have hok := (hbefore hat).1
    cases hp : x.prog with
    | stmt l w f =>
      obtain ⟨call, p, d, n⟩ := x
      obtain rfl : p = .stmt l w f := hp
      have hm := hmove hat
      simp only [step, hx] at hm
      split at hm <;> cases hm
      simp at hended
    | done a =>
      rw [hp] at hfails
      rw [(hcommit hok (hmove hat) hx hp).attempts]
      cases a with
      | failed n lockedUntil => rfl
      | locked lockedUntil => exact absurd hfails.fails id
      | succeeded userId => exact absurd hfails.fails id
    | fail e =>
      obtain ⟨c₀, -, hwp⟩ := (hok.ok.session i x hx).wp
      rw [hp] at hwp hfails
      exact absurd (hwp s.db (Rely.refl hok.ok.inv)) hfails.fails
  · have hok := (hbefore hat).1
    rcases hok.ok.step_commit (hmove hat) with hsame | ⟨i, call, c₀, a, d, n, rfl, hx, -, hpost⟩
    · exact .inl ⟨r, lockedUntil, by rw [hsame, hget], hlocked, le_rfl⟩
    · by_cases hname : name = call.normalizedUsername
      · subst hname
        cases a with
        | locked _ => exact .inl ⟨r, lockedUntil, by rw [hpost.locked _ rfl, hget], hlocked, le_rfl⟩
        | failed _ _ =>
          obtain ⟨r', hget', -, -, hcounted⟩ := hpost.failed _ _ rfl
          obtain ⟨later, hlater, hle⟩ := hcounted.kept hget hlocked (hok.ok.inv _ r hget)
          exact .inl ⟨r', later, hget', hlater, hle⟩
        | succeeded userId =>
          have hfree := (hpost.succeeded _ rfl).1 r hget
          refine .inr ⟨i, _, userId, rfl, hx, rfl, rfl, ?_⟩
          simpa [ThrottleRow.lockedAt, hlocked] using hfree
      · exact .inl ⟨r, lockedUntil, by rw [hpost.other _ hname, hget], hlocked, le_rfl⟩
  · have hok := Machine.reaches_preserves hstep (loginsOk_init hdb) hcalm hs
    rw [← hok.ok.holds.1]
    exact hok.room name hset I hI

/-! ### A run of the system, and one in which a lock is overtaken -/

/-- Two failures lock a username for a minute; the only password is `"right"`. -/
def sampleEnv : AuthEnv where
  loginMaxAttempts := 2
  loginLockSeconds := 60
  refreshTtlSeconds := 3600
  verifyPassword password hash := password = "right" && hash.isSome
  hashRefreshToken token := token

/-- A login of the username `"a"`. -/
def sampleLogin (password sessionId : String) (now : Time) : LoginCall where
  normalizedUsername := "a"
  password
  device := none
  now
  sessionId
  refreshToken := sessionId

/-- The username `"a"` has an account. -/
def sampleAccounts : Db :=
  ((∅ : Db).set (.username "a") (some "u")).set (.user "u") (some
    { username := "a", passwordHash := "h", departmentId := none, role := .user
      lifecycleStatus := .active, version := 1, transitionVersion := 1, updatedAt := 0
      deletionRequestedAt := none, purgeAfterAt := none })

theorem throttlesOk_sampleAccounts : ThrottlesOk sampleEnv sampleAccounts := by
  intro name r hget
  simp [sampleAccounts, get_set_of_ne] at hget

/-- A login fails, and the next one succeeds. -/
def oneFailure : List (Move LoginCall) :=
  alone 0 (sampleLogin "wrong" "s₀" 0) 5 ++ alone 0 (sampleLogin "right" "s₁" 1) 6

/-- The only transaction is the one under the number `0`, and where it reads there is room and no
lock. -/
def roomyMove (s : LoginSystem) : Move LoginCall → Bool
  | .start i _ => i = 0
  | .advance i => i = 0 && (s.sessions i).all fun x =>
    match x.prog with
    | .stmt .. => attempts x.op.normalizedUsername s.db < sampleEnv.loginMaxAttempts &&
      match s.db.get (.throttle x.op.normalizedUsername) with
      | some (r : ThrottleRow) => !r.lockedAt x.op.now
      | none => true
    | _ => true
  | .abort i => i = 0

theorem calm_of_roomyMove (hs : ∀ i, i ≠ 0 → s.sessions i = none)
    (h : roomyMove s m = true) : Calm sampleEnv s m := by
  rintro i x rfl hx
  obtain ⟨hi, htest⟩ := Bool.and_eq_true_iff.mp h
  obtain rfl := decide_eq_true_eq.mp hi
  rw [hx, all_some] at htest
  refine ⟨fun hat _ => ?_, fun hat _ _ I hI _ => ?_⟩
  · have hsilent := hat.silent
    cases hp : x.prog with
    | stmt l w f =>
      rw [hp] at htest
      intro r hget
      have hfree := (Bool.and_eq_true_iff.mp htest).2
      rw [hget] at hfree
      simpa using hfree
    | done a =>
      rw [hp] at hsilent
      exact absurd hsilent id
    | fail e =>
      rw [hp] at hsilent
      exact absurd hsilent id
  · have hempty : I = ∅ := by
      refine Finset.eq_empty_of_forall_notMem fun j hj => ?_
      obtain ⟨y, hy, -, hfails⟩ := hI j hj
      by_cases hj0 : j = 0
      · subst hj0
        rw [hx] at hy
        cases hy
        rw [hat] at hfails
        exact not_fails_authenticate hfails.fails
      · rw [hs j hj0] at hy
        cases hy
    rw [hat] at htest
    rw [hempty, Finset.card_empty, Nat.add_zero]
    exact of_decide_eq_true (Bool.and_eq_true_iff.mp htest).1

theorem logins_throttled_sample : Throttled sampleEnv sampleAccounts oneFailure ∧
    ∃ s : LoginSystem, Machine.run (step (login sampleEnv)) (Sys.init sampleAccounts) oneFailure = some s ∧
      s.hist.length = 2 ∧ s.db.get (.throttle "a") = none := by
  have hchecks : Machine.checks (step (login sampleEnv)) roomyMove (Sys.init sampleAccounts)
      oneFailure
      = true := by
    decide +kernel
  have hrun : (Machine.run (step (login sampleEnv)) (Sys.init sampleAccounts) oneFailure).map
      (fun s => (s.hist.length, (s.db.get (.throttle "a")).isSome)) = some (2, false) := by
    decide +kernel
  refine ⟨logins_throttled (by decide) throttlesOk_sampleAccounts
    (Machine.moves_of_checks_inv
      (fun s m (hs : ∀ i, i ≠ 0 → s.sessions i = none) h => calm_of_roomyMove hs h)
      (fun s m t hs h hm i hi => ?_) (fun _ _ => rfl) hchecks), ?_⟩
  · rw [step_sessions hm, hs i hi]
    cases m with
    | start j op =>
      have : j = 0 := by simpa [roomyMove] using h
      simpa [Move.number, this] using hi.symm
    | advance j =>
      have : j = 0 := by simpa using (Bool.and_eq_true_iff.mp h).1
      simpa [Move.number, this] using hi.symm
    | abort j =>
      have : j = 0 := by simpa [roomyMove] using h
      simpa [Move.number, this] using hi.symm
  · obtain ⟨s, hs, hvals⟩ := Option.map_eq_some_iff.mp hrun
    simp only [Prod.mk.injEq] at hvals
    exact ⟨s, hs, hvals.1, by simpa using hvals.2⟩

/-- A login with the right password finds no throttle row.  Two wrong passwords lock the username
before it reads the account, and it goes on to its commit. -/
def overtaken : List (Move LoginCall) :=
  .start 0 (sampleLogin "right" "s₀" 0) :: .advance 0 :: alone 1 (sampleLogin "wrong" "s₁" 1) 5 ++
    alone 2 (sampleLogin "wrong" "s₂" 2) 5 ++ replicate 4 (.advance 0)

/-- When the transaction that ends next is called, what it comes to, and the lock of its
username. -/
def underLock (s : LoginSystem) : Option (Time × Option LoginResult × Option (Option Time)) :=
  (s.sessions 0).map fun x => (x.op.now, match x.prog with
      | .done a => some a
      | _ => none,
    (s.db.get (.throttle x.op.normalizedUsername)).map fun r : ThrottleRow => r.lockedUntil)

theorem login_under_lock : ¬ ∀ (env : AuthEnv) (db : Db) (ms : List (Move LoginCall)),
    2 ≤ env.loginMaxAttempts → ThrottlesOk env db → Throttled env db ms := by
  intro h
  have hrun : (Machine.run (step (login sampleEnv)) (Sys.init sampleAccounts) overtaken).bind underLock =
      some (0, some (.succeeded "u"), some (some 60000002)) := by
    decide +kernel
  obtain ⟨s, hs, hunder⟩ := Option.bind_eq_some_iff.mp hrun
  obtain ⟨⟨call, p, d, n⟩, hx, hvals⟩ := Option.map_eq_some_iff.mp hunder
  simp only [Prod.mk.injEq] at hvals
  obtain ⟨hnow, hresult, hlock⟩ := hvals
  obtain ⟨r, hget, hlocked⟩ := Option.map_eq_some_iff.mp hlock
  split at hresult
  · obtain rfl := Option.some.inj hresult
    have hat : LoginAt sampleEnv sampleAccounts (overtaken ++ [.advance 0]) (.advance 0) s _ :=
      ⟨overtaken, List.prefix_rfl, hs, by simp only [step, hx]; rfl⟩
    have hfree := (h sampleEnv sampleAccounts _ (by decide) throttlesOk_sampleAccounts).succeeded
      _ _ _ _ _ hat hx rfl r hget
    simp [ThrottleRow.lockedAt, hlocked, hnow] at hfree
  · cases hresult

end RagQs.Identity
