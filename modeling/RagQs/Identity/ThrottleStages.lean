import RagQs.Identity.ThrottleProof

/-!
# Where an open login stands

What is left of the program of an open login tells what it has read and which locks it holds: one
that has read the throttle row under its lock still finds it unlocked, and one that has read an
account holds its lock.

## Main definitions

* `Failing` — what is left of a login that has evaluated a wrong password.
* `Opens` — what is left of one that opens its session.
* `Stage` — where a login stands, from the rows and the locks it has.

## Main results

* `Stage.advance` — what one statement does to the stage.
* `Stage.unlocked` — a login that has locked the throttle row comes to no lock.
-/

namespace RagQs.Identity

open Txn Discipline Option Store AList

variable {env : AuthEnv} {call : LoginCall} {c c' v d : Db} {p q : Tx LoginResult}
variable {r : ThrottleRow}

/-! ### The programs of a login -/

/-- What is left of a login that has evaluated a wrong password. -/
inductive Failing (env : AuthEnv) (call : LoginCall) : Tx LoginResult → Prop
  | reads (tries : ℕ) : Failing env call (failLogin env call tries)
  | inserts (tries : ℕ) : Failing env call (failOn env call tries none)
  | updates (tries : ℕ) (r : ThrottleRow) (h : r.lockedAt call.now = false) :
    Failing env call (failOn env call tries (some r))
  | ends (attempts : ℕ) (lockedUntil : Option Time) :
    Failing env call (.done (.failed attempts lockedUntil))

/-- The insertions of a new session. -/
def insertSession (env : AuthEnv) (call : LoginCall) (u : String × UserRow) : Tx LoginResult := do
  insert .integrity [.session call.sessionId]
    [⟨.session call.sessionId, some (call.session env u.1 u.2)⟩]
  insert .integrity
    [.refreshToken call.sessionId 1, .tokenHash (env.hashRefreshToken call.refreshToken)]
    [⟨.refreshToken call.sessionId 1, some (call.token env)⟩,
      ⟨.tokenHash (env.hashRefreshToken call.refreshToken), some (call.sessionId, 1)⟩]
  return .succeeded u.1

/-- The insertion of the first token of a new session. -/
def insertToken (env : AuthEnv) (call : LoginCall) (userId : String) : Tx LoginResult := do
  insert .integrity
    [.refreshToken call.sessionId 1, .tokenHash (env.hashRefreshToken call.refreshToken)]
    [⟨.refreshToken call.sessionId 1, some (call.token env)⟩,
      ⟨.tokenHash (env.hashRefreshToken call.refreshToken), some (call.sessionId, 1)⟩]
  return .succeeded userId

/-- What is left of a login that opens its session. -/
inductive Opens (env : AuthEnv) (call : LoginCall) : Tx LoginResult → Prop
  | deletes (u : String × UserRow) : Opens env call (openSession env call u.1 u.2)
  | session (u : String × UserRow) : Opens env call (insertSession env call u)
  | token (userId : String) : Opens env call (insertToken env call userId)
  | ends (userId : String) : Opens env call (.done (.succeeded userId))
  | clash : Opens env call (.fail .integrity)

/-- The statement writes nothing on any view. -/
def Silent : Tx LoginResult → Prop
  | .stmt _ w _ => ∀ v, w v = []
  | _ => False

/-- The statement puts a throttle row on some view. -/
def Throttles : Tx LoginResult → Prop
  | .stmt _ w _ => ∃ v name, ∃ r : ThrottleRow, ⟨.throttle name, some r⟩ ∈ w v
  | _ => False

/-- The program fails, or its first statement puts a throttle row, or the one after it on no rows
does. -/
def Fails : Tx LoginResult → Prop
  | .done (.failed _ _) => True
  | .done _ => False
  | .fail e => e ≠ .integrity
  | .stmt l w n => Throttles (.stmt l w n) ∨ Throttles (n ∅)

theorem throttles_recordFirst {name : String} {now : Time} {again : Tx (ℕ × Option Time)}
    {f : ℕ × Option Time → Tx LoginResult} : Throttles (recordFirst name now again >>= f) :=
  ⟨∅, name, ⟨1, none, now⟩, by simp [taken]⟩

theorem failOn_some (tries : ℕ) (h : r.lockedAt call.now = false) :
    failOn env call tries (some r) =
      updateWhere (.throttle call.normalizedUsername)
        (fun r' : ThrottleRow =>
          r'.failedAttempts = r.failedAttempts && r'.lockedUntil = r.lockedUntil)
        (fun _ => r.fail env call.now) >>= fun updated =>
      if updated = 1 then
        .done (.failed (r.fail env call.now).failedAttempts (r.fail env call.now).lockedUntil)
      else failLogin env call tries := by
  simp only [failOn, recordOn]
  rw [if_neg (by simp [h]), Prog.bind_assoc]
  refine congrArg _ (funext fun updated => ?_)
  split <;> rfl

theorem throttles_failOn_some (tries : ℕ) (h : r.lockedAt call.now = false) :
    Throttles (failOn env call tries (some r)) := by
  rw [failOn_some tries h]
  exact ⟨(∅ : Db).set (.throttle call.normalizedUsername) (some r), call.normalizedUsername,
    r.fail env call.now, by simp⟩

theorem Failing.fails (h : Failing env call p) : Fails p := by
  cases h with
  | reads tries =>
    cases tries with
    | zero => exact fun h => by cases h
    | succ tries => exact .inr throttles_recordFirst
  | inserts tries => exact .inl throttles_recordFirst
  | updates tries r h =>
    have hthrottles : Throttles (failOn env call tries (some r)) := throttles_failOn_some tries h
    generalize failOn env call tries (some r) = p at hthrottles
    cases p with
    | stmt l w n => exact .inl hthrottles
    | done a => cases hthrottles
    | fail e => cases hthrottles
  | ends attempts lockedUntil => trivial

theorem not_throttles_insert {unique : List Key} {ws : List (Write Row)}
    {f : Unit → Tx LoginResult} (hws : ∀ x ∈ ws, ∀ name, x.1 ≠ .throttle name) :
    ¬ Throttles (insert .integrity unique ws >>= f) := by
  rintro ⟨v, name, r, hmem⟩
  simp only at hmem
  split at hmem
  · cases hmem
  · exact hws _ hmem name rfl

theorem Opens.not_fails (h : Opens env call p) : ¬ Fails p := by
  cases h with
  | deletes u =>
    rintro (⟨v, name, r, hmem⟩ | hthrottles)
    · simp at hmem
    · exact not_throttles_insert (by simp) hthrottles
  | session u =>
    rintro (hthrottles | hthrottles)
    · exact not_throttles_insert (by simp) hthrottles
    · exact not_throttles_insert (by simp) hthrottles
  | token userId =>
    rintro (hthrottles | hthrottles)
    · exact not_throttles_insert (by simp) hthrottles
    · exact hthrottles
  | ends userId => exact id
  | clash => exact fun h => h rfl

theorem not_fails_login : ¬ Fails (login env call) := by
  rintro (⟨v, name, r, hmem⟩ | ⟨v, name, r, hmem⟩)
  · cases hmem
  · cases hmem

theorem not_fails_authenticate : ¬ Fails (authenticate env call) := by
  rintro (⟨v, name, r, hmem⟩ | ⟨v, name, r, hmem⟩)
  · cases hmem
  · cases hmem

theorem AtPassword.silent (h : AtPassword env call p) : Silent p := by
  rcases h with rfl | ⟨tries, rfl⟩
  · exact fun _ => rfl
  · exact fun _ => rfl

theorem Opens.not_silent (h : Opens env call p) : ¬ Silent p := by
  intro hsilent
  cases h with
  | deletes u =>
    have := hsilent ((∅ : Db).set (.throttle call.normalizedUsername) (some ⟨0, none, 0⟩))
    simp at this
  | session u =>
    have := hsilent ∅
    simp [taken] at this
  | token userId =>
    have := hsilent ∅
    simp [taken] at this
  | ends userId => exact hsilent
  | clash => exact hsilent

/-! ### The stages -/

/-- Where a login stands: it has locked the throttle row or not (`own`), the committed row is `o`,
and it has locked the account of the username, if there is one, or not (`account`). -/
inductive Stage (env : AuthEnv) (call : LoginCall) (own : Prop) (o : Option ThrottleRow)
    (account : Prop) : Tx LoginResult → Db → Prop
  | first (h : ¬ own) : Stage env call own o account (login env call) ∅
  | account (h : own → ∃ r, o = some r ∧ r.lockedAt call.now = false) :
    Stage env call own o account (authenticate env call) ∅
  | reads (tries : ℕ) (h : own → ∃ r, o = some r ∧ r.lockedAt call.now = false)
    (hlocked : account) : Stage env call own o account (failLogin env call tries) ∅
  | inserts (tries : ℕ) (h : ¬ own) (hlocked : account) :
    Stage env call own o account (failOn env call tries none) ∅
  | updates (tries : ℕ) (r : ThrottleRow) (h : own) (hrow : o = some r)
    (hfree : r.lockedAt call.now = false) (hlocked : account) :
    Stage env call own o account (failOn env call tries (some r)) ∅
  | counted (attempts : ℕ) (lockedUntil : Option Time) (d : Db) (hlocked : account) :
    Stage env call own o account (.done (.failed attempts lockedUntil)) d
  | refused (lockedUntil : Time) : Stage env call own o account (.done (.locked lockedUntil)) ∅
  | opens (p : Tx LoginResult) (d : Db) (h : Opens env call p) (hlocked : account) :
    Stage env call own o account p d

variable {own own' account account' : Prop} {o o' : Option ThrottleRow}

theorem Stage.unlocked (h : Stage env call own o account p d) (hown : own)
    (hat : AtPassword env call p) : d = ∅ ∧ ∃ r, o = some r ∧ r.lockedAt call.now = false := by
  cases h with
  | first h => exact absurd hown h
  | account h => exact ⟨rfl, h hown⟩
  | reads tries h _ => exact ⟨rfl, h hown⟩
  | inserts tries h _ => exact absurd hown h
  | updates tries r h hrow hfree _ => exact ⟨rfl, r, hrow, hfree⟩
  | counted _ _ _ _ => exact absurd hat.silent id
  | refused _ => exact absurd hat.silent id
  | opens p d h _ => exact absurd hat.silent h.not_silent

theorem Stage.patch_empty (h : Stage env call own o account p d) (hat : AtPassword env call p) :
    d = ∅ := by
  cases h with
  | counted _ _ _ _ => exact absurd hat.silent id
  | opens p d h _ => exact absurd hat.silent h.not_silent
  | _ => rfl

theorem Stage.failing (h : Stage env call own o account p d) (hfails : Failing env call p) :
    account := by
  cases h with
  | first _ => exact absurd hfails.fails not_fails_login
  | account _ => exact absurd hfails.fails not_fails_authenticate
  | refused _ => exact absurd hfails.fails id
  | _ => assumption

theorem Stage.succeeded {userId : String}
    (h : Stage env call own o account (.done (.succeeded userId)) d) : account := by
  have hsilent : ¬ Silent (.done (.succeeded userId)) := id
  generalize hp : Prog.done (LoginResult.succeeded userId) = p at h hsilent
  cases h with
  | first _ => exact absurd (fun _ => rfl) hsilent
  | account _ => exact absurd (fun _ => rfl) hsilent
  | refused _ => cases hp
  | _ => assumption

theorem Stage.later (h : Stage env call own o account p d) (hown : own' ↔ own)
    (hrow : own → o' = o) (haccount : account → account') : Stage env call own' o' account' p d := by
  have hread : (own → ∃ r, o = some r ∧ r.lockedAt call.now = false) →
      own' → ∃ r, o' = some r ∧ r.lockedAt call.now = false := by
    intro h h'
    rw [hrow (hown.mp h')]
    exact h (hown.mp h')
  cases h with
  | first h => exact .first (mt hown.mp h)
  | account h => exact .account (hread h)
  | reads tries h hlocked => exact .reads tries (hread h) (haccount hlocked)
  | inserts tries h hlocked => exact .inserts tries (mt hown.mp h) (haccount hlocked)
  | updates tries r h hget hfree hlocked =>
    exact .updates tries r (hown.mpr h) (by rw [hrow h, hget]) hfree (haccount hlocked)
  | counted attempts lockedUntil d hlocked =>
    exact .counted attempts lockedUntil d (haccount hlocked)
  | refused lockedUntil => exact .refused lockedUntil
  | opens p d h hlocked => exact .opens p d h (haccount hlocked)

/-- Where a login stands in a committed store, with the locks `H`. -/
abbrev StageIn (env : AuthEnv) (call : LoginCall) (c : Db) (H : Key → Prop) :
    Tx LoginResult → Db → Prop :=
  Stage env call (H (.throttle call.normalizedUsername))
    (c.get (.throttle call.normalizedUsername)) (Owns call c H)

variable {H : Key → Prop} {l : Db → List Key} {w : Db → List (Write Row)} {n : Db → Tx LoginResult}

theorem Opens.next (h : Opens env call (.stmt l w n)) (v : Db) : Opens env call (n v) := by
  generalize hp : Prog.stmt l w n = p at h
  cases h with
  | deletes u =>
    cases hp
    exact .session u
  | session u =>
    cases hp
    simp only
    split
    · exact .clash
    · exact .token u.1
  | token userId =>
    cases hp
    simp only
    split
    · exact .clash
    · exact .ends userId
  | ends userId => cases hp
  | clash => cases hp

theorem grow_lockRow :
    grow H (fun v : Db => if (v.get (Key.throttle call.normalizedUsername)).isSome
      then [Key.throttle call.normalizedUsername] else []) (fun _ => []) c
        (.throttle call.normalizedUsername) ↔
    H (.throttle call.normalizedUsername) ∨
      (c.get (.throttle call.normalizedUsername)).isSome = true := by
  by_cases h : (c.get (.throttle call.normalizedUsername)).isSome = true
  · simp [grow, needed, h]
  · simp [grow, needed, h]

theorem lockedAt_of_filter {now : Time} (h : r.lockedUntil.filter (now < ·) = none) :
    r.lockedAt now = false := by
  unfold ThrottleRow.lockedAt
  cases hr : r.lockedUntil with
  | none => rfl
  | some t =>
    rw [hr] at h
    simpa using h

theorem Stage.unlessLocked {r : ThrottleRow}
    (hget : c.get (.throttle call.normalizedUsername) = some r) :
    StageIn env call c H (match r.lockedUntil.filter (call.now < ·) with
      | some lockedUntil => return .locked lockedUntil
      | none => authenticate env call) ∅ := by
  cases hlock : r.lockedUntil.filter (call.now < ·) with
  | none => exact .account fun _ => ⟨r, hget, lockedAt_of_filter hlock⟩
  | some lockedUntil => exact .refused lockedUntil

/-- **What a statement does to the stage.** -/
theorem Stage.advance (h : StageIn env call c H (.stmt l w n) d)
    (hA : MeetsNoLock env call (.stmt l w n) (d ∪ c)) :
    StageIn env call c (grow H l w (d ∪ c)) (n (d ∪ c)) (d.applyAll (w (d ∪ c))) := by
  have hmono : Owns call c H → Owns call c (grow H l w (d ∪ c)) := fun h => h.mono fun _ => .inl
  generalize hp : Prog.stmt l w n = p at h
  cases h with
  | first h =>
    cases hp
    rw [empty_union, applyAll_nil]
    cases hget : c.get (.throttle call.normalizedUsername) with
    | none =>
      simp only [hget]
      refine .account fun hown => ?_
      rcases grow_lockRow.mp hown with hown | hsome
      · exact absurd hown h
      · rw [hget] at hsome
        cases hsome
    | some r =>
      simp only [hget]
      exact Stage.unlessLocked hget
  | account h =>
    cases hp
    rw [empty_union, applyAll_nil]
    change StageIn env call c _ (judge env call (userOf call.normalizedUsername c)) ∅
    have hlocked : Owns call c (grow H (fun v : Db => (userOf call.normalizedUsername v).toList.map
        fun u => .user u.1) (fun _ => []) c) := fun u hu => .inr (by simp [needed, hu])
    have hfailed : StageIn env call c (grow H (fun v : Db =>
        (userOf call.normalizedUsername v).toList.map fun u => .user u.1) (fun _ => []) c)
        (failLogin env call 4) ∅ := by
      refine .reads 4 (fun hown => h (hown.resolve_right fun hmem => ?_)) hlocked
      simp [needed] at hmem
    cases hu : userOf call.normalizedUsername c with
    | none => exact hfailed
    | some u =>
      simp only [judge]
      by_cases hvalid : valid env call (some u) = true
      · rw [if_pos hvalid]
        exact .opens _ _ (.deletes u) hlocked
      · rw [if_neg hvalid]
        exact hfailed
  | reads tries h hlocked =>
    cases tries with
    | zero => cases hp
    | succ tries =>
      cases hp
      rw [empty_union, applyAll_nil]
      have hfree := hA (.inr ⟨tries, rfl⟩)
      rw [empty_union] at hfree
      change StageIn env call c _
        (failOn env call tries (c.get (.throttle call.normalizedUsername))) ∅
      cases hget : c.get (.throttle call.normalizedUsername) with
      | none =>
        refine .inserts tries (fun hown => ?_) (hmono hlocked)
        rcases grow_lockRow.mp hown with hown | hsome
        · obtain ⟨r, hr, -⟩ := h hown
          rw [hget] at hr
          cases hr
        · rw [hget] at hsome
          cases hsome
      | some r =>
        exact .updates tries r (grow_lockRow.mpr (.inr (by rw [hget]; rfl))) hget (hfree r hget)
          (hmono hlocked)
  | inserts tries h hlocked =>
    cases hp
    rw [empty_union]
    by_cases htaken : taken c [Key.throttle call.normalizedUsername] = true
    · simp only [htaken, Bool.true_or, if_true, applyAll_nil]
      refine .reads tries (fun hown => absurd (hown.resolve_right fun hmem => ?_) h) (hmono hlocked)
      simp [needed, htaken] at hmem
    · simp only [htaken]
      exact .counted 1 none _ (hmono hlocked)
  | updates tries r h hget hfree hlocked =>
    rw [failOn_some _ hfree] at hp
    cases hp
    have hlocked' := hmono hlocked
    generalize grow H _ _ (∅ ∪ c) = H' at hlocked' ⊢
    simp only [empty_union, hget, filter_some, decide_true, Bool.and_self, if_true,
      toList_some, List.length_singleton]
    exact .counted _ _ _ hlocked'
  | counted attempts lockedUntil d hlocked => cases hp
  | refused lockedUntil => cases hp
  | opens p d h hlocked =>
    subst hp
    exact .opens _ _ (h.next _) (hmono hlocked)

theorem not_failing_unlessLocked (o : Option Time) :
    ¬ Failing env call (match o with
      | some lockedUntil => return .locked lockedUntil
      | none => authenticate env call) := by
  intro hfails
  cases o with
  | some lockedUntil => exact absurd hfails.fails id
  | none => exact absurd hfails.fails not_fails_authenticate

theorem Stage.evaluates (h : StageIn env call c H (.stmt l w n) d)
    (hfails : Failing env call (n (d ∪ c))) : Failing env call (.stmt l w n) ∨
      .stmt l w n = authenticate env call ∧
        valid env call (userOf call.normalizedUsername (d ∪ c)) = false := by
  generalize hp : Prog.stmt l w n = p at h
  cases h with
  | first h =>
    cases hp
    exact absurd hfails (not_failing_unlessLocked _)
  | account h =>
    cases hp
    refine .inr ⟨rfl, ?_⟩
    change Failing env call (judge env call (userOf call.normalizedUsername (∅ ∪ c))) at hfails
    cases hu : userOf call.normalizedUsername (∅ ∪ c) with
    | none => simp [valid]
    | some u =>
      rw [hu] at hfails
      simp only [judge] at hfails
      split at hfails
      · exact absurd hfails.fails (Opens.deletes u).not_fails
      · next hvalid => simpa using hvalid
  | reads tries h hlocked => exact .inl (.reads tries)
  | inserts tries h hlocked => exact .inl (.inserts tries)
  | updates tries r h hget hfree hlocked => exact .inl (.updates tries r hfree)
  | counted attempts lockedUntil d hlocked => cases hp
  | refused lockedUntil => cases hp
  | opens p d h hlocked =>
    subst hp
    exact absurd hfails.fails (h.next _).not_fails

end RagQs.Identity
