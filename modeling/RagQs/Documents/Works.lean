import RagQs.Documents.Aggregate

/-!
# Working on a document

The rules of a transaction that holds the row of a document locked: what each statement reads of
the document, and what it makes of it.  A statement on anything else leaves the document alone,
and may read anything.

## Main definitions

* `Works` — from the document `s` the program gets to a document with `R`.

## Main results

* `Works.bind` — the rule of sequencing.
* `Works.changeJob`, `Works.insertVersion` and so on — the statements on the rows of a document.
* `Works.insertPublication`, `Works.updatePublication`, `Works.supersedePublications` — the
  statements that run into the unique index of publications.
-/

namespace RagQs.Documents

open Txn Txn.Guards List Option Function Store

variable {v j a : String} {now : Time} {e : Err} {k : Key}
variable {jobId keep versionId : Option String} {cond : AttemptRow → Bool} {up : AttemptRow →
  AttemptRow}

/-! ### Writes on the rows of a document -/

namespace Aggregate

variable {d : String} {x : Region Row}

theorem of_document {o : Option DocumentRow} :
    of d (update x (.document d) o) = { of d x with document := o } := by
  ext <;> simp [of]

theorem of_version {o : Option VersionRow} :
    of d (update x (.version d v) o)
      = { of d x with version := update (of d x).version v o } := by
  ext <;> simp [of]
  grind

theorem of_job {o : Option JobRow} :
    of d (update x (.job d j) o)
      = { of d x with job := update (of d x).job j o } := by
  ext <;> simp [of]
  grind

theorem of_attempt {o : Option AttemptRow} :
    of d (update x (.attempt d j a) o)
      = { of d x with
          attempt := update (of d x).attempt j
            (update ((of d x).attempt j) a o) } := by
  ext j' a' r <;> simp [of]
  by_cases hj : j' = j
  · subst hj
    by_cases ha : a' = a
    · subst ha
      simp
    · simp [ha]
  · simp [hj]

theorem of_publication {p : String} {o : Option PublicationRow} :
    of d (update x (.publication d p) o)
      = { of d x with publication := update (of d x).publication p o } := by
  ext <;> simp [of]
  grind

theorem of_debit {o : Option DebitRow} :
    of d (update x (.debit d j) o)
      = { of d x with debit := update (of d x).debit j o } := by
  ext <;> simp [of]
  grind

theorem of_item {o : Option ItemRow} :
    of d (update x (.item d j) o)
      = { of d x with item := update (of d x).item j o } := by
  ext <;> simp [of]
  grind

theorem of_claim {spaceId name hash : String} :
    of d (update x (.claim spaceId name hash) (some ⟨d, v⟩))
      = { of d x with
          claim := update (of d x).claim ⟨spaceId, name, hash⟩ (some v) } := by
  ext k v' <;> simp only [of, ne_eq, reduceCtorEq, not_false_eq_true, update_of_ne]
  by_cases heq : k = ⟨spaceId, name, hash⟩
  · subst heq
    simp
  · have hkey : Key.claim k.spaceId k.normalizedFilename k.contentHash
        ≠ Key.claim spaceId name hash := by
      intro h
      cases k
      cases h
      exact heq rfl
    rw [update_of_ne hkey, update_of_ne heq]

theorem of_deletion {d' : String} {o : Option DeletionRow} :
    of d (update x (.deletion d') o) = of d x := by
  ext <;> simp [of]

theorem of_hold {d' : String} {o : Option HoldRow} :
    of d (update x (.hold d' j) o) = of d x := by
  ext <;> simp [of]

/-! ### Writes on many rows -/

theorem of_unstaging : of d (Region.modify x (unstaging d jobId)) = (of d x).unstage jobId := by
  ext p r <;> simp [of, unstage, Region.modify, unstaging, dropWhere]
  cases x (.publication d p) with
  | none => simp
  | some q =>
    by_cases h : q.status = .staged ∧ (jobId = none ∨ jobId = some q.jobId) <;> simp [h] <;> grind

theorem of_superseding :
    of d (Region.modify x (superseding d keep now)) = (of d x).supersede keep now := by
  ext p r <;> simp [of, supersede, Region.modify, superseding, mapWhere]
  cases x (.publication d p) with
  | none => simp
  | some q => by_cases h : q.status = .active ∧ ¬some p = keep <;> simp [h]

theorem of_claimsOf :
    of d (Region.modify x (claimsOf d versionId)) = (of d x).dropClaims versionId := by
  ext k r <;> simp [of, dropClaims, Region.modify, claimsOf, dropWhere]
  cases x (.claim k.spaceId k.normalizedFilename k.contentHash) with
  | none => simp
  | some q =>
    by_cases hd : q.documentId = d
    · by_cases h : Option.all (fun v => decide (q.documentVersionId = v)) versionId = true <;>
        simp [hd, h] <;> grind
    · simp [hd]

theorem of_otherClaims {k : ClaimKey} :
    of d (Region.modify x (otherClaims d k.spaceId k.normalizedFilename k.contentHash))
      = { of d x with claim := dropWhere (of d x).claim fun k' _ => k' ≠ k } := by
  ext k' r <;> simp [of, Region.modify, otherClaims, dropWhere]
  have hkey : k' = k ↔ k'.spaceId = k.spaceId ∧ k'.normalizedFilename = k.normalizedFilename ∧
      k'.contentHash = k.contentHash := by
    cases k
    cases k'
    simp
  cases x (.claim k'.spaceId k'.normalizedFilename k'.contentHash) with
  | none => simp
  | some q =>
    by_cases hd : q.documentId = d
    · by_cases h : k'.spaceId = k.spaceId ∧ k'.normalizedFilename = k.normalizedFilename ∧
          k'.contentHash = k.contentHash
      · simp [hkey, hd, h]
      · simp [hkey, hd, h]
        grind
    · simp [hd]

theorem of_cancelling :
    of d (Region.modify x (cancelling d)) = { of d x with
      job := mapWhere (of d x).job (fun _ r => r.state.live)
        fun r => { r with state := .cancelled } } := by
  ext j r <;> simp [of, Region.modify, cancelling, mapWhere]
  cases x (.job d j) with
  | none => simp
  | some q => by_cases h : q.state.live = true <;> simp [h]

theorem of_detaching {v : Db} :
    of d (Region.modify x (detaching d v)) = { of d x with
      attempt := fun j => mapWhere ((of d x).attempt j)
        (fun _ r => r.publicationId.any (· ∈ stagedOf v d))
        fun r => { r with publicationId := none } } := by
  ext j a <;> simp [of, Region.modify, detaching, mapWhere]
  cases x (.attempt d j a) with
  | none => simp
  | some q =>
    by_cases h : Option.any (fun x => decide (x ∈ stagedOf v d)) q.publicationId = true <;>
      simp [h]

theorem of_supersedingVersion {env : Env} :
    of d (Region.modify x (supersedingVersion env d now)) = { of d x with
      version := mapWhere (of d x).version (fun _ r => r.status = .active) fun r =>
        { r with status := .superseded, supersededAt := some now, terminalAt := some now,
                 purgeAfterAt := some (now + env.versionRetention) } } := by
  ext v r <;> simp [of, Region.modify, supersedingVersion, mapWhere]
  cases x (.version d v) with
  | none => simp
  | some q => by_cases h : q.status = .active <;> simp [h]

theorem of_cancellingVersion {env : Env} :
    of d (Region.modify x (cancellingVersion env d now)) = { of d x with
      version := mapWhere (of d x).version (fun _ r => r.status = .pending) fun r =>
        { r with status := .cancelled, terminalAt := some now,
                 purgeAfterAt := some (now + env.versionRetention) } } := by
  ext v r <;> simp [of, Region.modify, cancellingVersion, mapWhere]
  cases x (.version d v) with
  | none => simp
  | some q => by_cases h : q.status = .pending <;> simp [h]

end Aggregate

/-- The update hits rows of the document, and leaves them there. -/
structure Picks (d : String) (pick : (k : Key) → Row k → Option (Option (Row k))) : Prop where
  old : ∀ k r o, pick k r = some o → owner k r = some d
  new : ∀ k r r', pick k r = some (some r') → owner k r' = some d

section Picks

attribute [local grind =] owner

variable (d : String)

theorem picks_unstaging (jobId : Option String) : Picks d (unstaging d jobId) := by
  constructor <;> intro k r o h <;> cases k <;> simp only [unstaging, reduceCtorEq] at h <;>
    split at h <;> grind

theorem picks_superseding (keep : Option String) (now : Time) :
    Picks d (superseding d keep now) := by
  constructor <;> intro k r o h <;> cases k <;> simp only [superseding, reduceCtorEq] at h <;>
    split at h <;> grind

theorem picks_claimsOf (versionId : Option String) : Picks d (claimsOf d versionId) := by
  constructor <;> intro k r o h <;> cases k <;> simp only [claimsOf, reduceCtorEq] at h <;>
    split at h <;> grind

theorem picks_otherClaims (spaceId normalizedFilename contentHash : String) :
    Picks d (otherClaims d spaceId normalizedFilename contentHash) := by
  constructor <;> intro k r o h <;> cases k <;> simp only [otherClaims, reduceCtorEq] at h <;>
    split at h <;> grind

theorem picks_cancelling : Picks d (cancelling d) := by
  constructor <;> intro k r o h <;> cases k <;> simp only [cancelling, reduceCtorEq] at h <;>
    split at h <;> grind

theorem picks_detaching (v : Db) : Picks d (detaching d v) := by
  constructor <;> intro k r o h <;> cases k <;> simp only [detaching, reduceCtorEq] at h <;>
    split at h <;> grind

theorem picks_supersedingVersion (env : Env) (now : Time) :
    Picks d (supersedingVersion env d now) := by
  constructor <;> intro k r o h <;> cases k <;>
    simp only [supersedingVersion, reduceCtorEq] at h <;> split at h <;> grind

theorem picks_cancellingVersion (env : Env) (now : Time) :
    Picks d (cancellingVersion env d now) := by
  constructor <;> intro k r o h <;> cases k <;>
    simp only [cancellingVersion, reduceCtorEq] at h <;> split at h <;> grind

end Picks

/-! ### Programs -/

variable {α β : Type} {Ok : String → Region Row → Prop} {C : List (Write Row) → Db → Prop}
  {d : String} {s s' : Aggregate} {R : α → Aggregate → Prop}

/-- From the document `s`, whose row is locked, the program gets to a document with `R`. -/
structure Works (Ok : String → Region Row → Prop) (C : List (Write Row) → Db → Prop) (d : String)
    (p : Tx α) (R : α → Aggregate → Prop) (s : Aggregate) : Prop where
  under : ∀ x, Aggregate.of d x = s →
    guards.Under Ok C d p (fun a y => R a (Aggregate.of d y)) x

namespace Works

variable {p : Tx β} {f : β → Tx α} {S : β → Aggregate → Prop}

theorem done {a : α} (h : R a s) : Works Ok C d (.done a) R s :=
  ⟨fun _ hx => .done (hx.symm ▸ h)⟩

theorem fail : Works Ok C d (.fail e : Tx α) R s := ⟨fun _ _ => .fail⟩

/-- **The rule of sequencing.** -/
theorem bind (hp : Works Ok C d p S s) (hf : ∀ b t, S b t → Works Ok C d (f b) R t) :
    Works Ok C d (p >>= f) R s :=
  ⟨fun x hx => .bind (hp.under x hx) fun b y hb => (hf b _ hb).under y rfl⟩

theorem conseq {R' : α → Aggregate → Prop} {p : Tx α} (hp : Works Ok C d p R s)
    (hR : ∀ a t, R a t → R' a t) : Works Ok C d p R' s :=
  ⟨fun x hx => .conseq (hp.under x hx) fun a _ h => hR a _ h⟩

theorem check {z : Except Err β} (h : ∀ b, z = .ok b → Works Ok C d (f b) R s) :
    Works Ok C d (Txn.check z >>= f) R s :=
  ⟨fun x hx => .check fun b hb => (h b hb).under x hx⟩

theorem raiseIf {bad : Prop} {_ : Decidable bad} {f : Unit → Tx α}
    (h : ¬ bad → Works Ok C d (f ()) R s) : Works Ok C d (Txn.raiseIf bad e >>= f) R s :=
  ⟨fun x hx => .raiseIf fun hb => (h hb).under x hx⟩

theorem orRaise {o : Option β} (h : ∀ b, o = some b → Works Ok C d (f b) R s) :
    Works Ok C d (Txn.orRaise o e >>= f) R s :=
  ⟨fun x hx => .orRaise fun b hb => (h b hb).under x hx⟩

theorem ite {cond : Prop} {_ : Decidable cond} {p q : Tx α} (hp : cond → Works Ok C d p R s)
    (hq : ¬ cond → Works Ok C d q R s) : Works Ok C d (if cond then p else q) R s :=
  ⟨fun x hx => .ite (fun h => (hp h).under x hx) fun h => (hq h).under x hx⟩

theorem free (hp : p.Writes guards.Free) (h : ∀ b, Works Ok C d (f b) R s) :
    Works Ok C d (p >>= f) R s :=
  ⟨fun x hx => .free hp fun b => (h b).under x hx⟩

theorem select {q : Db → β} (h : ∀ v, Aggregate.of d (guards.region d v) = s →
    Works Ok C d (f (q v)) R s) : Works Ok C d (Prog.select q >>= f) R s :=
  ⟨fun x hx => .select fun v hv => (h v (hv.symm ▸ hx)).under x hx⟩

theorem selectForUpdate {l : Db → List Key} {q : Db → β}
    (h : ∀ v, Aggregate.of d (guards.region d v) = s → Works Ok C d (f (q v)) R s) :
    Works Ok C d (Prog.selectForUpdate l q >>= f) R s :=
  ⟨fun x hx => .read fun v hv => (h v (hv.symm ▸ hx)).under x hx⟩

theorem readAny {f : Option (Row k) → Tx α} (h : ∀ o, Works Ok C d (f o) R s) :
    Works Ok C d (readRow k >>= f) R s :=
  ⟨fun x hx => .readAny fun o => (h o).under x hx⟩

/-- A read of a row of the document. -/
theorem readOwn {f : Option (Row k) → Tx α} (q : Aggregate → Option (Row k)) (hk : guards.Own d k)
    (hq : ∀ x, q (Aggregate.of d x) = x k) (h : Works Ok C d (f (q s)) R s) :
    Works Ok C d (readRow k >>= f) R s :=
  ⟨fun x hx => .readOwn hk (by rw [← hq x, hx]; exact h.under x hx)⟩

theorem lockOwn {f : Option (Row k) → Tx α} (q : Aggregate → Option (Row k)) (hk : guards.Own d k)
    (hq : ∀ x, q (Aggregate.of d x) = x k) (h : Works Ok C d (f (q s)) R s) :
    Works Ok C d (lockRow k >>= f) R s :=
  ⟨fun x hx => .lockOwn hk (by rw [← hq x, hx]; exact h.under x hx)⟩

theorem readVersion {f : Option VersionRow → Tx α} (h : Works Ok C d (f (s.version v)) R s) :
    Works Ok C d (readRow (Key.version d v) >>= f) R s :=
  readOwn (fun s => s.version v) (fun _ => rfl) (fun _ => rfl) h

theorem readAttempt {f : Option AttemptRow → Tx α} (h : Works Ok C d (f (s.attempt j a)) R s) :
    Works Ok C d (readRow (Key.attempt d j a) >>= f) R s :=
  readOwn (fun s => s.attempt j a) (fun _ => rfl) (fun _ => rfl) h

theorem readPublication {p : String} {f : Option PublicationRow → Tx α}
    (h : Works Ok C d (f (s.publication p)) R s) :
    Works Ok C d (readRow (Key.publication d p) >>= f) R s :=
  readOwn (fun s => s.publication p) (fun _ => rfl) (fun _ => rfl) h

theorem readDebit {f : Option DebitRow → Tx α} (h : Works Ok C d (f (s.debit j)) R s) :
    Works Ok C d (readRow (Key.debit d j) >>= f) R s :=
  readOwn (fun s => s.debit j) (fun _ => rfl) (fun _ => rfl) h

theorem lockedDocument {f : Option DocumentRow → Tx α} (h : Works Ok C d (f s.document) R s) :
    Works Ok C d (Documents.lockedDocument d >>= f) R s :=
  lockOwn (fun s => s.document) (fun _ => rfl) (fun _ => rfl) h

theorem lockedJob {f : Option JobRow → Tx α} (h : Works Ok C d (f (s.job j)) R s) :
    Works Ok C d (Documents.lockedJob d j >>= f) R s :=
  lockOwn (fun s => s.job j) (fun _ => rfl) (fun _ => rfl) h

theorem lockVersion {f : Option VersionRow → Tx α} (h : Works Ok C d (f (s.version v)) R s) :
    Works Ok C d (lockRow (Key.version d v) >>= f) R s :=
  lockOwn (fun s => s.version v) (fun _ => rfl) (fun _ => rfl) h

theorem lockPublication {p : String} {f : Option PublicationRow → Tx α}
    (h : Works Ok C d (f (s.publication p)) R s) :
    Works Ok C d (lockRow (Key.publication d p) >>= f) R s :=
  lockOwn (fun s => s.publication p) (fun _ => rfl) (fun _ => rfl) h

/-! ### Updates -/

/-- An update of a row of the document that is hit. -/
theorem change {cond : Row k → Bool} {up : Row k → Row k} {f : ℕ → Tx α}
    (q : Aggregate → Option (Row k)) (hk : guards.Own d k) (hq : ∀ x, q (Aggregate.of d x) = x k)
    (hhit : ∀ r, q s = some r → cond r = true)
    (hset : ∀ x, Aggregate.of d x = s → Aggregate.of d (update x k ((x k).map up)) = s')
    (h : ∀ n, Works Ok C d (f n) R s') : Works Ok C d (updateWhere k cond up >>= f) R s := by
  refine ⟨fun x hx => ?_⟩
  have hhit' : ∀ r, x k = some r → cond r = true := fun r hr => hhit r (by rw [← hx, hq, hr])
  refine .updateOwn hk (fun hmiss => ?_) fun r hr _ => ?_
  · have hnone : x k = none := by
      cases hr : x k with
      | none => rfl
      | some r => exact absurd (hhit' r hr) (by simp [hmiss r hr])
    have hset' := hset x hx
    rw [hnone, map_none, ← hnone, update_eq_self] at hset'
    exact (h 0).under x hset'
  · refine (h 1).under _ ?_
    rw [← hset x hx, hr, map_some]

theorem changeDocument {cond : DocumentRow → Bool} {up : DocumentRow → DocumentRow} {f : ℕ → Tx α}
    (hhit : ∀ r, s.document = some r → cond r = true)
    (h : ∀ n, Works Ok C d (f n) R { s with document := s.document.map up }) :
    Works Ok C d (updateWhere (Key.document d) cond up >>= f) R s :=
  change (fun s => s.document) (fun _ => rfl) (fun _ => rfl) hhit
    (fun x hx => by rw [Aggregate.of_document, ← hx]; rfl) h

theorem changeVersion {cond : VersionRow → Bool} {up : VersionRow → VersionRow} {f : ℕ → Tx α}
    (hhit : ∀ r, s.version v = some r → cond r = true)
    (h : ∀ n, Works Ok C d (f n) R { s with version := mapAt s.version v up }) :
    Works Ok C d (updateWhere (Key.version d v) cond up >>= f) R s :=
  change (fun s => s.version v) (fun _ => rfl) (fun _ => rfl) hhit
    (fun x hx => by rw [Aggregate.of_version, ← hx]; rfl) h

theorem changeJob {cond : JobRow → Bool} {up : JobRow → JobRow} {f : ℕ → Tx α}
    (hhit : ∀ r, s.job j = some r → cond r = true)
    (h : ∀ n, Works Ok C d (f n) R { s with job := mapAt s.job j up }) :
    Works Ok C d (updateWhere (Key.job d j) cond up >>= f) R s :=
  change (fun s => s.job j) (fun _ => rfl) (fun _ => rfl) hhit
    (fun x hx => by rw [Aggregate.of_job, ← hx]; rfl) h

theorem changeAttempt {f : ℕ → Tx α} (hhit : ∀ r, s.attempt j a = some r → cond r = true)
    (h : ∀ n, Works Ok C d (f n) R
      { s with attempt := update s.attempt j (mapAt (s.attempt j) a up) }) :
    Works Ok C d (updateWhere (Key.attempt d j a) cond up >>= f) R s :=
  change (fun s => s.attempt j a) (fun _ => rfl) (fun _ => rfl) hhit
    (fun x hx => by rw [Aggregate.of_attempt, ← hx]; rfl) h

/-- The update of an attempt, with the view it is allowed on. -/
theorem changeAttemptAllowed {r : AttemptRow} {f : ℕ → Tx α} (hr : s.attempt j a = some r)
    (hcond : cond r = true)
    (h : ∀ v n, Aggregate.of d (guards.region d v) = s → C [⟨.attempt d j a, some (up r)⟩] v →
      Works Ok C d (f n) R
        { s with attempt := update s.attempt j (mapAt (s.attempt j) a up) }) :
    Works Ok C d (updateWhere (Key.attempt d j a) cond up >>= f) R s := by
  refine ⟨fun x hx => ?_⟩
  have hget : x (.attempt d j a) = some r := by rw [← hr, ← hx]; rfl
  refine .updateAllowed (fun _ => rfl) (fun hmiss => ?_) fun r' v hr' _ hv hC => ?_
  · exact absurd hcond (by simp [hmiss r hget])
  · cases hget.symm.trans hr'
    refine (h v 1 (by rw [hv, hx]) hC).under _ ?_
    rw [Aggregate.of_attempt, hx]
    unfold mapAt
    rw [hr, map_some]

theorem changePublication {p : String} {up : PublicationRow → PublicationRow} {f : ℕ → Tx α}
    (h : ∀ n, Works Ok C d (f n) R { s with publication := mapAt s.publication p up }) :
    Works Ok C d (updateWhere (Key.publication d p) (fun _ => true) up >>= f) R s :=
  change (fun s => s.publication p) (fun _ => rfl) (fun _ => rfl) (fun _ _ => rfl)
    (fun x hx => by rw [Aggregate.of_publication, ← hx]; rfl) h

theorem changeItem {up : ItemRow → ItemRow} {f : ℕ → Tx α}
    (h : ∀ n, Works Ok C d (f n) R { s with item := mapAt s.item j up }) :
    Works Ok C d (updateWhere (Key.item d j) (fun _ => true) up >>= f) R s :=
  change (fun s => s.item j) (fun _ => rfl) (fun _ => rfl) (fun _ _ => rfl)
    (fun x hx => by rw [Aggregate.of_item, ← hx]; rfl) h

/-- An update of many rows of the document, of which others decide. -/
theorem changeAllOf {pick : Db → (k : Key) → Row k → Option (Option (Row k))} {f : ℕ → Tx α}
    (hpick : ∀ v, Picks d (pick v)) (h : ∀ v x, Aggregate.of d x = s →
      ∀ n, Works Ok C d (f n) R (Aggregate.of d (Region.modify x (pick v)))) :
    Works Ok C d (updateAllOf pick >>= f) R s :=
  ⟨fun x hx => .updateAllOf (fun v => (hpick v).old) (fun v => (hpick v).new)
    fun v n _ => (h v x hx n).under _ rfl⟩

/-- An update of many rows of the document. -/
theorem changeAll {pick : (k : Key) → Row k → Option (Option (Row k))} {f : ℕ → Tx α}
    (hpick : Picks d pick) (h : ∀ x, Aggregate.of d x = s →
      ∀ n, Works Ok C d (f n) R (Aggregate.of d (Region.modify x pick))) :
    Works Ok C d (updateAll pick >>= f) R s :=
  ⟨fun x hx => .updateAll hpick.old hpick.new fun n => (h x hx n).under _ rfl⟩

theorem deleteStaged {f : Unit → Tx α} (h : Works Ok C d (f ()) R (s.unstage jobId)) :
    Works Ok C d (Documents.deleteStaged d jobId >>= f) R s := by
  unfold Documents.deleteStaged
  rw [Prog.bind_assoc]
  exact changeAll (picks_unstaging d jobId) fun x hx _ => by
    rw [Aggregate.of_unstaging, hx]
    exact h

theorem deleteClaims {f : Unit → Tx α} (h : Works Ok C d (f ()) R (s.dropClaims versionId)) :
    Works Ok C d (Documents.deleteClaims d versionId >>= f) R s := by
  unfold Documents.deleteClaims
  rw [Prog.bind_assoc]
  exact changeAll (picks_claimsOf d versionId) fun x hx _ => by
    rw [Aggregate.of_claimsOf, hx]
    exact h

/-! ### Insertions -/

/-- The insertion of a row of the document. -/
theorem insertOwn {r : Row k} {f : Unit → Tx α} (q : Aggregate → Option (Row k))
    (hk : guards.Own d k) (hq : ∀ x, q (Aggregate.of d x) = x k)
    (hset : ∀ x, Aggregate.of d x = s → Aggregate.of d (update x k (some r)) = s')
    (h : q s = none → Works Ok C d (f ()) R s') :
    Works Ok C d (Txn.insert e [k] [⟨k, some r⟩] >>= f) R s :=
  ⟨fun x hx => .insertOwn hk (mem_singleton_self k) fun hnew _ =>
    (h (by rw [← hx, hq, hnew])).under _ (hset x hx)⟩

/-- The insertion of a row that is no part of the state machine. -/
theorem insertOther {r : Row k} {f : Unit → Tx α} (hk : guards.Own d k)
    (hset : ∀ x, Aggregate.of d (update x k (some r)) = Aggregate.of d x)
    (h : Works Ok C d (f ()) R s) : Works Ok C d (Txn.insert e [k] [⟨k, some r⟩] >>= f) R s :=
  ⟨fun x hx => .insertOwn hk (mem_singleton_self k) fun _ _ =>
    h.under _ ((hset x).trans hx)⟩

theorem insertVersion {r : VersionRow} {f : Unit → Tx α} (h : s.version v = none →
      Works Ok C d (f ()) R { s with version := update s.version v (some r) }) :
    Works Ok C d (Txn.insert e [.version d v] [⟨.version d v, some r⟩] >>= f) R s :=
  insertOwn (fun s => s.version v) (fun _ => rfl) (fun _ => rfl)
    (fun x hx => by rw [Aggregate.of_version, ← hx]) h

theorem insertJob {r : JobRow} {f : Unit → Tx α}
    (h : s.job j = none → Works Ok C d (f ()) R { s with job := update s.job j (some r) }) :
    Works Ok C d (Txn.insert e [.job d j] [⟨.job d j, some r⟩] >>= f) R s :=
  insertOwn (fun s => s.job j) (fun _ => rfl) (fun _ => rfl)
    (fun x hx => by rw [Aggregate.of_job, ← hx]) h

theorem insertAttempt {r : AttemptRow} {f : Unit → Tx α}
    (h : s.attempt j a = none → Works Ok C d (f ()) R
      { s with
        attempt := update s.attempt j (update (s.attempt j) a (some r)) }) :
    Works Ok C d (Txn.insert e [.attempt d j a] [⟨.attempt d j a, some r⟩] >>= f) R s :=
  insertOwn (fun s => s.attempt j a) (fun _ => rfl) (fun _ => rfl)
    (fun x hx => by rw [Aggregate.of_attempt, ← hx]) h

theorem insertDebit {r : DebitRow} {f : Unit → Tx α} (h : s.debit j = none →
      Works Ok C d (f ()) R { s with debit := update s.debit j (some r) }) :
    Works Ok C d (Txn.insert e [.debit d j] [⟨.debit d j, some r⟩] >>= f) R s :=
  insertOwn (fun s => s.debit j) (fun _ => rfl) (fun _ => rfl)
    (fun x hx => by rw [Aggregate.of_debit, ← hx]) h

theorem insertItem {r : ItemRow} {f : Unit → Tx α} (h : s.item j = none →
      Works Ok C d (f ()) R { s with item := update s.item j (some r) }) :
    Works Ok C d (Txn.insert e [.item d j] [⟨.item d j, some r⟩] >>= f) R s :=
  insertOwn (fun s => s.item j) (fun _ => rfl) (fun _ => rfl)
    (fun x hx => by rw [Aggregate.of_item, ← hx]) h

/-- The claim of a name and content for a version of the document. -/
theorem insertClaim {spaceId name hash : String} {f : Bool → Tx α}
    (hskip : Works Ok C d (f false) R s)
    (hnew : s.claim ⟨spaceId, name, hash⟩ = none → Works Ok C d (f true) R
      { s with claim := update s.claim ⟨spaceId, name, hash⟩ (some v) }) :
    Works Ok C d (Txn.insertOrSkip .integrity (.claim spaceId name hash) []
      [⟨.claim spaceId name hash, some ⟨d, v⟩⟩] >>= f) R s := by
  refine ⟨fun x hx => .insertOrSkip rfl (hskip.under x hx) fun hx' =>
    (hnew ?_).under _ ?_⟩
  · rw [← hx]
    simp [Aggregate.of, hx']
  · rw [Aggregate.of_claim, ← hx]

/-! ### Deletions -/

theorem deleteDocumentRow {f : Unit → Tx α}
    (h : Works Ok C d (f ()) R { s with document := none }) :
    Works Ok C d (deleteRow (Key.document d) >>= f) R s :=
  ⟨fun x hx => .deleteOwn (fun _ => rfl)
    (h.under _ (by rw [Aggregate.of_document, hx]))⟩

theorem deleteVersion {f : Unit → Tx α}
    (h : Works Ok C d (f ()) R { s with version := update s.version v none }) :
    Works Ok C d (deleteRow (Key.version d v) >>= f) R s :=
  ⟨fun x hx => .deleteOwn (fun _ => rfl)
    (h.under _ (by rw [Aggregate.of_version, hx]))⟩

theorem deleteJob {f : Unit → Tx α}
    (h : Works Ok C d (f ()) R { s with job := update s.job j none }) :
    Works Ok C d (deleteRow (Key.job d j) >>= f) R s :=
  ⟨fun x hx => .deleteOwn (fun _ => rfl) (h.under _ (by rw [Aggregate.of_job, hx]))⟩

theorem deletePublication {p : String} {f : Unit → Tx α}
    (h : Works Ok C d (f ()) R { s with publication := update s.publication p none }) :
    Works Ok C d (deleteRow (Key.publication d p) >>= f) R s :=
  ⟨fun x hx => .deleteOwn (fun _ => rfl)
    (h.under _ (by rw [Aggregate.of_publication, hx]))⟩

/-! ### Publications -/

theorem insertPublication {p : String} {r : PublicationRow} {f : Unit → Tx α}
    (h : s.publication p = none →
      Works Ok C d (f ()) R { s with publication := update s.publication p (some r) }) :
    Works Ok C d (Documents.insertPublication d p r >>= f) R s := by
  refine ⟨fun x hx => .stmt fun v hv _ => ?_⟩
  have hown : guards.Own d (.publication d p) := fun _ => rfl
  cases hbad : (v.get (.publication d p)).isSome || publicationClash v d p r with
  | true =>
    simp only [hbad, if_true, applyAll_nil]
    exact ⟨fun z hz => absurd hz not_mem_nil, .fail⟩
  | false =>
    obtain ⟨hget, -⟩ := Bool.or_eq_false_iff.mp hbad
    have hnone : x (.publication d p) = none := by
      rw [← hown.get hv]
      simpa using hget
    simp only [hbad, if_false, Bool.false_eq_true]
    refine ⟨fun z hz r' g' hu _ => ?_, ?_⟩
    · obtain rfl := mem_singleton.mp hz
      exact (some.inj hu).symm
    · rw [applyAll_cons, applyAll_nil, region_set_own fun _ _ => rfl, hv]
      refine (h (by rw [← hx]; exact hnone)).under _ ?_
      rw [Aggregate.of_publication, ← hx]

theorem updatePublication {p : String} {up : PublicationRow → PublicationRow} {f : Unit → Tx α}
    (h : Works Ok C d (f ()) R { s with publication := mapAt s.publication p up }) :
    Works Ok C d (Documents.updatePublication d p up >>= f) R s := by
  refine ⟨fun x hx => .stmt fun v hv _ => ?_⟩
  have hget : v.get (.publication d p) = x (.publication d p) :=
    Own.get (fun _ => rfl) hv
  cases hbad : (v.get (.publication d p)).any fun r => publicationClash v d p (up r) with
  | true =>
    simp only [hbad, if_true, applyAll_nil]
    exact ⟨fun z hz => absurd hz not_mem_nil, .fail⟩
  | false =>
    simp only [hbad, if_false, Bool.false_eq_true]
    refine ⟨fun z hz r' g' hu _ => ?_, h.under _ ?_⟩
    · obtain ⟨r, -, rfl⟩ := List.mem_map.mp hz
      exact (some.inj hu).symm
    · have hs : s.publication p = x (.publication d p) := by rw [← hx]; rfl
      cases hp : v.get (.publication d p) with
      | none =>
        rw [toList_none, map_nil, applyAll_nil, hv, hx]
        have hnone : mapAt s.publication p up = s.publication := by
          unfold mapAt
          rw [hs, ← hget, hp, map_none, ← hp, hget, ← hs, update_eq_self]
        rw [hnone]
      | some r =>
        rw [toList_some, map_cons, map_nil, applyAll_cons,
          applyAll_nil, region_set_own fun _ _ => rfl, hv, Aggregate.of_publication, hx]
        unfold mapAt
        rw [hs, ← hget, hp, map_some]

theorem supersedePublications {f : Unit → Tx α} (h : Works Ok C d (f ()) R (s.supersede keep now)) :
    Works Ok C d (Documents.supersedePublications d keep now >>= f) R s := by
  have hpick := picks_superseding d keep now
  refine ⟨fun x hx => .stmt fun v hv _ => ?_⟩
  dsimp only
  split
  · exact ⟨fun z hz => absurd hz not_mem_nil, .fail⟩
  · refine ⟨fun z hz => ?_, h.under _ ?_⟩
    · obtain ⟨k, r₀, hget, hmap⟩ := mem_table.mp hz
      obtain ⟨o, ho, rfl⟩ := map_eq_some_iff.mp hmap
      show ∀ (r : Row k) g', guards.under k r = some g' → (o = some r ∨ v.get k = some r) → g' = d
      rintro r g' hu (rfl | hr)
      · exact some.inj (hu.symm.trans (hpick.new k r₀ r ho))
      · cases hget.symm.trans hr
        exact some.inj (hu.symm.trans (hpick.old k r₀ o ho))
    · rw [region_updateAll hpick.old hpick.new, hv, Aggregate.of_superseding, hx]

end Works
end RagQs.Documents
