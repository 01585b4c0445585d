import RagQs.Documents.Aggregate

/-!
# The head of a document

The columns of a document that say what it is doing, with what they have to agree with in its
versions, jobs and publications.  Ten transactions write them; here they are the operations of a
small state machine, and each keeps the head consistent.

## Main definitions

* `JobHead`, `Head` — what the head reads of a job and of a document.
* `Head.Consistent` — the columns agree with the rows they stand for.
* `Head.create`, `Head.begin`, `Head.stage`, `Head.unstage`, `Head.finish`, `Head.publish`,
  `Head.delete` — the operations.

## Main results

* `Head.Consistent.begin`, `Head.Consistent.finish`, `Head.Consistent.publish` and so on — the
  operations keep the head consistent.
-/

namespace RagQs.Documents

open Option Function

/-- What the head of a document reads of a job. -/
structure JobHead where
  live : Bool
  succeeded : Bool
  operation : Operation
  version : String
  base : Option String
  publication : String

/-- What the head of a document is made of; a version counts by whether it is active, a staged
publication by its job and version, an active one by its version. -/
@[ext] structure Head where
  lifecycle : Option Lifecycle
  activeVersion : Option String
  pendingVersion : Option String
  operation : Option String
  job : String → Option JobHead
  version : String → Option Bool
  staged : String → Option (String × String)
  active : String → Option String

namespace Head

/-- The columns of the document agree with its versions, jobs and publications. -/
structure Consistent (h : Head) : Prop where
  /-- Where there is no document, nothing belongs to it. -/
  absent : h.lifecycle = none → (∀ j, h.job j = none) ∧ (∀ v, h.version v = none) ∧
    ∀ p, h.active p = none
  /-- The operation is the job that is not over. -/
  live : ∀ j, h.operation = some j ↔ ∃ job, h.job j = some job ∧ job.live = true
  /-- The pending version is that of an initial or replace job. -/
  pending : ∀ v, h.pendingVersion = some v ↔ ∃ j job, h.operation = some j ∧ h.job j = some job ∧
    job.operation.versioned = true ∧ job.version = v
  active : ∀ v, h.activeVersion = some v ↔ h.version v = some true
  published : ∀ p v, h.active p = some v → h.activeVersion = some v
  single : ∀ p q v w, h.active p = some v → h.active q = some w → p = q
  /-- A staged publication is the one its job, which is not over, works on. -/
  staged : ∀ p j v, h.staged p = some (j, v) →
    ∃ job, h.job j = some job ∧ job.live = true ∧ job.version = v ∧ job.publication = p
  closed : h.lifecycle ≠ some .active → h.activeVersion = none ∧ h.operation = none
  known : ∀ j job, h.job j = some job → (h.version job.version).isSome
  /-- The version of a job that has not succeeded is not active. -/
  inactive : ∀ j job, h.job j = some job → job.operation.versioned = true →
    job.succeeded = false → h.version job.version ≠ some true
  /-- A version comes from one job. -/
  own : ∀ i j a b, h.job i = some a → a.operation.versioned = true → h.job j = some b →
    b.operation.versioned = true → a.version = b.version → i = j
  base : ∀ j job, h.job j = some job → job.operation = .reindex → job.base = some job.version
  settled : ∀ j job, h.job j = some job → job.succeeded = true → job.live = false

/-! ### The operations -/

/-- A new document with its initial job. -/
def create (h : Head) (j p : String) (job : JobHead) : Head :=
  { h with
    lifecycle := some .active
    activeVersion := none
    pendingVersion := some job.version
    operation := some j
    job := update h.job j (some job)
    version := update h.version job.version (some false)
    staged := update h.staged p (some (j, job.version)) }

/-- A job becomes the operation of its document. -/
def begin (h : Head) (j p : String) (job : JobHead) : Head :=
  { h with
    pendingVersion := if job.operation.versioned then some job.version else h.pendingVersion
    operation := some j
    job := update h.job j (some job)
    version := if job.operation.versioned then
      update h.version job.version (some false) else h.version
    staged := update h.staged p (some (j, job.version)) }

/-- A job that is not over works on the staged publication `p`. -/
def stage (h : Head) (j p : String) (job : JobHead) : Head :=
  { h with
    job := update h.job j (some { job with publication := p })
    staged := update h.staged p (some (j, job.version)) }

/-- The staged publications of a job are deleted. -/
def unstage (h : Head) (j : String) : Head :=
  { h with staged := fun p => (h.staged p).filter fun x => x.1 ≠ j }

/-- A job is over without having succeeded. -/
def finish (h : Head) (j : String) (job : JobHead) : Head :=
  { h with
    pendingVersion := if job.operation.versioned then none else h.pendingVersion
    operation := none
    job := update h.job j (some { job with live := false })
    version := if job.operation.versioned then
      update h.version job.version (some false) else h.version
    staged := fun p => (h.staged p).filter fun x => x.1 ≠ j }

/-- A job is over with its publication active. -/
def publish (h : Head) (j p : String) (job : JobHead) : Head :=
  { h with
    activeVersion := if job.operation.versioned then some job.version else h.activeVersion
    pendingVersion := if job.operation.versioned then none else h.pendingVersion
    operation := none
    job := update h.job j (some { job with live := false, succeeded := true })
    version := if job.operation.versioned then
      fun v => if v = job.version then some true
        else if h.activeVersion = some v then some false else h.version v
      else h.version
    staged := fun p' => if p' = p then none else h.staged p'
    active := fun p' => if p' = p then some job.version else none }

/-- Everything the document does ends. -/
def delete (h : Head) : Head where
  lifecycle := some .pendingDelete
  activeVersion := none
  pendingVersion := none
  operation := none
  job j := (h.job j).map fun job => { job with live := false }
  version v := (h.version v).map fun _ => false
  staged _ := none
  active _ := none

/-! ### Consistency -/

namespace Consistent

variable {h : Head} (hc : h.Consistent) {j p : String} {job : JobHead}
include hc

theorem idle (hidle : h.operation = none) {i : String} {a : JobHead} (hi : h.job i = some a) :
    a.live = false := by
  by_contra ha
  have hop := (hc.live i).mpr ⟨a, hi, by simpa using ha⟩
  rw [hidle] at hop
  cases hop

theorem operation_of_live (hj : h.job j = some job) (hlive : job.live = true) :
    h.operation = some j := (hc.live j).mpr ⟨job, hj, hlive⟩

theorem live_unique (hj : h.job j = some job) (hlive : job.live = true) {i : String} {a : JobHead}
    (hi : h.job i = some a) (ha : a.live = true) : i = j :=
  some.inj ((hc.operation_of_live hi ha).symm.trans (hc.operation_of_live hj hlive))

theorem create (habsent : h.lifecycle = none) (hlive : job.live = true)
    (hsucceeded : job.succeeded = false) (hoperation : job.operation = .initial)
    (hp : job.publication = p) : (h.create j p job).Consistent := by
  obtain ⟨hjob, hversion, hactive⟩ := hc.absent habsent
  have hstaged : ∀ p, h.staged p = none := by
    intro p
    cases hp : h.staged p with
    | none => rfl
    | some x =>
      obtain ⟨job, hj, -⟩ := hc.staged p x.1 x.2 hp
      rw [hjob] at hj
      cases hj
  have hversioned : job.operation.versioned = true := by rw [hoperation]; rfl
  constructor <;> simp only [Head.create, update_apply, hjob, hversion, hactive, hstaged]
  case absent => exact fun h => (some_ne_none _ h).elim
  case closed => exact fun h => (h rfl).elim
  all_goals grind

theorem begin (hactive : h.lifecycle = some .active) (hidle : h.operation = none)
    (hlive : job.live = true) (hsucceeded : job.succeeded = false) (hp : job.publication = p)
    (hold : ∀ old, h.job j = some old → old.operation = job.operation ∧
      old.version = job.version ∧ old.base = job.base)
    (hversion : if job.operation.versioned = true then h.version job.version ≠ some true
      else (h.version job.version).isSome)
    (hnew : h.job j = none → job.operation.versioned = true → h.version job.version = none)
    (hbase : job.operation = .reindex → job.base = some job.version) :
    (h.begin j p job).Consistent := by
  have hover : ∀ i a, h.job i = some a → a.live = false := fun i a hi => hc.idle hidle hi
  -- no other job has the version: the job had it before, or there is no such version yet
  have hother : ∀ i a, i ≠ j → h.job i = some a → a.operation.versioned = true →
      job.operation.versioned = true → a.version ≠ job.version := by
    intro i a hij hi ha hv heq
    cases hj : h.job j with
    | some old =>
      obtain ⟨hop, hversion, -⟩ := hold old hj
      exact hij (hc.own i j a old hi ha hj (by rw [hop, hv]) (heq.trans hversion.symm))
    | none =>
      have hknown := hc.known i a hi
      rw [heq, hnew hj hv] at hknown
      cases hknown
  constructor <;> simp only [Head.begin, update_apply]
  case absent => exact fun h => absurd (h.symm.trans hactive) nofun
  case closed => exact fun h => (h hactive).elim
  case own =>
    intro i i' a b hi ha hi' hb heq
    by_cases hij : i = j <;> by_cases hij' : i' = j
    · rw [hij, hij']
    · rw [if_pos hij] at hi
      rw [if_neg hij'] at hi'
      cases hi
      exact absurd heq.symm (hother i' b hij' hi' hb ha)
    · rw [if_neg hij] at hi
      rw [if_pos hij'] at hi'
      cases hi'
      exact absurd heq (hother i a hij hi ha hb)
    · rw [if_neg hij] at hi
      rw [if_neg hij'] at hi'
      exact hc.own i i' a b hi ha hi' hb heq
  all_goals grind [Consistent]

theorem stage (hj : h.job j = some job) (hlive : job.live = true)
    (hp : ∀ q x, h.staged q = some x → q = p) : (h.stage j p job).Consistent := by
  constructor <;> simp only [Head.stage, update_apply]
  all_goals grind [Consistent]

theorem unstage : (h.unstage j).Consistent :=
  { hc with staged := fun p i v h' => hc.staged p i v (filter_eq_some_iff.mp h').1 }

theorem finish (hj : h.job j = some job) (hlive : job.live = true) :
    (h.finish j job).Consistent := by
  have hoperation := hc.operation_of_live hj hlive
  have hunique : ∀ i a, h.job i = some a → a.live = true → i = j :=
    fun i a => hc.live_unique hj hlive
  constructor <;> simp only [Head.finish, update_apply, filter_eq_some_iff]
  all_goals grind [Consistent]

theorem publish (hactive : h.lifecycle = some .active) (hj : h.job j = some job)
    (hlive : job.live = true) (hbase : h.activeVersion = job.base) (hp : job.publication = p) :
    (h.publish j p job).Consistent := by
  have hoperation := hc.operation_of_live hj hlive
  have hunique : ∀ i a, h.job i = some a → a.live = true → i = j :=
    fun i a => hc.live_unique hj hlive
  cases hversioned : job.operation.versioned with
  | true =>
    have hinactive : h.activeVersion ≠ some job.version := by
      rw [Ne, hc.active]
      exact hc.inactive j job hj hversioned (by grind [hc.settled])
    constructor <;> simp only [Head.publish, update_apply, hversioned, if_true]
    all_goals grind [Consistent]
  | false =>
    have hreindex : job.operation = .reindex := by
      cases hop : job.operation <;> simp_all [Operation.versioned]
    have hactive : h.activeVersion = some job.version := hbase.trans (hc.base j job hj hreindex)
    constructor <;> simp only [Head.publish, update_apply, hversioned, if_false,
      Bool.false_eq_true]
    all_goals grind [Consistent]

theorem delete : h.delete.Consistent := by
  constructor <;> simp only [Head.delete, ne_eq, map_eq_some_iff]
  all_goals grind [Consistent]

end Consistent
end Head
end RagQs.Documents
