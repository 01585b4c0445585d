import RagQs.Evaluation.Schema
import RagQs.Txn.Under
import Mathlib.Data.List.MinMax
import Mathlib.Data.List.Sort

/-!
# Suggestions to open a calibration window

A suggestion is made for a succeeded shadow run whose two best candidate configurations are
close: after the run, or from the leaderboard of the spaces' active defaults.  Both producers
compare only with the suggestion that is actionable now, and supersede it.

## Main definitions

* `Env` — the scores, which are floating point, and the configuration.
* `latestSucceededRun`, `latestActionable` — the reads both producers rest on.
* `ranking` — the ranking of the candidate configurations, where it is worth a suggestion.
* `computeSuggestion`, `leaderboardSuggestions` — the two producers.
-/

namespace RagQs.Evaluation

open Txn

variable {M S : Type}

/-- What is computed in floating point, the hash of a request, and what is configured. -/
structure Env (M S : Type) where
  /-- `weighted_score` and `config_threshold_eligibility` of the aggregated metrics of a
  candidate configuration. -/
  score : PolicyRow → (hasGolden : Bool) → List (ResultRow M) → (costPerQuery : Option ℚ) →
    S × Bool
  /-- The first score is at least the second. -/
  atLeast : S → S → Bool
  /-- The scores are further apart than a gap. -/
  apart : S → S → ℚ → Bool
  /-- `validate_policy` -/
  validatePolicy : PolicyRow → Except Err Unit
  /-- `_request_hash` of a window request. -/
  requestHash : WindowAction → Option WindowKind → String
  /-- A calibration outbox is attached. -/
  calibrationOutbox : Bool
  /-- The chat port of pair expiry is configured. -/
  pairExpiry : Bool

/-- A refusal of the application: its code, its message and its status. -/
def refused (code message : String) (statusCode : ℕ) : Err :=
  .platform { code, message, statusCode }

/-! ### Reads -/

/-- The last of them by a column.  The order is taken from the linear one: the search for it may
find one that does not compute. -/
def lastBy {α β : Type} [LinearOrder β] (f : α → β) (l : List α) : Option α := l.argmax f

/-- `latest_policy` -/
def latestPolicy (v : Db M S) : Option PolicyRow :=
  lastBy PolicyRow.createdAt <| table v fun k r => match k, r with
    | .policy _, r => some r
    | _, _ => none

/-- `default_policy_snapshot` -/
def defaultPolicy (now : Time) : PolicyRow where
  policyVersion := "eval-v1"
  minRealQueries := 50
  shadowMaxCandidateConfigs := 3
  calibrationOpenScoreGap := 3 / 100
  coldStartSampleRate := 2 / 5
  sentinelSampleRate := 3 / 100
  closeGraceSeconds := 3600
  maxAttempts := 3
  runDeadlineSeconds := 3600
  leaseSeconds := 60
  heartbeatSeconds := 15
  createdAt := now

/-- `list_results` of a run: the sample items, the candidate configurations and the rows. -/
def listResults (runId : String) (v : Db M S) : List (String × String × ResultRow M) :=
  table v fun k r => match k, r with
    | .result run item config, r => if run = runId then some (item, config, r) else none
    | _, _ => none

/-- The succeeded runs of a space and a comparator key. -/
def succeededRuns (spaceId comparatorKey : String) (v : Db M S) : List (String × RunRow) :=
  table v fun k r => match k, r with
    | .run runId, r =>
      if r.spaceId = spaceId ∧ r.comparatorKey = some comparatorKey ∧ r.state = .succeeded then
        some (runId, r)
      else none
    | _, _ => none

/-- When a run completed; a run without a time sorts before all others, as `NULL` does. -/
def completion (run : String × RunRow) : WithTop Time :=
  match run.2.completedAt with
  | none => ⊤
  | some t => t

/-- `latest_succeeded_run` -/
def latestSucceededRun (spaceId comparatorKey : String) (v : Db M S) : Option String :=
  (lastBy completion (succeededRuns spaceId comparatorKey v)).map Prod.fst

/-- The actionable suggestions of a space and a comparator key. -/
def actionableOf (spaceId comparatorKey : String) (v : Db M S) : List (SuggestionRow S) :=
  table v fun k r => match k, r with
    | .suggestion _, r =>
      if r.spaceId = spaceId ∧ r.comparatorKey = some comparatorKey ∧ r.status = .actionable then
        some r
      else none
    | _, _ => none

/-- `latest_actionable_suggestion` -/
def latestActionable (spaceId comparatorKey : String) (v : Db M S) : Option (SuggestionRow S) :=
  (actionableOf spaceId comparatorKey v).argmax SuggestionRow.version

/-- The active defaults, of one space or one comparator key where these are given. -/
def activeDefaults (spaceId comparatorKey : Option String) (v : Db M S) :
    List (String × ActiveDefaultRow) :=
  table v fun k r => match k, r with
    | .activeDefault space, r =>
      if (spaceId = none ∨ spaceId = some space) ∧
          (comparatorKey = none ∨ comparatorKey = r.comparatorKey) then
        some (space, r)
      else none
    | _, _ => none

/-! ### The ranking -/

/-- The candidate configurations with their scores, in the order they are first met in. -/
def scored (env : Env M S) (policy : PolicyRow) (hasGolden : Bool) (cost : Option ℚ)
    (results : List (String × String × ResultRow M)) : List (String × S × Bool) :=
  (results.map fun r => r.2.1).eraseDups.map fun config =>
    (config, env.score policy hasGolden
      ((results.filter fun r => r.2.1 = config).map fun r => r.2.2) cost)

/-- The number of sample items the results are of. -/
def distinctSamples (results : List (String × String × ResultRow M)) : ℕ :=
  (results.map Prod.fst).eraseDups.length

/-- The ranking of the candidate configurations: `none` where there are too few results, the
best two are not both eligible, or they are too far apart. -/
def ranking (env : Env M S) (order : String × S × Bool → String × S × Bool → Bool)
    (policy : PolicyRow) (hasGolden : Bool) (cost : Option ℚ)
    (results : List (String × String × ResultRow M)) : Option (List (String × S × Bool)) :=
  if distinctSamples results < policy.minRealQueries then none
  else
    match (scored env policy hasGolden cost results).insertionSort fun a b => order a b with
    | first :: second :: rest =>
      if hasGolden ∧ ¬ (first.2.2 ∧ second.2.2) then none
      else if env.apart first.2.1 second.2.1 policy.calibrationOpenScoreGap then none
      else some (first :: second :: rest)
    | _ => none

/-- The order of `compute_suggestion`: by score. -/
def byScore (env : Env M S) (a b : String × S × Bool) : Bool := env.atLeast a.2.1 b.2.1

/-- The order of the leaderboard: by score, then by name. -/
def byScoreAndName (env : Env M S) (a b : String × S × Bool) : Bool :=
  env.atLeast a.2.1 b.2.1 && (!env.atLeast b.2.1 a.2.1 || a.1 ≤ b.1)

/-- `_run_has_golden` -/
def hasGolden (run : RunRow) : Bool := run.frozenSnapshot.goldenSetVersion.any (· ≠ "")

/-! ### Making a suggestion -/

/-- `supersede_actionable_suggestions` -/
def supersedeActionable (spaceId comparatorKey : String) (now : Time) : Tx M S ℕ :=
  updateAll fun k r => match k, r with
    | .suggestion _, r =>
      if r.spaceId = spaceId ∧ r.comparatorKey = some comparatorKey ∧ r.status = .actionable then
        some (some { r with
          status := .superseded, version := r.version + 1, invalidatedAt := some now })
      else none
    | _, _ => none

/-- A new suggestion. -/
def newSuggestion (spaceId policyVersion : String) (comparatorKey : Option String)
    (rankSummary : RankSummary S) (now : Time) : SuggestionRow S where
  spaceId
  policyVersion
  comparatorKey
  rankSummary
  status := .notActionable
  version := 1
  createdAt := now
  invalidatedAt := none

/-- `create_suggestion` -/
def createSuggestion (suggestionId : String) (row : SuggestionRow S) : Tx M S Unit :=
  insert .integrity [.suggestion suggestionId] [⟨.suggestion suggestionId, some row⟩]

/-- `transition_suggestion` from not actionable to actionable. -/
def makeActionable (suggestionId : String) : Tx M S ℕ := do
  let updated ← updateWhere (.suggestion suggestionId)
    (fun r : SuggestionRow S => r.status = .notActionable)
    fun r => { r with status := .actionable, version := r.version + 1 }
  if updated = 1 then do
    let row ← readRow (Key.suggestion suggestionId)
    let suggestion : SuggestionRow S ← orRaise row (.internal "NoResultFound")
    return suggestion.version
  else
    return 0

/-- `publish_suggested` -/
def publishSuggested (suggestionId : String) (version : ℕ) (now : Time) : Tx M S Unit :=
  insert .integrity [.event (suggestionId, version)]
    [⟨.event (suggestionId, version), some ⟨suggestionId, version, now⟩⟩]

/-- The actionable suggestions are superseded, if there is one. -/
def supersedeFound (actionable : Option (SuggestionRow S)) (spaceId comparatorKey : String)
    (now : Time) : Tx M S ℕ :=
  if actionable.isSome then supersedeActionable spaceId comparatorKey now else return 0

/-- The suggestion is published, if it was made actionable and there is an outbox. -/
def publishActionable (env : Env M S) (suggestionId : String) (version : ℕ) (now : Time) :
    Tx M S Unit :=
  if 1 < version ∧ env.calibrationOutbox then publishSuggested suggestionId version now
  else return ()

/-- What both producers end with: unless the actionable suggestion is of the same run, it is
superseded and a new one is made, and whether it was. -/
def suggest (env : Env M S) (spaceId comparatorKey suggestionId : String)
    (row : SuggestionRow S) (now : Time) : Tx M S Bool := do
  let actionable ← Prog.select (latestActionable spaceId comparatorKey)
  if actionable.any fun s => s.rankSummary.sourceRunId = row.rankSummary.sourceRunId then
    return false
  else do
    let _ ← supersedeFound actionable spaceId comparatorKey now
    createSuggestion suggestionId row
    let version ← makeActionable suggestionId
    publishActionable env suggestionId version now
    return true

/-! ### The two producers -/

/-- A call of a producer: its clock, its new identifiers, by space, and what usage metering
has as the cost per query of each run. -/
structure SuggestCall where
  now : Time
  suggestionId : (spaceId : String) → String
  costPerQuery : (runId : String) → Option ℚ

/-- `compute_suggestion` once the run is the latest and its policy is known. -/
def suggestFor (env : Env M S) (call : SuggestCall) (runId : String) (run : RunRow)
    (policy : PolicyRow) : Tx M S Unit := do
  check (env.validatePolicy policy)
  let results ← Prog.select (listResults runId)
  match ranking env (byScore env) policy (hasGolden run) (call.costPerQuery runId) results with
  | none => return ()
  | some rankings => do
    let _ ← suggest env run.spaceId (run.comparatorKey.getD "") (call.suggestionId run.spaceId)
      (newSuggestion run.spaceId run.policyVersion run.comparatorKey ⟨none, runId, rankings⟩
        call.now) call.now
    return ()

/-- `compute_suggestion` -/
def computeSuggestion (env : Env M S) (call : SuggestCall) (runId : String) : Tx M S Unit := do
  let row : Option RunRow ← readRow (Key.run runId)
  match row with
  | none => return ()
  | some run =>
    if run.state = .succeeded then do
      let latest ← Prog.select (latestSucceededRun run.spaceId (run.comparatorKey.getD ""))
      if latest = some runId then do
        let policy ← readRow (Key.policy run.policyVersion)
        match policy with
        | none => return ()
        | some policy => suggestFor env call runId run policy
      else
        return ()
    else
      return ()

/-- The leaderboard's suggestion from a run of the scope. -/
def suggestFrom (env : Env M S) (call : SuggestCall) (policy : PolicyRow)
    (spaceId comparatorKey runId : String) (run : RunRow) : Tx M S Bool := do
  let own ← readRow (Key.policy run.policyVersion)
  let runPolicy : PolicyRow := own.getD policy
  check (env.validatePolicy runPolicy)
  let results ← Prog.select (listResults runId)
  match ranking env (byScoreAndName env) runPolicy (hasGolden run) (call.costPerQuery runId)
      results with
  | none => return false
  | some rankings =>
    suggest env spaceId comparatorKey (call.suggestionId spaceId)
      (newSuggestion spaceId run.policyVersion (some comparatorKey)
        ⟨some ("standard_leaderboard", distinctSamples results), runId, rankings⟩ call.now)
      call.now

/-- One active default, and whether a suggestion was made of it. -/
def suggestOf (env : Env M S) (call : SuggestCall) (policy : PolicyRow)
    (spaceId comparatorKey : String) (sourceRunId : Option String) : Tx M S Bool :=
  match sourceRunId with
  | none => return false
  | some runId => do
    let row : Option RunRow ← readRow (Key.run runId)
    match row with
    | none => return false
    | some run =>
      if run.state = .succeeded ∧ run.spaceId = spaceId ∧
          run.comparatorKey.getD "" = comparatorKey then
        suggestFrom env call policy spaceId comparatorKey runId run
      else
        return false

/-- The active defaults one after the other, each scope once, and how many suggestions were
made. -/
def suggestAll (env : Env M S) (call : SuggestCall) (policy : PolicyRow) :
    List (String × ActiveDefaultRow) → List (String × String) → Tx M S ℕ
  | [], _ => return 0
  | (spaceId, row) :: rows, seen =>
    match row.comparatorKey with
    | none => suggestAll env call policy rows seen
    | some comparatorKey =>
      if (spaceId, comparatorKey) ∈ seen then suggestAll env call policy rows seen
      else do
        let created ← suggestOf env call policy spaceId comparatorKey row.sourceRunId
        let others ← suggestAll env call policy rows ((spaceId, comparatorKey) :: seen)
        return others + created.toNat

theorem suggestAll_cons {env : Env M S} {call : SuggestCall} {policy : PolicyRow}
    {row : String × ActiveDefaultRow} {rows : List (String × ActiveDefaultRow)}
    {seen : List (String × String)} :
    suggestAll env call policy (row :: rows) seen =
      match row.2.comparatorKey with
      | none => suggestAll env call policy rows seen
      | some comparatorKey =>
        if (row.1, comparatorKey) ∈ seen then suggestAll env call policy rows seen
        else do
          let created ← suggestOf env call policy row.1 comparatorKey row.2.sourceRunId
          let others ← suggestAll env call policy rows ((row.1, comparatorKey) :: seen)
          return others + created.toNat := rfl

/-- `_compute_standard_leaderboard_suggestions` -/
def leaderboardSuggestions (env : Env M S) (call : SuggestCall)
    (spaceId comparatorKey : Option String) : Tx M S ℕ := do
  let latest ← Prog.select latestPolicy
  let policy : PolicyRow := latest.getD (defaultPolicy call.now)
  check (env.validatePolicy policy)
  let rows ← Prog.select (activeDefaults spaceId comparatorKey)
  suggestAll env call policy rows []

end RagQs.Evaluation
