import RagQs.Evaluation.ShadowRun
import Mathlib.Data.List.Sort
import Mathlib.Algebra.Order.Field.Rat

/-!
# Weak signals

The weak signals of a sample go from the frozen snapshot through the worker to the result
rows, and without golden labels the rate of answers with a citation decides about them.

## Main definitions

* `insertRun`, `process` — the rows of the frozen samples, and the results made of them.
* `aggregateWeakSignals`, `configThresholdEligibility` — the rates and what they decide.
* `Kept`, `CitationsDecide` — what should become of the weak signals.

## Main results

* `kept_iff` — the weak signals reach the results just when there are none, or no results.
* `not_weakSignalsKept` — a sample with a citation gets a result without weak signals.
-/

namespace RagQs.Evaluation.Weak

open List

/-- A row or a mapping, by its keys. -/
abbrev Dict := List (String × Val)

/-- `str(row[key])` -/
def getStr (row : Dict) (key : String) : String :=
  match row.lookup key with
  | some (.str s) => s
  | _ => ""

/-- `int(row[key])` -/
def getInt (row : Dict) (key : String) : ℤ :=
  match row.lookup key with
  | some (.int n) => n
  | _ => 0

/-- `dict(row.get(key, {}))` -/
def getDict (row : Dict) (key : String) : Dict :=
  match row.lookup key with
  | some (.dict d) => d
  | _ => []

/-- `signals.get(key)`, which is `None` for a key that is not there. -/
def getSignal (signals : Dict) (key : String) : Option Val :=
  match signals.lookup key with
  | some .null => none
  | value => value

/-- Whether a value counts as true. -/
def truthy : Val → Bool
  | .null => false
  | .bool b => b
  | .int n => n ≠ 0
  | .str s => s ≠ ""
  | .decimal d => d.coeff ≠ 0
  | .datetime _ => true
  | .list l => !l.isEmpty
  | .dict l => !l.isEmpty

/-- A sample as it was collected. -/
structure Sample where
  itemId : String
  position : ℤ
  questionText : String
  questionHash : String
  evidenceHash : String
  weakSignals : Dict
  sourceRef : String

/-- The row of a sample in `evaluation_sample_snapshot_item`. -/
def Sample.row (snapshotId : String) (s : Sample) : Dict :=
  [("snapshot_id", .str snapshotId), ("item_id", .str s.itemId), ("position", .int s.position),
    ("question_text", .str s.questionText), ("question_hash", .str s.questionHash),
    ("evidence_hash", .str s.evidenceHash), ("weak_signals_json", .dict s.weakSignals),
    ("source_ref", .str s.sourceRef)]

/-- `insert_run`: the rows of the samples, of which no two have one key. -/
def insertRun (snapshotId : String) (samples : List Sample) : Except Err (List Dict) :=
  if (samples.map (·.itemId)).Nodup then .ok (samples.map (·.row snapshotId))
  else .error .integrity

/-- `_sample_items` -/
def sampleItems (rows : List Dict) : List Dict :=
  rows.insertionSort fun a b => getInt a "position" ≤ getInt b "position"

/-- A row of `shadow_evaluation_result`. -/
structure Result (M : Type) extends ResultRow M where
  sampleItemId : String
  candidateConfigVersion : String
  weakSignals : Dict

variable {M : Type} {samples : List Sample} {configs : List String} {results : List (Result M)}

/-- `insert_result` -/
def insertResult (results : List (Result M)) (r : Result M) : Except Err (List (Result M)) :=
  if results.any fun a => a.sampleItemId = r.sampleItemId ∧
      a.candidateConfigVersion = r.candidateConfigVersion then .error .integrity
  else .ok (results ++ [r])

/-- The replays that are left; `outcome` is what retrieval, answer and judge come to. -/
def replayAll (runId : String) (outcome : String → String → Except Err (M × Time)) :
    List (Dict × String) → List (Result M) → Except Err (List (Result M))
  | [], results => .ok results
  | (item, config) :: pairs, results => do
    let itemId := getStr item "item_id"
    let (metrics, judgedAt) ← outcome itemId config
    let results ← insertResult results
      { sessionId := "shadow:" ++ runId ++ ":" ++ itemId ++ ":" ++ config, metrics, judgedAt
        sampleItemId := itemId, candidateConfigVersion := config
        weakSignals := getDict item "weak_signals" }
    replayAll runId outcome pairs results

/-- The results of a run from the rows of its samples. -/
def process (runId : String) (configs : List String)
    (outcome : String → String → Except Err (M × Time)) (rows : List Dict) :
    Except Err (List (Result M)) :=
  replayAll runId outcome
    ((sampleItems rows).flatMap fun item => configs.map fun config => (item, config)) []

/-- The share of the mappings with a true value among those that have one. -/
def rate (signals : List Dict) (key : String) : ℚ :=
  let values := signals.filterMap (getSignal · key)
  if values.isEmpty then 0 else values.countP truthy / values.length

/-- What `aggregate_weak_signals` returns. -/
structure WeakRates where
  citationRate : ℚ
  citationClickRate : ℚ
  sampledItems : ℕ

/-- `aggregate_weak_signals` -/
def aggregateWeakSignals (results : List (Result M)) : WeakRates :=
  let rows := results.map (·.weakSignals)
  { citationRate := rate rows "weak_has_citation"
    citationClickRate := rate rows "weak_citation_clicks"
    sampledItems := (rows.filterMap (getSignal · "weak_has_citation")).length }

/-- The metrics of a candidate configuration. -/
structure Metrics where
  faithfulness : Option ℚ
  p95LatencyMs : Option ℚ
  costPerQuery : Option ℚ
  refusalRate : Option ℚ
  hitAtKFinal : Option ℚ
  mrr : Option ℚ

/-- The thresholds of a policy. -/
structure Thresholds where
  faithfulnessMin : ℚ
  p95LatencyMaxMs : ℚ
  costPerQueryMax : ℚ
  refusalRateMin : ℚ
  hitAtKFinalMin : ℚ
  mrrMin : ℚ

/-- `generation_ok`: the generation, latency and cost gates. -/
def generationOk (metrics : Metrics) (policy : Thresholds) : Bool :=
  policy.faithfulnessMin ≤ metrics.faithfulness.getD 0 &&
    metrics.p95LatencyMs.any (· ≤ policy.p95LatencyMaxMs) &&
      metrics.costPerQuery.all (· ≤ policy.costPerQueryMax)

/-- `threshold_eligibility` -/
def thresholdEligibility (metrics : Metrics) (policy : Thresholds) (hasGolden : Bool)
    (weakSignalRate : Option ℚ) : Bool :=
  if !generationOk metrics policy then false
  else if !hasGolden then weakSignalRate.any (policy.hitAtKFinalMin ≤ ·)
  else policy.refusalRateMin ≤ metrics.refusalRate.getD 0 &&
    policy.hitAtKFinalMin ≤ metrics.hitAtKFinal.getD 0 && policy.mrrMin ≤ metrics.mrr.getD 0

/-- `config_threshold_eligibility` -/
def configThresholdEligibility (results : List (Result M)) (metrics : Metrics)
    (policy : Thresholds) (hasGolden : Bool) : Bool :=
  if hasGolden then thresholdEligibility metrics policy true none
  else thresholdEligibility metrics policy false
    (some (aggregateWeakSignals results).citationRate)

/-- Every result has the weak signals of its sample. -/
def Kept (samples : List Sample) (results : List (Result M)) : Prop :=
  ∀ r ∈ results, ∀ s ∈ samples, s.itemId = r.sampleItemId → r.weakSignals = s.weakSignals

/-- Of a configuration that passes the other gates, the share of samples with a citation
decides. -/
def CitationsDecide (samples : List Sample) (configs : List String) (results : List (Result M)) :
    Prop :=
  ∀ config ∈ configs, ∀ metrics policy, generationOk metrics policy →
    (configThresholdEligibility (results.filter (·.candidateConfigVersion = config)) metrics
        policy false ↔
      policy.hitAtKFinalMin ≤ rate (samples.map (·.weakSignals)) "weak_has_citation")

theorem replayAll_ok {runId : String} {outcome : String → String → Except Err (M × Time)}
    {pairs : List (Dict × String)} {done : List (Result M)}
    (h : replayAll runId outcome pairs done = .ok results) :
    results.map (fun r => (r.sampleItemId, r.candidateConfigVersion, r.weakSignals)) =
      done.map (fun r => (r.sampleItemId, r.candidateConfigVersion, r.weakSignals)) ++
        pairs.map fun (item, config) =>
          (getStr item "item_id", config, getDict item "weak_signals") := by
  induction pairs generalizing done with
  | nil =>
    obtain rfl : done = results := by simpa [replayAll] using h
    simp
  | cons pair pairs ih =>
    obtain ⟨item, config⟩ := pair
    unfold replayAll at h
    cases houtcome : outcome (getStr item "item_id") config with
    | error e => simp [houtcome, bind, Except.bind] at h
    | ok judged =>
      simp only [houtcome, bind, Except.bind] at h
      unfold insertResult at h
      split_ifs at h
      rw [ih h]
      simp

theorem getDict_row (snapshotId : String) (s : Sample) :
    getDict (s.row snapshotId) "weak_signals" = [] := by
  simp [getDict, Sample.row, lookup]

theorem getStr_row (snapshotId : String) (s : Sample) :
    getStr (s.row snapshotId) "item_id" = s.itemId := by
  simp [getStr, Sample.row, lookup]

variable {runId snapshotId : String} {outcome : String → String → Except Err (M × Time)}

theorem mem_process (h : insertRun snapshotId samples >>= process runId configs outcome =
    .ok results) {fact : String × String × Dict} :
    fact ∈ results.map (fun r => (r.sampleItemId, r.candidateConfigVersion, r.weakSignals)) ↔
      ∃ s ∈ samples, ∃ config ∈ configs, fact = (s.itemId, config, []) := by
  unfold insertRun at h
  split at h
  · rw [replayAll_ok (by simpa [bind, Except.bind, process] using h)]
    simp only [map_nil, nil_append, mem_map, mem_flatMap, sampleItems, mem_insertionSort,
      Prod.exists, Prod.mk.injEq]
    constructor
    · rintro ⟨item, config, ⟨_, ⟨s, hs, rfl⟩, config', hconfig, rfl, rfl⟩, rfl⟩
      exact ⟨s, hs, config', hconfig, by rw [getStr_row, getDict_row]⟩
    · rintro ⟨s, hs, config, hconfig, rfl⟩
      exact ⟨_, config, ⟨_, ⟨s, hs, rfl⟩, config, hconfig, rfl, rfl⟩,
        by rw [getStr_row, getDict_row]⟩
  · cases h

theorem rate_of_forall_nil {signals : List Dict} (h : ∀ d ∈ signals, d = []) (key : String) :
    rate signals key = 0 := by
  have hvalues : signals.filterMap (getSignal · key) = [] :=
    filterMap_eq_nil_iff.mpr fun d hd => by rw [h d hd]; rfl
  simp [rate, hvalues]

theorem kept_iff (h : insertRun snapshotId samples >>= process runId configs outcome =
    .ok results) : Kept samples results ∧ CitationsDecide samples configs results ↔
      configs = [] ∨ ∀ s ∈ samples, s.weakSignals = [] := by
  have hnil : ∀ r ∈ results, r.weakSignals = [] := fun r hr => by
    obtain ⟨s, -, config, -, heq⟩ := (mem_process h).mp (mem_map_of_mem hr)
    exact (Prod.ext_iff.mp (Prod.ext_iff.mp heq).2).2
  constructor
  · rintro ⟨hkept, -⟩
    refine or_iff_not_imp_left.mpr fun hne s hs => ?_
    obtain ⟨config, hconfig⟩ := exists_mem_of_ne_nil _ hne
    obtain ⟨r, hr, heq⟩ := mem_map.mp ((mem_process h).mpr ⟨s, hs, config, hconfig, rfl⟩)
    rw [← hkept r hr s hs (Prod.ext_iff.mp heq).1.symm]
    exact hnil r hr
  · rintro (rfl | hsamples)
    · refine ⟨fun r hr => ?_, by simp [CitationsDecide]⟩
      obtain ⟨s, -, config, hconfig, -⟩ := (mem_process h).mp (mem_map_of_mem hr)
      exact absurd hconfig not_mem_nil
    · refine ⟨fun r hr s hs _ => (hnil r hr).trans (hsamples s hs).symm,
        fun config _ metrics policy hok => ?_⟩
      have hresults : (aggregateWeakSignals
          (results.filter (·.candidateConfigVersion = config))).citationRate = 0 :=
        rate_of_forall_nil (forall_mem_map.mpr fun r hr => hnil r (mem_of_mem_filter hr)) _
      rw [rate_of_forall_nil (forall_mem_map.mpr hsamples)]
      simp [configThresholdEligibility, thresholdEligibility, hok, hresults]

/-- A question that was answered with a citation. -/
def citedSample : Sample where
  itemId := "m"
  position := 1
  questionText := "q"
  questionHash := "h"
  evidenceHash := "h"
  weakSignals := [("weak_has_citation", .bool true)]
  sourceRef := "m"

/-- The result of that question. -/
def citedResult : Result Unit where
  sessionId := "shadow:r:m:c"
  metrics := ()
  judgedAt := 0
  sampleItemId := "m"
  candidateConfigVersion := "c"
  weakSignals := []

theorem kept_iff_cited : Kept [citedSample] [citedResult] ∧
    CitationsDecide [citedSample] ["c"] [citedResult] ↔
      ["c"] = [] ∨ ∀ s ∈ [citedSample], s.weakSignals = [] :=
  @kept_iff Unit _ _ _ "r" "s" (fun _ _ => .ok ((), 0)) rfl

theorem not_weakSignalsKept : ¬∀ samples configs
    (outcome : String → String → Except Err (Unit × Time)) results,
    insertRun "s" samples >>= process "r" configs outcome = .ok results →
      Kept samples results ∧ CitationsDecide samples configs results := fun h => by
  have hkept := (h [citedSample] ["c"] (fun _ _ => .ok ((), 0)) [citedResult] rfl).1
  have heq := hkept citedResult (mem_singleton_self _) citedSample (mem_singleton_self _) rfl
  exact cons_ne_nil _ _ heq.symm

end RagQs.Evaluation.Weak
