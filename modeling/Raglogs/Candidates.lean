import Raglogs.FailedEdges
import Raglogs.Features
import Raglogs.ModelSafety

/-!
The candidates of the learned ranker: the services of the feature table that are not excluded,
each with a score and with the evidence that its features are. The trace graph may move them,
and a calibrated probability is only given to the first one if it was the ranker's first.
-/

namespace Raglogs.Candidates

open Collections Dicts Durations FailedEdges Features Grouping Linkage LogEntries ModelFiles
  ServiceGraphs SilentServices Telemetry Text

/-- One kind of evidence for a candidate. -/
structure Evidence where
  modality : String
  detail : String
  signals : List (String × ℚ)

structure Candidate where
  service : String
  score : ℚ
  features : ServiceFeatures ℚ
  evidence : List Evidence

section Building

variable (fixed : ℕ → ℚ → String)

def logEvidence (sf : ServiceFeatures ℚ) : List Evidence :=
  if 0 < sf.logErr then
    [⟨"logs", toString sf.logErr ++ " error lines (top fingerprint group " ++
        toString sf.logGrp ++ ", " ++ toString sf.logStack ++ " stack-trace lines)",
      [("log_err", sf.logErr), ("log_grp", sf.logGrp), ("log_stack", sf.logStack)]⟩]
  else []

def traceEvidence (sf : ServiceFeatures ℚ) : List Evidence :=
  if 0 < sf.trRate ∨ 0 < sf.trDur then
    [⟨"traces", "span-rate " ++ fixed 1 sf.trRate ++ "x baseline, p95 latency " ++
        fixed 1 sf.trDur ++ "x", [("tr_rate", sf.trRate), ("tr_dur", sf.trDur)]⟩]
  else []

def metricEvidence (sf : ServiceFeatures ℚ) : List Evidence :=
  if 0 < sf.metAnom then
    [⟨"metrics", "metric change " ++ fixed 1 sf.metAnom ++ "x baseline",
      [("met_anom", sf.metAnom)]⟩]
  else []

def evidenceFor (sf : ServiceFeatures ℚ) : List Evidence :=
  logEvidence sf ++ traceEvidence fixed sf ++ metricEvidence fixed sf

/-- The candidates of a table, the one with the highest score first. -/
def buildCandidates (table : FeatureTable) (scorer : ServiceFeatures ℚ → Except PyError ℚ)
    (exclude : List String) : Except PyError (List Candidate) := do
  let candidates ← (table.services.filter fun sf => !exclude.contains sf.service).mapM fun sf =>
    (scorer sf).map fun score => (⟨sf.service, score, sf, evidenceFor fixed sf⟩ : Candidate)
  return sortOn (fun c => toLex (-c.score, c.service)) candidates

end Building

/-- A candidate as the calibrator reads it. -/
def Candidate.calibrated (c : Candidate) : RootCauseCandidate ℚ :=
  ⟨c.score, c.evidence.map fun e => ⟨e.modality⟩⟩

/-- A candidate as it is reranked. -/
def Candidate.ranked (c : Candidate) : Propagation.RootCauseCandidate ℚ :=
  ⟨c.service, c.score, c.features.logErr⟩

/-- What the ranker needs besides the rows: the loaded models, and the settings. -/
structure RankEnvironment where
  isWord : Char → Bool
  lowering : Lowering
  rendering : Rendering
  fixed : ℕ → ℚ → String
  floats : Floats ℚ
  /-- The score of the loaded ranker, if there is one. -/
  ranker : Option (ServiceFeatures ℚ → Except PyError ℚ)
  calibrator : Option (PlattCalibrator ℚ)
  excludedServices : Option String
  propagationRerank : Bool
  order : SetOrder
  squash : Propagation.Squash ℚ

/-- Why no ranking is answered. -/
inductive RankError
  | window (e : WindowError)
  | model (e : PyError)
deriving DecidableEq

variable (env : RankEnvironment)

/-- The services that are never a root cause, separated by commas. -/
def RankEnvironment.excluded : List String :=
  ((((env.excludedServices.getD "").toList.splitOnP fun c => c = ',').map String.ofList).map
    strip).filter fun s => s ≠ ""

/-- The first of the errors of a service, in seconds. -/
def firstError (errors : List (String × Timestamp)) (service : String) : Option ℚ :=
  (valuesOf errors service).min?.map fun ts => (ts : ℚ) / 1000000

/-- The first error of each service of a window. -/
def errorOnsets (entries : List LogEntry) (scope : String) (windowStart windowEnd : Timestamp) :
    Dict String ℚ :=
  let errors := entries.filterMap fun e => do
    let service ← truthy e.service
    let ts ← e.timestamp
    let level ← e.level
    if e.scope = scope ∧ windowStart ≤ ts ∧ ts ≤ windowEnd ∧ isErrorLevel env.lowering level then
      some (service, ts)
    else none
  dictOf ((fromKeys (errors.map Prod.fst)).filterMap fun s =>
    (firstError errors s).map fun t => (s, t))

/-- The onsets and the weights of the services with log errors. -/
def combineLogEvidence (logOnset : Dict String ℚ) (candidates : List Candidate) :
    Dict String ℚ × Dict String ℚ :=
  let failing := candidates.filter fun c => 0 < c.features.logErr
  (dictOf (failing.filterMap fun c => (logOnset.lookup c.service).map fun t => (c.service, t)),
    dictOf (failing.map fun c => (c.service, (c.features.logErr : ℚ))))

/-- Move the candidates by the trace graph, if there is one. -/
def propagationRerank (entries : List LogEntry) (spans : List (TraceSpan (Exact ℚ)))
    (scope : String) (windowStart windowEnd : Timestamp) (candidates : List Candidate) :
    List Candidate :=
  let graph := serviceGraphFromSpans (spansInWindow spans scope windowStart windowEnd)
  if graph.services = ∅ then candidates
  else
    let evidence := combineLogEvidence
      (errorOnsets env entries scope windowStart windowEnd) candidates
    let dependency := failedEdgeDependencies env.lowering env.order
      (errorSpanEdges spans scope windowStart windowEnd)
    (Propagation.rerankCandidates env.order env.squash (candidates.map Candidate.ranked) graph
      evidence.1 (some evidence.2)
      { Propagation.Options.default with dependencyBoost := dependency }).filterMap fun r =>
        candidates.reverse.find? fun c => c.service == r.service

/-- What the ranker says of a scope. -/
structure RankOutcome where
  predicted : Option String
  candidates : List Candidate
  confidence : Option ℚ
  services : List String

def RankOutcome.none : RankOutcome := ⟨Option.none, [], Option.none, []⟩

def topK : ℕ := 5

/-- The start of the baseline; a duration that does not parse gives none. -/
def rankBaseline (windowStart : Timestamp) (baselineWindow : String) :
    Except WindowError Timestamp :=
  match baselineStart env.lowering windowStart baselineWindow with
  | .error .outOfRange => .error .outOfRange
  | .error (.tooLong message) => .error (.tooLong message)
  | .error _ => .ok windowStart
  | .ok start => .ok start

/-- The candidates, moved if that is configured. -/
def movedCandidates (entries : List LogEntry) (spans : List (TraceSpan (Exact ℚ))) (scope : String)
    (windowStart windowEnd : Timestamp) (candidates : List Candidate) : List Candidate :=
  if env.propagationRerank then
    propagationRerank env entries spans scope windowStart windowEnd candidates
  else candidates

/-- The calibrated probability of the first candidate. It was fitted to the ranker's scores, so
there is none for another first one than the ranker's. -/
def confidenceOf (first : Candidate) (moved : List Candidate) : Except PyError (Option ℚ) :=
  match env.calibrator with
  | some calibrator =>
      if moved.head?.all fun c => c.service == first.service then
        calibrator.confidence env.floats (moved.map Candidate.calibrated)
      else .ok none
  | none => .ok none

/-- Rank the services of a scope with the learned ranker, if there is one. -/
def rankCandidates (entries : List LogEntry) (spans : List (TraceSpan (Exact ℚ)))
    (samples : List (MetricSample ℚ)) (scope : String) (windowStart windowEnd : Timestamp)
    (baselineWindow : String) : Except RankError RankOutcome :=
  match env.ranker with
  | none => .ok .none
  | some scorer => do
      let start ← (rankBaseline env windowStart baselineWindow).mapError .window
      let table := computeFeatures env.isWord env.lowering env.rendering entries spans samples scope
        start windowStart windowEnd
      let candidates ← (buildCandidates env.fixed table scorer env.excluded).mapError .model
      match candidates with
      | [] => return .none
      | first :: _ =>
          let moved := movedCandidates env entries spans scope windowStart windowEnd candidates
          let confidence ← (confidenceOf env first moved).mapError .model
          return ⟨moved.head?.map Candidate.service, moved.take topK, confidence,
            moved.map Candidate.service⟩

end Raglogs.Candidates
