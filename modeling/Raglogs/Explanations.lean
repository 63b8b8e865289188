import Raglogs.CachedBodies
import Raglogs.Confidences
import Raglogs.SilentServices
import Raglogs.SummaryTexts

/-!
The explanation of a window: clusters, evidence, a confidence, the candidates of a ranker, the
services that went silent, and a summary that a language model may write. The body of an
answer is made from it.
-/

namespace Raglogs.Explanations

open Candidates Clustering Clusters Collections Confidences Dicts EvidencePackets ExplainSchema
  Grouping LogEntries ModelFiles Ranking RareTriggers RootCause SemanticMerge SilentServices
  SummaryTexts Telemetry Text TriggerScan

section Candidates

/-- The members of the features of a service. -/
def featureDict (sf : ServiceFeatures ℚ) : Fields :=
  [("service", .str sf.service), ("log_err", .int sf.logErr), ("log_grp", .int sf.logGrp),
    ("log_stack", .int sf.logStack), ("tr_rate", .float sf.trRate), ("tr_dur", .float sf.trDur),
    ("met_anom", .float sf.metAnom), ("has_logs", .int sf.hasLogs.toNat),
    ("has_traces", .int sf.hasTraces.toNat), ("has_metrics", .int sf.hasMetrics.toNat)]

def evidenceDict (e : Evidence) : Fields :=
  [("modality", .str e.modality), ("detail", .str e.detail),
    ("signals", .obj (e.signals.map fun signal => (signal.1, .float signal.2)))]

def candidateDict (c : Candidate) : Fields :=
  [("service", .str c.service), ("score", .float c.score),
    ("modalities", ofTexts (c.evidence.map Evidence.modality)),
    ("evidence", .arr (c.evidence.map fun e => .obj (evidenceDict e))),
    ("features", .obj (featureDict c.features))]

end Candidates

structure ExplainResult where
  windowStart : Timestamp
  windowEnd : Timestamp
  summaryText : String
  confidence : String
  evidenceItems : List String
  servicesAffected : List String
  primaryCluster : Option Fields
  secondaryClusters : List Fields
  triggerCandidates : List Fields
  totalLogs : ℤ
  mode : String
  predictedRootCause : Option String
  rootCauseCandidates : List Fields
  generatedCandidates : List String
  absenceCandidates : List String
  predictedRootCauseConfidence : Option ℚ
  confidenceCalibrated : Bool

section Dicts

variable (f : Formats)

/-- The services of a cluster, the one with the most error lines first. -/
def orderedServices (c : ClusterData ℚ) : List String :=
  sortDown (fun s => (toLex (count c.errorServiceCounts s, count c.services s) : ℕ ×ₗ ℕ))
    (f.keys.toList c.services)

def isoText (t : Option Timestamp) : Json := ofText (t.map f.isoformat)

def clusterFields (c : ClusterData ℚ) : Fields :=
  [("message", .str c.representativeMessage), ("count", .int c.count),
    ("services", ofTexts (orderedServices f c)), ("levels", ofTexts (f.keys.toList c.levels)),
    ("fingerprint", .str c.fingerprint), ("importance_score", .float (f.round2 c.importanceScore)),
    ("first_seen", isoText f c.firstSeen), ("last_seen", isoText f c.lastSeen),
    ("baseline_count", .int c.baselineCount), ("change_ratio", .float (f.round2 c.changeRatio))]

def triggerFields (t : TriggerCandidate) : Fields :=
  [("message", .str t.message), ("timestamp", isoText f t.timestamp), ("service", ofText t.service)]

end Dicts

/-- What an explanation depends on besides the rows. -/
structure ExplainEnvironment where
  scoring : Scoring ℚ
  mergeSimilarity : List ℚ → List ℚ → ℚ
  mergeEnvironment : MergeEnvironment ℚ
  resultOrder : ResultOrder
  evidence : EvidenceEnvironment
  confidence : ConfidenceSettings
  settings : QueryOverrides.Settings
  roundTo4 : Exact ℚ → Exact ℚ
  rank : RankEnvironment

/-- What an explanation is asked for. -/
structure ExplainInput where
  filter : WindowFilter
  noLlm : Bool
  maxClusters : ℤ
  baselineWindow : Option String
  maxEvidenceItems : Option ℤ
  llmProvider : Option String

/-- A language model: its text, or nothing if it raises. -/
abbrev Llm := EvidencePacket → Option String

def silentItem (absence : List String) : List String :=
  if absence.isEmpty then []
  else [toString absence.length ++ " service(s) went silent in traces (span traffic collapsed " ++
    "vs baseline — unreachable or a trace-collection gap): " ++ ", ".intercalate absence]

/-- What an explanation has before its summary is written. -/
structure Analysis where
  clusters : List (ClusterData ℚ)
  packet : EvidencePacket
  ranked : RankOutcome
  absence : List String

variable (env : ExplainEnvironment) (store : Store)

/-- The window of the baseline, the configured one unless another is given. -/
def ExplainInput.baseline (input : ExplainInput) : String :=
  (truthy input.baselineWindow).getD env.settings.defaultBaselineWindow

def ExplainInput.evidenceCap (input : ExplainInput) : ℤ :=
  input.maxEvidenceItems.getD env.settings.maxEvidenceItems

def windowError {α : Type} (x : Except Durations.WindowError α) : Except ExplainError α :=
  x.mapError .window

/-- Read the rows: clusters, evidence, ranking, silent services. -/
def analyse (input : ExplainInput) : Except ExplainError Analysis := do
  let f := input.filter
  let clusters ← windowError (runClustering env.scoring env.mergeSimilarity env.mergeEnvironment
    env.resultOrder store.logs store.jobs f (input.baseline env) input.maxClusters)
  let packet ← assembleEvidence env.evidence store f clusters (input.evidenceCap env)
  let ranked ← (rankCandidates env.rank store.logs.entries store.spans store.samples f.scope
    f.windowStart f.windowEnd (input.baseline env)).mapError .rank
  let absence ← windowError (silentServices env.roundTo4 env.evidence.formats.lowering store.spans
    f.scope f.windowStart f.windowEnd (input.baseline env))
  return ⟨clusters, packet, ranked, absence⟩

/-- Whether a language model is asked. -/
def ExplainInput.asksLlm (input : ExplainInput) : Bool :=
  llmRequested env.settings input.noLlm input.llmProvider

/-- The text of a language model, if it is asked and has one. -/
def llmText (llm : Llm) (input : ExplainInput) (packet : EvidencePacket) : Option String :=
  if input.asksLlm env then truthy (llm packet) else none

def generatedCandidates (a : Analysis) : List String :=
  if a.ranked.services = [] then a.packet.candidateServices
  else sortOn id a.ranked.services

/-- The explanation where there are no clusters to tell about. -/
def insufficientEvidence (input : ExplainInput) (a : Analysis) : ExplainResult where
  windowStart := input.filter.windowStart
  windowEnd := input.filter.windowEnd
  summaryText := renderInsufficientEvidence env.evidence.formats input.filter.windowStart
    input.filter.windowEnd a.packet.totalLogs
  confidence := ConfidenceLabel.low.text
  evidenceItems := a.packet.evidenceItems ++ silentItem a.absence
  servicesAffected := a.packet.servicesAffected
  primaryCluster := none
  secondaryClusters := []
  triggerCandidates := []
  totalLogs := a.packet.totalLogs
  mode := "rules"
  predictedRootCause := a.ranked.predicted
  rootCauseCandidates := a.ranked.candidates.map candidateDict
  generatedCandidates := generatedCandidates a
  absenceCandidates := a.absence
  predictedRootCauseConfidence := a.ranked.confidence
  confidenceCalibrated := false

/-- The label of an explanation with clusters. -/
def explainedLabel (a : Analysis) : ConfidenceLabel :=
  match a.ranked.confidence with
  | some p => labelFromCalibratedProbability env.confidence p
  | none => computeConfidence env.confidence a.packet

/-- The explanation by a primary cluster. -/
def explained (llm : Llm) (input : ExplainInput) (a : Analysis) (pc : ClusterData ℚ) :
    ExplainResult :=
  let f := env.evidence.formats
  let label := (explainedLabel env a).text
  let text := llmText env llm input a.packet
  { windowStart := input.filter.windowStart
    windowEnd := input.filter.windowEnd
    summaryText := text.getD (renderTextSummary f a.packet label)
    confidence := label
    evidenceItems := a.packet.evidenceItems ++ silentItem a.absence
    servicesAffected := a.packet.servicesAffected
    primaryCluster := some (clusterFields f pc)
    secondaryClusters := a.packet.secondaryClusters.map (clusterFields f)
    triggerCandidates := a.packet.triggerCandidates.map (triggerFields f)
    totalLogs := a.packet.totalLogs
    mode := if text.isSome then "llm" else "rules"
    predictedRootCause := a.ranked.predicted
    rootCauseCandidates := a.ranked.candidates.map candidateDict
    generatedCandidates := generatedCandidates a
    absenceCandidates := a.absence
    predictedRootCauseConfidence := a.ranked.confidence
    confidenceCalibrated := a.ranked.confidence.isSome }

def summarise (llm : Llm) (input : ExplainInput) (a : Analysis) : ExplainResult :=
  if a.clusters = [] then insufficientEvidence env input a
  else
    match a.packet.primaryCluster with
    | some pc => explained env llm input a pc
    | none => insufficientEvidence env input a

/-- Explain a window. -/
def explainWindow (llm : Llm) (input : ExplainInput) : Except ExplainError ExplainResult :=
  (analyse env store input).map (summarise env llm input)

/-! The body of an answer. -/

section Bodies

variable (rt : Runtime)

def confidenceForResult (result : ExplainResult) : Except PayloadError Confidence :=
  match result.confidenceCalibrated, result.predictedRootCauseConfidence with
  | true, some p => confidence result.confidence p true
  | _, _ => confidenceFromValue rt (.str result.confidence)

/-- The body that an explanation is answered with. -/
def explainFromResult (result : ExplainResult) (noLlm cached : Bool) (scope : String)
    (llmProvider : Option String) : Except PayloadError ExplainResponse := do
  let primary ← clusterFromMapping rt ((result.primaryCluster.map Json.obj).getD .null)
  let secondary ← clustersFrom rt (result.secondaryClusters.map .obj)
  let confidence ← confidenceForResult rt result
  let evidence ← evidenceFromItems rt (ofTexts result.evidenceItems)
  let rootCauseCandidates ← rcaCandidatesFrom rt (.arr (result.rootCauseCandidates.map .obj))
  return {
    schemaVersion := schemaVersion
    scope := scope
    window := windowFromBounds rt result.windowStart result.windowEnd
    confidence := confidence
    summary := shortSummary rt result.summaryText
    trigger := triggerFromCandidates rt (result.triggerCandidates.map .obj) primary
    primaryCluster := primary
    secondaryClusters := secondary
    evidence := evidence
    llm := llmFromMode rt result.mode (llmRequested rt.settings noLlm llmProvider) llmProvider
    renderedText := result.summaryText
    markdown := none
    cached := cached
    totalLogs := result.totalLogs
    mode := result.mode
    servicesAffected := result.servicesAffected
    predictedRootCause := result.predictedRootCause
    rootCauseCandidates := rootCauseCandidates
    predictedRootCauseConfidence := result.predictedRootCauseConfidence
    absenceCandidates := result.absenceCandidates }

end Bodies

end Raglogs.Explanations
