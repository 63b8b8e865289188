import Raglogs.Durations
import Raglogs.GroupingLaws
import Raglogs.RootCause

/-!
One clustering run over a window: the groups of the window, their counts in the
baseline before it, the merge pass, and the cap. A window without rows has no
clusters and asks for no baseline.
-/

namespace Raglogs.Clustering

open Collections Dicts Durations LogEntries Text Clusters Grouping GroupingLaws SemanticMerge
  RootCause

variable {K : Type} [ScoreArithmetic K] [LinearOrder K]

/-- The columns of an ingestion job that a baseline reads. -/
structure JobStart where
  id : ℕ
  startedAt : Option Timestamp
  scope : String

/-- The window that precedes an incident window. -/
def resolveBaselineWindow (lowering : Lowering) (windowStart _windowEnd : Timestamp)
    (baselineWindowStr : String) : Except WindowError TimeWindow := do
  let baselineDuration ← parseDuration lowering baselineWindowStr
  if windowStart - baselineDuration < firstInstant then .error .outOfRange
  else return ⟨windowStart - baselineDuration, windowStart⟩

theorem resolveBaselineWindow_of_parse {lowering : Lowering} (windowStart windowEnd : Timestamp)
    {baselineWindowStr : String} {duration : ℤ}
    (h : parseDuration lowering baselineWindowStr = .ok duration) :
    resolveBaselineWindow lowering windowStart windowEnd baselineWindowStr =
      if windowStart - duration < firstInstant then .error .outOfRange
      else .ok ⟨windowStart - duration, windowStart⟩ := by
  unfold resolveBaselineWindow
  rw [h]
  rfl

/-- The jobs of a scope that started when a job did, or later. -/
def laterJobs (jobs : List JobStart) (scope : String) (start : Timestamp) : List ℕ :=
  (jobs.filter (fun j => j.startedAt.any (fun t => start ≤ t) && j.scope == scope)).map JobStart.id

/-- Whether a row is left in when a job is excluded; a row without a job fails a comparison. -/
def leftIn (jobs : List JobStart) (scope : String) (excluded : ℕ) (e : LogEntry) : Bool :=
  match (jobs.find? (fun j => j.id == excluded)).bind JobStart.startedAt with
  | some start =>
      let later := laterJobs jobs scope start
      if later = [] then true else e.ingestionJobId.any (fun job => !later.contains job)
  | none => e.ingestionJobId.any (fun job => job != excluded)

/-- The counts of the fingerprints in a baseline window. -/
def getBaselineCounts (store : LogStore) (jobs : List JobStart) (baseline : TimeWindow)
    (service environment : Option String) (excludeIngestionJobId : Option ℕ) (scope : String)
    (includeOnlyIngestionJobId : Option ℕ) : Counter String :=
  let f : WindowFilter :=
    ⟨baseline.start, baseline.stop, scope, service, environment, includeOnlyIngestionJobId⟩
  let rows := (store.baseWindowQuery f).filter (fun e =>
    match excludeIngestionJobId with
    | some excluded => leftIn jobs scope excluded e
    | none => true)
  tally (rows.filterMap LogEntry.fingerprint)

/-- The keys of the aggregated groups, in the order in which they were opened. -/
def groupKeys (lowering : Lowering) (order : ResultOrder) (rows : List ClusterRow) : List String :=
  fromKeys ((queryCounts order rows).map Prod.fst ++
    (queryServices lowering order rows).map Prod.fst ++
    (queryKeys order.levels ClusterRow.level rows).map Prod.fst ++
    (queryKeys order.messages ClusterRow.normalizedMessage rows).map Prod.fst)

/-- The clusters of a window before the merge pass. -/
def windowClusters (s : Scoring K) (order : ResultOrder) (store : LogStore) (jobs : List JobStart)
    (f : WindowFilter) (baselineWindowStr : String) : Except WindowError (List (ClusterData K)) :=
  let groups := aggregateGroups s.lowering order store f
  let keys := groupKeys s.lowering order (clusterSelect store f)
  if keys = [] then .ok []
  else do
    let baseline ← resolveBaselineWindow s.lowering f.windowStart f.windowEnd baselineWindowStr
    let baselineCounts := getBaselineCounts store jobs baseline f.service f.environment none
      f.scope f.ingestionJobId
    return keys.filterMap (clusterOf s baselineCounts groups)

/-- Cluster a window: group, merge, rank and cap. Without groups there is nothing to rank. -/
def runClustering (s : Scoring K) (similarity : List K → List K → K) (env : MergeEnvironment K)
    (order : ResultOrder) (store : LogStore) (jobs : List JobStart) (f : WindowFilter)
    (baselineWindowStr : String) (maxClusters : ℤ) : Except WindowError (List (ClusterData K)) := do
  let clusters ← windowClusters s order store jobs f baselineWindowStr
  return (rankAndMergeClusters s similarity env clusters maxClusters none).1

end Raglogs.Clustering
