import Raglogs.Candidates
import Raglogs.Clustering
import Raglogs.RareTriggers
import Raglogs.Wording

/-!
The evidence for one explanation: the primary cluster, its side effects, the triggers, and a
sentence for each of what they tell. Triggers are found by their wording, or by their rarity.
-/

namespace Raglogs.EvidencePackets

open Clustering Clusters Collections Dicts Durations LogEntries Ranking RareTriggers Regex
  Regex.Pattern RootCause SortedDicts Telemetry Text TriggerScan Wording

/-- How values are written out. -/
structure Formats where
  isWord : Char → Bool
  lowering : Lowering
  keys : KeyOrder
  /-- A number with some digits behind the point. -/
  fixed : ℕ → ℚ → String
  /-- The time of day of an instant. -/
  clock : Timestamp → String
  /-- The day and the time of an instant, in a zone. -/
  stamp : Zone → Timestamp → String
  /-- The zones of the window that is told of. -/
  zones : Zones
  isoformat : Timestamp → String
  round2 : ℚ → ℚ

structure EvidencePacket where
  windowStart : Timestamp
  windowEnd : Timestamp
  totalLogs : ℕ
  primaryCluster : Option (ClusterData ℚ)
  secondaryClusters : List (ClusterData ℚ)
  triggerCandidates : List TriggerCandidate
  evidenceItems : List String
  servicesAffected : List String
  candidateServices : List String
  triggerFound : Option Bool
  triggerExplains : Option Bool

section Sentences

variable (f : Formats)

def servicesStr (c : ClusterData ℚ) : String :=
  match f.keys.toList c.services with
  | [] => "unknown service"
  | [service] => service
  | services => ", ".intercalate (services.take 3) ++ if 3 < services.length then "..." else ""

def countItem (primary : ClusterData ℚ) : String :=
  toString primary.count ++ " similar failures in " ++ servicesStr f primary

def baselineItem (primary : ClusterData ℚ) : String :=
  if primary.baselineCount = 0 then "Not observed in prior 24h baseline"
  else if 10 < primary.changeRatio then
    "Count increased " ++ f.fixed 0 primary.changeRatio ++ "x vs baseline (" ++
      toString primary.baselineCount ++ " prior events)"
  else
    "Baseline had " ++ toString primary.baselineCount ++ " similar events (change ratio: " ++
      f.fixed 1 primary.changeRatio ++ "x)"

/-- How long after the first trigger the errors begin, within half an hour. -/
def timingItem (primary : ClusterData ℚ) (triggers : List TriggerCandidate) : Option String := do
  let first ← primary.firstSeen
  let trigger ← triggers.head?
  let timestamp ← trigger.timestamp
  let minutes := (first - timestamp).tdiv 60000000
  if 0 ≤ minutes ∧ minutes ≤ 30 then
    some ("First error spike occurred " ++ toString minutes ++ "m after " ++
      f.lowering.lower (trunc trigger.message 50))
  else none

/-- The path that the primary message names. -/
def endpointItem (primary : ClusterData ℚ) : Option String :=
  ((Pattern.seq (ofChar '/') nonSpaces).search primary.representativeMessage).map fun found =>
    "Endpoint '" ++ found.1.between found.2.cursor ++ "' appears in the primary error cluster"

def queuePattern : Pattern :=
  concat [.group "1" (plus digit), spaces, exact "event", opt (exact "s"), spaces, exact "pending"]

def serverErrorPattern : Pattern :=
  concat [.boundary f.isWord, ofChar '5', digit, digit, .boundary f.isWord]

/-- What another cluster tells about the effects of the primary one. -/
def secondaryItem (primary sec : ClusterData ℚ) : String :=
  let svc := servicesStr f sec
  let msg := trunc sec.representativeMessage 60
  match queuePattern.search sec.representativeMessage with
  | some found =>
      "Queue depth grew to " ++ (found.2.named "1").getD "" ++ " pending items in " ++ svc ++
        " (observed in " ++ toString sec.count ++ " log " ++ events sec.count ++ ")"
  | none =>
      if sec.firstSeen.any fun t => primary.firstSeen.any fun u => u ≤ t then
        if (serverErrorPattern f).isMatch msg || occursIn (f.lowering.lower msg) "error" then
          toString sec.count ++ " 5xx/error responses in " ++ svc ++
            " started after the primary failure spike"
        else if occursIn (f.lowering.lower msg) "latency" then
          toString sec.count ++ " elevated-latency responses in " ++ svc ++
            " followed the same period"
        else
          toString sec.count ++ " '" ++ msg ++ "' events in " ++ svc ++ " (started after primary)"
      else "Related: " ++ toString sec.count ++ " '" ++ msg ++ "' events in " ++ svc

def buildEvidenceItems (primary : Option (ClusterData ℚ)) (secondary : List (ClusterData ℚ))
    (triggers : List TriggerCandidate) (totalLogs : ℕ) (maxItems : ℤ) : List String :=
  match primary with
  | none =>
      ["Total logs in window: " ++ toString totalLogs, "No significant error clusters detected"]
  | some primary =>
      let items := [countItem f primary, baselineItem f primary] ++
        (timingItem f primary triggers).toList ++ (endpointItem primary).toList ++
        (secondary.take 3).map (secondaryItem f primary)
      items.take (sliceStop maxItems items.length)

end Sentences

/-- The rows that an analysis reads. -/
structure Store where
  logs : LogStore
  jobs : List JobStart
  spans : List (TraceSpan (Exact ℚ))
  samples : List (MetricSample ℚ)

/-- What an explanation raises. -/
inductive ExplainError
  | window (e : WindowError)
  | outOfRange
  | message
  | rank (e : Candidates.RankError)
deriving DecidableEq

/-- What the evidence depends on besides the rows. -/
structure EvidenceEnvironment where
  formats : Formats
  loads : String → Except String Json
  log : ℚ → ℚ
  weights : RcaWeights ℚ
  triggerMode : String
  lookbackMinutes : ℤ
  rare : RareEnvironment ℚ

variable (env : EvidenceEnvironment) (store : Store)

/-- The lines of a window. The environment is not asked for. -/
def countLogsInWindow (f : WindowFilter) : ℕ :=
  store.logs.entries.countP fun e =>
    e.timestamp.any (fun t => f.windowStart ≤ t && t ≤ f.windowEnd) && e.scope == f.scope &&
      (match truthy f.service with
        | some service => e.service == some service
        | none => true) &&
      (match f.ingestionJobId with
        | some job => e.ingestionJobId == some job
        | none => true)

/-- The triggers by their wording. The causal ones are searched up to the onset. -/
def regexTriggers (f : WindowFilter) (onset : Option Timestamp) :
    Except ExplainError (List TriggerCandidate) :=
  if h : firstInstant ≤ f.windowStart - env.lookbackMinutes * 60000000 then
    match findTriggerCandidates env.loads store.logs
        ⟨f.windowStart, f.windowEnd, env.lookbackMinutes, f.ingestionJobId, f.scope, h⟩ onset with
    | some triggers => .ok triggers
    | none => .error .message
  else .error .outOfRange

/-- The services of some clusters. -/
def servicesIn (clusters : List (ClusterData ℚ)) : List String :=
  inOrder (clusters.foldr (fun c services => c.services.keys ∪ services) ∅)

/-- The other significant clusters, the largest first. -/
def secondaryClusters (primary : Option (ClusterData ℚ)) (significant : List (ClusterData ℚ)) :
    List (ClusterData ℚ) :=
  let others := match primary with
    | some primary => significant.erase primary
    | none => significant
  (sortDown ClusterData.count others).take 4

/-- The triggers, and what is said of those that are found by their rarity. -/
def triggersIn (f : WindowFilter) (clusters : List (ClusterData ℚ))
    (primary : Option (ClusterData ℚ)) :
    Except ExplainError (List TriggerCandidate × Option Bool × Option Bool) :=
  if env.triggerMode = "rare_event" then
    let rare := rareEventTriggers env.rare store.samples store.spans clusters primary
      f.windowStart f.windowEnd f.scope
    .ok (rare.candidates, some rare.triggerFound, some rare.triggerExplains)
  else
    (regexTriggers env store f (primary.bind ClusterData.firstSeen)).map fun triggers =>
      (triggers, none, none)

/-- Assemble the evidence of a window from its clusters. -/
def assembleEvidence (f : WindowFilter) (clusters : List (ClusterData ℚ)) (maxEvidenceItems : ℤ) :
    Except ExplainError EvidencePacket := do
  let totalLogs := countLogsInWindow store f
  let significant := selectSignificantClusters clusters
  let primary := selectPrimaryCluster ⟨env.log, env.weights, some f.windowStart,
    some f.windowEnd⟩ significant
  let secondary := secondaryClusters primary significant
  let (triggers, found, explains) ← triggersIn env store f clusters primary
  return {
    windowStart := f.windowStart
    windowEnd := f.windowEnd
    totalLogs := totalLogs
    primaryCluster := primary
    secondaryClusters := secondary
    triggerCandidates := triggers
    evidenceItems := buildEvidenceItems env.formats primary secondary triggers totalLogs
      maxEvidenceItems
    servicesAffected := servicesIn clusters
    candidateServices := servicesIn significant
    triggerFound := found
    triggerExplains := explains }

end Raglogs.EvidencePackets
