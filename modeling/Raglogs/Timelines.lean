import Raglogs.ClusterTotals
import Raglogs.Differ
import Raglogs.ExplainRoute

/-!
The timeline of an incident: what may have set it off, the primary error, and behind it the
effects. An effect is never told before the error, the worse ones come first, and the lines that
only repeat an attempt are one event.
-/

namespace Raglogs.Timelines

open Clustering Clusters Collections Dicts Durations EvidencePackets ExplainRoute
  ExplainSchema Explanations LogEntries QueryOverrides Scopes SummaryTexts Text TriggerScan Wording

open Timestamps (DateTime)

inductive Category
  | deploy
  | startup
  | trigger
  | error
  | effect
  | symptom
deriving DecidableEq

def Category.text : Category → String
  | .deploy => "deploy"
  | .startup => "startup"
  | .trigger => "trigger"
  | .error => "error"
  | .effect => "effect"
  | .symptom => "symptom"

/-- The place of an event behind the error. -/
def Category.severity : Category → ℕ
  | .error => 0
  | .symptom => 2
  | _ => 1

structure TimelineEvent where
  timestamp : Timestamp
  category : Category
  label : String
  description : String
  count : Option ℕ
  services : List String
  durationMinutes : Option ℤ

section Building

variable (f : Formats)

def classifyTrigger (message : String) : Category :=
  if mentions f.lowering ["deploy", "release", "rollout", "pushed", "promote"] message then .deploy
  else if mentions f.lowering ["started", "starting", "boot", "launch", "listening", "port"]
      message then .startup
  else .trigger

/-- The whole minutes that a cluster lasts, if there is one. -/
def duration (c : ClusterData ℚ) : Option ℤ := do
  let first ← c.firstSeen
  let last ← c.lastSeen
  let minutes := (last - first).tdiv 60000000
  if 0 < minutes then some minutes else none

def triggerEvent (t : TriggerCandidate) : Option TimelineEvent :=
  t.timestamp.map fun timestamp =>
    let category := classifyTrigger f t.message
    { timestamp := timestamp
      category := category
      label := category.text
      description := trunc t.message 100
      count := none
      services := (truthy t.service).toList
      durationMinutes := none }

def errorEvent (c : ClusterData ℚ) : Option TimelineEvent :=
  c.firstSeen.map fun first =>
    { timestamp := first
      category := .error
      label := "error ↑"
      description := trunc c.representativeMessage 100
      count := some c.count
      services := f.keys.toList c.services
      durationMinutes := duration c }

/-- Not before the error. -/
def behind (error : Option TimelineEvent) (t : Timestamp) : Timestamp :=
  match error with
  | some e => max t e.timestamp
  | none => t

def total (clusters : List (ClusterData ℚ)) : ℕ := (clusters.map ClusterData.count).sum

/-- The place of an effect among those of its category. -/
def effectSeverityFromDesc (description : String) : ℕ :=
  if mentions f.lowering ["500", "error", "fail"] description then 0
  else if mentions f.lowering ["latency", "slow", "timeout"] description then 1
  else 2

def effectKey (e : TimelineEvent) : ℕ ×ₗ (ℕ ×ₗ Timestamp) :=
  toLex (e.category.severity, toLex (effectSeverityFromDesc f e.description, e.timestamp))

def failure (packet : EvidencePacket) : Option TimelineEvent :=
  packet.primaryCluster.bind (errorEvent f)

end Building

/-! The route. -/

structure TimelineRequest where
  since : Option String
  fromTime : Option DateTime
  toTime : Option DateTime
  service : Option String
  env : Option String
  allIngestions : Bool
  ingestionJobId : Option String
  asText : Bool
  scope : Option String
  overrides : OverrideInput

/-- The columns by which the latest job is found. -/
structure IngestionJob where
  id : ℕ
  status : String
  finishedAt : Option Timestamp
  scope : String

/-- The job of a scope that was completed last; one without a time goes first. -/
def getLatestIngestionJobId (jobs : List IngestionJob) (scope : String) : Option ℕ :=
  ((sortOn (fun j : IngestionJob => (j.finishedAt.elim ⊥ fun t => ↑(-t) : WithBot ℤ))
    (jobs.filter fun j => j.status == "completed" && j.scope == scope)).head?).map IngestionJob.id

/-- A request as it arrives, with the rows and the jobs that it finds. -/
structure TimelineArrival where
  request : TimelineRequest
  queryScope : Option String
  principal : Option AuthPrincipal
  now : Timestamp
  store : Store
  jobs : List IngestionJob

/-- An event of a body. -/
structure TimelineEventModel where
  timestamp : String
  category : String
  label : String
  description : String
  count : Option ℕ
  services : List String
  durationMinutes : Option ℤ

structure TimelineResponse where
  schemaVersion : String
  scope : String
  window : TimeBounds
  events : List TimelineEventModel
  llm : LlmProvenance
  ingestionJobId : Option String
  allIngestions : Bool
  renderedText : Option String

variable (server : Server)

def eventToModel (e : TimelineEvent) : TimelineEventModel where
  timestamp := server.runtime.isoformat 0 e.timestamp
  category := e.category.text
  label := e.label
  description := e.description
  count := e.count
  services := e.services
  durationMinutes := e.durationMinutes

section Plain

variable (f : Formats)

def padRight (width : ℕ) (s : String) : String :=
  s ++ String.ofList (List.replicate (width - s.length) ' ')

end Plain

/-- What a request asks for, once it is settled. -/
structure TimelineAsk where
  filter : WindowFilter
  zones : Zones
  overrides : ResolvedOverrides

/-- Settle the scope, the overrides, the window and the job of a request. -/
def settleTimeline (a : TimelineArrival) : Except (RouteError ExplainFailure) TimelineAsk := do
  let r := a.request
  let scope ← (bindRequestScope server.authEnabled a.principal a.queryScope r.scope).mapError .scope
  let overrides ← (resolveQueryOverrides server.runtime.lowering server.repr r.overrides
    (a.principal.bind AuthPrincipal.configJson) server.runtime.settings
    server.authEnabled).mapError .overrides
  let window ← (resolveWindow server.runtime.lowering a.now r.since
    (r.fromTime.map DateTime.instant) (r.toTime.map DateTime.instant)).mapError .window
  let asked ← parseJob server r.ingestionJobId
  let job := if asked.isNone && !r.allIngestions then getLatestIngestionJobId a.jobs scope
    else asked
  return ⟨⟨window.start, window.stop, scope, r.service, r.env, job⟩,
    resolveZones r.since r.fromTime r.toTime, overrides⟩

end Raglogs.Timelines
