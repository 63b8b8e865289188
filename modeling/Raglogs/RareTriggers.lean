import Raglogs.Clusters
import Raglogs.FailedEdges
import Raglogs.ServiceGraphs
import Raglogs.Shortlists
import Raglogs.TriggerScan

/-!
Triggers found by rarity. A fingerprint that its baseline does not have, or has far less often,
is a candidate if it shows up before the errors do, and so is a metric at the first point that
deviates from its baseline. All of them are shown, those first that the calls between services
link to the service with the errors.
-/

namespace Raglogs.RareTriggers

open Clusters Collections Dicts FailedEdges LogEntries ServiceGraphs Shortlists Telemetry Text
  TriggerScan Triggers

variable {K : Type} [Field K] [LinearOrder K]

/-- The seconds from one instant to another. -/
def secondsBetween (start stop : Timestamp) : K :=
  ((stop - start : ℤ) : K) / ((1000000 : ℕ) : K)

/-- The order in which the keys of dicts are gone through. -/
structure KeyOrder where
  toList : Counter String → List String
  nodup : ∀ d, (toList d).Nodup
  mem_toList : ∀ d k, k ∈ toList d ↔ k ∈ d

/-- The key with the greatest count, the first one among equals. -/
def greatestKey (keys : KeyOrder) (d : Counter String) : Option String :=
  (keys.toList d).maxOn? (count d)

structure RareTriggerCandidate (K : Type) where
  service : Option String
  fingerprint : String
  message : String
  firstSeen : Option Timestamp
  triggerType : String
  baselineCount : ℕ
  changeRatio : K
  score : K

/-- How far behind the onset a candidate may begin. -/
def onsetGrace : ℤ := 120 * 1000000

def maxCandidates : ℕ := 5

/-- A cluster that the baseline does not have, or that changed a lot. -/
def isRare (rareChangeRatio : K) (c : ClusterData K) : Bool :=
  c.baselineCount = 0 || rareChangeRatio ≤ c.changeRatio

/-- A cluster that begins too late to have set the errors off. -/
def isLate (onset : Option Timestamp) (c : ClusterData K) : Bool :=
  onset.any fun onset => c.firstSeen.any fun first => onset + onsetGrace < first

/-- Rarity, and the more of it the earlier the cluster begins. -/
def rareScore (log1p : K → K) (onset : Option Timestamp) (c : ClusterData K) : K :=
  let rarity : K := 1 / ((c.baselineCount : K) + 1)
  let earliness : K := match onset, c.firstSeen with
    | some onset, some first => log1p (max (secondsBetween first onset) 0)
    | _, _ => 0
  rarity * (1 + earliness)

def rareCandidate (keys : KeyOrder) (log1p : K → K) (onset : Option Timestamp)
    (c : ClusterData K) : RareTriggerCandidate K where
  service := greatestKey keys c.services
  fingerprint := c.fingerprint
  message := c.representativeMessage
  firstSeen := c.firstSeen
  triggerType := (inferTriggerType c.representativeMessage).getD "none"
  baselineCount := c.baselineCount
  changeRatio := c.changeRatio
  score := rareScore log1p onset c

/-- The strongest candidate first, the earlier one among equals; a missing time is the last. -/
def RareTriggerCandidate.rank (t : RareTriggerCandidate K) : K ×ₗ WithTop Timestamp :=
  toLex (-t.score, t.firstSeen)

/-- The rare clusters that begin before the errors do. -/
def rareEventCandidates (keys : KeyOrder) (log1p : K → K) (clusters : List (ClusterData K))
    (onset : Option Timestamp) (rareChangeRatio : K) : List (RareTriggerCandidate K) :=
  shortlist maxCandidates RareTriggerCandidate.rank
    ((clusters.filter fun c => isRare rareChangeRatio c && !isLate onset c).map
      (rareCandidate keys log1p onset))

/-! Metrics. -/

structure AnomalyOnset (K : Type) where
  service : Option String
  metric : String
  onset : Timestamp
  magnitude : K
  score : K

/-- What identifies a series of samples. -/
structure Series where
  service : Option String
  metric : String
  key : Option String
deriving DecidableEq

/-- The instrument that a series belongs to. -/
def Series.instrument (s : Series) : Option String × String := (s.service, s.metric)

def AnomalyOnset.instrument (o : AnomalyOnset K) : Option String × String := (o.service, o.metric)

/-- The time and the value of a sample that has both, the value a finite one. -/
def point (m : MetricSample K) : Option (Timestamp × K) :=
  match m.ts, m.value with
  | some ts, some (.finite value) => some (ts, value)
  | _, _ => none

section Onsets

variable (rd : Rendering) (log1p sqrt : K → K)

def seriesOf (m : MetricSample K) : Series := ⟨m.service, m.metric, seriesKey rd m.attributes⟩

/-- The points of the samples, each with its series. -/
def points (samples : List (MetricSample K)) : List (Series × Timestamp × K) :=
  samples.filterMap fun m => (point m).map fun p => (seriesOf rd m, p)

def average (xs : List K) : K := xs.sum / (xs.length : K)

/-- The deviation of a whole population from its mean. -/
def pstdev (xs : List K) : K := sqrt (average (xs.map fun x => (x - average xs) ^ 2))

/-- What the deviation from a flat baseline is measured by. -/
def flatUnit (mean : K) : K := if mean = 0 then 1 else |mean|

def minBaseline : ℕ := 3

/-- More than three deviations of the baseline, or more than half of a flat one. -/
def isAnomalous (base : List K) (value : K) : Bool :=
  let dev := |value - average base|
  if 0 < pstdev sqrt base then ((3 : ℕ) : K) ≤ dev / pstdev sqrt base
  else 1 / ((2 : ℕ) : K) * flatUnit (average base) < dev

def magnitude (base : List K) (value : K) : K :=
  let dev := |value - average base|
  if 0 < pstdev sqrt base then dev / pstdev sqrt base else dev / flatUnit (average base)

/-- The first point of a series that is anomalous. -/
def firstAnomaly (base : List K) (incident : List (Timestamp × K)) : Option (Timestamp × K) :=
  (sortOn Prod.fst incident).find? fun p => isAnomalous sqrt base p.2

def onsetAt (incidentEnd : Timestamp) (s : Series) (base : List K) (p : Timestamp × K) :
    AnomalyOnset K where
  service := s.service
  metric := s.metric
  onset := p.1
  magnitude := magnitude sqrt base p.2
  score := magnitude sqrt base p.2 * log1p (max (secondsBetween p.1 incidentEnd) 0)

/-- The points of a series in the window of the incident. -/
def incidentPoints (samples : List (MetricSample K)) (incidentStart incidentEnd : Timestamp)
    (s : Series) : List (Timestamp × K) :=
  ((points rd samples).filter fun q =>
    q.1 = s ∧ incidentStart ≤ q.2.1 ∧ q.2.1 ≤ incidentEnd).map Prod.snd

/-- The onset of a series, given its baseline. -/
def seriesOnset (samples : List (MetricSample K)) (incidentStart incidentEnd : Timestamp)
    (s : Series) (base : List K) : Option (AnomalyOnset K) :=
  if base.length < minBaseline then none
  else (firstAnomaly sqrt base (incidentPoints rd samples incidentStart incidentEnd s)).map
    (onsetAt log1p sqrt incidentEnd s base)

/-- The series with points before the incident, each with the values there. -/
def baselines (samples : List (MetricSample K)) (incidentStart : Timestamp) :
    List (Series × List K) :=
  (groupOn Prod.fst ((points rd samples).filter fun q => q.2.1 < incidentStart)).map fun g =>
    (g.1, g.2.map fun q => q.2.2)

/-- The strongest onset first, the earlier one among equals. -/
def AnomalyOnset.rank (o : AnomalyOnset K) : K ×ₗ Timestamp := toLex (-o.score, o.onset)

def strongestOf : List (AnomalyOnset K) → Option (AnomalyOnset K)
  | [] => none
  | o :: others => some (minOn AnomalyOnset.rank o others)

/-- The strongest onset of each instrument. -/
def strongest (onsets : List (AnomalyOnset K)) : List (AnomalyOnset K) :=
  (groupOn AnomalyOnset.instrument onsets).filterMap fun g => strongestOf g.2

/-- At most one onset of each instrument, the strongest ones. -/
def metricAnomalyOnsets (samples : List (MetricSample K))
    (incidentStart incidentEnd : Timestamp) : List (AnomalyOnset K) :=
  shortlist maxCandidates AnomalyOnset.rank
    (strongest ((baselines rd samples incidentStart).filterMap fun b =>
      seriesOnset rd log1p sqrt samples incidentStart incidentEnd b.1 b.2))

/-- The onsets in a window of a scope, against a baseline as long as the window. -/
def metricOnsets (samples : List (MetricSample K)) (scope : String)
    (windowStart windowEnd : Timestamp) : List (AnomalyOnset K) :=
  metricAnomalyOnsets rd log1p sqrt
    (samples.filter fun m => m.scope == scope && m.ts.any fun ts =>
      windowStart - (windowEnd - windowStart) ≤ ts && ts ≤ windowEnd) windowStart windowEnd

end Onsets

/-! Linkage. -/

/-- The service that a trigger must be linked to. -/
def primaryService (keys : KeyOrder) (primary : ClusterData K) : Option String :=
  greatestKey keys
    (if primary.errorServiceCounts = ∅ then primary.services else primary.errorServiceCounts)

/-- Whether a service is linked to the one with the errors. -/
def isLinked (order : SetOrder) (g : TraceGraph) (root service : Option String) : Bool :=
  match truthy service, truthy root with
  | some service, some root => (linked order g.toServiceGraph service root).getD false
  | _, _ => false

/-- What triggers by rarity are found from. -/
structure RareEnvironment (K : Type) where
  keys : KeyOrder
  order : SetOrder
  rd : Rendering
  log1p : K → K
  sqrt : K → K
  rareChangeRatio : K

structure FoundTriggers where
  candidates : List TriggerCandidate
  triggerFound : Bool
  triggerExplains : Bool

def noTriggers : FoundTriggers := ⟨[], false, false⟩

def rareShown (onset : Timestamp) (r : RareTriggerCandidate K) : TriggerCandidate :=
  ⟨r.message, some (r.firstSeen.getD onset), r.service⟩

def onsetShown (o : AnomalyOnset K) : TriggerCandidate :=
  ⟨o.metric ++ " anomaly onset", some o.onset, o.service⟩

/-- The rare events of a scope, unless there are no errors that they could have set off. -/
def scoredTriggers (env : RareEnvironment K) (samples : List (MetricSample K))
    (clusters : List (ClusterData K)) (primary : Option (ClusterData K))
    (windowStart windowEnd : Timestamp) (scope : String) : List TriggerCandidate :=
  match primary, primary.bind ClusterData.firstSeen with
  | some primary, some onset =>
      (rareEventCandidates env.keys env.log1p (clusters.erase primary) (some onset)
        env.rareChangeRatio).map (rareShown onset) ++
      (metricOnsets env.rd env.log1p env.sqrt samples scope windowStart windowEnd).map onsetShown
  | _, _ => []

variable {S : Type}

/-- Whether a candidate is linked to the service with the errors. -/
def links (env : RareEnvironment K) (spans : List (TraceSpan S))
    (primary : Option (ClusterData K)) (windowStart windowEnd : Timestamp) (scope : String)
    (t : TriggerCandidate) : Bool :=
  isLinked env.order (traceGraphFromSpans (spansInWindow spans scope windowStart windowEnd))
    (primary.bind (primaryService env.keys)) t.service

/-- All of them are shown, the linked ones first. -/
def rareEventTriggers (env : RareEnvironment K) (samples : List (MetricSample K))
    (spans : List (TraceSpan S)) (clusters : List (ClusterData K))
    (primary : Option (ClusterData K)) (windowStart windowEnd : Timestamp) (scope : String) :
    FoundTriggers :=
  let scored := scoredTriggers env samples clusters primary windowStart windowEnd scope
  let linked := links env spans primary windowStart windowEnd scope
  if scored = [] then noTriggers
  else ⟨sortOn (fun t => if linked t then 0 else 1) scored, true, scored.any linked⟩

end Raglogs.RareTriggers
