import Raglogs.ModelFiles
import Raglogs.SilentServices

/-!
The features of a service that the learned ranker reads: its error lines and its largest group
of them, its stack traces, the rate and the duration of its spans against the baseline, and the
greatest change of one of its metrics. A service that shows nothing is no row of the table.
-/

namespace Raglogs.Features

open Collections Dicts Grouping LogEntries ModelFiles Regex Regex.Pattern SilentServices
  SortedDicts Telemetry Text

/-- A small number that keeps a quotient finite. -/
def eps : ℚ := 1 / 1000000000

/-! Logs. -/

section Logs

variable (isWord : Char → Bool) (lowering : Lowering)

def nameChar (c : Char) : Bool := isWord c || c == '.' || c == '$'

/-- The marks that a stack trace begins with, in one of several languages. -/
def stackPattern : Pattern := anyOf [
  concat [ofChar '\n', .star space, lit "at", spaces, .char fun c => !isSpace c],
  concat [.boundary isWord, lit "at", space, plus (.char (nameChar isWord)), ofChar '(',
    .star (.char fun c => nameChar isWord c || c == ' '), ofChar ':', plus digit, ofChar ')'],
  lit "Traceback (most recent call last)",
  concat [ofChar '\n', .star space, lit "File \"", plus (.char fun c => c.toNat != 34),
    lit "\", line ", plus digit],
  concat [.boundary isWord, lit "panic:", space],
  concat [.boundary isWord, lit "goroutine", spaces, plus digit, spaces, ofChar '['],
  lit "Exception in thread",
  concat [lit "nested exception is ", plus (.char (nameChar isWord))]]

/-- The lines of a window that name a service, each with it. -/
def serviceLines (entries : List LogEntry) (incidentStart incidentEnd : Timestamp) :
    List (String × LogEntry) :=
  entries.filterMap fun e => do
    let service ← truthy e.service
    let ts ← e.timestamp
    if incidentStart ≤ ts ∧ ts ≤ incidentEnd then some (service, e) else none

def isErrorLine (e : LogEntry) : Bool := isErrorLevel lowering (e.level.getD "")

/-- The message of a line, as it came or as it was normalized. -/
def messageOf (e : LogEntry) : String :=
  (truthy e.rawMessage).getD (e.normalizedMessage.getD "")

def isStackLine (e : LogEntry) : Bool :=
  messageOf e != "" && (stackPattern isWord).isMatch (messageOf e)

structure LogFeatures where
  err : Counter String
  groups : Counter (String × Option String)
  stack : Counter String

/-- The error lines, also by fingerprint, and the stack traces of each service. -/
def logFeatures (entries : List LogEntry) (incidentStart incidentEnd : Timestamp) :
    LogFeatures :=
  let lines := serviceLines entries incidentStart incidentEnd
  let errors := lines.filter fun p => isErrorLine lowering p.2
  ⟨tally (errors.map Prod.fst), tally (errors.map fun p => (p.1, p.2.fingerprint)),
    tally ((lines.filter fun p => isStackLine isWord p.2).map Prod.fst)⟩

/-- The largest group of a service. -/
def LogFeatures.largestGroup (f : LogFeatures) (service : String) : ℕ :=
  (f.groups.keys.filter fun k => k.1 = service).sup (count f.groups)

end Logs

/-! Traces. -/

/-- The finite durations of the spans of a time, each with its service. -/
def durations (spans : List (TraceSpan (Exact ℚ))) (during : Timestamp → Bool) :
    List (String × ℚ) :=
  spans.filterMap fun sp => do
    let service ← truthy sp.service
    let ts ← sp.startTime
    match ← sp.durationMs with
    | .finite d => if during ts then some (service, d) else none
    | .nonFinite => none

/-- What a service has of some values. -/
def valuesOf {κ α : Type} [DecidableEq κ] (rows : List (κ × α)) (k : κ) : List α :=
  (rows.filter fun r => r.1 = k).map Prod.snd

/-- The value below which nineteen of twenty lie, between two of them; the greatest of a few. -/
def p95 (xs : List ℚ) : ℚ :=
  let sorted := sortOn id xs
  let n := sorted.length
  if n = 0 then 0
  else if 20 ≤ n then
    let j := max 1 (min (19 * (n + 1) / 20) (n - 1))
    let delta : ℚ := (19 * (n + 1) : ℕ) - (20 * j : ℕ)
    (sorted.getD (j - 1) 0 * (20 - delta) + sorted.getD j 0 * delta) / 20
  else sorted.getD (n - 1) 0

structure TraceFeatures where
  baseline : List (String × ℚ)
  incident : List (String × ℚ)
  pre : ℚ
  post : ℚ

def traceFeatures (spans : List (TraceSpan (Exact ℚ)))
    (baselineStart incidentStart incidentEnd : Timestamp) : TraceFeatures where
  baseline := durations spans fun ts => baselineStart ≤ ts && ts < incidentStart
  incident := durations spans fun ts => incidentStart ≤ ts && ts ≤ incidentEnd
  pre := flooredSeconds (K := Exact ℚ) baselineStart incidentStart
  post := flooredSeconds (K := Exact ℚ) incidentStart incidentEnd

/-- The services with a span in the incident. -/
def TraceFeatures.services (f : TraceFeatures) : Finset String := (f.incident.map Prod.fst).toFinset

/-- The rate of the spans against that of the baseline. -/
def TraceFeatures.rate (f : TraceFeatures) (service : String) : ℚ :=
  if service ∈ f.services then
    ((valuesOf f.incident service).length / f.post + eps) /
      ((valuesOf f.baseline service).length / f.pre + eps)
  else 0

/-- The duration of the spans against that of the baseline. -/
def TraceFeatures.duration (f : TraceFeatures) (service : String) : ℚ :=
  if service ∈ f.services then
    (p95 (valuesOf f.incident service) + 1) / (p95 (valuesOf f.baseline service) + 1)
  else 0

/-! Metrics. -/

section Metrics

variable (rd : Rendering)

/-- A series of one service. -/
abbrev SeriesKey := String × String × Option String

/-- The finite values of a time, each with its series. -/
def metricValues (samples : List (MetricSample ℚ)) (during : Timestamp → Bool) :
    List (SeriesKey × ℚ) :=
  samples.filterMap fun m => do
    let service ← truthy m.service
    let ts ← m.ts
    match ← m.value with
    | .finite v =>
        if during ts then some ((service, m.metric, seriesKey rd m.attributes), v) else none
    | .nonFinite => none

structure MetricFeatures where
  baseline : List (SeriesKey × ℚ)
  incident : List (SeriesKey × ℚ)

def metricFeatures (samples : List (MetricSample ℚ))
    (baselineStart incidentStart incidentEnd : Timestamp) : MetricFeatures where
  baseline := metricValues rd samples fun ts => baselineStart ≤ ts && ts < incidentStart
  incident := metricValues rd samples fun ts => incidentStart ≤ ts && ts ≤ incidentEnd

end Metrics

def average (xs : List ℚ) : ℚ := xs.sum / xs.length

/-- The series with values both before and during the incident. -/
def MetricFeatures.series (f : MetricFeatures) : Finset SeriesKey :=
  (f.baseline.map Prod.fst).toFinset ∩ (f.incident.map Prod.fst).toFinset

def MetricFeatures.services (f : MetricFeatures) : Finset String := f.series.image Prod.fst

/-- How far the mean of a series has moved. -/
def MetricFeatures.ratio (f : MetricFeatures) (k : SeriesKey) : ℚ :=
  let base := average (valuesOf f.baseline k)
  |average (valuesOf f.incident k) - base| / (|base| + eps)

/-- The greatest change of a series of a service. -/
def MetricFeatures.anomaly (f : MetricFeatures) (service : String) : ℚ :=
  (((f.series.filter fun k => k.1 = service).image f.ratio).max.unbotD 0)

/-! The table. -/

structure FeatureTable where
  services : List (ServiceFeatures ℚ)
  hasLogs : Bool
  hasTraces : Bool
  hasMetrics : Bool

/-- Merge the features into one table of the services that show anything. -/
def assembleFeatures (logs : LogFeatures) (traces : TraceFeatures) (metrics : MetricFeatures) :
    FeatureTable :=
  let hasLogs := decide (logs.err ≠ ∅)
  let hasTraces := decide (traces.services ≠ ∅)
  let hasMetrics := decide (metrics.services ≠ ∅)
  { services := (inOrder (logs.err.keys ∪ traces.services ∪ metrics.services)).map fun s =>
      { service := s
        logErr := count logs.err s
        logGrp := logs.largestGroup s
        logStack := count logs.stack s
        trRate := traces.rate s
        trDur := traces.duration s
        metAnom := metrics.anomaly s
        hasLogs := hasLogs
        hasTraces := hasTraces
        hasMetrics := hasMetrics }
    hasLogs := hasLogs
    hasTraces := hasTraces
    hasMetrics := hasMetrics }

section Table

variable (isWord : Char → Bool) (lowering : Lowering) (rd : Rendering)

/-- The feature table of a scope. -/
def computeFeatures (entries : List LogEntry) (spans : List (TraceSpan (Exact ℚ)))
    (samples : List (MetricSample ℚ)) (scope : String)
    (baselineStart incidentStart incidentEnd : Timestamp) : FeatureTable :=
  let logRows := entries.filter fun e =>
    e.scope == scope && e.timestamp.any fun t => incidentStart ≤ t && t ≤ incidentEnd
  let spanRows := spans.filter fun sp =>
    sp.scope == scope && sp.startTime.any fun t => baselineStart ≤ t && t ≤ incidentEnd
  let metricRows := samples.filter fun m =>
    m.scope == scope && m.ts.any fun t => baselineStart ≤ t && t ≤ incidentEnd
  assembleFeatures (logFeatures isWord lowering logRows incidentStart incidentEnd)
    (traceFeatures spanRows baselineStart incidentStart incidentEnd)
    (metricFeatures rd metricRows baselineStart incidentStart incidentEnd)

end Table

end Raglogs.Features
