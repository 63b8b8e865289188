import Raglogs.StructuralSignals

/-!
Utilization of resources. A metric's name gives the resource and the instrument that it
must be; a metric is measured only if all of its samples are identified, each by a named
instance and all by one datapoint signature. Each instance is a series of its own.
-/

namespace Raglogs.Utilization

open Collections Dicts LogEntries SortedDicts StructuralSignals Telemetry Text

inductive Instrument
  | gauge
  | counter
deriving DecidableEq

def Instrument.value : Instrument → String
  | .gauge => "gauge"
  | .counter => "counter"

def selfTelemetryPrefixes : List String := ["otel.sdk.", "otelcol"]

def startsWith (s start : String) : Bool := start.toList.isPrefixOf s.toList

def endsWith (s stop : String) : Bool := stop.toList.isSuffixOf s.toList

/-- The segments of a dotted name. -/
def segments (s : String) : List String := (s.toList.splitOn '.').map String.ofList

/-- The resource of a metric and the instrument that it must be, by the shape of its name. -/
def utilMetricClass (metric : String) : Option (String × Instrument) :=
  if metric = "" ∨ selfTelemetryPrefixes.any (startsWith metric) then none
  else
    match (segments metric).reverse with
    | last :: resource :: _ =>
        if endsWith last "utilization" then some (resource, .gauge)
        else if endsWith metric ".cpu.time" then some ("cpu", .counter)
        else none
    | _ => if endsWith metric ".cpu.time" then some ("cpu", .counter) else none

/-- A null or empty metric type is a gauge. -/
def instrument (metricType : Option String) : String := (truthy metricType).getD "gauge"

/-- What one metric says of a resource. -/
structure MetricResult (K : Type) where
  state : Option SigState
  ratio : K
  measured : Bool

section Reducer

variable {K : Type} [Arithmetic K] (rd : Rendering) (windowStart : Timestamp)

def unmeasured : MetricResult K := ⟨none, 1, false⟩

/-- Growth for each second, over points in the order of time. -/
def counterRate (points : List (Timestamp × K)) : Option K :=
  match points.head?, points.getLast? with
  | some first, some last =>
      if points.length < 2 then none
      else
        let dt : K := Arithmetic.seconds (last.1 - first.1)
        if 0 < dt then some ((last.2 - first.2) / dt) else none
  | _, _ => none

/-- No value is less than the one before it. -/
def noReset : List (Timestamp × K) → Bool
  | a :: b :: rest => decide (a.2 ≤ b.2) && noReset (b :: rest)
  | _ => true

/-- The incident/baseline ratio of a series in the order of time. -/
def ratioOfPoints (required : Instrument) (points : List (Timestamp × K)) : Option K :=
  let base := points.filter (fun p => p.1 < windowStart)
  let inc := points.filter (fun p => windowStart ≤ p.1)
  if (points.map Prod.fst).Nodup ∧ base ≠ [] ∧ inc ≠ [] then
    match required with
    | .gauge =>
        let bmean := mean (base.map Prod.snd)
        if 0 < bmean then some (mean (inc.map Prod.snd) / bmean) else none
    | .counter =>
        match counterRate base, counterRate inc with
        | some rb, some ri => if noReset points ∧ 0 < rb then some (ri / rb) else none
        | _, _ => none
  else none

/-- The ratio of one series, when its values are well-formed and its times distinct. -/
def seriesRatioOf (required : Instrument) (points : List (Timestamp × Number K)) : Option K :=
  let values := (sortOn Prod.fst points).mapM (fun p : Timestamp × Number K =>
    p.2.nonneg?.map (fun x => (p.1, x)))
  values.bind (ratioOfPoints windowStart required)

/-- One fully identified series. -/
def measureSeries (required : Instrument) (points : List (Timestamp × Number K)) :
    Except ModelError (MetricResult K) :=
  match seriesRatioOf windowStart required points with
  | some ratio => do
      let high ← isHighRatio ratio
      return ⟨some (if high then .present else .absent), ratio, true⟩
  | none => .ok unmeasured

/-- All samples are identified, name an instance, share one signature, and are of the
instrument that the reducer needs. -/
def identified (required : Instrument) (rows : List (Reading K)) : Bool :=
  rows.all (fun r => r.attributes.isSome && (instanceIdentity rd r.attributes).isSome) &&
    (fromKeys (rows.map (fun r => datapointSignature rd r.attributes))).length == 1 &&
    rows.all (fun r => instrument r.metricType == required.value)

/-- The points of each named instance, sorted by instance. -/
def byInstance (rows : List (Reading K)) : List (List (Timestamp × Number K)) :=
  (sortOn Prod.fst (groupOn Prod.fst (rows.filterMap (fun r =>
    (instanceIdentity rd r.attributes).map (fun i => (i, (r.ts, r.value))))))).map
      (fun group => group.2.map Prod.snd)

/-- The verdict on the instances of a metric: the most saturated one if any is, normal if
all are measured. -/
def conclude (results : List (MetricResult K)) : MetricResult K :=
  match results.filter (fun x => x.state == some .present) with
  | hit :: others => largestOn MetricResult.ratio hit others
  | [] =>
      if !results.isEmpty && results.all MetricResult.measured then
        ⟨some .absent, maxOr 1 (results.map MetricResult.ratio), true⟩
      else unmeasured

/-- One metric of a service. -/
def measureMetric (required : Instrument) (rows : List (Reading K)) :
    Except ModelError (MetricResult K) :=
  if identified rd required rows then do
    let results ← (byInstance rd rows).mapM (measureSeries windowStart required)
    return conclude results
  else .ok unmeasured

/-- The readings of utilization metrics. -/
def utilReadings (samples : List (MetricSample K)) : List (Reading K) :=
  (readings samples).filter (fun r => (utilMetricClass r.metric).isSome)

/-- The rows of each metric of a service, with its resource and instrument. -/
def metricGroups (samples : List (MetricSample K)) :
    List (((String × String) × List (Reading K)) × (String × Instrument)) :=
  (groupOn (fun r => (r.service, r.metric)) (utilReadings samples)).filterMap (fun group =>
    (utilMetricClass group.1.2).map (fun cls => (group, cls)))

/-- What each metric of a service says, under the service and the resource. -/
def metricResults (samples : List (MetricSample K)) :
    Except ModelError (List (Pair × MetricResult K)) :=
  (metricGroups samples).mapM (fun p => do
    let result ← measureMetric rd windowStart p.2.2 p.1.2
    return (toLex (p.1.1.1, p.2.1), result))

/-- The signal of a resource, from its witness metric. -/
def utilSignal (results : List (Pair × MetricResult K)) (key : Pair) : Option (UtilSignal K) :=
  (witness MetricResult.state ((results.filter (fun p => p.1 = key)).map Prod.snd)).map (fun w => {
    service := (ofLex key).1
    resource := (ofLex key).2
    ratio := w.ratio
    measured := w.measured
    sigState := w.state })

/-- The signals of resources. -/
def summarizeUtilization (samples : List (MetricSample K)) :
    Except ModelError (Dict Pair (UtilSignal K)) := do
  let results ← metricResults rd windowStart samples
  let keys := inOrder (results.map Prod.fst).toFinset
  return dictOf (keys.filterMap (fun key => (utilSignal results key).map (fun u => (key, u))))

end Reducer

end Raglogs.Utilization
