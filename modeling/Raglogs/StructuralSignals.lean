import Raglogs.Observables
import Raglogs.SortedDicts
import Raglogs.Telemetry
import Mathlib.Data.Prod.Lex

/-!
The signals of the structural model. Each reducer summarizes the rows of a service, of a
call edge or of a resource into a rate or a ratio, where one was measured, and a state
with three values: present, absent, or none when neither was proven.
-/

namespace Raglogs.StructuralSignals

open Collections Dicts LogEntries Observables SortedDicts Telemetry Text

/-- What the structural model raises. -/
inductive ModelError
  | unorderable
  | notFinite (name : String)
  | notInRange (name : String)
  | duplicateExpectation (observableId : String)
  | emptyLocalization (id : String)
  | structural (e : StructuralError)
deriving DecidableEq

inductive SigState
  | present
  | absent
deriving DecidableEq

def SigState.value : SigState → String
  | .present => "present"
  | .absent => "absent"

inductive Band
  | high
  | low
  | normal
deriving DecidableEq

section Discretizing

variable {K : Type} [Arithmetic K]

/-- The presence that an error rate stands for. -/
def discretizeRate (rate : K) : Except ModelError SigState :=
  let cutoff : K := ((1 : ℕ) : K) / ((20 : ℕ) : K)
  if Arithmetic.isFinite rate = false then .error (.notFinite "rate")
  else if ¬(0 ≤ rate ∧ rate ≤ 1) then .error (.notInRange "rate")
  else if cutoff ≤ rate then .ok .present
  else .ok .absent

/-- The band of an incident/baseline multiplier. -/
def discretizeRatio (ratio : K) : Except ModelError Band :=
  let high : K := ((2 : ℕ) : K)
  let low : K := ((1 : ℕ) : K) / ((2 : ℕ) : K)
  if Arithmetic.isFinite ratio = false then .error (.notFinite "ratio")
  else if ¬0 ≤ ratio then .error (.notInRange "ratio")
  else if high ≤ ratio then .ok .high
  else if ratio ≤ low then .ok .low
  else .ok .normal

/-- Whether a measured rate is one of errors; a rate that was not measured is not asked. -/
def isErrorRate (rate : K) : Except ModelError Bool := do
  let state ← discretizeRate rate
  return state == .present

def isHighRatio (ratio : K) : Except ModelError Bool := do
  let band ← discretizeRatio ratio
  return band == .high

/-- The verdict on a value, if there is one. -/
def onMeasured (judge : K → Except ModelError Bool) : Option K → Except ModelError Bool
  | some x => judge x
  | none => .ok false

end Discretizing

inductive StatusClass
  | ok
  | error
deriving DecidableEq

/-- The class of an explicit status; an unset, null or unknown one has none. -/
def statusClass (rd : Rendering) (status : Option String) : Option StatusClass :=
  status.bind (fun status =>
    let s := rd.lowering.lower (strip status)
    if ["2", "error", "status_code_error"].contains s then some .error
    else if ["1", "ok", "status_code_ok"].contains s then some .ok
    else none)

/-- Two names, ordered as a tuple is. -/
abbrev Pair := String ×ₗ String

/-- The two branches of a signal and what they prove together. -/
structure Measurement (K : Type) where
  errorRate : K
  latencyRatio : K
  errorMeasured : Bool
  latencyMeasured : Bool
  sigState : Option SigState

structure ServiceSignal (K : Type) extends Measurement K where
  service : String

/-- A call edge, measured on the caller's spans. -/
structure EdgeSignal (K : Type) extends Measurement K where
  caller : String
  callee : String

structure UtilSignal (K : Type) where
  service : String
  resource : String
  ratio : K
  measured : Bool
  sigState : Option SigState

def edgeObservableId (caller callee : String) : String := "edge:" ++ caller ++ "->" ++ callee

def EdgeSignal.id {K : Type} (e : EdgeSignal K) : String := edgeObservableId e.caller e.callee

def utilObservableId (service resource : String) : String := "util:" ++ service ++ ":" ++ resource

def UtilSignal.id {K : Type} (u : UtilSignal K) : String := utilObservableId u.service u.resource

/-- A measured anomaly is present, two measured and normal branches are absent. -/
def sigStateOf (errorPresent latencyHigh errorMeasured latencyMeasured : Bool) : Option SigState :=
  if errorPresent || latencyHigh then some .present
  else if errorMeasured && latencyMeasured then some .absent
  else none

section Reducers

variable {K : Type} [Arithmetic K] (rd : Rendering) (windowStart : Timestamp)

/-! Spans. -/

def validDuration (duration : Option (Number K)) : Option K := duration.bind Number.nonneg?

def isIncident (sp : TraceSpan K) : Bool := sp.startTime.any (fun ts => windowStart ≤ ts)

def isBaseline (sp : TraceSpan K) : Bool := sp.startTime.any (fun ts => ts < windowStart)

/-- What is accumulated for one key: explicit statuses of incident spans, and the valid
durations of both halves. A span without a start time is in neither half. -/
structure SpanTally (K : Type) where
  ok : ℕ
  err : ℕ
  incidentDurations : List K
  baselineDurations : List K

def tallySpans (spans : List (TraceSpan K)) : SpanTally K :=
  let incident := spans.filter (isIncident windowStart)
  let baseline := spans.filter (isBaseline windowStart)
  { ok := incident.countP (fun sp => statusClass rd sp.statusCode == some .ok)
    err := incident.countP (fun sp => statusClass rd sp.statusCode == some .error)
    incidentDurations := incident.filterMap (fun sp => validDuration sp.durationMs)
    baselineDurations := baseline.filterMap (fun sp => validDuration sp.durationMs) }

/-- The error rate, over explicit statuses only. -/
def SpanTally.rate (t : SpanTally K) : Option K :=
  if 0 < t.ok + t.err then some ((t.err : K) / ((t.ok + t.err : ℕ) : K)) else none

/-- The ratio of the median durations. -/
def SpanTally.ratio (t : SpanTally K) : Option K :=
  if t.incidentDurations ≠ [] ∧ t.baselineDurations ≠ [] ∧ 0 < median t.baselineDurations then
    some (median t.incidentDurations / median t.baselineDurations)
  else none

def SpanTally.measure (t : SpanTally K) : Except ModelError (Measurement K) := do
  let errorPresent ← onMeasured isErrorRate t.rate
  let latencyHigh ← onMeasured isHighRatio t.ratio
  return {
    errorRate := t.rate.getD 0
    latencyRatio := t.ratio.getD 1
    errorMeasured := t.rate.isSome
    latencyMeasured := t.ratio.isSome
    sigState := sigStateOf errorPresent latencyHigh t.rate.isSome t.ratio.isSome }

/-- A span that a service's summary counts. -/
def countsForService (sp : TraceSpan K) : Bool :=
  (isIncident windowStart sp && (statusClass rd sp.statusCode).isSome) ||
    (sp.startTime.isSome && (validDuration sp.durationMs).isSome)

/-- The rows of a service. -/
def spansOf (spans : List (TraceSpan K)) (service : String) : List (TraceSpan K) :=
  spans.filter (fun sp => truthy sp.service == some service)

/-- The signal of one service, from its spans. -/
def spanSignal (spans : List (TraceSpan K)) (service : String) :
    Except ModelError (ServiceSignal K) := do
  let m ← (tallySpans rd windowStart (spansOf spans service)).measure
  return { m with service := service }

/-- Signals from raw spans: latency first, and sparse error statuses. -/
def summarizeSpans (spans : List (TraceSpan K)) :
    Except ModelError (Dict String (ServiceSignal K)) :=
  let services := (spans.filter (countsForService rd windowStart)).filterMap
    (fun sp => truthy sp.service)
  tabulate (inOrder services.toFinset) (spanSignal rd windowStart spans)

/-! Metric samples. -/

/-- A sample with a service, a value and a time. -/
structure Reading (K : Type) where
  service : String
  metric : String
  value : Number K
  metricType : Option String
  ts : Timestamp
  attributes : Option Json

def reading? (s : MetricSample K) : Option (Reading K) := do
  let service ← s.service
  let value ← s.value
  let ts ← s.ts
  return {
    service := service
    metric := s.metric
    value := value
    metricType := s.metricType
    ts := ts
    attributes := s.attributes }

def readings (samples : List (MetricSample K)) : List (Reading K) := samples.filterMap reading?

/-- The readings of one metric of a service. -/
def metricReadings (rows : List (Reading K)) (service metric : String) : List (Reading K) :=
  rows.filter (fun r => r.service == service && r.metric == metric)

/-- The series of some readings, sorted. A series without recorded identity does not
compare with one that has it. -/
def sortSeries (rows : List (Reading K)) : Except ModelError (List (Option String)) :=
  let keys := fromKeys (rows.map (fun r => seriesKey rd r.attributes))
  if none ∈ keys ∧ 1 < keys.length then .error .unorderable
  else .ok (sortOn (fun key => key.getD "") keys)

/-- The values of a series in one half. -/
def seriesValues (rows : List (Reading K)) (key : Option String) (incident : Bool) :
    List (Number K) :=
  (rows.filter (fun r => seriesKey rd r.attributes == key &&
    decide (windowStart ≤ r.ts) == incident)).map Reading.value

/-- The mean of a series all of whose values are rates. -/
def seriesRate (xs : List (Number K)) : Option K :=
  (xs.mapM Number.rate?).bind (fun rates => if rates = [] then none else some (mean rates))

/-- The ratio of the means of a series, each half measured, the baseline positive. -/
def seriesRatio (incident baseline : List (Number K)) : Option K :=
  match incident.mapM Number.nonneg?, baseline.mapM Number.nonneg? with
  | some ix, some bx =>
      if ix ≠ [] ∧ bx ≠ [] ∧ 0 < mean bx then some (mean ix / mean bx) else none
  | _, _ => none

/-- The measured values that a verdict singles out. -/
def hits (judge : K → Except ModelError Bool) (series : List (Option K)) :
    Except ModelError (List K) := do
  let judged ← (series.filterMap id).mapM (fun x => do
    let hit ← judge x
    return (x, hit))
  return (judged.filter Prod.snd).map Prod.fst

/-- Any anomalous series proves the anomaly; normal takes all of them. -/
def measureSeriesBranches (errSeries latSeries : List (Option K)) :
    Except ModelError (Measurement K) := do
  let errHit ← hits isErrorRate errSeries
  let latHit ← hits isHighRatio latSeries
  let errorMeasured := !errSeries.isEmpty && errSeries.all Option.isSome
  let latencyMeasured := !latSeries.isEmpty && latSeries.all Option.isSome
  return {
    errorRate := if errHit ≠ [] then maxOr 0 errHit else maxOr 0 (errSeries.filterMap id)
    latencyRatio := if latHit ≠ [] then maxOr 1 latHit else maxOr 1 (latSeries.filterMap id)
    errorMeasured := errorMeasured
    latencyMeasured := latencyMeasured
    sigState := sigStateOf (!errHit.isEmpty) (!latHit.isEmpty) errorMeasured latencyMeasured }

/-- The rates of the error series of a service. -/
def errorSeries (rows : List (Reading K)) (service : String) :
    Except ModelError (List (Option K)) := do
  let mine := metricReadings rows service "error_rate"
  let keys ← sortSeries rd mine
  return keys.map (fun key => seriesRate (seriesValues rd windowStart mine key true))

/-- The ratios of the latency series of a service. -/
def latencySeries (rows : List (Reading K)) (service : String) :
    Except ModelError (List (Option K)) := do
  let mine := metricReadings rows service "latency_ms"
  let keys ← sortSeries rd mine
  return keys.map (fun key => seriesRatio (seriesValues rd windowStart mine key true)
    (seriesValues rd windowStart mine key false))

/-- The signal of one service, each branch reduced series by series. -/
def metricSignal (rows : List (Reading K)) (service : String) :
    Except ModelError (ServiceSignal K) := do
  let errSeries ← errorSeries rd windowStart rows service
  let latSeries ← latencySeries rd windowStart rows service
  let m ← measureSeriesBranches errSeries latSeries
  return { m with service := service }

/-- Signals from metric samples. -/
def summarizeMetrics (samples : List (MetricSample K)) :
    Except ModelError (Dict String (ServiceSignal K)) :=
  let rows := readings samples
  tabulate (inOrder (rows.map Reading.service).toFinset) (metricSignal rd windowStart rows)

/-! Several sources of one signal. -/

/-- The first proven present, else the first proven absent, else the first. -/
def witness {α : Type} (state : α → Option SigState) (l : List α) : Option α :=
  ((l.find? (fun a => state a == some .present)).orElse
    (fun _ => l.find? (fun a => state a == some .absent))).orElse (fun _ => l.head?)

/-- Merge the signals of several sources, each taken whole from its witness. -/
def combineSignals (sources : List (Dict String (ServiceSignal K))) :
    Dict String (ServiceSignal K) :=
  let services := sources.foldl (fun services src => services ∪ src.keys) ∅
  dictOf ((inOrder services).filterMap (fun service =>
    (witness (fun sig => sig.sigState) (sources.filterMap (fun src => src.lookup service))).map
      (fun sig => (service, sig))))

end Reducers

end Raglogs.StructuralSignals
