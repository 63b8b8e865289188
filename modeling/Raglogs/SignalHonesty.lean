import Mathlib.Algebra.Field.Rat
import Mathlib.Algebra.Order.Ring.Unbundled.Rat
import Raglogs.UtilizationLaws

/-!
Honesty of the structural signals. A state is what the measured branches of a key prove,
and a row that measures nothing leaves the branches of its source as they were. Merging
sources, metrics of a resource and operations of an edge is where such a row can still be
felt: it may take a proof of presence away, and leave the proof of absence of another
source standing.
-/

namespace Raglogs.SignalHonesty

open Collections Dicts LogEntries SortedDicts StructuralSignals CallGraph Utilization
  StructuralModel SignalLaws UtilizationLaws Telemetry Text

variable {K : Type} [Arithmetic K]

/-! Rows that measure nothing. -/

/-- A span without an explicit status and without a valid duration. -/
def Uninformative (rd : Rendering) (sp : TraceSpan K) : Prop :=
  statusClass rd sp.statusCode = none ∧ validDuration sp.durationMs = none

/-- A reading that is not finite or is negative, or is no rate where a rate is due. -/
def BadReading (r : Reading K) : Prop :=
  r.value.nonneg? = none ∨ r.metric = "error_rate" ∧ r.value.rate? = none

/-- A sample with a null field, or with a malformed value. -/
def Malformed (s : MetricSample K) : Prop := ∀ r, reading? s = some r → BadReading r

variable (rd : Rendering) (windowStart : Timestamp)

/-- A status that is not explicit counts nowhere. -/
theorem rate_padded {rows rows' : List (TraceSpan K)}
    (h : Padded (fun sp => statusClass rd sp.statusCode = none) rows rows') :
    (tallySpans rd windowStart rows').rate = (tallySpans rd windowStart rows).rate := by
  have hcount : ∀ c, (rows'.filter (isIncident windowStart)).countP
      (fun sp => statusClass rd sp.statusCode == some c) =
        (rows.filter (isIncident windowStart)).countP
          (fun sp => statusClass rd sp.statusCode == some c) := by
    intro c
    rw [List.countP_eq_length_filter, List.countP_eq_length_filter]
    refine congrArg List.length ((h.filter _).filter_eq ?_).symm
    intro sp hsp
    simp [hsp]
  unfold SpanTally.rate tallySpans
  simp only [hcount]

/-- A duration that is not valid counts nowhere. -/
theorem ratio_padded {rows rows' : List (TraceSpan K)}
    (h : Padded (fun sp => validDuration sp.durationMs = none) rows rows') :
    (tallySpans rd windowStart rows').ratio = (tallySpans rd windowStart rows).ratio := by
  have hdurations : ∀ half : TraceSpan K → Bool,
      (rows'.filter half).filterMap (fun sp => validDuration sp.durationMs) =
        (rows.filter half).filterMap (fun sp => validDuration sp.durationMs) := by
    intro half
    exact ((h.filter half).filterMap_eq (fun _ hsp => hsp)).symm
  unfold SpanTally.ratio tallySpans
  simp only [hdurations]

/-- What spans prove is the same with rows that measure nothing. -/
theorem tally_padded {rows rows' : List (TraceSpan K)} (h : Padded (Uninformative rd) rows rows') :
    (SpanPresent (tallySpans rd windowStart rows') ↔ SpanPresent (tallySpans rd windowStart rows)) ∧
      (SpanAbsent (tallySpans rd windowStart rows') ↔
        SpanAbsent (tallySpans rd windowStart rows)) := by
  unfold SpanPresent SpanAbsent
  rw [rate_padded rd windowStart (h.mono fun _ hsp => hsp.1),
    ratio_padded rd windowStart (h.mono fun _ hsp => hsp.2)]
  exact ⟨Iff.rfl, Iff.rfl⟩

variable {rd windowStart}

omit [Arithmetic K] in
/-- A half of a series whose values are all well-formed has nothing added. -/
theorem seriesValues_padded {rows rows' : List (Reading K)} {bad : Reading K → Prop}
    (h : Padded bad rows rows') {valid : Number K → Option K}
    (hbad : ∀ r ∈ rows', bad r → valid r.value = none) {key : Option String} {incident : Bool}
    {xs : List K} (hxs : (seriesValues rd windowStart rows' key incident).mapM valid = some xs) :
    seriesValues rd windowStart rows key incident =
      seriesValues rd windowStart rows' key incident := by
  unfold seriesValues at *
  refine congrArg (List.map Reading.value) ((h.filter _).eq ?_)
  intro r hr hbadr
  obtain ⟨x, hx⟩ := exists_of_mapM_eq_some hxs (List.mem_map_of_mem hr)
  rw [hbad r (List.mem_filter.mp hr).1 hbadr] at hx
  cases hx

omit [Arithmetic K] in
theorem metric_of_mem_metricReadings {rows : List (Reading K)} {service metric : String}
    {r : Reading K} (h : r ∈ metricReadings rows service metric) : r.metric = metric := by
  simpa using ((Bool.and_eq_true _ _).mp (List.mem_filter.mp h).2).2

theorem readings_padded {samples samples' : List (MetricSample K)}
    (h : Padded Malformed samples samples') :
    Padded BadReading (readings samples) (readings samples') :=
  h.filterMap (fun _ r hs hr => hs r hr)

theorem rate?_eq_none {x : Number K} (h : x.nonneg? = none) : x.rate? = none := by
  cases x with
  | nonFinite => rfl
  | finite x =>
    have hneg : ¬0 ≤ x := by
      intro hpos
      simp [Number.nonneg?, hpos] at h
    simp [Number.rate?, hneg]

/-- Malformed samples do not make the error series of a service normal. -/
theorem errorNormal_padded {rows rows' : List (Reading K)} (h : Padded BadReading rows rows')
    {service : String} {key : Option String}
    (hnormal : Nominal isErrorRate (errorRateOf rd windowStart rows' service key)) :
    metricReadings rows service "error_rate" ≠ [] ∧
      Nominal isErrorRate (errorRateOf rd windowStart rows service key) := by
  have hmine : Padded BadReading (metricReadings rows service "error_rate")
      (metricReadings rows' service "error_rate") := h.filter _
  obtain ⟨v, hv, hj⟩ := hnormal
  obtain ⟨rates, hrates, hmean⟩ := Option.bind_eq_some_iff.mp hv
  have hne : rates ≠ [] := by
    rintro rfl
    cases hmean
  have hbad : ∀ r ∈ metricReadings rows' service "error_rate", BadReading r →
      r.value.rate? = none := by
    intro r _ hr
    rcases hr with hr | ⟨-, hr⟩
    · exact rate?_eq_none hr
    · exact hr
  have hsame := seriesValues_padded hmine hbad hrates
  refine ⟨?_, v, ?_, hj⟩
  · intro hnil
    rw [← hsame, hnil] at hrates
    exact hne (Option.some.inj (show some [] = some rates from hrates)).symm
  · unfold errorRateOf
    rw [hsame]
    exact hv

/-- Malformed samples do not make the latency series of a service normal. -/
theorem latencyNormal_padded {rows rows' : List (Reading K)} (h : Padded BadReading rows rows')
    {service : String} {key : Option String}
    (hnormal : Nominal isHighRatio (latencyRatioOf rd windowStart rows' service key)) :
    metricReadings rows service "latency_ms" ≠ [] ∧
      Nominal isHighRatio (latencyRatioOf rd windowStart rows service key) := by
  have hmine : Padded BadReading (metricReadings rows service "latency_ms")
      (metricReadings rows' service "latency_ms") := h.filter _
  have hbad : ∀ r ∈ metricReadings rows' service "latency_ms", BadReading r →
      r.value.nonneg? = none := by
    intro r hr hbadr
    rcases hbadr with hbadr | ⟨herror, -⟩
    · exact hbadr
    · rw [metric_of_mem_metricReadings hr] at herror
      exact absurd herror (by decide)
  obtain ⟨v, hv, hj⟩ := hnormal
  unfold latencyRatioOf seriesRatio at hv
  split at hv
  · rename_i ix bx hix hbx
    have hincident := seriesValues_padded hmine hbad hix
    have hbaseline := seriesValues_padded hmine hbad hbx
    refine ⟨?_, v, ?_, hj⟩
    · intro hnil
      rw [← hincident, hnil] at hix
      have hempty : [] = ix := Option.some.inj (show some [] = some ix from hix)
      rw [if_neg (fun hne => hne.1 hempty.symm)] at hv
      cases hv
    · unfold latencyRatioOf seriesRatio
      rw [hincident, hbaseline, hix, hbx]
      exact hv
  · cases hv

/-- Malformed samples do not prove a service normal. -/
theorem metricAbsent_padded {rows rows' : List (Reading K)} (h : Padded BadReading rows rows')
    {service : String} (habsent : MetricAbsent rd windowStart rows' service) :
    MetricAbsent rd windowStart rows service := by
  have hmem : ∀ metric, ∀ r ∈ metricReadings rows service metric,
      r ∈ metricReadings rows' service metric :=
    fun metric r hr => (h.filter _).sublist.subset hr
  obtain ⟨⟨hene, he⟩, hlne, hl⟩ := habsent
  obtain ⟨re, hre⟩ := List.exists_mem_of_ne_nil _ hene
  obtain ⟨rl, hrl⟩ := List.exists_mem_of_ne_nil _ hlne
  refine ⟨⟨(errorNormal_padded h (he re hre)).1, ?_⟩, (latencyNormal_padded h (hl rl hrl)).1, ?_⟩
  · exact fun r hr => (errorNormal_padded h (he r (hmem _ r hr))).2
  · exact fun r hr => (latencyNormal_padded h (hl r (hmem _ r hr))).2

/-- A calm metric has no malformed reading. -/
theorem calm_wellFormed {required : Instrument} {rows : List (Reading K)}
    (h : Calm rd windowStart required rows) {r : Reading K} (hr : r ∈ rows) :
    r.value.nonneg? ≠ none := by
  obtain ⟨hid, -, hnormal⟩ := h
  unfold identified at hid
  simp only [Bool.and_eq_true, List.all_eq_true] at hid
  obtain ⟨i, hi⟩ := Option.isSome_iff_exists.mp (hid.1.1 r hr).2
  obtain ⟨v, hv, -⟩ := hnormal _ (mem_byInstance.mpr ⟨r, hr, i, hi, rfl⟩)
  obtain ⟨values, hvalues, -⟩ := Option.bind_eq_some_iff.mp hv
  have hpoint : (r.ts, r.value) ∈ sortOn Prod.fst (pointsOf rd rows i) := by
    rw [mem_sortOn]
    exact List.mem_map.mpr ⟨r, List.mem_filter.mpr ⟨hr, beq_iff_eq.mpr hi⟩, rfl⟩
  obtain ⟨p, hp⟩ := exists_of_mapM_eq_some hvalues hpoint
  obtain ⟨x, hx, -⟩ := Option.map_eq_some_iff.mp hp
  rw [hx]
  exact Option.some_ne_none x

theorem utilMetricClass_error_rate : utilMetricClass "error_rate" = none := by decide +kernel

/-- A metric that is calm with malformed samples had none added, and is calm without. -/
theorem resourceCalm_padded {samples samples' : List (MetricSample K)}
    (h : Padded Malformed samples samples') {key : Pair}
    (hcalm : ResourceCalm rd windowStart samples' key) :
    ResourceCalm rd windowStart samples key := by
  obtain ⟨metric, required, ⟨hcls, hne⟩, hcalm⟩ := hcalm
  have hmine : Padded BadReading (metricReadings (readings samples) (ofLex key).1 metric)
      (metricReadings (readings samples') (ofLex key).1 metric) := (readings_padded h).filter _
  have hsame := hmine.eq (by
    intro r hr hbad
    rcases hbad with hbad | ⟨herror, -⟩
    · exact calm_wellFormed hcalm hr hbad
    · rw [← metric_of_mem_metricReadings hr, herror, utilMetricClass_error_rate] at hcls
      cases hcls)
  refine ⟨metric, required, ⟨hcls, ?_⟩, ?_⟩
  · rw [hsame]
    exact hne
  · rw [hsame]
    exact hcalm

/-! States of a key. -/

variable (rd windowStart) in
/-- The state of a service, from its spans. -/
def spanState (spans : List (TraceSpan K)) (service : String) : Option SigState :=
  (summarizeSpans rd windowStart spans).toOption.bind (fun d => stateAt d service)

variable (rd windowStart) in
/-- The state of a service, from its metric samples. -/
def metricState (samples : List (MetricSample K)) (service : String) : Option SigState :=
  (summarizeMetrics rd windowStart samples).toOption.bind (fun d => stateAt d service)

theorem structuralSignals_eq_ok {spans : List (TraceSpan K)} {metrics : List (MetricSample K)}
    {inp : StructuralInputs K} (h : structuralSignals rd spans metrics windowStart = .ok inp) :
    ∃ fromSpans fromMetrics, summarizeSpans rd windowStart spans = .ok fromSpans ∧
      summarizeMetrics rd windowStart metrics = .ok fromMetrics ∧
      summarizeEdges rd windowStart spans = .ok inp.edgeSignals ∧
      summarizeUtilization rd windowStart metrics = .ok inp.utilSignals ∧
      inp.signals = combineSignals [fromSpans, fromMetrics] ∧
      inp.edges = callEdges spans (some windowStart) := by
  obtain ⟨fromSpans, hspans, h⟩ := bind_eq_ok.mp h
  obtain ⟨fromMetrics, hmetrics, h⟩ := bind_eq_ok.mp h
  obtain ⟨edgeSignals, hedges, h⟩ := bind_eq_ok.mp h
  obtain ⟨utilSignals, hutil, h⟩ := bind_eq_ok.mp h
  obtain rfl := Except.ok.inj h
  exact ⟨fromSpans, fromMetrics, hspans, hmetrics, hedges, hutil, rfl, rfl⟩

/-- Nothing measured proves nothing. -/
theorem stateOf_unmeasured {t : SpanTally K} (h : t.rate = none ∧ t.ratio = none) :
    stateOf (SpanPresent t) (SpanAbsent t) none := by
  simp [stateOf, SpanPresent, SpanAbsent, Anomalous, Nominal, h.1, h.2]

theorem spanState_spec {spans : List (TraceSpan K)} {d : Dict String (ServiceSignal K)}
    (h : summarizeSpans rd windowStart spans = .ok d) (service : String) :
    stateOf (SpanPresent (tallySpans rd windowStart (spansOf spans service)))
      (SpanAbsent (tallySpans rd windowStart (spansOf spans service)))
      (spanState rd windowStart spans service) := by
  have hstate : spanState rd windowStart spans service = stateAt d service := by
    simp [spanState, h, Except.toOption]
  rw [hstate]
  unfold stateAt
  cases hlookup : d.lookup service with
  | some sig => exact spanSignal_spec ((lookup_summarizeSpans h).mp hlookup).2
  | none => exact stateOf_unmeasured (unmeasured_of_uncounted (uncounted_of_lookup h hlookup))

theorem edgeState_spec {spans : List (TraceSpan K)} {d : Dict Pair (EdgeSignal K)}
    (h : summarizeEdges rd windowStart spans = .ok d) (edge : Pair) :
    stateOf (SpanPresent (tallySpans rd windowStart (spansOfEdge spans (ofLex edge))))
      (SpanAbsent (tallySpans rd windowStart (spansOfEdge spans (ofLex edge))))
      (edgeStateAt d edge) := by
  unfold edgeStateAt
  cases hlookup : d.lookup edge with
  | some e => exact edgeSignal_spec ((lookup_summarizeEdges h).mp hlookup).2
  | none =>
    have hcalled := @exists_lookup_summarizeEdges _ _ _ _ _ _ h edge
    refine stateOf_unmeasured (unmeasured_of_baseline ?_)
    simpa [hlookup, EdgeCalled] using hcalled

theorem metricState_spec {samples : List (MetricSample K)} {d : Dict String (ServiceSignal K)}
    (h : summarizeMetrics rd windowStart samples = .ok d) (service : String) :
    stateOf (MetricPresent rd windowStart (readings samples) service)
      (MetricAbsent rd windowStart (readings samples) service)
      (metricState rd windowStart samples service) := by
  have hstate : metricState rd windowStart samples service = stateAt d service := by
    simp [metricState, h, Except.toOption]
  rw [hstate]
  unfold stateAt
  cases hlookup : d.lookup service with
  | some sig => exact metricSignal_spec ((lookup_summarizeMetrics h).mp hlookup).2
  | none =>
    have hnil : ∀ metric, metricReadings (readings samples) service metric = [] := by
      intro metric
      rw [List.eq_nil_iff_forall_not_mem]
      intro r hr
      obtain ⟨hmem, hservice⟩ := List.mem_filter.mp hr
      exact unread_of_lookup h hlookup r hmem
        (beq_iff_eq.mp ((Bool.and_eq_true _ _).mp hservice).1)
    simp [stateOf, MetricPresent, MetricAbsent, hnil]

/-! What a run says. -/

/-- A value of a series of a service, of the incident or of the baseline, in a sample. -/
structure ValueOf (rd : Rendering) (windowStart : Timestamp) (service metric : String)
    (key : Option String) (incident : Bool) (s : MetricSample K) (x : Number K) : Prop where
  service : s.service = some service
  metric : s.metric = metric
  value : s.value = some x
  series : seriesKey rd s.attributes = key
  half : ∃ ts, s.ts = some ts ∧ decide (windowStart ≤ ts) = incident

omit [Arithmetic K] in
/-- The values of a series are those of the stored samples. -/
theorem mem_seriesValues {metrics : List (MetricSample K)} {service metric : String}
    {key : Option String} {incident : Bool} {x : Number K} :
    x ∈ seriesValues rd windowStart (metricReadings (readings metrics) service metric) key
        incident ↔ ∃ s ∈ metrics, ValueOf rd windowStart service metric key incident s x := by
  simp only [seriesValues, metricReadings, readings, List.mem_map, List.mem_filter,
    List.mem_filterMap, Bool.and_eq_true, beq_iff_eq]
  constructor
  · rintro ⟨r, ⟨⟨⟨s, hs, hr⟩, hservice, hmetric⟩, hkey, hhalf⟩, rfl⟩
    obtain ⟨service', hservice', hr⟩ := Option.bind_eq_some_iff.mp hr
    obtain ⟨value, hvalue, hr⟩ := Option.bind_eq_some_iff.mp hr
    obtain ⟨ts, hts, hr⟩ := Option.bind_eq_some_iff.mp hr
    obtain rfl := Option.some.inj hr
    exact ⟨s, hs, hservice ▸ hservice', hmetric, hvalue, hkey, ts, hts, hhalf⟩
  · rintro ⟨s, hs, hservice, hmetric, hvalue, hkey, ts, hts, hhalf⟩
    refine ⟨⟨service, s.metric, x, s.metricType, ts, s.attributes⟩,
      ⟨⟨⟨s, hs, ?_⟩, rfl, hmetric⟩, hkey, hhalf⟩, rfl⟩
    simp [reading?, hservice, hvalue, hts]

omit [Arithmetic K] in
theorem seriesValues_ne_nil {metrics : List (MetricSample K)} {service metric : String}
    {key : Option String} {incident : Bool} :
    seriesValues rd windowStart (metricReadings (readings metrics) service metric) key
        incident ≠ [] ↔
      ∃ s ∈ metrics, ∃ x, ValueOf rd windowStart service metric key incident s x := by
  rw [← List.length_pos_iff, List.length_pos_iff_exists_mem]
  simp only [mem_seriesValues]
  exact ⟨fun ⟨x, s, hs, hx⟩ => ⟨s, hs, x, hx⟩, fun ⟨s, hs, x, hx⟩ => ⟨x, s, hs, hx⟩⟩

/-- Every sample is identified, names an instance, has the one datapoint signature of the
metric, and is of the instrument that the reducer needs. -/
structure FullyIdentified (rd : Rendering) (required : Instrument) (rows : List (Reading K)) :
    Prop where
  recorded : ∀ r ∈ rows, r.attributes ≠ none
  named : ∀ r ∈ rows, ∃ i, instanceIdentity rd r.attributes = some i
  signature : ∃ signature, ∀ r ∈ rows, datapointSignature rd r.attributes = signature
  instrument : ∀ r ∈ rows, instrument r.metricType = required.value

omit [Arithmetic K] in
theorem fullyIdentified_of_identified {required : Instrument} {rows : List (Reading K)}
    (h : identified rd required rows = true) : FullyIdentified rd required rows := by
  unfold identified at h
  simp only [Bool.and_eq_true, List.all_eq_true, beq_iff_eq] at h
  obtain ⟨⟨hall, hone⟩, hinstrument⟩ := h
  obtain ⟨signature, hsignature⟩ := List.length_eq_one_iff.mp hone
  exact {
    recorded := fun r hr => Option.isSome_iff_ne_none.mp (hall r hr).1
    named := fun r hr => Option.isSome_iff_exists.mp (hall r hr).2
    signature := ⟨signature, fun r hr => by
      have hmem : datapointSignature rd r.attributes ∈
          fromKeys (rows.map (fun r => datapointSignature rd r.attributes)) :=
        mem_fromKeys.mpr (List.mem_map_of_mem hr)
      rw [hsignature] at hmem
      exact List.mem_singleton.mp hmem⟩
    instrument := hinstrument }

/-- Each state is what the branches of its own key prove. -/
structure Honest (rd : Rendering) (windowStart : Timestamp) (spans : List (TraceSpan K))
    (metrics : List (MetricSample K)) (inp : StructuralInputs K) : Prop where
  errorMeasured : ∀ rows : List (TraceSpan K), (tallySpans rd windowStart rows).rate.isSome ↔
    ∃ sp ∈ rows, isIncident windowStart sp = true ∧ ∃ c, statusClass rd sp.statusCode = some c
  latencyMeasured : ∀ rows : List (TraceSpan K), (tallySpans rd windowStart rows).ratio.isSome ↔
    (∃ sp ∈ rows, isIncident windowStart sp = true ∧ (validDuration sp.durationMs).isSome) ∧
    (∃ sp ∈ rows, isBaseline windowStart sp = true ∧ (validDuration sp.durationMs).isSome) ∧
    0 < median (tallySpans rd windowStart rows).baselineDurations
  /-- A series of error rates is measured when the incident has samples of it and all of them are
  rates. -/
  errorSeriesMeasured : ∀ service key,
    (errorRateOf rd windowStart (readings metrics) service key).isSome ↔
      (∃ s ∈ metrics, ∃ x, ValueOf rd windowStart service "error_rate" key true s x) ∧
      ∀ s ∈ metrics, ∀ x, ValueOf rd windowStart service "error_rate" key true s x →
        x.rate?.isSome
  /-- A series of latencies is measured when both halves have samples of it, all of them finite and
  not negative, and the mean of the baseline is positive. -/
  latencySeriesMeasured : ∀ service key,
    (latencyRatioOf rd windowStart (readings metrics) service key).isSome ↔
      (∀ half, (∃ s ∈ metrics, ∃ x, ValueOf rd windowStart service "latency_ms" key half s x) ∧
        ∀ s ∈ metrics, ∀ x, ValueOf rd windowStart service "latency_ms" key half s x →
          x.nonneg?.isSome) ∧
      0 < mean ((seriesValues rd windowStart
        (metricReadings (readings metrics) service "latency_ms") key false).filterMap
          Number.nonneg?)
  span : ∀ service,
    stateOf (SpanPresent (tallySpans rd windowStart (spansOf spans service)))
      (SpanAbsent (tallySpans rd windowStart (spansOf spans service)))
      (spanState rd windowStart spans service)
  edge : ∀ edge,
    stateOf (SpanPresent (tallySpans rd windowStart (spansOfEdge spans (ofLex edge))))
      (SpanAbsent (tallySpans rd windowStart (spansOfEdge spans (ofLex edge))))
      (edgeStateAt inp.edgeSignals edge)
  metric : ∀ service,
    stateOf (MetricPresent rd windowStart (readings metrics) service)
      (MetricAbsent rd windowStart (readings metrics) service)
      (metricState rd windowStart metrics service)
  merged : ∀ service,
    stateOf (spanState rd windowStart spans service = some .present ∨
        metricState rd windowStart metrics service = some .present)
      (¬(spanState rd windowStart spans service = some .present ∨
          metricState rd windowStart metrics service = some .present) ∧
        (spanState rd windowStart spans service = some .absent ∨
          metricState rd windowStart metrics service = some .absent))
      (stateAt inp.signals service)
  utilization : ∀ key,
    stateOf (ResourceSaturated rd windowStart metrics key)
      (¬ResourceSaturated rd windowStart metrics key ∧ ResourceCalm rd windowStart metrics key)
      (utilStateAt inp.utilSignals key)
  identified : ∀ key, utilStateAt inp.utilSignals key ≠ none →
    ∃ metric required, MetricOf metrics key metric required ∧
      FullyIdentified rd required (metricReadings (readings metrics) (ofLex key).1 metric)

/-- What rows that measure nothing can do. No source of a signal becomes absent. A merged
signal becomes absent only where the spans had proven it so and the metrics outweighed
them, a resource only where another of its metrics was calm, an edge only where the spans
teach other call targets. -/
structure Unharmed (rd : Rendering) (windowStart : Timestamp)
    (spans spans' : List (TraceSpan K)) (metrics metrics' : List (MetricSample K))
    (inp inp' : StructuralInputs K) : Prop where
  span : ∀ service, spanState rd windowStart spans' service = spanState rd windowStart spans service
  metric : ∀ service, metricState rd windowStart metrics' service = some .absent →
    metricState rd windowStart metrics service = some .absent
  merged : ∀ service, stateAt inp'.signals service = some .absent →
    stateAt inp.signals service = some .absent ∨
      stateAt inp.signals service = some .present ∧
        spanState rd windowStart spans service = some .absent
  edge : learnCallTargets spans' = learnCallTargets spans →
    ∀ edge, edgeStateAt inp'.edgeSignals edge = edgeStateAt inp.edgeSignals edge
  utilization : ∀ key, utilStateAt inp'.utilSignals key = some .absent →
    utilStateAt inp.utilSignals key = some .absent ∨
      utilStateAt inp.utilSignals key = some .present ∧ ResourceCalm rd windowStart metrics key

theorem errorRateOf_isSome_iff {metrics : List (MetricSample K)} {service : String}
    {key : Option String} :
    (errorRateOf rd windowStart (readings metrics) service key).isSome ↔
      (∃ s ∈ metrics, ∃ x, ValueOf rd windowStart service "error_rate" key true s x) ∧
      ∀ s ∈ metrics, ∀ x, ValueOf rd windowStart service "error_rate" key true s x →
        x.rate?.isSome := by
  rw [errorRateOf, seriesRate_isSome_iff, seriesValues_ne_nil]
  simp only [mem_seriesValues]
  exact and_congr_right fun _ =>
    ⟨fun h s hs x hx => h x ⟨s, hs, hx⟩, fun h x ⟨s, hs, hx⟩ => h s hs x hx⟩

theorem latencyRatioOf_isSome_iff {metrics : List (MetricSample K)} {service : String}
    {key : Option String} :
    (latencyRatioOf rd windowStart (readings metrics) service key).isSome ↔
      (∀ half, (∃ s ∈ metrics, ∃ x, ValueOf rd windowStart service "latency_ms" key half s x) ∧
        ∀ s ∈ metrics, ∀ x, ValueOf rd windowStart service "latency_ms" key half s x →
          x.nonneg?.isSome) ∧
      0 < mean ((seriesValues rd windowStart
        (metricReadings (readings metrics) service "latency_ms") key false).filterMap
          Number.nonneg?) := by
  have hhalf : ∀ half,
      (seriesValues rd windowStart (metricReadings (readings metrics) service "latency_ms") key
          half ≠ [] ∧
        ∀ x ∈ seriesValues rd windowStart (metricReadings (readings metrics) service "latency_ms")
          key half, x.nonneg?.isSome) ↔
      (∃ s ∈ metrics, ∃ x, ValueOf rd windowStart service "latency_ms" key half s x) ∧
        ∀ s ∈ metrics, ∀ x, ValueOf rd windowStart service "latency_ms" key half s x →
          x.nonneg?.isSome := by
    intro half
    rw [seriesValues_ne_nil]
    simp only [mem_seriesValues]
    exact and_congr_right fun _ =>
      ⟨fun h s hs x hx => h x ⟨s, hs, hx⟩, fun h x ⟨s, hs, hx⟩ => h s hs x hx⟩
  rw [latencyRatioOf, seriesRatio_isSome_iff, hhalf true, hhalf false, ← and_assoc]
  refine and_congr_left fun _ => ⟨?_, fun h => ⟨h true, h false⟩⟩
  rintro ⟨hincident, hbaseline⟩ half
  cases half with
  | true => exact hincident
  | false => exact hbaseline

theorem honest_of_returns {spans : List (TraceSpan K)} {metrics : List (MetricSample K)}
    {inp : StructuralInputs K} (h : structuralSignals rd spans metrics windowStart = .ok inp) :
    Honest rd windowStart spans metrics inp := by
  obtain ⟨fromSpans, fromMetrics, hspans, hmetrics, hedges, hutil, hsignals, -⟩ :=
    structuralSignals_eq_ok h
  have hspanState : ∀ service, spanState rd windowStart spans service = stateAt fromSpans service :=
    fun service => by simp [spanState, hspans, Except.toOption]
  have hmetricState : ∀ service,
      metricState rd windowStart metrics service = stateAt fromMetrics service :=
    fun service => by simp [metricState, hmetrics, Except.toOption]
  refine {
    errorMeasured := fun rows => rate_isSome_iff
    latencyMeasured := fun rows => ratio_isSome_iff
    errorSeriesMeasured := fun service key => errorRateOf_isSome_iff
    latencySeriesMeasured := fun service key => latencyRatioOf_isSome_iff
    span := spanState_spec hspans
    edge := edgeState_spec hedges
    metric := metricState_spec hmetrics
    merged := fun service => by
      rw [hspanState, hmetricState, hsignals]
      exact stateAt_combineSignals fromSpans fromMetrics service
    utilization := utilStateAt_spec hutil
    identified := ?_ }
  intro key hstate
  have hspec := utilStateAt_spec hutil key
  cases hs : utilStateAt inp.utilSignals key with
  | none => exact absurd hs hstate
  | some s =>
    cases s with
    | present =>
      obtain ⟨metric, required, hof, hid, -⟩ := hspec.1.mp hs
      exact ⟨metric, required, hof, fullyIdentified_of_identified hid⟩
    | absent =>
      obtain ⟨-, metric, required, hof, hid, -⟩ := hspec.2.mp hs
      exact ⟨metric, required, hof, fullyIdentified_of_identified hid⟩

theorem unharmed_of_padded {spans spans' : List (TraceSpan K)}
    {metrics metrics' : List (MetricSample K)} {inp inp' : StructuralInputs K}
    (h : Honest rd windowStart spans metrics inp) (h' : Honest rd windowStart spans' metrics' inp')
    (hspans : Padded (Uninformative rd) spans spans')
    (hmetrics : Padded Malformed metrics metrics') :
    Unharmed rd windowStart spans spans' metrics metrics' inp inp' := by
  have hspan : ∀ service,
      spanState rd windowStart spans' service = spanState rd windowStart spans service := by
    intro service
    obtain ⟨hpresent, habsent⟩ := tally_padded rd windowStart
      (hspans.filter (fun sp => truthy sp.service == some service))
    have hspec' := h'.span service
    unfold stateOf spansOf at hspec'
    rw [hpresent, habsent] at hspec'
    exact stateOf.unique hspec' (h.span service)
  have hmetric : ∀ service, metricState rd windowStart metrics' service = some .absent →
      metricState rd windowStart metrics service = some .absent := by
    intro service habsent
    exact (h.metric service).2.mpr
      (metricAbsent_padded (readings_padded hmetrics) ((h'.metric service).2.mp habsent))
  refine ⟨hspan, hmetric, ?_, ?_, ?_⟩
  · intro service habsent
    obtain ⟨hno, hsome⟩ := (h'.merged service).2.mp habsent
    rw [hspan] at hno hsome
    by_cases hpresent : metricState rd windowStart metrics service = some .present
    · refine Or.inr ⟨(h.merged service).1.mpr (Or.inr hpresent), ?_⟩
      rcases hsome with hsome | hsome
      · exact hsome
      · rw [hmetric service hsome] at hpresent
        exact absurd hpresent (by decide)
    · refine Or.inl ((h.merged service).2.mpr ⟨?_, hsome.imp_right (hmetric service)⟩)
      rintro (hspan' | hmetric')
      · exact hno (Or.inl hspan')
      · exact hpresent hmetric'
  · intro htargets edge
    have hrows : Padded (Uninformative rd) (spansOfEdge spans (ofLex edge))
        (spansOfEdge spans' (ofLex edge)) := by
      unfold spansOfEdge
      rw [htargets]
      exact hspans.filter _
    obtain ⟨hpresent, habsent⟩ := tally_padded rd windowStart hrows
    have hspec' := h'.edge edge
    unfold stateOf at hspec'
    rw [hpresent, habsent] at hspec'
    exact stateOf.unique hspec' (h.edge edge)
  · intro key habsent
    have hcalm := resourceCalm_padded hmetrics ((h'.utilization key).2.mp habsent).2
    by_cases hsaturated : ResourceSaturated rd windowStart metrics key
    · exact Or.inr ⟨(h.utilization key).1.mpr hsaturated, hcalm⟩
    · exact Or.inl ((h.utilization key).2.mpr ⟨hsaturated, hcalm⟩)

/-! Rows of other services. -/

/-- The samples of a service. -/
def samplesOf (metrics : List (MetricSample K)) (service : String) : List (MetricSample K) :=
  metrics.filter (fun s => s.service == some service)

omit [Arithmetic K] in
theorem readings_samplesOf (metrics : List (MetricSample K)) (service : String) :
    (readings metrics).filter (fun r => r.service == service) =
      readings (samplesOf metrics service) := by
  have hservice : ∀ s r, reading? (K := K) s = some r → s.service = some r.service := by
    intro s r h
    obtain ⟨service, hservice, h⟩ := Option.bind_eq_some_iff.mp h
    obtain ⟨value, -, h⟩ := Option.bind_eq_some_iff.mp h
    obtain ⟨ts, -, h⟩ := Option.bind_eq_some_iff.mp h
    obtain rfl := Option.some.inj h
    exact hservice
  unfold readings samplesOf
  rw [List.filter_filterMap, List.filterMap_filter]
  refine List.filterMap_congr fun s _ => ?_
  cases hr : reading? s with
  | none => simp
  | some r => simp [hservice s r hr, Option.filter]

omit [Arithmetic K] in
theorem metricReadings_own {metrics metrics' : List (MetricSample K)} {service : String}
    (h : samplesOf metrics' service = samplesOf metrics service) (metric : String) :
    metricReadings (readings metrics') service metric =
      metricReadings (readings metrics) service metric := by
  have hown : ∀ rows : List (Reading K), metricReadings rows service metric =
      (rows.filter (fun r => r.service == service)).filter (fun r => r.metric == metric) := by
    intro rows
    unfold metricReadings
    rw [List.filter_filter]
    exact List.filter_congr fun r _ => Bool.and_comm _ _
  rw [hown, hown, readings_samplesOf, readings_samplesOf, h]

theorem lookup_summarizeSpans_own {spans spans' : List (TraceSpan K)}
    {d d' : Dict String (ServiceSignal K)} (h : summarizeSpans rd windowStart spans = .ok d)
    (h' : summarizeSpans rd windowStart spans' = .ok d') {service : String}
    (hown : spansOf spans' service = spansOf spans service) :
    d'.lookup service = d.lookup service := by
  apply Option.ext
  intro sig
  rw [lookup_summarizeSpans h, lookup_summarizeSpans h']
  unfold spanSignal
  rw [hown]

theorem lookup_summarizeMetrics_own {metrics metrics' : List (MetricSample K)}
    {d d' : Dict String (ServiceSignal K)} (h : summarizeMetrics rd windowStart metrics = .ok d)
    (h' : summarizeMetrics rd windowStart metrics' = .ok d') {service : String}
    (hown : samplesOf metrics' service = samplesOf metrics service) :
    d'.lookup service = d.lookup service := by
  have hreads : ∀ metrics : List (MetricSample K), (∃ r ∈ readings metrics, r.service = service) ↔
      readings (samplesOf metrics service) ≠ [] := by
    intro metrics
    rw [← readings_samplesOf, Ne, List.filter_eq_nil_iff]
    simp
  apply Option.ext
  intro sig
  rw [lookup_summarizeMetrics h, lookup_summarizeMetrics h', hreads, hreads, hown]
  unfold metricSignal errorSeries latencySeries
  rw [metricReadings_own hown, metricReadings_own hown]

/-- The signal of a service is read off its own rows. -/
theorem signal_own {spans spans' : List (TraceSpan K)} {metrics metrics' : List (MetricSample K)}
    {inp inp' : StructuralInputs K}
    (h : structuralSignals rd spans metrics windowStart = .ok inp)
    (h' : structuralSignals rd spans' metrics' windowStart = .ok inp') {service : String}
    (hspans : spansOf spans' service = spansOf spans service)
    (hmetrics : samplesOf metrics' service = samplesOf metrics service) :
    inp'.signals.lookup service = inp.signals.lookup service := by
  obtain ⟨fromSpans, fromMetrics, hfs, hfm, -, -, hsignals, -⟩ := structuralSignals_eq_ok h
  obtain ⟨fromSpans', fromMetrics', hfs', hfm', -, -, hsignals', -⟩ := structuralSignals_eq_ok h'
  rw [hsignals, hsignals', lookup_combineSignals, lookup_combineSignals]
  simp only [List.filterMap_cons, lookup_summarizeSpans_own hfs hfs' hspans,
    lookup_summarizeMetrics_own hfm hfm' hmetrics]

/-- Wherever the structural signals are returned, they say what was measured. Rows that
measure nothing do no harm, and rows of other services do not touch a service's signal. -/
theorem structural_signals_honest (rd : Rendering) (windowStart : Timestamp)
    (spans : List (TraceSpan K)) (metrics : List (MetricSample K)) (inp : StructuralInputs K)
    (h : structuralSignals rd spans metrics windowStart = .ok inp) :
    Honest rd windowStart spans metrics inp ∧
    ∀ spans' metrics' inp', structuralSignals rd spans' metrics' windowStart = .ok inp' →
      (Padded (Uninformative rd) spans spans' → Padded Malformed metrics metrics' →
        Unharmed rd windowStart spans spans' metrics metrics' inp inp') ∧
      ∀ service, spansOf spans' service = spansOf spans service →
        samplesOf metrics' service = samplesOf metrics service →
          inp'.signals.lookup service = inp.signals.lookup service := by
  refine ⟨honest_of_returns h, ?_⟩
  intro spans' metrics' inp' h'
  refine ⟨?_, ?_⟩
  · intro hspans hmetrics
    exact unharmed_of_padded (honest_of_returns h) (honest_of_returns h') hspans hmetrics
  · intro service hspans hmetrics
    exact signal_own h h' hspans hmetrics

/-! Where a row that measures nothing is felt. -/

/-- Documents are written as their keys, values as their text. -/
def plainRendering : Rendering where
  lowering := asciiLowering
  dumps := fun
    | .obj fields => String.join (fields.map Prod.fst)
    | _ => ""
  text := fun
    | .str s => s
    | _ => ""

/-- A root span of a service that took ten milliseconds and ended well. -/
def calmSpan (spanId service : String) (start : Timestamp) : TraceSpan (Exact ℚ) where
  traceId := some "t"
  spanId := some spanId
  parentSpanId := none
  service := some service
  operation := some "get"
  startTime := some start
  durationMs := some (.finite (10 : ℚ))
  statusCode := some "1"
  scope := "default"

def calmSpans : List (TraceSpan (Exact ℚ)) := [calmSpan "1" "cart" 0, calmSpan "2" "cart" 5]

/-- A child of the second calm span, in another service, with nothing measured. -/
def silentChild : TraceSpan (Exact ℚ) :=
  { calmSpan "3" "stock" 5 with
    parentSpanId := some "2", durationMs := none, statusCode := none }

def failing : MetricSample (Exact ℚ) where
  service := some "cart"
  metric := "error_rate"
  value := some (.finite (1 : ℚ))
  metricType := none
  ts := some 5
  attributes := none
  scope := "default"

def failingNaN : MetricSample (Exact ℚ) := { failing with value := some .nonFinite }

def gauge (metric : String) (ts : Timestamp) (value : Number (Exact ℚ)) :
    MetricSample (Exact ℚ) where
  service := some "cart"
  metric := metric
  value := some value
  metricType := some "gauge"
  ts := some ts
  attributes := some (.obj [("service.instance.id", .str "a")])
  scope := "default"

/-- One metric of the resource is saturated and another one calm. -/
def gauges : List (MetricSample (Exact ℚ)) :=
  [gauge "process.cpu.utilization" 0 (.finite (1 : ℚ)),
    gauge "process.cpu.utilization" 5 (.finite (4 : ℚ)),
    gauge "system.cpu.utilization" 0 (.finite (1 : ℚ)),
    gauge "system.cpu.utilization" 5 (.finite (1 : ℚ))]

def gaugeNaN : MetricSample (Exact ℚ) := gauge "process.cpu.utilization" 6 .nonFinite

/-- A state of some inputs, where they are returned. -/
def stateIn (inp : Except ModelError (StructuralInputs (Exact ℚ)))
    (state : StructuralInputs (Exact ℚ) → Option SigState) : Option (Option SigState) :=
  inp.toOption.map state

theorem malformed_of_nonFinite {s : MetricSample (Exact ℚ)} (h : s.value = some .nonFinite) :
    Malformed s := by
  intro r hr
  obtain ⟨service, -, hr⟩ := Option.bind_eq_some_iff.mp hr
  obtain ⟨value, hvalue, hr⟩ := Option.bind_eq_some_iff.mp hr
  obtain ⟨ts, -, hr⟩ := Option.bind_eq_some_iff.mp hr
  obtain rfl := Option.some.inj hr
  obtain rfl := Option.some.inj (h.symm.trans hvalue)
  exact Or.inl rfl

/-- A sample that is not finite takes the proof of an error rate, and the proof that a
resource is saturated, away; a span with nothing measured teaches a call target. Each
time absence is what remains. -/
theorem presence_lost :
    (Padded Malformed [failing] [failing, failingNaN] ∧
      stateIn (structuralSignals plainRendering calmSpans [failing] 3)
        (fun inp => stateAt inp.signals "cart") = some (some .present) ∧
      stateIn (structuralSignals plainRendering calmSpans [failing, failingNaN] 3)
        (fun inp => stateAt inp.signals "cart") = some (some .absent)) ∧
    (Padded Malformed gauges (gaugeNaN :: gauges) ∧
      stateIn (structuralSignals plainRendering calmSpans gauges 3)
        (fun inp => utilStateAt inp.utilSignals (toLex ("cart", "cpu"))) = some (some .present) ∧
      stateIn (structuralSignals plainRendering calmSpans (gaugeNaN :: gauges) 3)
        (fun inp => utilStateAt inp.utilSignals (toLex ("cart", "cpu"))) = some (some .absent)) ∧
    Padded (Uninformative plainRendering) calmSpans (silentChild :: calmSpans) ∧
      stateIn (structuralSignals plainRendering calmSpans [] 3)
        (fun inp => edgeStateAt inp.edgeSignals (toLex ("cart", "stock"))) = some none ∧
      stateIn (structuralSignals plainRendering (silentChild :: calmSpans) [] 3)
        (fun inp => edgeStateAt inp.edgeSignals (toLex ("cart", "stock"))) =
          some (some .absent) := by
  have hsame : ∀ {α : Type} {p : α → Prop} (l : List α), Padded p l l := by
    intro α p l
    induction l with
    | nil => exact .nil
    | cons a l ih => exact ih.keep a
  refine ⟨⟨?_, by decide +kernel, by decide +kernel⟩, ⟨?_, by decide +kernel, by decide +kernel⟩,
    ?_, by decide +kernel, by decide +kernel⟩
  · exact .keep _ (.add _ (malformed_of_nonFinite rfl) .nil)
  · exact .add _ (malformed_of_nonFinite rfl) (hsame _)
  · exact .add _ ⟨rfl, rfl⟩ (hsame _)

/-- The calm spans, with a failing metric, are summarized honestly. -/
theorem structural_signals_honest_failing :
    ∃ inp, structuralSignals plainRendering calmSpans [failing] 3 = .ok inp ∧
      Honest plainRendering 3 calmSpans [failing] inp := by
  have hreturns :
      (structuralSignals plainRendering calmSpans [failing] 3).toOption.isSome = true := by
    decide +kernel
  cases h : structuralSignals plainRendering calmSpans [failing] 3 with
  | error e =>
    rw [h] at hreturns
    cases hreturns
  | ok inp => exact ⟨inp, rfl, (structural_signals_honest _ _ _ _ _ h).1⟩

end Raglogs.SignalHonesty
