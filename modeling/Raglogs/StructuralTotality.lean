import Raglogs.SignalHonesty
import Raglogs.StructuralLaws

/-!
When the structural pipeline does what it is meant to: it returns, its observable ids
tell coordinates apart, and its hypotheses are the intended candidates. Names and
attributes flow into it unchecked, so this is a property of the rows.
-/

namespace Raglogs.StructuralTotality

open Collections Dicts Observables Hypotheses Partitioning LogEntries SortedDicts StructuralSignals
  CallGraph Utilization StructuralModel SignalLaws UtilizationLaws SignalHonesty StructuralLaws
  Telemetry Text

variable {K : Type} [Arithmetic K]

/-- The pipeline returns, with distinct ids and with the intended candidates. -/
def PicksIntended (σ : Type) [DecidableEq σ] (rd : Rendering) (windowStart : Timestamp)
    (spans : List (TraceSpan K)) (metrics : List (MetricSample K)) : Prop :=
  ∃ inp hs out, structuralSignals rd spans metrics windowStart = .ok inp ∧
    buildHypotheses (σ := σ) inp = .ok hs ∧ resolveStructural (σ := σ) inp = .ok out ∧
    (observableIds inp).Nodup ∧
    ∀ service, service ∈ hs.map Hypothesis.localization ↔ Candidate inp service

/-! What the discretizers accept. -/

/-- A rate that was measured is finite and in [0, 1]. -/
def RateAccepted (x : Option K) : Prop :=
  ∀ v, x = some v → Arithmetic.isFinite v = true ∧ 0 ≤ v ∧ v ≤ 1

/-- A ratio that was measured is finite and not negative. -/
def RatioAccepted (x : Option K) : Prop :=
  ∀ v, x = some v → Arithmetic.isFinite v = true ∧ 0 ≤ v

theorem judged_rate_iff {x : Option K} : Judged isErrorRate x ↔ RateAccepted x := by
  refine forall_congr' fun v => imp_congr_right fun _ => ?_
  unfold isErrorRate discretizeRate
  cases hfinite : Arithmetic.isFinite v with
  | false => simp [bind, Except.bind]
  | true =>
    by_cases hrange : 0 ≤ v ∧ v ≤ 1
    · simp only [hrange, not_true_eq_false, if_false, Bool.true_eq_false, and_self, iff_true]
      split
      · exact ⟨_, rfl⟩
      · exact ⟨_, rfl⟩
    · simp [hrange, bind, Except.bind]

theorem judged_ratio_iff {x : Option K} : Judged isHighRatio x ↔ RatioAccepted x := by
  refine forall_congr' fun v => imp_congr_right fun _ => ?_
  unfold isHighRatio discretizeRatio
  cases hfinite : Arithmetic.isFinite v with
  | false => simp [bind, Except.bind]
  | true =>
    by_cases hrange : 0 ≤ v
    · simp only [hrange, not_true_eq_false, if_false, Bool.true_eq_false, and_self, iff_true]
      split
      · exact ⟨_, rfl⟩
      · split
        · exact ⟨_, rfl⟩
        · exact ⟨_, rfl⟩
    · simp [hrange, bind, Except.bind]

/-- What some spans measure can be discretized. -/
def Discretizable (t : SpanTally K) : Prop := RateAccepted t.rate ∧ RatioAccepted t.ratio

theorem measure_returns {t : SpanTally K} : (∃ m, t.measure = .ok m) ↔ Discretizable t := by
  rw [measure_returns_iff, judged_rate_iff, judged_ratio_iff]
  rfl

theorem discretizable_of_unmeasured {t : SpanTally K} (h : t.rate = none ∧ t.ratio = none) :
    Discretizable t := by
  simp [Discretizable, RateAccepted, RatioAccepted, h.1, h.2]

/-! When the summaries are returned. -/

variable {rd : Rendering} {windowStart : Timestamp}

theorem spanSignal_returns_iff {spans : List (TraceSpan K)} {service : String} :
    (∃ sig, spanSignal rd windowStart spans service = .ok sig) ↔
      Discretizable (tallySpans rd windowStart (spansOf spans service)) := by
  rw [← measure_returns]
  constructor
  · rintro ⟨sig, h⟩
    obtain ⟨m, hm, -⟩ := bind_eq_ok.mp h
    exact ⟨m, hm⟩
  · rintro ⟨m, hm⟩
    exact ⟨_, bind_eq_ok.mpr ⟨m, hm, rfl⟩⟩

theorem edgeSignal_returns_iff {spans : List (TraceSpan K)} {edge : Pair} :
    (∃ e, edgeSignal rd windowStart spans edge = .ok e) ↔
      Discretizable (tallySpans rd windowStart (spansOfEdge spans (ofLex edge))) := by
  rw [← measure_returns]
  constructor
  · rintro ⟨e, h⟩
    obtain ⟨m, hm, -⟩ := bind_eq_ok.mp h
    exact ⟨m, hm⟩
  · rintro ⟨m, hm⟩
    exact ⟨_, bind_eq_ok.mpr ⟨m, hm, rfl⟩⟩

theorem summarizeSpans_returns_iff {spans : List (TraceSpan K)} :
    (∃ d, summarizeSpans rd windowStart spans = .ok d) ↔
      ∀ service, Discretizable (tallySpans rd windowStart (spansOf spans service)) := by
  unfold summarizeSpans
  rw [tabulate_ok_iff]
  simp only [mem_spanServices, spanSignal_returns_iff]
  constructor
  · intro h service
    by_cases hcounted : ∃ sp ∈ spansOf spans service, countsForService rd windowStart sp = true
    · exact h service hcounted
    · refine discretizable_of_unmeasured (unmeasured_of_uncounted ?_)
      simpa using hcounted
  · exact fun h service _ => h service

theorem summarizeEdges_returns_iff {spans : List (TraceSpan K)} :
    (∃ d, summarizeEdges rd windowStart spans = .ok d) ↔
      ∀ edge, Discretizable (tallySpans rd windowStart (spansOfEdge spans (ofLex edge))) := by
  unfold summarizeEdges
  rw [tabulate_ok_iff]
  simp only [mem_edgeKeys, edgeSignal_returns_iff]
  constructor
  · intro h edge
    by_cases hcalled : EdgeCalled windowStart spans edge
    · exact h edge hcalled
    · refine discretizable_of_unmeasured (unmeasured_of_baseline ?_)
      simpa [EdgeCalled] using hcalled
  · exact fun h edge _ => h edge

/-- The series of a service can be sorted and discretized. -/
structure ServiceReadable (rd : Rendering) (windowStart : Timestamp) (rows : List (Reading K))
    (service : String) : Prop where
  errorsUnmixed : ¬Mixed (metricReadings rows service "error_rate")
  latenciesUnmixed : ¬Mixed (metricReadings rows service "latency_ms")
  errors : ∀ r ∈ metricReadings rows service "error_rate",
    RateAccepted (errorRateOf rd windowStart rows service (seriesKey rd r.attributes))
  latencies : ∀ r ∈ metricReadings rows service "latency_ms",
    RatioAccepted (latencyRatioOf rd windowStart rows service (seriesKey rd r.attributes))

theorem metricSignal_returns {rows : List (Reading K)} {service : String} :
    (∃ sig, metricSignal rd windowStart rows service = .ok sig) ↔
      ServiceReadable rd windowStart rows service := by
  rw [metricSignal_returns_iff]
  simp only [judged_rate_iff, judged_ratio_iff]
  constructor
  · rintro ⟨⟨herrors, hlatencies⟩, hrates, hratios⟩
    exact ⟨herrors, hlatencies, hrates, hratios⟩
  · rintro ⟨herrors, hlatencies, hrates, hratios⟩
    exact ⟨⟨herrors, hlatencies⟩, hrates, hratios⟩

theorem summarizeMetrics_returns_iff {samples : List (MetricSample K)} :
    (∃ d, summarizeMetrics rd windowStart samples = .ok d) ↔
      ∀ service, ServiceReadable rd windowStart (readings samples) service := by
  unfold summarizeMetrics
  rw [tabulate_ok_iff]
  simp only [mem_metricServices, metricSignal_returns]
  constructor
  · intro h service
    by_cases hread : ∃ r ∈ readings samples, r.service = service
    · exact h service hread
    · have hnil : ∀ metric, metricReadings (readings samples) service metric = [] := by
        intro metric
        rw [List.eq_nil_iff_forall_not_mem]
        intro r hr
        obtain ⟨hmem, hservice⟩ := List.mem_filter.mp hr
        exact hread ⟨r, hmem, beq_iff_eq.mp ((Bool.and_eq_true _ _).mp hservice).1⟩
      exact ⟨by simp [Mixed, hnil], by simp [Mixed, hnil], by simp [hnil], by simp [hnil]⟩
  · exact fun h service _ => h service

/-- The series of the fully identified metrics of a class can be discretized. -/
def InstancesAccepted (rd : Rendering) (windowStart : Timestamp) (rows : List (Reading K))
    (required : Instrument) : Prop :=
  identified rd required rows = true → ∀ points ∈ byInstance rd rows,
    RatioAccepted (seriesRatioOf windowStart required points)

theorem summarizeUtilization_returns_iff {samples : List (MetricSample K)} :
    (∃ d, summarizeUtilization rd windowStart samples = .ok d) ↔
      ∀ service metric resource required, utilMetricClass metric = some (resource, required) →
        InstancesAccepted rd windowStart (metricReadings (readings samples) service metric)
          required := by
  have hresults : (∃ d, summarizeUtilization rd windowStart samples = .ok d) ↔
      ∃ results, metricResults rd windowStart samples = .ok results := by
    constructor
    · rintro ⟨d, h⟩
      obtain ⟨results, hresults, -⟩ := bind_eq_ok.mp h
      exact ⟨results, hresults⟩
    · rintro ⟨results, hresults⟩
      exact ⟨_, bind_eq_ok.mpr ⟨results, hresults, rfl⟩⟩
  rw [hresults, metricResults_returns_iff]
  simp only [MetricJudged, InstancesAccepted, judged_ratio_iff]

theorem structuralSignals_returns_iff {spans : List (TraceSpan K)}
    {metrics : List (MetricSample K)} :
    (∃ inp, structuralSignals rd spans metrics windowStart = .ok inp) ↔
      (∃ d, summarizeSpans rd windowStart spans = .ok d) ∧
      (∃ d, summarizeMetrics rd windowStart metrics = .ok d) ∧
      (∃ d, summarizeEdges rd windowStart spans = .ok d) ∧
      ∃ d, summarizeUtilization rd windowStart metrics = .ok d := by
  constructor
  · rintro ⟨inp, h⟩
    obtain ⟨fromSpans, fromMetrics, hspans, hmetrics, hedges, hutil, -⟩ := structuralSignals_eq_ok h
    exact ⟨⟨_, hspans⟩, ⟨_, hmetrics⟩, ⟨_, hedges⟩, _, hutil⟩
  · rintro ⟨⟨_, hspans⟩, ⟨_, hmetrics⟩, ⟨_, hedges⟩, _, hutil⟩
    exact ⟨_, bind_eq_ok.mpr ⟨_, hspans, bind_eq_ok.mpr ⟨_, hmetrics, bind_eq_ok.mpr
      ⟨_, hedges, bind_eq_ok.mpr ⟨_, hutil, rfl⟩⟩⟩⟩⟩

/-! Ids. -/

omit [Arithmetic K] in
/-- Ids named by their keys are distinct exactly if the names of the keys are. -/
theorem named_nodup_iff {κ ν : Type} [LinearOrder κ] {d : Dict κ ν} {id : ν → String}
    (name : κ → String) (h : ∀ k v, d.lookup k = some v → id v = name k) :
    ((sortedItems d).map (fun p => id p.2)).Nodup ↔
      ∀ k k', (∃ v, d.lookup k = some v) → (∃ v, d.lookup k' = some v) →
        name k = name k' → k = k' := by
  have hmap : (sortedItems d).map (fun p => id p.2) =
      ((sortedItems d).map Prod.fst).map name := by
    rw [List.map_map]
    exact List.map_congr_left fun p hp => h p.1 p.2 (mem_sortedItems.mp hp)
  have hkey : ∀ k, k ∈ (sortedItems d).map Prod.fst ↔ ∃ v, d.lookup k = some v := by
    intro k
    simp [mem_sortedItems]
  rw [hmap]
  constructor
  · intro hnodup k k' hk hk' heq
    exact List.inj_on_of_nodup_map hnodup ((hkey k).mpr hk) ((hkey k').mpr hk') heq
  · intro hinj
    refine (sortedItems_keys_nodup d).map_on ?_
    intro k hk k' hk' heq
    exact hinj k k' ((hkey k).mp hk) ((hkey k').mp hk') heq

/-- A metric of the resource has readings. -/
def ResourceRead (samples : List (MetricSample K)) (key : Pair) : Prop :=
  ∃ metric required, MetricOf samples key metric required

theorem exists_lookup_summarizeUtilization {samples : List (MetricSample K)}
    {d : Dict Pair (UtilSignal K)} (h : summarizeUtilization rd windowStart samples = .ok d)
    {key : Pair} : (∃ u, d.lookup key = some u) ↔ ResourceRead samples key := by
  obtain ⟨results, hresults, hlookup⟩ := lookup_summarizeUtilization h
  have hreturns := metricResults_returns_iff.mp ⟨results, hresults⟩
  have hsome : (∃ u, d.lookup key = some u) ↔
      ∃ x ∈ (results.filter (fun q => q.1 = key)).map Prod.snd, True := by
    rw [hlookup, utilSignal]
    cases hw : witness MetricResult.state ((results.filter (fun p => p.1 = key)).map Prod.snd) with
    | none => simp [witness_eq_none.mp hw]
    | some w =>
      have hne : (results.filter (fun p => p.1 = key)).map Prod.snd ≠ [] := by
        rw [Ne, ← witness_eq_none, hw]
        exact Option.some_ne_none w
      obtain ⟨x, hx⟩ := List.exists_mem_of_ne_nil _ hne
      exact iff_of_true ⟨_, rfl⟩ ⟨x, hx, trivial⟩
  rw [hsome, exists_result_iff hresults]
  refine exists_congr fun metric => exists_congr fun required => ?_
  refine and_iff_left_of_imp fun hof => ?_
  obtain ⟨x, hx⟩ := measureMetric_returns_iff.mpr (hreturns _ _ _ _ hof.1)
  exact ⟨x, hx, trivial⟩

theorem edge_id {spans : List (TraceSpan K)} {edge : Pair} {e : EdgeSignal K}
    (h : edgeSignal rd windowStart spans edge = .ok e) :
    e.caller = (ofLex edge).1 ∧ e.callee = (ofLex edge).2 := by
  obtain ⟨m, -, h⟩ := bind_eq_ok.mp h
  obtain rfl := Except.ok.inj h
  exact ⟨rfl, rfl⟩

omit [Arithmetic K] in
theorem util_id {results : List (Pair × MetricResult K)} {key : Pair} {u : UtilSignal K}
    (h : utilSignal results key = some u) :
    u.service = (ofLex key).1 ∧ u.resource = (ofLex key).2 := by
  obtain ⟨w, -, rfl⟩ := Option.map_eq_some_iff.mp h
  exact ⟨rfl, rfl⟩

/-! Names. -/

/-- The empty name is a candidate exactly if its metrics are anomalous or a resource of it
is saturated: no span and no edge has it. -/
theorem candidate_empty_iff {spans : List (TraceSpan K)} {metrics : List (MetricSample K)}
    {inp : StructuralInputs K} (h : structuralSignals rd spans metrics windowStart = .ok inp) :
    Candidate inp "" ↔ MetricPresent rd windowStart (readings metrics) "" ∨
      ∃ resource, ResourceSaturated rd windowStart metrics (toLex ("", resource)) := by
  have hhonest := honest_of_returns h
  obtain ⟨-, -, -, -, hedges, hutil, -, hcalls⟩ := structuralSignals_eq_ok h
  have hspans : spansOf spans "" = [] := by
    unfold spansOf
    rw [List.filter_eq_nil_iff]
    intro sp _ hservice
    exact (truthy_eq_some.mp (beq_iff_eq.mp hservice)).2 rfl
  have hno : spanState rd windowStart spans "" ≠ some .present := by
    rw [Ne, (hhonest.span "").1, hspans]
    obtain ⟨hrate, hratio⟩ := @unmeasured_of_baseline K _ rd windowStart [] (by simp)
    simp [SpanPresent, Anomalous, hrate, hratio]
  constructor
  · intro hcandidate
    cases hcandidate with
    | anomalous hpresent =>
      rcases (hhonest.merged "").1.mp hpresent with hspan | hmetric
      · exact absurd hspan hno
      · exact Or.inl ((hhonest.metric "").1.mp hmetric)
    | unexplained caller hpresent hedge _ =>
      rw [hcalls] at hedge
      exact absurd rfl (callEdges_ne hedge)
    | edge key e hlookup _ hcallee =>
      obtain ⟨⟨sp, hsp, -⟩, he⟩ := (lookup_summarizeEdges hedges).mp hlookup
      have hkey := beq_iff_eq.mp (List.mem_filter.mp hsp).2
      exact absurd ((edge_id he).2.symm.trans hcallee) (edgeKey_ne hkey)
    | resource key u hlookup hstate hservice =>
      obtain ⟨results, hresults, hall⟩ := lookup_summarizeUtilization hutil
      have hid := util_id ((hall key).symm.trans hlookup)
      have hkey : key = toLex ("", u.resource) := by
        rw [← hservice, hid.1, hid.2]
        rfl
      refine Or.inr ⟨u.resource, ?_⟩
      rw [← hkey]
      refine (hhonest.utilization key).1.mp ?_
      rw [utilStateAt, hlookup]
      exact hstate
  · rintro (hmetric | ⟨resource, hsaturated⟩)
    · exact .anomalous ((hhonest.merged "").1.mpr (Or.inr ((hhonest.metric "").1.mpr hmetric)))
    · have hstate := (hhonest.utilization _).1.mpr hsaturated
      obtain ⟨u, hlookup, hpresent⟩ := Option.bind_eq_some_iff.mp hstate
      obtain ⟨results, hresults, hall⟩ := lookup_summarizeUtilization hutil
      exact .resource _ u hlookup hpresent (util_id ((hall _).symm.trans hlookup)).1

/-! The rows on which the pipeline does what it is meant to. -/

/-- No service has samples with and without attributes in one branch, whatever was
measured can be discretized, the empty name has no anomaly, and names and resources do
not run together in an id. -/
structure WellPosed (rd : Rendering) (windowStart : Timestamp) (spans : List (TraceSpan K))
    (metrics : List (MetricSample K)) : Prop where
  services : ∀ service, Discretizable (tallySpans rd windowStart (spansOf spans service))
  calls : ∀ edge, Discretizable (tallySpans rd windowStart (spansOfEdge spans (ofLex edge)))
  readable : ∀ service, ServiceReadable rd windowStart (readings metrics) service
  instances : ∀ service metric resource required,
    utilMetricClass metric = some (resource, required) →
      InstancesAccepted rd windowStart (metricReadings (readings metrics) service metric) required
  named : ¬(MetricPresent rd windowStart (readings metrics) "" ∨
    ∃ resource, ResourceSaturated rd windowStart metrics (toLex ("", resource)))
  edgeIds : ∀ edge edge', EdgeCalled windowStart spans edge → EdgeCalled windowStart spans edge' →
    edgeObservableId (ofLex edge).1 (ofLex edge).2 =
      edgeObservableId (ofLex edge').1 (ofLex edge').2 → edge = edge'
  utilIds : ∀ key key', ResourceRead metrics key → ResourceRead metrics key' →
    utilObservableId (ofLex key).1 (ofLex key).2 =
      utilObservableId (ofLex key').1 (ofLex key').2 → key = key'

theorem returns_iff {spans : List (TraceSpan K)} {metrics : List (MetricSample K)} :
    (∃ inp, structuralSignals rd spans metrics windowStart = .ok inp) ↔
      (∀ service, Discretizable (tallySpans rd windowStart (spansOf spans service))) ∧
      (∀ service, ServiceReadable rd windowStart (readings metrics) service) ∧
      (∀ edge, Discretizable (tallySpans rd windowStart (spansOfEdge spans (ofLex edge)))) ∧
      ∀ service metric resource required, utilMetricClass metric = some (resource, required) →
        InstancesAccepted rd windowStart (metricReadings (readings metrics) service metric)
          required := by
  rw [structuralSignals_returns_iff, summarizeSpans_returns_iff, summarizeMetrics_returns_iff,
    summarizeEdges_returns_iff, summarizeUtilization_returns_iff]

theorem ids_nodup_iff {spans : List (TraceSpan K)} {metrics : List (MetricSample K)}
    {inp : StructuralInputs K} (h : structuralSignals rd spans metrics windowStart = .ok inp) :
    (observableIds inp).Nodup ↔
      (∀ edge edge', EdgeCalled windowStart spans edge → EdgeCalled windowStart spans edge' →
        edgeObservableId (ofLex edge).1 (ofLex edge).2 =
          edgeObservableId (ofLex edge').1 (ofLex edge').2 → edge = edge') ∧
      ∀ key key', ResourceRead metrics key → ResourceRead metrics key' →
        utilObservableId (ofLex key).1 (ofLex key).2 =
          utilObservableId (ofLex key').1 (ofLex key').2 → key = key' := by
  obtain ⟨-, -, -, -, hedges, hutil, -, -⟩ := structuralSignals_eq_ok h
  obtain ⟨results, hresults, hall⟩ := lookup_summarizeUtilization hutil
  rw [observableIds_nodup_iff,
    named_nodup_iff (fun edge : Pair => edgeObservableId (ofLex edge).1 (ofLex edge).2) ?_,
    named_nodup_iff (fun key : Pair => utilObservableId (ofLex key).1 (ofLex key).2) ?_]
  · simp only [exists_lookup_summarizeEdges hedges, exists_lookup_summarizeUtilization hutil]
  · intro key u hlookup
    have hid := util_id ((hall key).symm.trans hlookup)
    rw [UtilSignal.id, hid.1, hid.2]
  · intro edge e hlookup
    have hid := edge_id ((lookup_summarizeEdges hedges).mp hlookup).2
    rw [EdgeSignal.id, hid.1, hid.2]

/-- The structural pipeline does what it is meant to exactly on well-posed rows. -/
theorem picks_intended_iff (σ : Type) [DecidableEq σ] (rd : Rendering) (windowStart : Timestamp)
    (spans : List (TraceSpan K)) (metrics : List (MetricSample K)) :
    PicksIntended σ rd windowStart spans metrics ↔ WellPosed rd windowStart spans metrics := by
  constructor
  · rintro ⟨inp, hs, out, hinp, hhs, -, hids, -⟩
    obtain ⟨hservices, hreadable, hcalls, hinstances⟩ := returns_iff.mp ⟨inp, hinp⟩
    obtain ⟨hedgeIds, hutilIds⟩ := (ids_nodup_iff hinp).mp hids
    refine ⟨hservices, hcalls, hreadable, hinstances, ?_, hedgeIds, hutilIds⟩
    intro hempty
    have hcandidate := (candidate_empty_iff hinp).mpr hempty
    exact (buildHypotheses_returns_iff.mp ⟨hs, hhs⟩ "" hcandidate).1 rfl
  · intro h
    obtain ⟨inp, hinp⟩ := returns_iff.mpr ⟨h.services, h.readable, h.calls, h.instances⟩
    have hids := (ids_nodup_iff hinp).mpr ⟨h.edgeIds, h.utilIds⟩
    have hbuilt : ∀ service, Candidate inp service →
        service ≠ "" ∧ (predictedIds inp service).Nodup := by
      intro service hcandidate
      refine ⟨?_, predictedIds_nodup hids service⟩
      rintro rfl
      exact h.named ((candidate_empty_iff hinp).mp hcandidate)
    obtain ⟨hs, hhs⟩ := buildHypotheses_returns_iff (σ := σ).mpr hbuilt
    obtain ⟨out, hout, -⟩ := resolveStructural_of_built hhs hids
    exact ⟨inp, hs, out, hinp, hhs, hout, hids, fun service => mem_localizations hhs⟩

/-! Rows that are not well-posed. -/

/-- One error rate without attributes, and one with. -/
def mixedSamples : List (MetricSample (Exact ℚ)) :=
  [failing, { failing with attributes := some (.obj [("route", .str "/pay")]) }]

/-- An error rate of the service with the empty name. -/
def namelessSamples : List (MetricSample (Exact ℚ)) := [{ failing with service := some "" }]

/-- A resource whose name has a colon, and a service whose name has one. -/
def colonSamples : List (MetricSample (Exact ℚ)) :=
  [{ gauge "b:cpu.utilization" 5 (.finite (1 : ℚ)) with service := some "a" },
    { gauge "cpu.utilization" 5 (.finite (1 : ℚ)) with service := some "a:b" }]

/-- Series with and without identity do not compare, a hypothesis for the empty name is
rejected, and two resources get one id. -/
theorem ill_posed_rows :
    ¬PicksIntended ℕ plainRendering 3 [] mixedSamples ∧
      ¬PicksIntended ℕ plainRendering 3 [] namelessSamples ∧
      ¬PicksIntended ℕ plainRendering 3 [] colonSamples := by
  refine ⟨?_, ?_, ?_⟩
  · rintro ⟨inp, hs, out, hinp, -⟩
    have hraises :
        (structuralSignals plainRendering [] mixedSamples 3).toOption.isSome = false := by
      decide +kernel
    rw [hinp] at hraises
    cases hraises
  · rintro ⟨inp, hs, out, hinp, hhs, -⟩
    have hraises : ((structuralSignals plainRendering [] namelessSamples 3).bind
        (buildHypotheses (σ := ℕ))).toOption.isSome = false := by
      decide +kernel
    rw [hinp] at hraises
    change ((buildHypotheses (σ := ℕ) inp).toOption.isSome) = false at hraises
    rw [hhs] at hraises
    cases hraises
  · rintro ⟨inp, hs, out, hinp, -, -, hids, -⟩
    have hread : ∀ key metric, utilMetricClass metric = some ((ofLex key).2, .gauge) →
        0 < (metricReadings (readings colonSamples) (ofLex key).1 metric).length →
          ResourceRead colonSamples key :=
      fun key metric hcls hlength => ⟨metric, .gauge, hcls, List.length_pos_iff.mp hlength⟩
    have hfirst := hread (toLex ("a", "b:cpu")) "b:cpu.utilization" (by decide +kernel)
      (by decide +kernel)
    have hsecond := hread (toLex ("a:b", "cpu")) "cpu.utilization" (by decide +kernel)
      (by decide +kernel)
    have hsame := ((ids_nodup_iff hinp).mp hids).2 _ _ hfirst hsecond (by decide)
    exact absurd hsame (by decide)

end Raglogs.StructuralTotality
