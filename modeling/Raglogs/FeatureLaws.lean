import Raglogs.Candidates
import Raglogs.RowOrder

/-!
What the ranking of services depends on. The rows may come in any order, as long as no two
spans share an id. Every service that shows anything and is not excluded is ranked, once, and
the trace graph moves services but adds and drops none.
-/

namespace Raglogs.FeatureLaws

open Candidates Collections Dicts FailedEdges Features Linkage LogEntries ModelFiles RowOrder
  SilentServices SortedDicts Telemetry Text

/-! Rows in another order. -/

theorem tally_perm {κ : Type*} [DecidableEq κ] {l l' : List κ} (h : l.Perm l') :
    tally l = tally l' := by
  refine counter_ext (fun k => ?_) fun k => ?_
  · rw [mem_tally, mem_tally, h.mem_iff]
  · rw [count_tally, count_tally, h.count_eq]

theorem logFeatures_perm (isWord : Char → Bool) (lowering : Lowering)
    {entries entries' : List LogEntry} (h : entries.Perm entries')
    (incidentStart incidentEnd : Timestamp) :
    logFeatures isWord lowering entries incidentStart incidentEnd =
      logFeatures isWord lowering entries' incidentStart incidentEnd := by
  have hlines : (serviceLines entries incidentStart incidentEnd).Perm
      (serviceLines entries' incidentStart incidentEnd) := h.filterMap _
  unfold logFeatures
  dsimp only
  rw [tally_perm ((hlines.filter _).map Prod.fst), tally_perm ((hlines.filter _).map _),
    tally_perm ((hlines.filter _).map Prod.fst)]

theorem valuesOf_perm {κ α : Type} [DecidableEq κ] {rows rows' : List (κ × α)}
    (h : rows.Perm rows') (k : κ) : (valuesOf rows k).Perm (valuesOf rows' k) :=
  (h.filter _).map _

theorem p95_perm {xs ys : List ℚ} (h : xs.Perm ys) : p95 xs = p95 ys := by
  unfold p95
  rw [sortOn_eq_of_perm id h fun _ _ _ _ heq => heq]

theorem average_perm {xs ys : List ℚ} (h : xs.Perm ys) : average xs = average ys := by
  rw [average, average, h.sum_eq, h.length_eq]

/-- Trace features of the same spans. -/
structure SameTraces (f f' : TraceFeatures) : Prop where
  baseline : f.baseline.Perm f'.baseline
  incident : f.incident.Perm f'.incident
  pre : f.pre = f'.pre
  post : f.post = f'.post

theorem sameTraces_perm {spans spans' : List (TraceSpan (Exact ℚ))} (h : spans.Perm spans')
    (baselineStart incidentStart incidentEnd : Timestamp) :
    SameTraces (traceFeatures spans baselineStart incidentStart incidentEnd)
      (traceFeatures spans' baselineStart incidentStart incidentEnd) :=
  ⟨h.filterMap _, h.filterMap _, rfl, rfl⟩

section Traces

variable {f f' : TraceFeatures} (h : SameTraces f f')

include h

theorem traceServices_eq : f.services = f'.services :=
  List.toFinset_eq_of_perm _ _ (h.incident.map Prod.fst)

theorem rate_eq : f.rate = f'.rate := by
  funext s
  unfold TraceFeatures.rate
  rw [traceServices_eq h, (valuesOf_perm h.incident s).length_eq,
    (valuesOf_perm h.baseline s).length_eq, h.pre, h.post]

theorem duration_eq : f.duration = f'.duration := by
  funext s
  unfold TraceFeatures.duration
  rw [traceServices_eq h, p95_perm (valuesOf_perm h.incident s),
    p95_perm (valuesOf_perm h.baseline s)]

end Traces

/-- Metric features of the same samples. -/
structure SameMetrics (f f' : MetricFeatures) : Prop where
  baseline : f.baseline.Perm f'.baseline
  incident : f.incident.Perm f'.incident

section Metrics

variable {f f' : MetricFeatures} (h : SameMetrics f f')

include h

theorem series_eq : f.series = f'.series := by
  unfold MetricFeatures.series
  rw [List.toFinset_eq_of_perm _ _ (h.baseline.map Prod.fst),
    List.toFinset_eq_of_perm _ _ (h.incident.map Prod.fst)]

theorem metricServices_eq : f.services = f'.services := by
  rw [MetricFeatures.services, MetricFeatures.services, series_eq h]

theorem anomaly_eq : f.anomaly = f'.anomaly := by
  have hratio : f.ratio = f'.ratio := by
    funext k
    unfold MetricFeatures.ratio
    rw [average_perm (valuesOf_perm h.incident k), average_perm (valuesOf_perm h.baseline k)]
  funext s
  unfold MetricFeatures.anomaly
  rw [series_eq h, hratio]

end Metrics

theorem assembleFeatures_eq (logs : LogFeatures) {traces traces' : TraceFeatures}
    {metrics metrics' : MetricFeatures} (htraces : SameTraces traces traces')
    (hmetrics : SameMetrics metrics metrics') :
    assembleFeatures logs traces metrics = assembleFeatures logs traces' metrics' := by
  unfold assembleFeatures
  rw [traceServices_eq htraces, metricServices_eq hmetrics, rate_eq htraces, duration_eq htraces,
    anomaly_eq hmetrics]

section Rows

variable {entries entries' : List LogEntry} {spans spans' : List (TraceSpan (Exact ℚ))}
  {samples samples' : List (MetricSample ℚ)}

theorem computeFeatures_perm (isWord : Char → Bool) (lowering : Lowering) (rd : Rendering)
    (hentries : entries.Perm entries') (hspans : spans.Perm spans')
    (hsamples : samples.Perm samples') (scope : String)
    (baselineStart incidentStart incidentEnd : Timestamp) :
    computeFeatures isWord lowering rd entries spans samples scope baselineStart incidentStart
        incidentEnd =
      computeFeatures isWord lowering rd entries' spans' samples' scope baselineStart incidentStart
        incidentEnd := by
  unfold computeFeatures
  dsimp only
  rw [logFeatures_perm isWord lowering (hentries.filter _)]
  exact assembleFeatures_eq _ (sameTraces_perm (hspans.filter _) _ _ _)
    ⟨(hsamples.filter _).filterMap _, (hsamples.filter _).filterMap _⟩

theorem errorOnsets_perm (env : RankEnvironment) (h : entries.Perm entries') (scope : String)
    (windowStart windowEnd : Timestamp) :
    errorOnsets env entries scope windowStart windowEnd =
      errorOnsets env entries' scope windowStart windowEnd := by
  have hfirst : ∀ {l l' : List (String × Timestamp)}, l.Perm l' →
      firstError l = firstError l' := by
    intro l l' hl
    funext s
    rw [firstError, firstError, min?_eq_of_perm (valuesOf_perm hl s)]
  have hdict : ∀ {l l' : List (String × Timestamp)}, l.Perm l' →
      dictOf ((fromKeys (l.map Prod.fst)).filterMap fun s =>
        (firstError l s).map fun t => (s, t)) =
      dictOf ((fromKeys (l'.map Prod.fst)).filterMap fun s =>
        (firstError l' s).map fun t => (s, t)) := by
    intro l l' hl
    refine Finmap.ext_lookup fun k => ?_
    rw [lookup_dictOf_filterMap (fromKeys_nodup _), lookup_dictOf_filterMap (fromKeys_nodup _),
      hfirst hl]
    simp only [mem_fromKeys, (hl.map Prod.fst).mem_iff]
  exact hdict (h.filterMap _)

theorem dictOf_perm {κ ν : Type*} [DecidableEq κ] {l l' : List (κ × ν)}
    (hnodup : (l.map Prod.fst).Nodup) (h : l.Perm l') : dictOf l = dictOf l' := by
  refine Finmap.ext_lookup fun k => Option.ext fun v => ?_
  rw [lookup_dictOf hnodup, lookup_dictOf ((h.map Prod.fst).nodup_iff.mp hnodup), h.mem_iff]

/-- No two spans of a scope have one id. -/
def UniqueIds (scope : String) (spans : List (TraceSpan (Exact ℚ))) : Prop :=
  ((spans.filter fun sp => sp.scope == scope).filterMap TraceSpan.spanId).Nodup

instance (scope : String) (spans : List (TraceSpan (Exact ℚ))) :
    Decidable (UniqueIds scope spans) :=
  inferInstanceAs (Decidable (List.Nodup _))

theorem spanFields_ids_sublist (spans : List (TraceSpan (Exact ℚ))) :
    ((spans.filterMap spanFields).map SpanFields.spanId).Sublist
      (spans.filterMap TraceSpan.spanId) := by
  induction spans with
  | nil => exact List.Sublist.slnil
  | cons sp rest ih =>
    cases hid : sp.spanId with
    | none =>
      have hfields : spanFields sp = none := by
        rw [spanFields, hid]
        rfl
      rw [List.filterMap_cons_none hfields, List.filterMap_cons_none hid]
      exact ih
    | some id =>
      rw [List.filterMap_cons_some hid]
      cases hservice : truthy sp.service with
      | none =>
        have hfields : spanFields sp = none := by
          rw [spanFields, hid, hservice]
          rfl
        rw [List.filterMap_cons_none hfields]
        exact ih.cons id
      | some service =>
        have hfields : spanFields sp = some ⟨id, sp.parentSpanId, service⟩ := by
          rw [spanFields, hid, hservice]
          rfl
        rw [List.filterMap_cons_some hfields]
        exact ih.cons_cons id

theorem serviceGraph_perm {scope : String} (hunique : UniqueIds scope spans)
    (h : spans.Perm spans') (windowStart windowEnd : Timestamp) :
    serviceGraphFromSpans (spansInWindow spans scope windowStart windowEnd) =
      serviceGraphFromSpans (spansInWindow spans' scope windowStart windowEnd) := by
  have hwindow : (spansInWindow spans scope windowStart windowEnd).Sublist
      (spans.filter fun sp => sp.scope == scope) :=
    List.monotone_filter_right _ fun _ hsp => (Bool.and_eq_true_iff.mp hsp).1
  have hrows : ((spansInWindow spans scope windowStart windowEnd).filterMap spanFields).Perm
      ((spansInWindow spans' scope windowStart windowEnd).filterMap spanFields) :=
    (h.filter _).filterMap _
  have hids : (((spansInWindow spans scope windowStart windowEnd).filterMap spanFields).map
      SpanFields.spanId).Nodup :=
    hunique.sublist ((spanFields_ids_sublist _).trans (hwindow.filterMap _))
  have hdict : ∀ {ν : Type} (value : SpanFields → ν),
      dictOf (((spansInWindow spans scope windowStart windowEnd).filterMap spanFields).map
        fun r => (r.spanId, value r)) =
      dictOf (((spansInWindow spans' scope windowStart windowEnd).filterMap spanFields).map
        fun r => (r.spanId, value r)) := by
    intro ν value
    refine dictOf_perm ?_ (hrows.map _)
    rw [List.map_map]
    exact hids
  have hkeys := fromKeys_perm (hrows.map SpanFields.spanId)
  unfold serviceGraphFromSpans
  dsimp only
  rw [hdict SpanFields.service, hdict SpanFields.parentSpanId,
    List.toFinset_eq_of_perm _ _ (hkeys.filterMap _),
    List.toFinset_eq_of_perm _ _ (hkeys.filterMap _)]

theorem propagationRerank_perm (env : RankEnvironment) (hentries : entries.Perm entries')
    (hspans : spans.Perm spans') {scope : String} (hunique : UniqueIds scope spans)
    (windowStart windowEnd : Timestamp) :
    propagationRerank env entries spans scope windowStart windowEnd =
      propagationRerank env entries' spans' scope windowStart windowEnd := by
  have hdependency : failedEdgeDependencies env.lowering env.order
        (errorSpanEdges spans scope windowStart windowEnd) =
      failedEdgeDependencies env.lowering env.order
        (errorSpanEdges spans' scope windowStart windowEnd) :=
    failedEdgeDependencies_eq_of_perm _ _ ((hspans.filter _).map rowOf)
  funext candidates
  unfold propagationRerank
  rw [serviceGraph_perm hunique hspans, errorOnsets_perm env hentries, hdependency]

/-- The ranking of a scope does not depend on the order of the rows. -/
theorem rankCandidates_perm (env : RankEnvironment) (hentries : entries.Perm entries')
    (hspans : spans.Perm spans') (hsamples : samples.Perm samples') {scope : String}
    (hunique : env.propagationRerank = true → UniqueIds scope spans)
    (windowStart windowEnd : Timestamp) (baselineWindow : String) :
    rankCandidates env entries spans samples scope windowStart windowEnd baselineWindow =
      rankCandidates env entries' spans' samples' scope windowStart windowEnd baselineWindow := by
  have hmoved : movedCandidates env entries spans scope windowStart windowEnd =
      movedCandidates env entries' spans' scope windowStart windowEnd := by
    funext candidates
    unfold movedCandidates
    by_cases hrerank : env.propagationRerank = true
    · rw [propagationRerank_perm env hentries hspans (hunique hrerank)]
    · rw [if_neg hrerank, if_neg hrerank]
  unfold rankCandidates
  simp only [computeFeatures_perm env.isWord env.lowering env.rendering hentries hspans hsamples,
    hmoved]

end Rows

/-- A ranker by error lines, with the trace graph. -/
def sampleRank : RankEnvironment where
  isWord c := c.isAlphanum
  lowering := asciiLowering
  rendering := ⟨asciiLowering, fun _ => "", fun _ => ""⟩
  fixed _ x := toString x.num
  floats := exactFloats
  ranker := some fun sf => .ok sf.logErr
  calibrator := none
  excludedServices := some "gateway"
  propagationRerank := true
  order := Propagation.byName
  squash := ⟨fun _ => 0, fun _ => zero_le_one, fun _ => neg_one_lt_zero.le, rfl⟩

/-- A span of a service that was called by another one. -/
def sampleSpan (spanId : String) (parent : Option String) (service : String) :
    TraceSpan (Exact ℚ) :=
  ⟨some "t", some spanId, parent, some service, none, some 10, some (.finite (5 : ℚ)), some "ERROR",
    "default"⟩

def sampleSpans : List (TraceSpan (Exact ℚ)) :=
  [sampleSpan "a" none "api", sampleSpan "b" (some "a") "db"]

theorem sample_perm :
    rankCandidates sampleRank [] sampleSpans [] "default" 5 20 "24h" =
      rankCandidates sampleRank [] sampleSpans.reverse [] "default" 5 20 "24h" :=
  rankCandidates_perm sampleRank (List.Perm.refl _) (List.reverse_perm _).symm (List.Perm.refl _)
    (fun _ => by decide +kernel) 5 20 "24h"

/-! Who is ranked. -/

section Shown

variable (env : RankEnvironment) (entries : List LogEntry) (spans : List (TraceSpan (Exact ℚ)))
  (samples : List (MetricSample ℚ)) (scope : String) (baselineStart incidentStart incidentEnd :
  Timestamp)

/-- A service has an error line in the incident. -/
def LogsShow (s : String) : Prop :=
  ∃ e ∈ entries, e.scope = scope ∧ truthy e.service = some s ∧ isErrorLine env.lowering e = true ∧
    ∃ t, e.timestamp = some t ∧ incidentStart ≤ t ∧ t ≤ incidentEnd

/-- A service has a span with a duration in the incident. -/
def TracesShow (s : String) : Prop :=
  ∃ sp ∈ spans, sp.scope = scope ∧ truthy sp.service = some s ∧
    sp.durationMs ≠ none ∧
      ∃ t, sp.startTime = some t ∧ baselineStart ≤ t ∧ incidentStart ≤ t ∧ t ≤ incidentEnd

/-- A sample of a series of a service, with a value. -/
def SampleOf (s metric : String) (key : Option String) (m : MetricSample ℚ) : Prop :=
  m.scope = scope ∧ truthy m.service = some s ∧ m.metric = metric ∧
    seriesKey env.rendering m.attributes = key ∧ m.value ≠ none

/-- A service has a series with samples both before and in the incident. -/
def MetricsShow (s : String) : Prop :=
  ∃ metric key,
    (∃ m ∈ samples, SampleOf env scope s metric key m ∧
      ∃ t, m.ts = some t ∧ baselineStart ≤ t ∧ t < incidentStart ∧ t ≤ incidentEnd) ∧
    ∃ m ∈ samples, SampleOf env scope s metric key m ∧
      ∃ t, m.ts = some t ∧ baselineStart ≤ t ∧ incidentStart ≤ t ∧ t ≤ incidentEnd

/-- A service that shows anything. -/
def Shows (s : String) : Prop :=
  LogsShow env entries scope incidentStart incidentEnd s ∨
    TracesShow spans scope baselineStart incidentStart incidentEnd s ∨
    MetricsShow env samples scope baselineStart incidentStart incidentEnd s

end Shown

section Membership

variable {env : RankEnvironment} {entries : List LogEntry} {spans : List (TraceSpan (Exact ℚ))}
  {samples : List (MetricSample ℚ)} {scope : String}
  {baselineStart incidentStart incidentEnd : Timestamp}

theorem mem_serviceLines {rows : List LogEntry} {p : String × LogEntry} :
    p ∈ serviceLines rows incidentStart incidentEnd ↔
      p.2 ∈ rows ∧ truthy p.2.service = some p.1 ∧
        ∃ t, p.2.timestamp = some t ∧ incidentStart ≤ t ∧ t ≤ incidentEnd := by
  obtain ⟨s, e⟩ := p
  simp only [serviceLines, List.mem_filterMap, Option.bind_eq_bind, Option.bind_eq_some_iff,
    Option.ite_none_right_eq_some, Option.some.injEq, Prod.mk.injEq]
  constructor
  · rintro ⟨e', he', s', hs', t, ht, hin, rfl, rfl⟩
    exact ⟨he', hs', t, ht, hin⟩
  · rintro ⟨he, hs, t, ht, hin⟩
    exact ⟨e, he, s, hs, t, ht, hin, rfl, rfl⟩

theorem mem_durations {rows : List (TraceSpan (Exact ℚ))} {during : Timestamp → Bool}
    {p : String × ℚ} :
    p ∈ durations rows during ↔
      ∃ sp ∈ rows, truthy sp.service = some p.1 ∧ sp.durationMs = some (.finite p.2) ∧
        ∃ t, sp.startTime = some t ∧ during t = true := by
  obtain ⟨s, d⟩ := p
  simp only [durations, List.mem_filterMap, Option.bind_eq_bind, Option.bind_eq_some_iff]
  constructor
  · rintro ⟨sp, hsp, s', hs', t, ht, v, hv, hrow⟩
    cases v with
    | finite d' =>
      obtain ⟨hduring, heq⟩ := Option.ite_none_right_eq_some.mp hrow
      obtain ⟨rfl, rfl⟩ := Prod.mk.inj (Option.some.inj heq)
      exact ⟨sp, hsp, hs', hv, t, ht, hduring⟩
    | nonFinite => cases hrow
  · rintro ⟨sp, hsp, hs, hd, t, ht, hduring⟩
    exact ⟨sp, hsp, s, hs, t, ht, _, hd, if_pos hduring⟩

theorem mem_metricValues {rd : Rendering} {rows : List (MetricSample ℚ)}
    {during : Timestamp → Bool} {p : SeriesKey × ℚ} :
    p ∈ metricValues rd rows during ↔
      ∃ m ∈ rows, truthy m.service = some p.1.1 ∧ m.metric = p.1.2.1 ∧
        seriesKey rd m.attributes = p.1.2.2 ∧ m.value = some (.finite p.2) ∧
        ∃ t, m.ts = some t ∧ during t = true := by
  obtain ⟨⟨s, metric, key⟩, v⟩ := p
  simp only [metricValues, List.mem_filterMap, Option.bind_eq_bind, Option.bind_eq_some_iff]
  constructor
  · rintro ⟨m, hm, s', hs', t, ht, w, hw, hrow⟩
    cases w with
    | finite v' =>
      obtain ⟨hduring, heq⟩ := Option.ite_none_right_eq_some.mp hrow
      simp only [Option.some.injEq, Prod.mk.injEq] at heq
      obtain ⟨⟨rfl, rfl, rfl⟩, rfl⟩ := heq
      exact ⟨m, hm, hs', rfl, rfl, hw, t, ht, hduring⟩
    | nonFinite => cases hrow
  · rintro ⟨m, hm, hs, rfl, rfl, hv, t, ht, hduring⟩
    exact ⟨m, hm, s, hs, t, ht, _, hv, if_pos hduring⟩

theorem services_assembleFeatures (logs : LogFeatures) (traces : TraceFeatures)
    (metrics : MetricFeatures) :
    (assembleFeatures logs traces metrics).services.map ServiceFeatures.service =
      inOrder (logs.err.keys ∪ traces.services ∪ metrics.services) := by
  unfold assembleFeatures
  rw [List.map_map]
  exact List.map_id' _

/-- The rows of the feature table are the services that show anything, if all that is measured is
finite. -/
theorem mem_computeFeatures (hspans : FiniteDurations spans) (hsamples : FiniteValues samples)
    (s : String) :
    s ∈ (computeFeatures env.isWord env.lowering env.rendering entries spans samples scope
        baselineStart incidentStart incidentEnd).services.map ServiceFeatures.service ↔
      Shows env entries spans samples scope baselineStart incidentStart incidentEnd s := by
  unfold computeFeatures
  dsimp only
  rw [services_assembleFeatures, mem_inOrder, Finset.mem_union, Finset.mem_union, or_assoc]
  refine or_congr ?_ (or_congr ?_ ?_)
  · rw [Finmap.mem_keys, logFeatures, mem_tally, List.mem_map]
    simp only [List.mem_filter, mem_serviceLines, Bool.and_eq_true, beq_iff_eq,
      Option.any_eq_true]
    constructor
    · rintro ⟨⟨_, e⟩, ⟨⟨⟨he, hscope, -⟩, hs, ht⟩, herror⟩, rfl⟩
      exact ⟨e, he, hscope, hs, herror, ht⟩
    · rintro ⟨e, he, hscope, hs, herror, t, ht, hstart, hend⟩
      refine ⟨(s, e), ⟨⟨⟨he, hscope, t, ht, ?_⟩, hs, t, ht, hstart, hend⟩, herror⟩, rfl⟩
      simp [hstart, hend]
  · rw [TraceFeatures.services, List.mem_toFinset, traceFeatures, List.mem_map]
    simp only [mem_durations, List.mem_filter, Bool.and_eq_true, beq_iff_eq, Option.any_eq_true,
      decide_eq_true_eq]
    constructor
    · rintro ⟨⟨_, d⟩, ⟨sp, ⟨hsp, hscope, t', ht', hbase, -⟩, hs, hd, t, ht, hstart, hend⟩, rfl⟩
      obtain rfl := Option.some.inj (ht.symm.trans ht')
      exact ⟨sp, hsp, hscope, hs, hd ▸ Option.some_ne_none _, t, ht, hbase, hstart, hend⟩
    · rintro ⟨sp, hsp, hscope, hs, htimed, t, ht, hbase, hstart, hend⟩
      obtain ⟨d, hd⟩ := Number.exists_finite htimed (hspans sp hsp)
      exact ⟨(s, d), ⟨sp, ⟨hsp, hscope, t, ht, hbase, hend⟩, hs, hd, t, ht, hstart, hend⟩, rfl⟩
  · rw [MetricFeatures.services, Finset.mem_image]
    simp only [MetricFeatures.series, Finset.mem_inter, List.mem_toFinset, List.mem_map,
      metricFeatures, mem_metricValues, List.mem_filter, Bool.and_eq_true, beq_iff_eq,
      Option.any_eq_true, decide_eq_true_eq]
    constructor
    · rintro ⟨⟨_, metric, key⟩, ⟨⟨⟨_, v⟩, ⟨m, ⟨hm, hscope, t', ht', hbase, hend⟩, hs, hmetric, hkey,
        hv, t, ht, -, hbefore⟩, rfl⟩, ⟨⟨_, w⟩, ⟨n, ⟨hn, hscope', u', hu', hbase', -⟩, hs', hmetric',
        hkey', hw, u, hu, hstart, hend'⟩, heq⟩⟩, rfl⟩
      obtain rfl := Option.some.inj (ht.symm.trans ht')
      obtain rfl := Option.some.inj (hu.symm.trans hu')
      cases heq
      exact ⟨metric, key, ⟨m, hm, ⟨hscope, hs, hmetric, hkey, hv ▸ Option.some_ne_none _⟩, t, ht,
        hbase, hbefore, hend⟩, n, hn, ⟨hscope', hs', hmetric', hkey', hw ▸ Option.some_ne_none _⟩,
        u, hu, hbase', hstart, hend'⟩
    · rintro ⟨metric, key, ⟨m, hm, ⟨hscope, hs, hmetric, hkey, hmeasured⟩, t, ht, hbase, hbefore,
        hend⟩, n, hn, ⟨hscope', hs', hmetric', hkey', hmeasured'⟩, u, hu, hbase', hstart, hend'⟩
      obtain ⟨v, hv⟩ := Number.exists_finite hmeasured (hsamples m hm)
      obtain ⟨w, hw⟩ := Number.exists_finite hmeasured' (hsamples n hn)
      exact ⟨(s, metric, key), ⟨⟨((s, metric, key), v), ⟨m, ⟨hm, hscope, t, ht, hbase, hend⟩, hs,
        hmetric, hkey, hv, t, ht, hbase, hbefore⟩, rfl⟩, ⟨((s, metric, key), w), ⟨n, ⟨hn, hscope',
        u, hu, hbase', hend'⟩, hs', hmetric', hkey', hw, u, hu, hstart, hend'⟩, rfl⟩⟩, rfl⟩

end Membership

/-! What is answered. -/

theorem nodup_computeFeatures (isWord : Char → Bool) (lowering : Lowering) (rd : Rendering)
    (entries : List LogEntry) (spans : List (TraceSpan (Exact ℚ))) (samples : List (MetricSample ℚ))
    (scope : String) (baselineStart incidentStart incidentEnd : Timestamp) :
    ((computeFeatures isWord lowering rd entries spans samples scope baselineStart incidentStart
      incidentEnd).services.map ServiceFeatures.service).Nodup := by
  unfold computeFeatures
  dsimp only
  rw [services_assembleFeatures]
  exact inOrder_nodup _

section Answered

variable {env : RankEnvironment} {table : FeatureTable}
  {scorer : ServiceFeatures ℚ → Except PyError ℚ}

/-- A candidate is a row of the table that is not excluded, with its score and its evidence. -/
def Scored (env : RankEnvironment) (table : FeatureTable)
    (scorer : ServiceFeatures ℚ → Except PyError ℚ) (c : Candidate) : Prop :=
  c.features ∈ table.services ∧ c.service ∉ env.excluded ∧ c.service = c.features.service ∧
    scorer c.features = .ok c.score ∧ c.evidence = evidenceFor env.fixed c.features

/-- No service outside the exclusions has a higher score than a candidate. -/
def Highest (env : RankEnvironment) (table : FeatureTable)
    (scorer : ServiceFeatures ℚ → Except PyError ℚ) (c : Candidate) : Prop :=
  ∀ sf ∈ table.services, sf.service ∉ env.excluded → ∀ x, scorer sf = .ok x → x ≤ c.score

theorem score_le {key key' : String} {x y : ℚ} (h : toLex (-x, key) ≤ toLex (-y, key')) :
    y ≤ x := by
  rcases Prod.Lex.le_iff.mp h with hlt | ⟨heq, -⟩
  · exact neg_le_neg_iff.mp hlt.le
  · exact (neg_inj.mp heq).ge

section Built

variable {candidates : List Candidate}
  (hbuilt : buildCandidates env.fixed table scorer env.excluded = .ok candidates)

include hbuilt

/-- The candidates are the rows that are not excluded, sorted. -/
theorem buildCandidates_eq_ok : ∃ rows : List Candidate,
    candidates = sortOn (fun c => toLex (-c.score, c.service)) rows ∧
      List.Forall₂ (fun sf c => scorer sf = .ok c.score ∧
        c = ⟨sf.service, c.score, sf, evidenceFor env.fixed sf⟩)
        (table.services.filter fun sf => !env.excluded.contains sf.service) rows := by
  obtain ⟨rows, hrows, hsorted⟩ := bind_eq_ok.mp hbuilt
  refine ⟨rows, (Except.ok.inj hsorted).symm, (mapM_eq_ok_iff.mp hrows).imp fun sf c hc => ?_⟩
  cases hscore : scorer sf with
  | error e =>
    rw [hscore] at hc
    cases hc
  | ok score =>
    rw [hscore] at hc
    obtain rfl := Except.ok.inj hc
    exact ⟨rfl, rfl⟩

theorem services_buildCandidates : (candidates.map Candidate.service).Perm
    ((table.services.map ServiceFeatures.service).filter fun s => !env.excluded.contains s) := by
  obtain ⟨rows, rfl, hrows⟩ := buildCandidates_eq_ok hbuilt
  have hsame : rows.map Candidate.service =
      (table.services.filter fun sf => !env.excluded.contains sf.service).map
        ServiceFeatures.service := by
    refine map_eq_map_of_forall₂ (hrows.flip.imp fun c sf hc => ?_)
    rw [hc.2]
  rw [List.filter_map]
  exact hsame ▸ (sortOn_perm _ rows).map Candidate.service

theorem scored_of_mem {c : Candidate} (hc : c ∈ candidates) : Scored env table scorer c := by
  obtain ⟨rows, rfl, hrows⟩ := buildCandidates_eq_ok hbuilt
  obtain ⟨sf, hsf, hscore, heq⟩ := exists_source hrows ((mem_sortOn _).mp hc)
  obtain ⟨hsf, hexcluded⟩ := List.mem_filter.mp hsf
  rw [heq]
  refine ⟨hsf, ?_, rfl, hscore, rfl⟩
  simpa using hexcluded

theorem highest_first {first : Candidate} {rest : List Candidate}
    (hcons : candidates = first :: rest) : Highest env table scorer first := by
  obtain ⟨rows, rfl, hrows⟩ := buildCandidates_eq_ok hbuilt
  have hsorted := sortOn_pairwise (fun c : Candidate => toLex (-c.score, c.service)) rows
  rw [hcons, List.pairwise_cons] at hsorted
  intro sf hsf hexcluded x hx
  have hkept : sf ∈ table.services.filter fun sf => !env.excluded.contains sf.service :=
    List.mem_filter.mpr ⟨hsf, by simpa using hexcluded⟩
  obtain ⟨c, hc, hscore, -⟩ := exists_source hrows.flip hkept
  obtain rfl : x = c.score := Except.ok.inj (hx.symm.trans hscore)
  rcases List.mem_cons.mp (hcons ▸ (mem_sortOn _).mpr hc) with rfl | hrest
  · exact le_rfl
  · exact score_le (hsorted.1 c hrest)

end Built

end Answered

/-! The trace graph moves the candidates. -/

section Moved

variable (env : RankEnvironment) (entries : List LogEntry) (spans : List (TraceSpan (Exact ℚ)))
  (scope : String) (windowStart windowEnd : Timestamp)

theorem find?_candidate {candidates : List Candidate}
    (hnodup : (candidates.map Candidate.service).Nodup) {c : Candidate} (hc : c ∈ candidates) :
    candidates.reverse.find? (fun d => d.service == c.service) = some c := by
  have hfound : (candidates.reverse.find? fun d => d.service == c.service).isSome = true :=
    List.find?_isSome.mpr ⟨c, List.mem_reverse.mpr hc, beq_self_eq_true c.service⟩
  obtain ⟨d, hd⟩ := Option.isSome_iff_exists.mp hfound
  have hservice : d.service = c.service := by simpa using List.find?_some hd
  have hmem : d ∈ candidates := List.mem_reverse.mp (List.mem_of_find?_eq_some hd)
  rw [hd, List.inj_on_of_nodup_map hnodup hmem hc hservice]

theorem movedCandidates_perm {candidates : List Candidate}
    (hnodup : (candidates.map Candidate.service).Nodup) :
    (movedCandidates env entries spans scope windowStart windowEnd candidates).Perm candidates := by
  unfold movedCandidates
  split
  · unfold propagationRerank
    dsimp only
    split
    · exact List.Perm.refl _
    · have hranked : ((candidates.map Candidate.ranked).map
          Propagation.RootCauseCandidate.service).Nodup := by
        rwa [List.map_map]
      have hsame : (candidates.map Candidate.ranked).filterMap
          (fun r => candidates.reverse.find? fun c => c.service == r.service) = candidates := by
        rw [List.filterMap_map]
        exact (List.filterMap_congr fun c hc => find?_candidate hnodup hc).trans
          List.filterMap_some
      rw [Propagation.rerankCandidates_eq hranked]
      exact ((sortOn_perm _ _).filterMap _).trans (List.Perm.of_eq hsame)
  · exact List.Perm.refl _

end Moved

section Outcome

variable (env : RankEnvironment) (entries : List LogEntry) (spans : List (TraceSpan (Exact ℚ)))
  (samples : List (MetricSample ℚ)) (scope : String) (windowStart windowEnd : Timestamp)

/-- What a ranking with a loaded model and a baseline says. -/
structure Ranked (scorer : ServiceFeatures ℚ → Except PyError ℚ) (start : Timestamp)
    (table : FeatureTable) (o : RankOutcome) : Prop where
  services : ∀ s, s ∈ o.services ↔
    s ∉ env.excluded ∧ Shows env entries spans samples scope start windowStart windowEnd s
  nodup : o.services.Nodup
  predicted : o.predicted = o.services.head?
  shown : o.candidates.map Candidate.service = o.services.take topK
  scored : ∀ c ∈ o.candidates, Scored env table scorer c
  /-- Only what the ranker puts first has a probability. -/
  confidence : o.confidence ≠ none → ∃ c, o.candidates.head? = some c ∧ Highest env table scorer c
  /-- Without the trace graph the ranker's scores decide. -/
  unmoved : env.propagationRerank = false →
    o.candidates.Pairwise fun c d => d.score ≤ c.score

/-- What an answer of the ranker says. -/
def Sound (baselineWindow : String) : Except RankError RankOutcome → Prop
  | .error _ => True
  | .ok o =>
      match env.ranker with
      | none => o = .none
      | some scorer => ∃ start, rankBaseline env windowStart baselineWindow = .ok start ∧
          Ranked env entries spans samples scope windowStart windowEnd scorer start
            (computeFeatures env.isWord env.lowering env.rendering entries spans samples scope start
              windowStart windowEnd) o

end Outcome

/-- The ranking, with its error. -/
theorem rankCandidates_of_ranker {env : RankEnvironment} {entries : List LogEntry}
    {spans : List (TraceSpan (Exact ℚ))} {samples : List (MetricSample ℚ)} {scope : String}
    {windowStart windowEnd : Timestamp} {baselineWindow : String} {o : RankOutcome}
    {scorer : ServiceFeatures ℚ → Except PyError ℚ} (hranker : env.ranker = some scorer)
    (h : rankCandidates env entries spans samples scope windowStart windowEnd baselineWindow =
      .ok o) :
    ∃ start candidates, rankBaseline env windowStart baselineWindow = .ok start ∧
      buildCandidates env.fixed (computeFeatures env.isWord env.lowering env.rendering entries spans
        samples scope start windowStart windowEnd) scorer env.excluded = .ok candidates ∧
      (candidates = [] ∧ o = .none ∨
        ∃ first rest confidence, candidates = first :: rest ∧
          confidenceOf env first
            (movedCandidates env entries spans scope windowStart windowEnd candidates) =
              .ok confidence ∧
          o = ⟨(movedCandidates env entries spans scope windowStart windowEnd
              candidates).head?.map Candidate.service,
            (movedCandidates env entries spans scope windowStart windowEnd candidates).take topK,
            confidence,
            (movedCandidates env entries spans scope windowStart windowEnd candidates).map
              Candidate.service⟩) := by
  unfold rankCandidates at h
  rw [hranker] at h
  dsimp only at h
  obtain ⟨start, hstart, h⟩ := bind_eq_ok.mp h
  obtain ⟨candidates, hbuilt, h⟩ := bind_eq_ok.mp h
  refine ⟨start, candidates, mapError_eq_ok.mp hstart, mapError_eq_ok.mp hbuilt, ?_⟩
  cases candidates with
  | nil => exact Or.inl ⟨rfl, (Except.ok.inj h).symm⟩
  | cons first rest =>
    obtain ⟨confidence, hconfidence, h⟩ := bind_eq_ok.mp h
    exact Or.inr ⟨first, rest, confidence, rfl, mapError_eq_ok.mp hconfidence,
      (Except.ok.inj h).symm⟩

/-- A probability is only given to the ranker's first. -/
theorem head?_of_confidenceOf {env : RankEnvironment} {first : Candidate} {moved : List Candidate}
    {confidence : ℚ} (hne : moved ≠ [])
    (h : confidenceOf env first moved = .ok (some confidence)) :
    ∃ c, moved.head? = some c ∧ c.service = first.service := by
  obtain ⟨c, rest, rfl⟩ := List.exists_cons_of_ne_nil hne
  refine ⟨c, rfl, ?_⟩
  unfold confidenceOf at h
  split at h
  · split at h
    · rename_i hsame
      simpa using hsame
    · cases h
  · cases h

/-- The services ranked are those that show anything and are not excluded. -/
theorem mem_services_buildCandidates {env : RankEnvironment} {entries : List LogEntry}
    {spans : List (TraceSpan (Exact ℚ))} {samples : List (MetricSample ℚ)} {scope : String}
    {start windowStart windowEnd : Timestamp} {candidates : List Candidate}
    {scorer : ServiceFeatures ℚ → Except PyError ℚ} (hspans : FiniteDurations spans)
    (hsamples : FiniteValues samples)
    (hbuilt : buildCandidates env.fixed (computeFeatures env.isWord env.lowering env.rendering
      entries spans samples scope start windowStart windowEnd) scorer env.excluded = .ok candidates)
    (s : String) : s ∈ candidates.map Candidate.service ↔
      s ∉ env.excluded ∧ Shows env entries spans samples scope start windowStart windowEnd s := by
  rw [(services_buildCandidates hbuilt).mem_iff, List.mem_filter,
    mem_computeFeatures hspans hsamples, and_comm]
  simp

theorem nodup_services_buildCandidates {env : RankEnvironment} {entries : List LogEntry}
    {spans : List (TraceSpan (Exact ℚ))} {samples : List (MetricSample ℚ)} {scope : String}
    {start windowStart windowEnd : Timestamp} {candidates : List Candidate}
    {scorer : ServiceFeatures ℚ → Except PyError ℚ}
    (hbuilt : buildCandidates env.fixed (computeFeatures env.isWord env.lowering env.rendering
      entries spans samples scope start windowStart windowEnd) scorer env.excluded =
        .ok candidates) : (candidates.map Candidate.service).Nodup :=
  (services_buildCandidates hbuilt).nodup_iff.mpr
    ((nodup_computeFeatures _ _ _ _ _ _ _ _ _ _).filter _)

/-- Every ranking that is answered says what the feature table and the ranker's scores say, if all
that is measured is finite. -/
theorem rankCandidates_sound (env : RankEnvironment) (entries : List LogEntry)
    {spans : List (TraceSpan (Exact ℚ))} {samples : List (MetricSample ℚ)}
    (hspans : FiniteDurations spans) (hsamples : FiniteValues samples) (scope : String)
    (windowStart windowEnd : Timestamp) (baselineWindow : String) :
    Sound env entries spans samples scope windowStart windowEnd baselineWindow
      (rankCandidates env entries spans samples scope windowStart windowEnd baselineWindow) := by
  cases hranking : rankCandidates env entries spans samples scope windowStart windowEnd
      baselineWindow with
  | error e => exact trivial
  | ok o =>
    unfold Sound
    dsimp only
    cases hranker : env.ranker with
    | none =>
      rw [rankCandidates, hranker] at hranking
      exact (Except.ok.inj hranking).symm
    | some scorer =>
      obtain ⟨start, candidates, hstart, hbuilt, hcases⟩ :=
        rankCandidates_of_ranker hranker hranking
      refine ⟨start, hstart, ?_⟩
      have hmem := mem_services_buildCandidates hspans hsamples hbuilt
      have hnodup := nodup_services_buildCandidates hbuilt
      rcases hcases with ⟨rfl, rfl⟩ | ⟨first, rest, confidence, hcons, hconfidence, rfl⟩
      · exact ⟨hmem, List.nodup_nil, rfl, rfl, fun c hc => absurd hc List.not_mem_nil,
          fun hne => absurd rfl hne, fun _ => List.Pairwise.nil⟩
      · have hperm := movedCandidates_perm env entries spans scope windowStart windowEnd hnodup
        generalize hmoved : movedCandidates env entries spans scope windowStart windowEnd
          candidates = moved at hperm hconfidence ⊢
        have hne : moved ≠ [] := by
          rintro rfl
          rw [hcons] at hperm
          exact absurd hperm.length_eq (by simp)
        refine ⟨fun s => ?_, (hperm.map _).nodup_iff.mpr hnodup, List.head?_map.symm,
          List.map_take, fun c hc => ?_, fun hsome => ?_, fun hoff => ?_⟩
        · rw [(hperm.map Candidate.service).mem_iff]
          exact hmem s
        · exact scored_of_mem hbuilt (hperm.mem_iff.mp (List.mem_of_mem_take hc))
        · cases confidence with
          | none => exact absurd rfl hsome
          | some p =>
            obtain ⟨c, hhead, hservice⟩ := head?_of_confidenceOf hne hconfidence
            have hc : c ∈ candidates := hperm.mem_iff.mp (List.mem_of_head? hhead)
            have hfirst : first ∈ candidates := hcons ▸ List.mem_cons_self
            obtain rfl := List.inj_on_of_nodup_map hnodup hc hfirst hservice
            refine ⟨c, ?_, highest_first hbuilt hcons⟩
            rw [List.head?_take, if_neg (by decide)]
            exact hhead
        · have hkept : moved = candidates := by
            rw [← hmoved, movedCandidates, if_neg (by simp [hoff])]
          obtain ⟨rows, hrows, -⟩ := buildCandidates_eq_ok hbuilt
          have hsorted := sortOn_pairwise (fun c : Candidate => toLex (-c.score, c.service)) rows
          rw [hkept, hrows]
          exact (hsorted.imp fun hle => score_le hle).sublist (List.take_sublist _ _)

theorem finite_sampleSpans : FiniteDurations sampleSpans := by
  intro sp hsp hduration
  rcases List.mem_pair.mp hsp with rfl | rfl <;> cases hduration

/-- Two samples of the errors of a service, before and in the incident. -/
def sampleMetrics : List (MetricSample ℚ) :=
  [⟨some "web", "errors", some (.finite 1), none, some 0, none, "default"⟩,
    ⟨some "web", "errors", some (.finite 4), none, some 10, none, "default"⟩]

theorem finite_sampleMetrics : FiniteValues sampleMetrics := by
  intro m hm hvalue
  rcases List.mem_pair.mp hm with rfl | rfl <;> cases hvalue

/-- The services of two spans and of a metric are ranked. -/
theorem sample_ranking :
    Sound sampleRank [] sampleSpans sampleMetrics "default" 5 20 "24h"
      (rankCandidates sampleRank [] sampleSpans sampleMetrics "default" 5 20 "24h") :=
  rankCandidates_sound sampleRank [] finite_sampleSpans finite_sampleMetrics "default" 5 20 "24h"

end Raglogs.FeatureLaws
