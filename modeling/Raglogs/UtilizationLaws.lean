import Raglogs.SignalLaws

/-!
What the utilization reducer proves. A metric is saturated if the series of a named
instance is, and calm if those of all its instances are measured and below; a metric that
is not fully identified proves nothing. A resource takes the state of its metrics.
-/

namespace Raglogs.UtilizationLaws

open Collections Dicts LogEntries SortedDicts StructuralSignals Utilization SignalLaws Telemetry

variable {K : Type} [Arithmetic K] {rd : Rendering} {windowStart : Timestamp}

theorem measureSeries_returns_iff {required : Instrument} {points : List (Timestamp × Number K)} :
    (∃ x, measureSeries windowStart required points = .ok x) ↔
      Judged isHighRatio (seriesRatioOf windowStart required points) := by
  unfold measureSeries
  cases hratio : seriesRatioOf windowStart required points with
  | none => simp [Judged]
  | some ratio =>
    constructor
    · rintro ⟨x, hx⟩ v hv
      obtain rfl := Option.some.inj hv
      obtain ⟨b, hb, -⟩ := bind_eq_ok.mp hx
      exact ⟨b, hb⟩
    · intro h
      obtain ⟨b, hb⟩ := h ratio rfl
      exact ⟨_, bind_eq_ok.mpr ⟨b, hb, rfl⟩⟩

/-- A series is measured exactly if it has a state. -/
theorem measureSeries_spec {required : Instrument} {points : List (Timestamp × Number K)}
    {x : MetricResult K} (h : measureSeries windowStart required points = .ok x) :
    stateOf (Anomalous isHighRatio (seriesRatioOf windowStart required points))
        (Nominal isHighRatio (seriesRatioOf windowStart required points)) x.state ∧
      (x.measured = true ↔ x.state ≠ none) := by
  unfold measureSeries at h
  cases hratio : seriesRatioOf windowStart required points with
  | none =>
    rw [hratio] at h
    obtain rfl := Except.ok.inj h
    simp [stateOf, unmeasured, Anomalous, Nominal]
  | some ratio =>
    rw [hratio] at h
    obtain ⟨b, hb, h⟩ := bind_eq_ok.mp h
    obtain rfl := Except.ok.inj h
    cases b <;> simp [stateOf, Anomalous, Nominal, hb]

variable (rd) in
/-- The points of a named instance. -/
def pointsOf (rows : List (Reading K)) (i : String) : List (Timestamp × Number K) :=
  (rows.filter (fun r => instanceIdentity rd r.attributes == some i)).map (fun r => (r.ts, r.value))

variable (rd) in
/-- The points of the rows that name an instance, each with its instance. -/
def instancePoints (rows : List (Reading K)) : List (String × (Timestamp × Number K)) :=
  rows.filterMap (fun r => (instanceIdentity rd r.attributes).map (fun i => (i, (r.ts, r.value))))

omit [Arithmetic K] in
theorem filter_instancePoints (rows : List (Reading K)) (i : String) :
    ((instancePoints rd rows).filter (fun p => p.1 = i)).map Prod.snd = pointsOf rd rows i := by
  unfold instancePoints pointsOf
  induction rows with
  | nil => rfl
  | cons r rest ih =>
    rw [List.filterMap_cons, List.filter_cons]
    cases hr : instanceIdentity rd r.attributes with
    | none => simpa [hr] using ih
    | some j =>
      by_cases hij : j = i
      · simp [hij, ih]
      · simp [hij, ih]

omit [Arithmetic K] in
/-- The series of some rows are those of the instances that they name. -/
theorem mem_byInstance {rows : List (Reading K)} {points : List (Timestamp × Number K)} :
    points ∈ byInstance rd rows ↔
      ∃ r ∈ rows, ∃ i, instanceIdentity rd r.attributes = some i ∧ points = pointsOf rd rows i := by
  have hgroup := @filter_instancePoints _ rd rows
  unfold instancePoints at hgroup
  unfold byInstance
  simp only [List.mem_map, mem_sortOn, Prod.exists, mem_groupOn]
  constructor
  · rintro ⟨i, g, ⟨rfl, hne⟩, rfl⟩
    obtain ⟨⟨j, p⟩, hmem⟩ := List.exists_mem_of_ne_nil _ hne
    obtain ⟨hmem, hj⟩ := List.mem_filter.mp hmem
    obtain ⟨r, hr, hrow⟩ := List.mem_filterMap.mp hmem
    obtain ⟨i', hi', hpair⟩ := Option.map_eq_some_iff.mp hrow
    obtain rfl : j = i := of_decide_eq_true hj
    obtain ⟨rfl, -⟩ := Prod.mk.inj hpair
    exact ⟨r, hr, i', hi', hgroup i'⟩
  · rintro ⟨r, hr, i, hi, rfl⟩
    refine ⟨i, _, ⟨rfl, ?_⟩, hgroup i⟩
    refine List.ne_nil_of_mem (a := (i, (r.ts, r.value))) (List.mem_filter.mpr ⟨?_, by simp⟩)
    exact List.mem_filterMap.mpr ⟨r, hr, by rw [hi, Option.map_some]⟩

variable (rd windowStart) in
/-- An instance of a fully identified metric is saturated. -/
def Saturated (required : Instrument) (rows : List (Reading K)) : Prop :=
  identified rd required rows = true ∧ ∃ points ∈ byInstance rd rows,
    Anomalous isHighRatio (seriesRatioOf windowStart required points)

variable (rd windowStart) in
/-- All instances of a fully identified metric are measured and below. -/
def Calm (required : Instrument) (rows : List (Reading K)) : Prop :=
  identified rd required rows = true ∧ byInstance rd rows ≠ [] ∧
    ∀ points ∈ byInstance rd rows, Nominal isHighRatio (seriesRatioOf windowStart required points)

variable (rd windowStart) in
/-- The series of a fully identified metric can be discretized. -/
def MetricJudged (required : Instrument) (rows : List (Reading K)) : Prop :=
  identified rd required rows = true → ∀ points ∈ byInstance rd rows,
    Judged isHighRatio (seriesRatioOf windowStart required points)

theorem largestOn_mem {α : Type} (key : α → K) (first : α) (others : List α) :
    largestOn key first others ∈ first :: others := by
  unfold largestOn
  induction others generalizing first with
  | nil => exact List.mem_singleton_self first
  | cons a others ih =>
    rw [List.foldl_cons]
    split
    · exact List.mem_cons_of_mem _ (ih a)
    · rcases List.mem_cons.mp (ih first) with h | h
      · rw [h]
        exact List.mem_cons_self
      · exact List.mem_cons_of_mem _ (List.mem_cons_of_mem _ h)

/-- A metric is present if an instance is, and absent if all are measured and none is. -/
theorem conclude_spec {results : List (MetricResult K)} :
    stateOf (∃ x ∈ results, x.state = some .present)
      (results ≠ [] ∧ (∀ x ∈ results, x.measured = true) ∧ ¬∃ x ∈ results, x.state = some .present)
      (conclude results).state := by
  unfold stateOf conclude
  cases hhits : results.filter (fun x => x.state == some .present) with
  | cons hit others =>
    have hmem := largestOn_mem MetricResult.ratio hit others
    rw [← hhits, List.mem_filter, beq_iff_eq] at hmem
    have hexists : ∃ x ∈ results, x.state = some .present := ⟨_, hmem⟩
    simp [hmem.2, hexists]
  | nil =>
    have hnone : ¬∃ x ∈ results, x.state = some .present := by
      rintro ⟨x, hx, hstate⟩
      have hx' : x ∈ results.filter (fun x => x.state == some .present) :=
        List.mem_filter.mpr ⟨hx, beq_iff_eq.mpr hstate⟩
      rw [hhits] at hx'
      exact absurd hx' List.not_mem_nil
    dsimp only
    split
    · rename_i hall
      rw [Bool.and_eq_true, Bool.not_eq_true', List.isEmpty_eq_false_iff, List.all_eq_true] at hall
      simp only [hnone, Option.some.injEq, reduceCtorEq, not_false_eq_true, and_true, true_iff,
        iff_self, true_and]
      exact hall
    · rename_i hall
      rw [Bool.and_eq_true, Bool.not_eq_true', List.isEmpty_eq_false_iff, List.all_eq_true] at hall
      simp only [unmeasured, hnone, reduceCtorEq, not_false_eq_true, and_true, false_iff,
        iff_self, true_and]
      exact hall

theorem measureMetric_returns_iff {required : Instrument} {rows : List (Reading K)} :
    (∃ x, measureMetric rd windowStart required rows = .ok x) ↔
      MetricJudged rd windowStart required rows := by
  unfold measureMetric MetricJudged
  split
  · rename_i hid
    simp only [hid, true_imp_iff, ← measureSeries_returns_iff]
    constructor
    · rintro ⟨x, h⟩ points hpoints
      obtain ⟨results, hresults, -⟩ := bind_eq_ok.mp h
      obtain ⟨x, -, hx⟩ := exists_source (mapM_eq_ok_iff.mp hresults).flip hpoints
      exact ⟨x, hx⟩
    · intro h
      have hall : ∀ points ∈ byInstance rd rows, ∃ x,
          measureSeries windowStart required points = .ok x ∧ () = () := fun points hpoints => by
        obtain ⟨x, hx⟩ := h points hpoints
        exact ⟨x, hx, rfl⟩
      obtain ⟨results, hresults, -⟩ := mapM_exists hall
      exact ⟨_, bind_eq_ok.mpr ⟨results, hresults, rfl⟩⟩
  · rename_i hid
    exact iff_of_true ⟨_, rfl⟩ (fun h => absurd h hid)

theorem measureMetric_spec {required : Instrument} {rows : List (Reading K)} {x : MetricResult K}
    (h : measureMetric rd windowStart required rows = .ok x) :
    stateOf (Saturated rd windowStart required rows) (Calm rd windowStart required rows)
      x.state := by
  unfold measureMetric at h
  unfold Saturated Calm
  split at h
  · rename_i hid
    obtain ⟨results, hresults, h⟩ := bind_eq_ok.mp h
    obtain rfl := Except.ok.inj h
    have hall := mapM_eq_ok_iff.mp hresults
    have hnil : results ≠ [] ↔ byInstance rd rows ≠ [] := by
      rw [← List.length_pos_iff, ← List.length_pos_iff, hall.length_eq]
    have hpresent : (∃ x ∈ results, x.state = some .present) ↔ ∃ points ∈ byInstance rd rows,
        Anomalous isHighRatio (seriesRatioOf windowStart required points) := by
      constructor
      · rintro ⟨x, hx, hstate⟩
        obtain ⟨points, hpoints, hm⟩ := exists_source hall hx
        exact ⟨points, hpoints, (measureSeries_spec hm).1.1.mp hstate⟩
      · rintro ⟨points, hpoints, han⟩
        obtain ⟨x, hx, hm⟩ := exists_source hall.flip hpoints
        exact ⟨x, hx, (measureSeries_spec hm).1.1.mpr han⟩
    have hstates : ((∀ x ∈ results, x.measured = true) ∧
        ¬∃ x ∈ results, x.state = some .present) ↔ ∀ points ∈ byInstance rd rows,
          Nominal isHighRatio (seriesRatioOf windowStart required points) := by
      constructor
      · rintro ⟨hmeasured, hno⟩ points hpoints
        obtain ⟨x, hx, hm⟩ := exists_source hall.flip hpoints
        obtain ⟨hspec, hstate⟩ := measureSeries_spec hm
        have hne := hstate.mp (hmeasured x hx)
        cases hs : x.state with
        | none => exact absurd hs hne
        | some s =>
          cases s with
          | present => exact absurd ⟨x, hx, hs⟩ hno
          | absent => exact hspec.2.mp hs
      · intro hnormal
        have hstate : ∀ x ∈ results, x.state = some .absent := by
          intro x hx
          obtain ⟨points, hpoints, hm⟩ := exists_source hall hx
          exact (measureSeries_spec hm).1.2.mpr (hnormal points hpoints)
        refine ⟨?_, ?_⟩
        · intro x hx
          obtain ⟨points, -, hm⟩ := exists_source hall hx
          exact (measureSeries_spec hm).2.mpr (by rw [hstate x hx]; simp)
        · rintro ⟨x, hx, hs⟩
          rw [hstate x hx] at hs
          exact absurd hs (by decide)
    have hspec := @conclude_spec _ _ results
    rw [hpresent, hnil, ← hpresent, hstates, hpresent] at hspec
    simpa only [hid, true_and] using hspec
  · rename_i hid
    obtain rfl := Except.ok.inj h
    simp [stateOf, unmeasured, hid]

/-! Resources. -/

/-- A metric of the resource, with readings of the service. -/
def MetricOf (samples : List (MetricSample K)) (key : Pair) (metric : String)
    (required : Instrument) : Prop :=
  utilMetricClass metric = some ((ofLex key).2, required) ∧
    metricReadings (readings samples) (ofLex key).1 metric ≠ []

variable (rd windowStart) in
/-- Some metric of the resource is saturated. -/
def ResourceSaturated (samples : List (MetricSample K)) (key : Pair) : Prop :=
  ∃ metric required, MetricOf samples key metric required ∧
    Saturated rd windowStart required (metricReadings (readings samples) (ofLex key).1 metric)

variable (rd windowStart) in
/-- Some metric of the resource is calm. -/
def ResourceCalm (samples : List (MetricSample K)) (key : Pair) : Prop :=
  ∃ metric required, MetricOf samples key metric required ∧
    Calm rd windowStart required (metricReadings (readings samples) (ofLex key).1 metric)

omit [Arithmetic K] in
/-- The groups are the readings of the metrics that have a class. -/
theorem mem_metricGroups {samples : List (MetricSample K)} {service metric resource : String}
    {required : Instrument} {rows : List (Reading K)} :
    (((service, metric), rows), (resource, required)) ∈ metricGroups samples ↔
      utilMetricClass metric = some (resource, required) ∧ rows ≠ [] ∧
        rows = metricReadings (readings samples) service metric := by
  have hrows : ∀ cls, utilMetricClass metric = some cls →
      (utilReadings samples).filter (fun r => (r.service, r.metric) = (service, metric)) =
        metricReadings (readings samples) service metric := by
    intro cls hcls
    unfold utilReadings metricReadings
    rw [List.filter_filter]
    refine List.filter_congr fun r _ => ?_
    by_cases hr : r.service = service ∧ r.metric = metric
    · simp [hr.1, hr.2, hcls]
    · have hpair : ¬(r.service, r.metric) = (service, metric) := by simpa using hr
      simp only [hpair, decide_false, Bool.false_and]
      simpa using hr
  unfold metricGroups
  rw [List.mem_filterMap]
  constructor
  · rintro ⟨group, hgroup, hcls⟩
    obtain ⟨cls, hcls, heq⟩ := Option.map_eq_some_iff.mp hcls
    obtain ⟨rfl, rfl⟩ := Prod.mk.inj heq
    obtain ⟨rfl, hne⟩ := (mem_groupOn _ _ _ _).mp hgroup
    exact ⟨hcls, hne, hrows _ hcls⟩
  · rintro ⟨hcls, hne, rfl⟩
    refine ⟨((service, metric), metricReadings (readings samples) service metric), ?_, ?_⟩
    · rw [← hrows _ hcls] at hne ⊢
      exact (mem_groupOn _ _ _ _).mpr ⟨rfl, hne⟩
    · rw [hcls, Option.map_some]

/-- The utilization metrics are summarized exactly if each of them can be measured. -/
theorem metricResults_returns_iff {samples : List (MetricSample K)} :
    (∃ results, metricResults rd windowStart samples = .ok results) ↔
      ∀ service metric resource required, utilMetricClass metric = some (resource, required) →
        MetricJudged rd windowStart required
          (metricReadings (readings samples) service metric) := by
  unfold metricResults
  constructor
  · rintro ⟨results, hresults⟩ service metric resource required hcls
    by_cases hne : metricReadings (readings samples) service metric = []
    · intro hid
      rw [hne] at hid
      exact absurd hid (by simp [identified, fromKeys])
    · obtain ⟨p, -, hp⟩ := exists_source (mapM_eq_ok_iff.mp hresults).flip
        (mem_metricGroups.mpr ⟨hcls, hne, rfl⟩)
      obtain ⟨x, hx, -⟩ := bind_eq_ok.mp hp
      exact measureMetric_returns_iff.mp ⟨x, hx⟩
  · intro h
    have hall : ∀ p ∈ metricGroups samples, ∃ q,
        (do let result ← measureMetric rd windowStart p.2.2 p.1.2
            return (toLex (p.1.1.1, p.2.1), result) : Except ModelError (Pair × MetricResult K)) =
          .ok q ∧ () = () := by
      rintro ⟨⟨⟨service, metric⟩, rows⟩, resource, required⟩ hp
      obtain ⟨hcls, -, rfl⟩ := mem_metricGroups.mp hp
      obtain ⟨x, hx⟩ := measureMetric_returns_iff.mpr (h service metric resource required hcls)
      exact ⟨_, bind_eq_ok.mpr ⟨x, hx, rfl⟩, rfl⟩
    obtain ⟨results, hresults, -⟩ := mapM_exists hall
    exact ⟨results, hresults⟩

/-- The results under a key are those of the metrics of the resource. -/
theorem exists_result_iff {samples : List (MetricSample K)}
    {results : List (Pair × MetricResult K)}
    (h : metricResults rd windowStart samples = .ok results) (key : Pair)
    (p : MetricResult K → Prop) :
    (∃ x ∈ (results.filter (fun q => q.1 = key)).map Prod.snd, p x) ↔
      ∃ metric required, MetricOf samples key metric required ∧
        ∃ x, measureMetric rd windowStart required
          (metricReadings (readings samples) (ofLex key).1 metric) = .ok x ∧ p x := by
  have hall := mapM_eq_ok_iff.mp h
  constructor
  · rintro ⟨x, hx, hpx⟩
    obtain ⟨q, hq, rfl⟩ := List.mem_map.mp hx
    obtain ⟨hq, hkey⟩ := List.mem_filter.mp hq
    obtain ⟨⟨⟨⟨service, metric⟩, rows⟩, resource, required⟩, hgroup, hresult⟩ :=
      exists_source hall hq
    obtain ⟨hcls, hne, rfl⟩ := mem_metricGroups.mp hgroup
    obtain ⟨y, hy, heq⟩ := bind_eq_ok.mp hresult
    obtain rfl := Except.ok.inj heq
    obtain rfl : toLex (service, resource) = key := of_decide_eq_true hkey
    exact ⟨metric, required, ⟨hcls, hne⟩, y, hy, hpx⟩
  · rintro ⟨metric, required, ⟨hcls, hne⟩, x, hx, hpx⟩
    obtain ⟨q, hq, hresult⟩ := exists_source hall.flip (mem_metricGroups.mpr ⟨hcls, hne, rfl⟩)
    obtain ⟨y, hy, heq⟩ := bind_eq_ok.mp hresult
    obtain rfl := Except.ok.inj heq
    obtain rfl := Except.ok.inj (hy.symm.trans hx)
    exact ⟨y, List.mem_map.mpr ⟨_, List.mem_filter.mpr ⟨hq, by simp⟩, rfl⟩, hpx⟩

/-- The state of a resource signal that may not be there. -/
def utilStateAt (d : Dict Pair (UtilSignal K)) (key : Pair) : Option SigState :=
  (d.lookup key).bind (fun u => u.sigState)

theorem lookup_summarizeUtilization {samples : List (MetricSample K)}
    {d : Dict Pair (UtilSignal K)} (h : summarizeUtilization rd windowStart samples = .ok d) :
    ∃ results, metricResults rd windowStart samples = .ok results ∧
      ∀ key, d.lookup key = utilSignal results key := by
  obtain ⟨results, hresults, h⟩ := bind_eq_ok.mp h
  obtain rfl := Except.ok.inj h
  refine ⟨results, hresults, fun key => ?_⟩
  rw [lookup_dictOf_filterMap (inOrder_nodup _)]
  split
  · rfl
  · rename_i hno
    have hnil : results.filter (fun p => p.1 = key) = [] := by
      rw [List.filter_eq_nil_iff]
      intro p hp hkey
      refine hno ?_
      rw [mem_inOrder, List.mem_toFinset]
      exact List.mem_map.mpr ⟨p, hp, of_decide_eq_true hkey⟩
    simp [utilSignal, hnil, witness]

/-- A resource is present if a metric is saturated, and absent if one is calm and none is
saturated. -/
theorem utilStateAt_spec {samples : List (MetricSample K)} {d : Dict Pair (UtilSignal K)}
    (h : summarizeUtilization rd windowStart samples = .ok d) (key : Pair) :
    stateOf (ResourceSaturated rd windowStart samples key)
      (¬ResourceSaturated rd windowStart samples key ∧ ResourceCalm rd windowStart samples key)
      (utilStateAt d key) := by
  obtain ⟨results, hresults, hlookup⟩ := lookup_summarizeUtilization h
  have hreturns := metricResults_returns_iff.mp ⟨results, hresults⟩
  have hstate : ∀ s, (∃ x ∈ (results.filter (fun q => q.1 = key)).map Prod.snd,
      MetricResult.state x = some s) ↔ ∃ metric required, MetricOf samples key metric required ∧
        ∃ x, measureMetric rd windowStart required
          (metricReadings (readings samples) (ofLex key).1 metric) = .ok x ∧ x.state = some s :=
    fun s => exists_result_iff hresults key _
  have hpresent : (∃ x ∈ (results.filter (fun q => q.1 = key)).map Prod.snd,
      MetricResult.state x = some .present) ↔ ResourceSaturated rd windowStart samples key := by
    rw [hstate]
    refine exists_congr fun metric => exists_congr fun required => and_congr_right fun hof => ?_
    obtain ⟨x, hx⟩ := measureMetric_returns_iff.mpr (hreturns _ _ _ _ hof.1)
    rw [← (measureMetric_spec hx).1]
    exact ⟨fun ⟨y, hy, hs⟩ => Except.ok.inj (hx.symm.trans hy) ▸ hs, fun hs => ⟨x, hx, hs⟩⟩
  have habsent : (∃ x ∈ (results.filter (fun q => q.1 = key)).map Prod.snd,
      MetricResult.state x = some .absent) ↔ ResourceCalm rd windowStart samples key := by
    rw [hstate]
    refine exists_congr fun metric => exists_congr fun required => and_congr_right fun hof => ?_
    obtain ⟨x, hx⟩ := measureMetric_returns_iff.mpr (hreturns _ _ _ _ hof.1)
    rw [← (measureMetric_spec hx).2]
    exact ⟨fun ⟨y, hy, hs⟩ => Except.ok.inj (hx.symm.trans hy) ▸ hs, fun hs => ⟨x, hx, hs⟩⟩
  have hbind : utilStateAt d key = (witness MetricResult.state
      ((results.filter (fun q => q.1 = key)).map Prod.snd)).bind MetricResult.state := by
    unfold utilStateAt
    rw [hlookup]
    unfold utilSignal
    cases witness MetricResult.state ((results.filter (fun q => q.1 = key)).map Prod.snd) with
    | none => rfl
    | some w => rfl
  rw [hbind, ← hpresent, ← habsent]
  exact witness_spec

end Raglogs.UtilizationLaws
