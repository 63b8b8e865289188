import Mathlib.Tactic.Positivity
import Raglogs.SignalHonesty
import Raglogs.StructuralLaws

/-!
The order of the rows. A query promises none, and every accumulator forgets it: medians
sort, counts and sums commute, spans are found by unique ids, one callee at most can have
nine tenths of the calls, and series, services and resources are read in sorted order.
Only the ratio of a resource with several metrics depends on their order, and nothing
that the model concludes reads it.
-/

namespace Raglogs.RowOrder

open Collections Dicts Observables Hypotheses Partitioning Outcomes LogEntries SortedDicts
  StructuralSignals CallGraph Utilization StructuralModel SignalLaws UtilizationLaws
  StructuralLaws Telemetry Text

/-- What exact arithmetic has and floating point does not. -/
class Lawful (K : Type) [Arithmetic K] : Prop where
  sum_perm : ∀ {l l' : List K}, l.Perm l' → Arithmetic.sum l = Arithmetic.sum l'
  finite : ∀ x : K, Arithmetic.isFinite x = true
  le_trans : ∀ x y z : K, x ≤ y → y ≤ z → x ≤ z
  le_antisymm : ∀ x y : K, x ≤ y → y ≤ x → x = y
  le_total : ∀ x y : K, x ≤ y ∨ y ≤ x
  dominant : ∀ n m : ℕ, 0 < m → (dominance : K) ≤ (n : K) / (m : K) → m < 2 * n

/-- Exact arithmetic in an ordered field is lawful. -/
instance {K : Type} [Field K] [LinearOrder K] [IsStrictOrderedRing K] : Lawful (Exact K) where
  sum_perm h := List.Perm.sum_eq (M := K) h
  finite _ := rfl
  le_trans x y z := @le_trans K _ x y z
  le_antisymm x y := @le_antisymm K _ x y
  le_total x y := @le_total K _ x y
  dominant n m hm h := by
    have hle : (((9 : ℕ) : K) / ((10 : ℕ) : K)) ≤ (n : K) / (m : K) := h
    rw [div_le_div_iff₀ (by positivity) (by positivity)] at hle
    have hnat : 9 * m ≤ n * 10 := by exact_mod_cast hle
    omega

variable {K : Type} [Arithmetic K] [Lawful K]

/-! Means and medians. -/

theorem mean_perm {xs ys : List K} (h : xs.Perm ys) : mean xs = mean ys := by
  unfold mean
  rw [Lawful.sum_perm h, h.length_eq, h.isEmpty_eq]

theorem insertionSort_perm {xs ys : List K} (h : xs.Perm ys) :
    xs.insertionSort (· ≤ ·) = ys.insertionSort (· ≤ ·) := by
  have htotal : Std.Total (α := K) (· ≤ ·) := ⟨Lawful.le_total⟩
  have htrans : IsTrans K (· ≤ ·) := ⟨Lawful.le_trans⟩
  have hperm := ((List.perm_insertionSort (· ≤ ·) xs).trans h).trans
    (List.perm_insertionSort (· ≤ ·) ys).symm
  refine hperm.eq_of_pairwise ?_ (List.pairwise_insertionSort _ xs)
    (List.pairwise_insertionSort _ ys)
  intro a b _ _ hab hba
  exact Lawful.le_antisymm a b hab hba

theorem median_perm {xs ys : List K} (h : xs.Perm ys) : median xs = median ys := by
  unfold median
  rw [insertionSort_perm h]

omit [Arithmetic K] [Lawful K] in
theorem ne_nil_perm {α : Type} {l l' : List α} (h : l.Perm l') : l ≠ [] ↔ l' ≠ [] := by
  rw [Ne, Ne, ← List.length_eq_zero_iff, ← List.length_eq_zero_iff, h.length_eq]

/-! Spans. -/

section Spans

variable {rd : Rendering} {windowStart : Timestamp} {spans spans' : List (TraceSpan K)}

omit [Lawful K] in
theorem rate_perm {rows rows' : List (TraceSpan K)} (h : rows.Perm rows') :
    (tallySpans rd windowStart rows).rate = (tallySpans rd windowStart rows').rate := by
  unfold SpanTally.rate tallySpans
  simp only [(h.filter (isIncident windowStart)).countP_eq]

theorem ratio_perm {rows rows' : List (TraceSpan K)} (h : rows.Perm rows') :
    (tallySpans rd windowStart rows).ratio = (tallySpans rd windowStart rows').ratio := by
  have hdurations : ∀ half : TraceSpan K → Bool,
      ((rows.filter half).filterMap (fun sp => validDuration sp.durationMs)).Perm
        ((rows'.filter half).filterMap (fun sp => validDuration sp.durationMs)) :=
    fun half => (h.filter half).filterMap _
  unfold SpanTally.ratio tallySpans
  simp only [median_perm (hdurations _), ne_nil_perm (hdurations _)]

theorem measure_perm {rows rows' : List (TraceSpan K)} (h : rows.Perm rows') :
    (tallySpans rd windowStart rows).measure = (tallySpans rd windowStart rows').measure := by
  unfold SpanTally.measure
  rw [rate_perm h, ratio_perm h]

theorem summarizeSpans_perm (h : spans.Perm spans') :
    summarizeSpans rd windowStart spans = summarizeSpans rd windowStart spans' := by
  have hkeys := List.toFinset_eq_of_perm _ _
    ((h.filter (countsForService rd windowStart)).filterMap (fun sp => truthy sp.service))
  have hsignal : spanSignal rd windowStart spans = spanSignal rd windowStart spans' := by
    funext service
    unfold spanSignal spansOf
    rw [measure_perm (h.filter (fun sp => truthy sp.service == some service))]
  unfold summarizeSpans
  dsimp only
  rw [hkeys, hsignal]

/-! The call graph. -/

omit [Arithmetic K] [Lawful K] in
theorem indexById_perm {ν : Type} {value : TraceSpan K → Option ν} (hunique : UniqueSpans spans)
    (h : spans.Perm spans') : indexById value spans = indexById value spans' := by
  have hunique' : UniqueSpans spans' := (h.filterMap _).nodup_iff.mp hunique
  apply Finmap.ext_lookup
  intro key
  apply Option.ext
  intro v
  rw [lookup_indexById hunique, lookup_indexById hunique']
  simp only [h.mem_iff]

omit [Arithmetic K] [Lawful K] in
theorem callEdges_perm (hunique : UniqueSpans spans) (h : spans.Perm spans')
    (since : Option Timestamp) : callEdges spans since = callEdges spans' since := by
  unfold callEdges serviceById
  rw [indexById_perm hunique h]
  exact List.toFinset_eq_of_perm _ _ ((h.filter _).filterMap _)

omit [Arithmetic K] [Lawful K] in
theorem calleesOf_perm (hunique : UniqueSpans spans) (h : spans.Perm spans')
    (operation : String × String) :
    (calleesOf spans operation).Perm (calleesOf spans' operation) := by
  unfold calleesOf observedCalls spansById
  rw [indexById_perm hunique h]
  exact ((h.filterMap _).filter _).map _

/-- The first of the most common is one of the most common. -/
theorem count_le_of_mostCommon {l : List String} {a : String} {n : ℕ}
    (h : mostCommon l = some (a, n)) (b : String) : l.count b ≤ n := by
  by_cases hb : b ∈ l
  · unfold mostCommon at h
    split at h
    · rename_i hnil
      rw [← mem_fromKeys, hnil] at hb
      cases hb
    · rename_i first others hkeys
      obtain ⟨-, rfl⟩ := Prod.mk.inj (Option.some.inj h)
      rw [← mem_fromKeys, hkeys] at hb
      clear h hkeys
      induction others generalizing first b with
      | nil =>
        rw [List.mem_singleton.mp hb]
        exact le_rfl
      | cons c others ih =>
        rw [List.foldl_cons]
        split
        · rename_i hlt
          rcases List.mem_cons.mp hb with rfl | hb
          · exact hlt.le.trans (ih c c List.mem_cons_self)
          · exact ih b c hb
        · rename_i hle
          rcases List.mem_cons.mp hb with rfl | hb
          · exact ih b b List.mem_cons_self
          · rcases List.mem_cons.mp hb with rfl | hb
            · exact (not_lt.mp hle).trans (ih first first List.mem_cons_self)
            · exact ih b first (List.mem_cons_of_mem _ hb)
  · rw [List.count_eq_zero_of_not_mem hb]
    exact Nat.zero_le n

/-- Two elements do not fill more than the list. -/
theorem count_add_count_le {l : List String} {a b : String} (hne : a ≠ b) :
    l.count a + l.count b ≤ l.length := by
  induction l with
  | nil => simp
  | cons c l ih =>
    rw [List.count_cons, List.count_cons, List.length_cons]
    by_cases ha : c = a
    · have hb : c ≠ b := fun hb => hne (ha.symm.trans hb)
      simp only [ha, beq_self_eq_true, if_true, beq_iff_eq, hne, if_false]
      omega
    · simp only [beq_iff_eq, ha, if_false]
      split <;> omega

theorem learnCallTargets_of_perm (hunique : UniqueSpans spans) (h : spans.Perm spans')
    {operation : String × String} {callee : String}
    (hlearn : learnCallTargets spans operation = some callee) :
    learnCallTargets spans' operation = some callee := by
  have hperm := calleesOf_perm hunique h operation
  have hmem := learnCallTargets_mem hlearn
  unfold learnCallTargets at hlearn
  split at hlearn
  · rename_i callee₁ n hcommon
    split at hlearn
    · rename_i hdominant
      obtain rfl := Option.some.inj hlearn
      have hn := (mostCommon_mem hcommon).2
      have hpos := List.length_pos_of_mem hmem
      have hmajority := Lawful.dominant _ _ hpos hdominant
      cases hcommon' : mostCommon (calleesOf spans' operation) with
      | none =>
        unfold mostCommon at hcommon'
        split at hcommon'
        · rename_i hnil
          have hempty := mem_fromKeys.mpr (hperm.mem_iff.mp hmem)
          rw [hnil] at hempty
          cases hempty
        · cases hcommon'
      | some best =>
        obtain ⟨callee', n'⟩ := best
        have hn' := (mostCommon_mem hcommon').2
        have hle := count_le_of_mostCommon hcommon' callee₁
        rw [← hperm.count_eq, ← hn] at hle
        have hsame : callee₁ = callee' := by
          by_contra hne
          have hboth := count_add_count_le (l := calleesOf spans operation) hne
          rw [← hn, hperm.count_eq callee', ← hn'] at hboth
          omega
        obtain rfl := hsame
        have heq : n' = n := by rw [hn', hn, hperm.count_eq]
        unfold learnCallTargets
        rw [hcommon', heq, ← hperm.length_eq]
        dsimp only
        rw [if_pos hdominant]
    · cases hlearn
  · cases hlearn

/-- A dominant callee is found in any order: no other one can be as common. -/
theorem learnCallTargets_perm (hunique : UniqueSpans spans) (h : spans.Perm spans') :
    learnCallTargets spans = learnCallTargets spans' := by
  have hunique' : UniqueSpans spans' := (h.filterMap _).nodup_iff.mp hunique
  funext operation
  apply Option.ext
  intro callee
  exact ⟨learnCallTargets_of_perm hunique h, learnCallTargets_of_perm hunique' h.symm⟩

theorem summarizeEdges_perm (hunique : UniqueSpans spans) (h : spans.Perm spans') :
    summarizeEdges rd windowStart spans = summarizeEdges rd windowStart spans' := by
  have htargets := learnCallTargets_perm hunique h
  have hkeys := List.toFinset_eq_of_perm _ _
    (((h.filter (isIncident windowStart)).filterMap (edgeKey (learnCallTargets spans'))).map toLex)
  have hsignal : edgeSignal rd windowStart spans = edgeSignal rd windowStart spans' := by
    funext edge
    unfold edgeSignal spansOfEdge
    rw [htargets, measure_perm
      (h.filter (fun sp => edgeKey (learnCallTargets spans') sp == some (ofLex edge)))]
  unfold summarizeEdges
  dsimp only
  rw [htargets, hkeys, hsignal]

end Spans

/-! Metric samples. -/

section Metrics

variable {rd : Rendering} {windowStart : Timestamp}

omit [Arithmetic K] [Lawful K] in
theorem sortSeries_perm {rows rows' : List (Reading K)} (h : rows.Perm rows') :
    sortSeries rd rows = sortSeries rd rows' := by
  have hkeys := fromKeys_perm (h.map (fun r => seriesKey rd r.attributes))
  rw [sortSeries_eq, sortSeries_eq]
  simp only [hkeys.mem_iff, hkeys.length_eq]
  split
  · rfl
  · rename_i hsame
    -- either one series has no identity and is alone, or all have one
    refine congrArg Except.ok (sortOn_eq_of_perm _ hkeys ?_)
    intro a ha b hb hab
    have hlength : none ∈ fromKeys (rows.map (fun r => seriesKey rd r.attributes)) →
        ∃ key, fromKeys (rows.map (fun r => seriesKey rd r.attributes)) = [key] := by
      intro hno
      refine List.length_eq_one_iff.mp ?_
      have hpos := List.length_pos_of_mem hno
      have hfew : ¬1 < (fromKeys (rows'.map (fun r => seriesKey rd r.attributes))).length :=
        fun hmany => hsame ⟨hkeys.mem_iff.mp hno, hmany⟩
      rw [← hkeys.length_eq] at hfew
      omega
    cases a with
    | none =>
      obtain ⟨key, hkey⟩ := hlength ha
      rw [hkey, List.mem_singleton] at ha hb
      rw [ha, hb]
    | some s =>
      cases b with
      | none =>
        obtain ⟨key, hkey⟩ := hlength hb
        rw [hkey, List.mem_singleton] at ha hb
        rw [ha, hb]
      | some t => exact congrArg some hab

omit [Arithmetic K] [Lawful K] in
theorem seriesValues_perm {rows rows' : List (Reading K)} (h : rows.Perm rows')
    (key : Option String) (incident : Bool) :
    (seriesValues rd windowStart rows key incident).Perm
      (seriesValues rd windowStart rows' key incident) := (h.filter _).map _

theorem seriesRate_perm {xs ys : List (Number K)} (h : xs.Perm ys) :
    seriesRate xs = seriesRate ys := by
  have hrates := h.filterMap Number.rate?
  unfold seriesRate
  rw [mapM_option_eq, mapM_option_eq, h.all_eq]
  split
  · simp only [Option.bind_some, mean_perm hrates, ← List.isEmpty_iff, hrates.isEmpty_eq]
  · rfl

theorem seriesRatio_perm {ix iy bx bys : List (Number K)} (hi : ix.Perm iy) (hb : bx.Perm bys) :
    seriesRatio ix bx = seriesRatio iy bys := by
  have hix := hi.filterMap Number.nonneg?
  have hbx := hb.filterMap Number.nonneg?
  unfold seriesRatio
  rw [mapM_option_eq, mapM_option_eq, mapM_option_eq, mapM_option_eq, hi.all_eq, hb.all_eq]
  cases iy.all (fun x => x.nonneg?.isSome) with
  | false => rfl
  | true =>
    cases bys.all (fun x => x.nonneg?.isSome) with
    | false => rfl
    | true =>
      simp only [if_true, mean_perm hix, mean_perm hbx, ne_nil_perm hix, ne_nil_perm hbx]

theorem metricSignal_perm {rows rows' : List (Reading K)} (h : rows.Perm rows') :
    metricSignal rd windowStart rows = metricSignal rd windowStart rows' := by
  have hmine : ∀ service metric,
      (metricReadings rows service metric).Perm (metricReadings rows' service metric) :=
    fun service metric => h.filter _
  have herror : errorSeries rd windowStart rows = errorSeries rd windowStart rows' := by
    funext service
    unfold errorSeries
    simp only [sortSeries_perm (hmine service _),
      seriesRate_perm (seriesValues_perm (hmine service _) _ _)]
  have hlatency : latencySeries rd windowStart rows = latencySeries rd windowStart rows' := by
    funext service
    unfold latencySeries
    simp only [sortSeries_perm (hmine service _),
      seriesRatio_perm (seriesValues_perm (hmine service _) _ _)
        (seriesValues_perm (hmine service _) _ _)]
  funext service
  unfold metricSignal
  rw [herror, hlatency]

theorem summarizeMetrics_perm {metrics metrics' : List (MetricSample K)}
    (h : metrics.Perm metrics') :
    summarizeMetrics rd windowStart metrics = summarizeMetrics rd windowStart metrics' := by
  have hrows : (readings metrics).Perm (readings metrics') := h.filterMap _
  unfold summarizeMetrics
  dsimp only
  rw [List.toFinset_eq_of_perm _ _ (hrows.map Reading.service), metricSignal_perm hrows]

end Metrics

/-! Utilization. -/

section Resources

variable {rd : Rendering} {windowStart : Timestamp}

omit [Lawful K] in
/-- Points at distinct times have one order; others are not measured. -/
theorem seriesRatioOf_perm {required : Instrument} {points points' : List (Timestamp × Number K)}
    (h : points.Perm points') :
    seriesRatioOf windowStart required points = seriesRatioOf windowStart required points' := by
  by_cases hnodup : (points.map Prod.fst).Nodup
  · have hsorted : sortOn Prod.fst points = sortOn Prod.fst points' :=
      sortOn_eq_of_perm _ h (fun a ha b hb hab => List.inj_on_of_nodup_map hnodup ha hb hab)
    unfold seriesRatioOf
    rw [hsorted]
  · have hnone : ∀ points : List (Timestamp × Number K), ¬(points.map Prod.fst).Nodup →
        seriesRatioOf windowStart required points = none := by
      intro points hdup
      unfold seriesRatioOf
      dsimp only
      rw [mapM_option_eq]
      split
      · rename_i hall
        have htimes : ((sortOn Prod.fst points).filterMap (fun p : Timestamp × Number K =>
            p.2.nonneg?.map (fun x => (p.1, x)))).map Prod.fst =
              (sortOn Prod.fst points).map Prod.fst := by
          rw [List.map_filterMap]
          rw [← List.filterMap_eq_map]
          refine List.filterMap_congr fun p hp => ?_
          have hsome := List.all_eq_true.mp hall p hp
          cases hx : p.2.nonneg? with
          | none => simp [hx] at hsome
          | some x => simp
        rw [Option.bind_some]
        unfold ratioOfPoints
        dsimp only
        rw [if_neg]
        rintro ⟨hdistinct, -⟩
        rw [htimes] at hdistinct
        exact hdup (((sortOn_perm Prod.fst points).map Prod.fst).nodup_iff.mp hdistinct)
      · rfl
    rw [hnone points hnodup, hnone points' (fun h' => hnodup ((h.map Prod.fst).nodup_iff.mpr h'))]

omit [Arithmetic K] [Lawful K] in
theorem identified_perm {required : Instrument} {rows rows' : List (Reading K)}
    (h : rows.Perm rows') : identified rd required rows = identified rd required rows' := by
  unfold identified
  rw [h.all_eq, h.all_eq,
    (fromKeys_perm (h.map (fun r => datapointSignature rd r.attributes))).length_eq]

/-- The named instances of a metric, in the order of their names. -/
def instancesOf (rd : Rendering) (rows : List (Reading K)) : List String :=
  sortOn id ((groupOn Prod.fst (instancePoints rd rows)).map Prod.fst)

omit [Arithmetic K] [Lawful K] in
theorem byInstance_eq (rows : List (Reading K)) :
    byInstance rd rows = (instancesOf rd rows).map (pointsOf rd rows) := by
  have heq : byInstance rd rows = (sortOn Prod.fst (groupOn Prod.fst (instancePoints rd rows))).map
      (fun group => group.2.map Prod.snd) := rfl
  rw [heq, groupOn_eq_map, sortOn_map id Prod.fst _ (fun _ => rfl), List.map_map]
  exact List.map_congr_left fun i _ => filter_instancePoints rows i

omit [Arithmetic K] [Lawful K] in
theorem instancesOf_perm {rows rows' : List (Reading K)} (h : rows.Perm rows') :
    instancesOf rd rows = instancesOf rd rows' := by
  have hpoints : (instancePoints rd rows).Perm (instancePoints rd rows') := h.filterMap _
  refine sortOn_eq_of_perm _ ?_ (fun _ _ _ _ hab => hab)
  rw [List.perm_ext_iff_of_nodup (groupOn_keys_nodup _ _) (groupOn_keys_nodup _ _)]
  intro i
  rw [mem_groupOn_keys, mem_groupOn_keys]
  simp only [hpoints.mem_iff]

omit [Lawful K] in
theorem measureMetric_perm {required : Instrument} {rows rows' : List (Reading K)}
    (h : rows.Perm rows') :
    measureMetric rd windowStart required rows = measureMetric rd windowStart required rows' := by
  have hseries : measureSeries windowStart required ∘ pointsOf rd rows =
      measureSeries windowStart required ∘ pointsOf rd rows' := by
    funext i
    have hpoints : (pointsOf rd rows i).Perm (pointsOf rd rows' i) := (h.filter _).map _
    rw [Function.comp_apply, Function.comp_apply]
    unfold measureSeries
    rw [seriesRatioOf_perm hpoints]
  unfold measureMetric
  rw [identified_perm h, byInstance_eq, byInstance_eq, instancesOf_perm h, List.mapM_map,
    List.mapM_map, hseries]

/-- The metrics with a class, and their classes. -/
def classifiedMetrics (samples : List (MetricSample K)) :
    List ((String × String) × (String × Instrument)) :=
  ((groupOn (fun r => (r.service, r.metric)) (utilReadings samples)).map Prod.fst).filterMap
    (fun name => (utilMetricClass name.2).map (fun cls => (name, cls)))

omit [Lawful K] in
theorem metricResults_eq (samples : List (MetricSample K)) :
    metricResults rd windowStart samples = (classifiedMetrics samples).mapM (fun p => do
      let result ← measureMetric rd windowStart p.2.2
        ((utilReadings samples).filter (fun r => (r.service, r.metric) = p.1))
      return (toLex (p.1.1, p.2.1), result)) := by
  have hgroups : metricGroups samples = (classifiedMetrics samples).map (fun p =>
      ((p.1, (utilReadings samples).filter (fun r => (r.service, r.metric) = p.1)), p.2)) := by
    unfold metricGroups classifiedMetrics
    conv_lhs => rw [groupOn_eq_map, List.filterMap_map]
    rw [List.map_filterMap]
    refine List.filterMap_congr fun name _ => ?_
    rw [Option.map_map]
    rfl
  unfold metricResults
  rw [hgroups, List.mapM_map]
  rfl

omit [Arithmetic K] [Lawful K] in
theorem classifiedMetrics_perm {samples samples' : List (MetricSample K)}
    (h : samples.Perm samples') :
    (classifiedMetrics samples).Perm (classifiedMetrics samples') := by
  have hrows : (utilReadings samples).Perm (utilReadings samples') := (h.filterMap _).filter _
  refine List.Perm.filterMap _ ?_
  rw [List.perm_ext_iff_of_nodup (groupOn_keys_nodup _ _) (groupOn_keys_nodup _ _)]
  intro name
  rw [mem_groupOn_keys, mem_groupOn_keys]
  simp only [hrows.mem_iff]

/-- All that can be wrong with a ratio is its range. -/
theorem isHighRatio_error {x : K} {e : ModelError} (h : isHighRatio x = .error e) :
    e = .notInRange "ratio" := by
  unfold isHighRatio discretizeRatio at h
  simp only [Lawful.finite x, Bool.true_eq_false, if_false] at h
  split at h
  · exact (Except.error.inj h).symm
  · split at h
    · cases h
    · split at h <;> cases h

theorem measureMetric_error {required : Instrument} {rows : List (Reading K)} {e : ModelError}
    (h : measureMetric rd windowStart required rows = .error e) : e = .notInRange "ratio" := by
  unfold measureMetric at h
  split at h
  · cases hresults : (byInstance rd rows).mapM (measureSeries windowStart required) with
    | ok results =>
      rw [hresults] at h
      cases h
    | error e' =>
      rw [hresults] at h
      obtain rfl := Except.error.inj h
      obtain ⟨points, -, hraised⟩ := exists_of_mapM_eq_error hresults
      unfold measureSeries at hraised
      split at hraised
      · rename_i ratio _
        cases hratio : isHighRatio ratio with
        | ok high =>
          rw [hratio] at hraised
          cases hraised
        | error e'' =>
          rw [hratio] at hraised
          obtain rfl := Except.error.inj hraised
          exact isHighRatio_error hratio
      · cases hraised
  · cases h

/-- The results of the metrics are the same, in another order. -/
theorem metricResults_perm {samples samples' : List (MetricSample K)} (h : samples.Perm samples') :
    (metricResults rd windowStart samples = .error (.notInRange "ratio") ∧
        metricResults rd windowStart samples' = .error (.notInRange "ratio")) ∨
      ∃ results results', metricResults rd windowStart samples = .ok results ∧
        metricResults rd windowStart samples' = .ok results' ∧ results.Perm results' := by
  have hrows : (utilReadings samples).Perm (utilReadings samples') := (h.filterMap _).filter _
  have hmetric : (fun p : (String × String) × (String × Instrument) => do
        let result ← measureMetric rd windowStart p.2.2
          ((utilReadings samples').filter (fun r => (r.service, r.metric) = p.1))
        return (toLex (p.1.1, p.2.1), result) : _ → Except ModelError (Pair × MetricResult K)) =
      fun p => do
        let result ← measureMetric rd windowStart p.2.2
          ((utilReadings samples).filter (fun r => (r.service, r.metric) = p.1))
        return (toLex (p.1.1, p.2.1), result) := by
    funext p
    rw [measureMetric_perm (hrows.filter (fun r => decide ((r.service, r.metric) = p.1)))]
  rw [metricResults_eq, metricResults_eq, hmetric]
  refine mapM_perm (classifiedMetrics_perm h) ?_
  intro p _ e he
  cases hresult : measureMetric rd windowStart p.2.2
      ((utilReadings samples).filter (fun r => (r.service, r.metric) = p.1)) with
  | ok result =>
    rw [hresult] at he
    cases he
  | error e' =>
    rw [hresult] at he
    obtain rfl := Except.error.inj he
    exact measureMetric_error hresult

/-- What the model reads of a resource signal: all but its ratio. -/
def facts (u : UtilSignal K) : String × String × Option SigState :=
  (u.service, u.resource, u.sigState)

omit [Arithmetic K] [Lawful K] in
theorem utilSignal_perm {results results' : List (Pair × MetricResult K)}
    (h : results.Perm results') (key : Pair) :
    (utilSignal results key).map facts = (utilSignal results' key).map facts := by
  have hwitness := @witness_state_perm _ MetricResult.state _ _
    ((h.filter (fun p => decide (p.1 = key))).map Prod.snd)
  have hfacts : ∀ results : List (Pair × MetricResult K), (utilSignal results key).map facts =
      ((witness MetricResult.state ((results.filter (fun p => p.1 = key)).map Prod.snd)).map
        MetricResult.state).map (fun state => ((ofLex key).1, (ofLex key).2, state)) := by
    intro results
    unfold utilSignal
    rw [Option.map_map, Option.map_map]
    rfl
  rw [hfacts, hfacts, hwitness]

theorem summarizeUtilization_perm {samples samples' : List (MetricSample K)}
    (h : samples.Perm samples') :
    (∃ e, summarizeUtilization rd windowStart samples = .error e ∧
        summarizeUtilization rd windowStart samples' = .error e) ∨
      ∃ d d', summarizeUtilization rd windowStart samples = .ok d ∧
        summarizeUtilization rd windowStart samples' = .ok d' ∧
        ∀ key, (d.lookup key).map facts = (d'.lookup key).map facts := by
  obtain ⟨hraised, hraised'⟩ | ⟨results, results', hok, hok', hperm⟩ :=
    @metricResults_perm K _ _ rd windowStart _ _ h
  · refine Or.inl ⟨.notInRange "ratio", ?_, ?_⟩
    · unfold summarizeUtilization
      rw [hraised]
      rfl
    · unfold summarizeUtilization
      rw [hraised']
      rfl
  · have hreturns : ∀ {samples : List (MetricSample K)} {results},
        metricResults rd windowStart samples = .ok results →
          ∃ d, summarizeUtilization rd windowStart samples = .ok d ∧
            ∀ key, d.lookup key = utilSignal results key := by
      intro samples results hresults
      have hd : summarizeUtilization rd windowStart samples = .ok _ :=
        bind_eq_ok.mpr ⟨results, hresults, rfl⟩
      obtain ⟨results₁, hresults₁, hlookup⟩ := lookup_summarizeUtilization hd
      obtain rfl := Except.ok.inj (hresults.symm.trans hresults₁)
      exact ⟨_, hd, hlookup⟩
    obtain ⟨d, hd, hlookup⟩ := hreturns hok
    obtain ⟨d', hd', hlookup'⟩ := hreturns hok'
    refine Or.inr ⟨d, d', hd, hd', ?_⟩
    intro key
    rw [hlookup, hlookup', utilSignal_perm hperm]

end Resources

/-! The model. -/

/-- Inputs that differ at most in the ratios of resources. -/
structure SameFacts (inp inp' : StructuralInputs K) : Prop where
  signals : inp.signals = inp'.signals
  edges : inp.edges = inp'.edges
  edgeSignals : inp.edgeSignals = inp'.edgeSignals
  utilSignals : ∀ key,
    (inp.utilSignals.lookup key).map facts = (inp'.utilSignals.lookup key).map facts

omit [Arithmetic K] [Lawful K] in
theorem sortedItems_facts {d d' : Dict Pair (UtilSignal K)}
    (h : ∀ key, (d.lookup key).map facts = (d'.lookup key).map facts) :
    (sortedItems d).map (fun p => facts p.2) = (sortedItems d').map (fun p => facts p.2) := by
  have hkeys : d.keys = d'.keys := by
    ext key
    have hsome := congrArg Option.isSome (h key)
    rw [Option.isSome_map, Option.isSome_map] at hsome
    rw [Finmap.mem_keys, Finmap.mem_keys, ← Finmap.lookup_isSome, ← Finmap.lookup_isSome, hsome]
  unfold sortedItems
  rw [hkeys, List.map_filterMap, List.map_filterMap]
  refine List.filterMap_congr fun key _ => ?_
  have hkey := h key
  simpa [Option.map_map, Function.comp_def] using hkey

section Model

variable {inp inp' : StructuralInputs K}

omit [Arithmetic K] [Lawful K] in
theorem buildObservables_of_facts (h : SameFacts inp inp') :
    buildObservables inp = buildObservables inp' := by
  have hutil : ∀ inp : StructuralInputs K,
      (sortedItems inp.utilSignals).filterMap (fun p => p.2.sigState.map (fun state =>
        observed p.2.id state.value fullConfidence (utilObservableId_ne _ _))) =
      ((sortedItems inp.utilSignals).map (fun p => facts p.2)).filterMap (fun f =>
        f.2.2.map (fun state => observed (utilObservableId f.1 f.2.1) state.value fullConfidence
          (utilObservableId_ne _ _))) := by
    intro inp
    rw [List.filterMap_map]
    rfl
  unfold buildObservables
  rw [hutil, hutil, h.signals, h.edgeSignals, sortedItems_facts h.utilSignals]

omit [Arithmetic K] [Lawful K] in
theorem candidateServices_of_facts (h : SameFacts inp inp') :
    candidateServices inp = candidateServices inp' := by
  have hutil : ∀ inp : StructuralInputs K,
      ((sortedItems inp.utilSignals).filter (fun p => p.2.sigState == some .present)).map
        (fun p => p.2.service) =
      (((sortedItems inp.utilSignals).map (fun p => facts p.2)).filter
        (fun f => f.2.2 == some .present)).map Prod.fst := by
    intro inp
    rw [List.filter_map, List.map_map]
    rfl
  unfold candidateServices
  dsimp only
  rw [hutil, hutil, h.signals, h.edges, h.edgeSignals, sortedItems_facts h.utilSignals]

omit [Arithmetic K] [Lawful K] in
theorem expectations_of_facts (h : SameFacts inp inp') (service : String) :
    expectations inp service = expectations inp' service := by
  have hutil : ∀ inp : StructuralInputs K,
      ((sortedItems inp.utilSignals).filter (fun p => p.2.service == service)).map
        (fun p => expectPresent p.2.id (utilObservableId_ne _ _)) =
      (((sortedItems inp.utilSignals).map (fun p => facts p.2)).filter
        (fun f => f.1 == service)).map
          (fun f => expectPresent (utilObservableId f.1 f.2.1) (utilObservableId_ne _ _)) := by
    intro inp
    rw [List.filter_map, List.map_map]
    rfl
  unfold expectations expectedExtra
  rw [hutil, hutil, h.edgeSignals, sortedItems_facts h.utilSignals]

variable {σ : Type}

omit [Arithmetic K] [Lawful K] in
theorem buildHypotheses_of_facts (h : SameFacts inp inp') :
    buildHypotheses (σ := σ) inp = buildHypotheses inp' := by
  unfold buildHypotheses
  simp only [candidateServices_of_facts h, expectations_of_facts h]

omit [Arithmetic K] [Lawful K] in
theorem resolveStructural_of_facts [DecidableEq σ] (h : SameFacts inp inp') :
    resolveStructural (σ := σ) inp = resolveStructural inp' := by
  unfold resolveStructural
  rw [buildHypotheses_of_facts h, buildObservables_of_facts h]

end Model

/-- Everything the structural analysis concludes from some rows. -/
def structuralRun (σ : Type) [DecidableEq σ] (rd : Rendering) (windowStart : Timestamp)
    (spans : List (TraceSpan K)) (metrics : List (MetricSample K)) :
    Except ModelError
      (List (Hypothesis σ) × List Observable × Option (StructuralResult × Partition σ)) := do
  let inp ← structuralSignals rd spans metrics windowStart
  let hypotheses ← buildHypotheses inp
  let resolved ← resolveStructural inp
  return (hypotheses, buildObservables inp, resolved)

section Rows

variable {rd : Rendering} {windowStart : Timestamp} {spans spans' : List (TraceSpan K)}
  {metrics metrics' : List (MetricSample K)}

theorem structuralSignals_perm (hunique : UniqueSpans spans) (hspans : spans.Perm spans')
    (hmetrics : metrics.Perm metrics') :
    (∃ e, structuralSignals rd spans metrics windowStart = .error e ∧
        structuralSignals rd spans' metrics' windowStart = .error e) ∨
      ∃ inp inp', structuralSignals rd spans metrics windowStart = .ok inp ∧
        structuralSignals rd spans' metrics' windowStart = .ok inp' ∧ SameFacts inp inp' := by
  have hedges := callEdges_perm hunique hspans (some windowStart)
  unfold structuralSignals
  rw [summarizeSpans_perm hspans, summarizeMetrics_perm hmetrics,
    summarizeEdges_perm hunique hspans]
  cases summarizeSpans rd windowStart spans' with
  | error e => exact Or.inl ⟨e, rfl, rfl⟩
  | ok fromSpans =>
    cases summarizeMetrics rd windowStart metrics' with
    | error e => exact Or.inl ⟨e, rfl, rfl⟩
    | ok fromMetrics =>
      cases summarizeEdges rd windowStart spans' with
      | error e => exact Or.inl ⟨e, rfl, rfl⟩
      | ok edgeSignals =>
        obtain ⟨e, hraised, hraised'⟩ | ⟨d, d', hok, hok', hfacts⟩ :=
          @summarizeUtilization_perm K _ _ rd windowStart _ _ hmetrics
        · rw [hraised, hraised']
          exact Or.inl ⟨e, rfl, rfl⟩
        · rw [hok, hok']
          exact Or.inr ⟨_, _, rfl, rfl, ⟨rfl, hedges, rfl, hfacts⟩⟩

end Rows

/-- Computed exactly, the structural analysis is the same for every order of the rows, or
fails alike. -/
theorem row_order_irrelevant {F : Type} [Field F] [LinearOrder F] [IsStrictOrderedRing F]
    (σ : Type) [DecidableEq σ] (rd : Rendering) (windowStart : Timestamp)
    {spans spans' : List (TraceSpan (Exact F))} {metrics metrics' : List (MetricSample (Exact F))}
    (hunique : UniqueSpans spans) (hspans : spans.Perm spans')
    (hmetrics : metrics.Perm metrics') :
    structuralRun σ rd windowStart spans metrics =
      structuralRun σ rd windowStart spans' metrics' := by
  unfold structuralRun
  obtain ⟨e, hraised, hraised'⟩ | ⟨inp, inp', hok, hok', hfacts⟩ :=
    @structuralSignals_perm (Exact F) _ _ rd windowStart _ _ _ _ hunique hspans hmetrics
  · rw [hraised, hraised']
  · rw [hok, hok']
    change (do
      let hypotheses ← buildHypotheses (σ := σ) inp
      let resolved ← resolveStructural inp
      return (hypotheses, buildObservables inp, resolved)) = (do
        let hypotheses ← buildHypotheses inp'
        let resolved ← resolveStructural inp'
        return (hypotheses, buildObservables inp', resolved))
    rw [buildHypotheses_of_facts hfacts, resolveStructural_of_facts hfacts,
      buildObservables_of_facts hfacts]

/-- Two calm spans and four gauges, read backwards. -/
theorem row_order_irrelevant_reversed :
    structuralRun ℕ SignalHonesty.plainRendering 3 SignalHonesty.calmSpans SignalHonesty.gauges =
      structuralRun ℕ SignalHonesty.plainRendering 3 SignalHonesty.calmSpans.reverse
        SignalHonesty.gauges.reverse :=
  row_order_irrelevant ℕ SignalHonesty.plainRendering 3 (by unfold UniqueSpans; decide)
    (List.reverse_perm _).symm (List.reverse_perm _).symm

end Raglogs.RowOrder
