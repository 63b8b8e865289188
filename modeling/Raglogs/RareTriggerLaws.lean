import Raglogs.RareTriggers

/-!
What the search for rare triggers shows. A metric is shown once, with the strongest of the
first anomalies of its series, unless five stronger ones fill the list. No candidate is lost
when the linked ones are put first, and being linked means a path of calls.
-/

namespace Raglogs.RareTriggerLaws

open Clusters Collections Dicts FailedEdges LogEntries RareTriggers ServiceGraphs Shortlists
  Telemetry Text TriggerScan

variable {K : Type} [Field K] [LinearOrder K]

section Onsets

variable (rd : Rendering) (log1p sqrt : K → K) (samples : List (MetricSample K))
  (incidentStart incidentEnd : Timestamp)

/-- The values of a series before the incident. -/
def baselineValues (s : Series) : List K :=
  ((points rd samples).filter fun q => q.1 = s ∧ q.2.1 < incidentStart).map fun q => q.2.2

/-- The first point of a series that deviates from its baseline. -/
structure IsOnset (s : Series) (o : AnomalyOnset K) : Prop where
  baseline : minBaseline ≤ (baselineValues rd samples incidentStart s).length
  first : ∃ value, (o.onset, value) ∈ incidentPoints rd samples incidentStart incidentEnd s ∧
    isAnomalous sqrt (baselineValues rd samples incidentStart s) value = true ∧
    o = onsetAt log1p sqrt incidentEnd s (baselineValues rd samples incidentStart s)
      (o.onset, value)
  earliest : ∀ p ∈ incidentPoints rd samples incidentStart incidentEnd s,
    isAnomalous sqrt (baselineValues rd samples incidentStart s) p.2 = true → o.onset ≤ p.1

variable {rd samples incidentStart}

omit [Field K] [LinearOrder K] in
theorem mem_baselines {s : Series} {base : List K} :
    (s, base) ∈ baselines rd samples incidentStart ↔
      base = baselineValues rd samples incidentStart s ∧ base ≠ [] := by
  unfold baselines baselineValues
  rw [List.mem_map]
  constructor
  · rintro ⟨⟨s', group⟩, hgroup, heq⟩
    obtain ⟨rfl, rfl⟩ := Prod.mk.inj heq
    obtain ⟨rfl, hne⟩ := (mem_groupOn _ _ _ _).mp hgroup
    rw [List.filter_filter]
    refine ⟨?_, ?_⟩
    · simp only [Bool.decide_and]
    · rw [List.filter_filter] at hne
      simpa using hne
  · rintro ⟨rfl, hne⟩
    have hgroup : ((points rd samples).filter fun q => q.1 = s ∧ q.2.1 < incidentStart) =
        ((points rd samples).filter fun q => q.2.1 < incidentStart).filter fun q => q.1 = s := by
      rw [List.filter_filter]
      simp only [Bool.decide_and]
    refine ⟨(s, (points rd samples).filter fun q => q.1 = s ∧ q.2.1 < incidentStart),
      (mem_groupOn _ _ _ _).mpr ⟨hgroup, ?_⟩, rfl⟩
    rintro hnil
    exact hne (by rw [hnil]; rfl)

variable {log1p sqrt incidentEnd}

/-- The onset of a series is its first anomaly. -/
theorem isOnset_of_seriesOnset {s : Series} {o : AnomalyOnset K}
    (h : seriesOnset rd log1p sqrt samples incidentStart incidentEnd s
      (baselineValues rd samples incidentStart s) = some o) :
    IsOnset rd log1p sqrt samples incidentStart incidentEnd s o := by
  unfold seriesOnset at h
  split at h
  · cases h
  · rename_i hlong
    obtain ⟨p, hp, rfl⟩ := Option.map_eq_some_iff.mp h
    unfold firstAnomaly at hp
    obtain ⟨hanomalous, front, back, hsplit, hfront⟩ := List.find?_eq_some_iff_append.mp hp
    have hmem : p ∈ sortOn Prod.fst
        (incidentPoints rd samples incidentStart incidentEnd s) := by
      rw [hsplit]
      exact List.mem_append_right _ List.mem_cons_self
    refine ⟨not_lt.mp hlong, ⟨p.2, (mem_sortOn _).mp hmem, hanomalous, rfl⟩, ?_⟩
    intro q hq hq'
    have hsorted := sortOn_pairwise Prod.fst
      (incidentPoints rd samples incidentStart incidentEnd s)
    have hq₀ : q ∈ sortOn Prod.fst (incidentPoints rd samples incidentStart incidentEnd s) :=
      (mem_sortOn _).mpr hq
    rw [hsplit] at hsorted hq₀
    rcases List.mem_append.mp hq₀ with hbefore | hafter
    · exact absurd hq' (by simpa using hfront q hbefore)
    · rcases List.mem_cons.mp hafter with rfl | hafter
      · exact le_refl _
      · exact (List.pairwise_cons.mp (List.pairwise_append.mp hsorted).2.1).1 q hafter

theorem instrument_of_seriesOnset {s : Series} {base : List K} {o : AnomalyOnset K}
    (h : seriesOnset rd log1p sqrt samples incidentStart incidentEnd s base = some o) :
    o.instrument = s.instrument := by
  unfold seriesOnset at h
  split at h
  · cases h
  · obtain ⟨p, -, rfl⟩ := Option.map_eq_some_iff.mp h
    rfl

variable (log1p) in
/-- A series with a baseline and an anomaly has an onset. -/
theorem exists_seriesOnset {s : Series}
    (hbase : minBaseline ≤ (baselineValues rd samples incidentStart s).length)
    {p : Timestamp × K} (hp : p ∈ incidentPoints rd samples incidentStart incidentEnd s)
    (hanomalous : isAnomalous sqrt (baselineValues rd samples incidentStart s) p.2 = true) :
    ∃ o, seriesOnset rd log1p sqrt samples incidentStart incidentEnd s
      (baselineValues rd samples incidentStart s) = some o := by
  have hsome : (firstAnomaly sqrt (baselineValues rd samples incidentStart s)
      (incidentPoints rd samples incidentStart incidentEnd s)).isSome = true := by
    unfold firstAnomaly
    rw [List.find?_isSome]
    exact ⟨p, (mem_sortOn _).mpr hp, hanomalous⟩
  obtain ⟨q, hq⟩ := Option.isSome_iff_exists.mp hsome
  refine ⟨onsetAt log1p sqrt incidentEnd s (baselineValues rd samples incidentStart s) q, ?_⟩
  unfold seriesOnset
  rw [if_neg (not_lt.mpr hbase), hq]
  rfl

/-! The strongest onset of an instrument. -/

theorem strongestOf_sublist (groups : List ((Option String × String) × List (AnomalyOnset K)))
    (hgroups : ∀ g ∈ groups, ∀ o ∈ g.2, o.instrument = g.1) :
    ((groups.filterMap fun g => strongestOf g.2).map AnomalyOnset.instrument).Sublist
      (groups.map Prod.fst) := by
  induction groups with
  | nil => exact List.Sublist.refl _
  | cons g groups ih =>
    rw [List.forall_mem_cons] at hgroups
    obtain ⟨instrument, members⟩ := g
    cases members with
    | nil => exact (ih hgroups.2).cons _
    | cons o others =>
      have hbest := hgroups.1 _ (minOn_mem AnomalyOnset.rank o others)
      dsimp only at hbest
      rw [List.filterMap_cons, strongestOf, List.map_cons, List.map_cons, hbest]
      exact (ih hgroups.2).cons_cons _

theorem instruments_strongest (onsets : List (AnomalyOnset K)) :
    ((strongest onsets).map AnomalyOnset.instrument).Nodup := by
  refine (groupOn_keys_nodup AnomalyOnset.instrument onsets).sublist (strongestOf_sublist _ ?_)
  rintro ⟨instrument, members⟩ hgroup o ho
  rw [((mem_groupOn _ _ _ _).mp hgroup).1, List.mem_filter] at ho
  exact of_decide_eq_true ho.2

theorem mem_of_mem_strongest {onsets : List (AnomalyOnset K)} {o : AnomalyOnset K}
    (h : o ∈ strongest onsets) : o ∈ onsets ∧
      ∀ o' ∈ onsets, o'.instrument = o.instrument → o.rank ≤ o'.rank := by
  obtain ⟨⟨instrument, members⟩, hgroup, hbest⟩ := List.mem_filterMap.mp h
  obtain ⟨hmembers, -⟩ := (mem_groupOn _ _ _ _).mp hgroup
  cases members with
  | nil => cases hbest
  | cons first others =>
    obtain rfl := Option.some.inj hbest
    have hmem := minOn_mem AnomalyOnset.rank first others
    rw [hmembers, List.mem_filter] at hmem
    refine ⟨hmem.1, fun o' ho' hsame => minOn_le _ first others ?_⟩
    rw [hmembers, List.mem_filter]
    exact ⟨ho', decide_eq_true (hsame.trans (of_decide_eq_true hmem.2))⟩

theorem exists_strongest {onsets : List (AnomalyOnset K)} {o : AnomalyOnset K} (h : o ∈ onsets) :
    ∃ o' ∈ strongest onsets, o'.instrument = o.instrument ∧ o'.rank ≤ o.rank := by
  obtain ⟨⟨instrument, members⟩, hgroup, rfl⟩ :=
    List.mem_map.mp ((mem_groupOn_keys AnomalyOnset.instrument onsets o.instrument).mpr ⟨o, h, rfl⟩)
  have hmembers := (mem_groupOn _ _ _ _).mp hgroup
  cases members with
  | nil => exact absurd rfl hmembers.2
  | cons first others =>
    have hbest : minOn AnomalyOnset.rank first others ∈ strongest onsets :=
      List.mem_filterMap.mpr ⟨_, hgroup, rfl⟩
    have hmem := minOn_mem AnomalyOnset.rank first others
    rw [hmembers.1, List.mem_filter] at hmem
    have hsame : (minOn AnomalyOnset.rank first others).instrument = o.instrument :=
      of_decide_eq_true hmem.2
    exact ⟨_, hbest, hsame, (mem_of_mem_strongest hbest).2 o h hsame.symm⟩

variable (rd log1p sqrt samples incidentStart incidentEnd)

/-- The onsets of all series. -/
def seriesOnsets : List (AnomalyOnset K) :=
  (baselines rd samples incidentStart).filterMap fun b =>
    seriesOnset rd log1p sqrt samples incidentStart incidentEnd b.1 b.2

variable {rd log1p sqrt samples incidentStart incidentEnd}

theorem mem_seriesOnsets {o : AnomalyOnset K} :
    o ∈ seriesOnsets rd log1p sqrt samples incidentStart incidentEnd ↔
      ∃ s, seriesOnset rd log1p sqrt samples incidentStart incidentEnd s
        (baselineValues rd samples incidentStart s) = some o := by
  unfold seriesOnsets
  rw [List.mem_filterMap]
  constructor
  · rintro ⟨⟨s, base⟩, hbase, ho⟩
    obtain ⟨rfl, -⟩ := mem_baselines.mp hbase
    exact ⟨s, ho⟩
  · rintro ⟨s, ho⟩
    refine ⟨(s, baselineValues rd samples incidentStart s), mem_baselines.mpr ⟨rfl, ?_⟩, ho⟩
    intro hnil
    rw [hnil] at ho
    cases ho

omit [Field K] [LinearOrder K] in
/-- Samples with finite values have their times and values among the points. -/
theorem mem_points_of_finite (hfinite : FiniteValues samples) {m : MetricSample K}
    (hm : m ∈ samples) {ts : Timestamp} (hts : m.ts = some ts) (hvalue : m.value ≠ none) :
    ∃ v, m.value = some (.finite v) ∧ (seriesOf rd m, ts, v) ∈ points rd samples := by
  obtain ⟨v, hv⟩ := Number.exists_finite hvalue (hfinite m hm)
  have hpoint : point m = some (ts, v) := by
    unfold point
    rw [hts, hv]
  exact ⟨v, hv, List.mem_filterMap.mpr ⟨m, hm, by rw [hpoint]; rfl⟩⟩

/-- What is shown is an onset of its instrument, the strongest one, and shown once; another
instrument is left out only when the list is full of stronger ones. No sample with a time and a
value is passed over. -/
theorem metricAnomalyOnsets_exact (rd : Rendering) (log1p sqrt : K → K)
    {samples : List (MetricSample K)} (hfinite : FiniteValues samples)
    (incidentStart incidentEnd : Timestamp) :
    (∀ m ∈ samples, ∀ ts, m.ts = some ts → m.value ≠ none →
        ∃ v, m.value = some (.finite v) ∧ (seriesOf rd m, ts, v) ∈ points rd samples) ∧
      (∀ o ∈ metricAnomalyOnsets rd log1p sqrt samples incidentStart incidentEnd,
        ∃ s, s.instrument = o.instrument ∧
          IsOnset rd log1p sqrt samples incidentStart incidentEnd s o) ∧
      ((metricAnomalyOnsets rd log1p sqrt samples incidentStart incidentEnd).map
        AnomalyOnset.instrument).Nodup ∧
      ∀ s, minBaseline ≤ (baselineValues rd samples incidentStart s).length →
        (∃ p ∈ incidentPoints rd samples incidentStart incidentEnd s,
          isAnomalous sqrt (baselineValues rd samples incidentStart s) p.2 = true) →
        ∃ o, IsOnset rd log1p sqrt samples incidentStart incidentEnd s o ∧
          ((∃ o' ∈ metricAnomalyOnsets rd log1p sqrt samples incidentStart incidentEnd,
            o'.instrument = s.instrument ∧ o'.rank ≤ o.rank) ∨
          (metricAnomalyOnsets rd log1p sqrt samples incidentStart incidentEnd).length =
              maxCandidates ∧
            ∀ o' ∈ metricAnomalyOnsets rd log1p sqrt samples incidentStart incidentEnd,
              o'.rank ≤ o.rank) := by
  have hshown : metricAnomalyOnsets rd log1p sqrt samples incidentStart incidentEnd =
      shortlist maxCandidates AnomalyOnset.rank
        (strongest (seriesOnsets rd log1p sqrt samples incidentStart incidentEnd)) := rfl
  rw [hshown]
  refine ⟨fun m hm ts hts hvalue => mem_points_of_finite hfinite hm hts hvalue, ?_,
    nodup_map_shortlist (instruments_strongest _), ?_⟩
  · intro o ho
    obtain ⟨s, hs⟩ := mem_seriesOnsets.mp (mem_of_mem_strongest (mem_of_mem_shortlist ho)).1
    exact ⟨s, (instrument_of_seriesOnset hs).symm, isOnset_of_seriesOnset hs⟩
  · rintro s hbase ⟨p, hp, hanomalous⟩
    obtain ⟨o, ho⟩ := exists_seriesOnset log1p hbase hp hanomalous
    refine ⟨o, isOnset_of_seriesOnset ho, ?_⟩
    obtain ⟨best, hbest, hsame, hle⟩ := exists_strongest (mem_seriesOnsets.mpr ⟨s, ho⟩)
    rcases mem_shortlist_or maxCandidates AnomalyOnset.rank hbest with hkept | ⟨hfull, hbefore⟩
    · exact .inl ⟨best, hkept, hsame.trans (instrument_of_seriesOnset ho), hle⟩
    · exact .inr ⟨hfull, fun o' ho' => (hbefore o' ho').trans hle⟩

end Onsets

/-- A sample of a service without attributes. -/
def gauge (service metric : String) (ts : Timestamp) (value : ℚ) : MetricSample ℚ :=
  ⟨some service, metric, some (.finite value), none, some ts, none, "default"⟩

/-- Two instruments that jump, the second one later, and one that stays. -/
def gauges : List (MetricSample ℚ) :=
  [gauge "cart" "cpu" 1 2, gauge "db" "load" 1 5, gauge "cart" "cpu" 2 2, gauge "db" "load" 2 5,
    gauge "cart" "cpu" 3 2, gauge "db" "load" 3 5, gauge "web" "rate" 1 1, gauge "web" "rate" 2 1,
    gauge "web" "rate" 3 1, gauge "web" "rate" 12 1, gauge "cart" "cpu" 11 8,
    gauge "db" "load" 11 5, gauge "db" "load" 14 9]

def plainRendering : Rendering := ⟨asciiLowering, fun _ => "", fun _ => ""⟩

theorem finite_gauges : FiniteValues gauges := by
  intro m hm hvalue
  simp only [gauges, List.mem_cons, List.not_mem_nil, or_false] at hm
  rcases hm with rfl | rfl | rfl | rfl | rfl | rfl | rfl | rfl | rfl | rfl | rfl | rfl | rfl <;>
    cases hvalue

/-- The onsets of the two that jump. -/
theorem onsets_gauges :
    (metricAnomalyOnsets plainRendering id id gauges 10 20).map AnomalyOnset.onset = [11, 14] ∧
      ∀ o ∈ metricAnomalyOnsets plainRendering id id gauges 10 20,
        ∃ s, s.instrument = o.instrument ∧
          IsOnset plainRendering id id gauges 10 20 s o :=
  ⟨by decide +kernel, (metricAnomalyOnsets_exact plainRendering id id finite_gauges 10 20).2.1⟩

/-! Linkage. -/

section Linkage

/-- Two services of which one is known to depend on the other, or one service. -/
def Related (g : Linkage.ServiceGraph) (a b : String) : Prop :=
  a = b ∨ a ∈ g.services ∧ b ∈ g.services ∧
    (Relation.ReflTransGen (Calls g) a b ∨ Relation.ReflTransGen (Calls g) b a)

theorem isLinked_iff (order : SetOrder) (g : TraceGraph) (root service : Option String) :
    isLinked order g root service = true ↔
      ∃ a b, truthy service = some a ∧ truthy root = some b ∧ Related g.toServiceGraph a b := by
  unfold isLinked
  split
  · rename_i a b ha hb
    obtain ⟨forth, hforth⟩ := exists_reachable order (g := g.toServiceGraph) a b
    obtain ⟨back, hback⟩ := exists_reachable order (g := g.toServiceGraph) b a
    have hanswer : (linked order g.toServiceGraph a b).getD false = true ↔
        Related g.toServiceGraph a b := by
      rw [linked_eq order hforth hback, Option.getD_some, Related,
        ← reachable_iff order hforth, ← reachable_iff order hback]
      simp only [Bool.or_eq_true, Bool.and_eq_true, decide_eq_true_eq, and_assoc]
    rw [hanswer]
    constructor
    · exact fun h => ⟨a, b, ha, hb, h⟩
    · rintro ⟨a', b', ha', hb', h⟩
      rw [ha, Option.some.injEq] at ha'
      rw [hb, Option.some.injEq] at hb'
      rwa [ha', hb']
  · rename_i hno
    refine iff_of_false Bool.false_ne_true ?_
    rintro ⟨a, b, ha, hb, -⟩
    exact hno a b ha hb

variable {S : Type} (env : RareEnvironment K) (samples : List (MetricSample K))
  (spans : List (TraceSpan S)) (clusters : List (ClusterData K)) (primary : Option (ClusterData K))
  (windowStart windowEnd : Timestamp) (scope : String)

/-- A candidate that the calls in the window relate to the service with the errors. -/
def RelatedTrigger (t : TriggerCandidate) : Prop :=
  ∃ a b, truthy t.service = some a ∧ truthy (primary.bind (primaryService env.keys)) = some b ∧
    Related (traceGraphFromSpans (spansInWindow spans scope windowStart windowEnd)).toServiceGraph
      a b

/-- Every rare event is shown once, the related ones first; whether there is any and whether
any is related is told apart. -/
theorem rareEventTriggers_exact :
    (rareEventTriggers env samples spans clusters primary windowStart windowEnd scope).candidates =
        (scoredTriggers env samples clusters primary windowStart windowEnd scope).filter
          (links env spans primary windowStart windowEnd scope) ++
        (scoredTriggers env samples clusters primary windowStart windowEnd scope).filter
          (fun t => !links env spans primary windowStart windowEnd scope t) ∧
      ((rareEventTriggers env samples spans clusters primary windowStart windowEnd
          scope).triggerFound = true ↔
        (rareEventTriggers env samples spans clusters primary windowStart windowEnd
          scope).candidates ≠ []) ∧
      ((rareEventTriggers env samples spans clusters primary windowStart windowEnd
          scope).triggerExplains = true ↔
        ∃ t ∈ (rareEventTriggers env samples spans clusters primary windowStart windowEnd
          scope).candidates.head?,
          RelatedTrigger env spans primary windowStart windowEnd scope t) := by
  have hrelated : ∀ t, links env spans primary windowStart windowEnd scope t = true ↔
      RelatedTrigger env spans primary windowStart windowEnd scope t := fun t =>
    isLinked_iff env.order _ _ t.service
  simp only [← hrelated]
  unfold rareEventTriggers
  dsimp only
  generalize scoredTriggers env samples clusters primary windowStart windowEnd scope = scored
  generalize links env spans primary windowStart windowEnd scope = linked
  by_cases hnone : scored = []
  · subst hnone
    simp [noTriggers]
  · rw [if_neg hnone, sortOn_flag]
    refine ⟨rfl, ⟨fun _ => ?_, fun _ => rfl⟩, ?_⟩
    · intro hnil
      rw [List.append_eq_nil_iff, List.filter_eq_nil_iff, List.filter_eq_nil_iff] at hnil
      obtain ⟨t, ht⟩ := List.exists_mem_of_ne_nil scored hnone
      have hyes := hnil.1 t ht
      have hno := hnil.2 t ht
      simp [hyes] at hno
    · rw [List.any_eq_true]
      cases hfront : scored.filter linked with
      | nil =>
        have hno := List.filter_eq_nil_iff.mp hfront
        refine iff_of_false (fun ⟨t, ht, hyes⟩ => hno t ht hyes) ?_
        rintro ⟨t, ht, hyes⟩
        rw [List.nil_append] at ht
        exact hno t (List.mem_of_mem_filter (List.mem_of_mem_head? ht)) hyes
      | cons t rest =>
        have hmem : t ∈ scored.filter linked := hfront ▸ List.mem_cons_self
        obtain ⟨ht, hyes⟩ := List.mem_filter.mp hmem
        exact iff_of_true ⟨t, ht, hyes⟩ ⟨t, rfl, hyes⟩

end Linkage

end Raglogs.RareTriggerLaws
