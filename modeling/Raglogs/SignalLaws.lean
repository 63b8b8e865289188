import Raglogs.StructuralModel

/-!
What the reducers prove. A branch is anomalous or normal only when it was measured; a
signal is present if a branch is anomalous, absent if both are normal, and unknown
otherwise. Each reducer's result is read off the rows of its own key.
-/

namespace Raglogs.SignalLaws

open Collections Dicts LogEntries SortedDicts StructuralSignals CallGraph Utilization
  StructuralModel Telemetry Text

variable {K : Type}

/-- A branch was measured and the verdict is that it is anomalous. -/
def Anomalous (judge : K → Except ModelError Bool) (x : Option K) : Prop :=
  ∃ v, x = some v ∧ judge v = .ok true

/-- A branch was measured and the verdict is that it is normal. -/
def Nominal (judge : K → Except ModelError Bool) (x : Option K) : Prop :=
  ∃ v, x = some v ∧ judge v = .ok false

/-- A verdict is reached, or none is asked for. -/
def Judged (judge : K → Except ModelError Bool) (x : Option K) : Prop :=
  ∀ v, x = some v → ∃ b, judge v = .ok b

/-- The state that a pair of branches proves. -/
def stateOf (present absent : Prop) (state : Option SigState) : Prop :=
  (state = some .present ↔ present) ∧ (state = some .absent ↔ absent)

theorem stateOf.unique {present absent : Prop} {state state' : Option SigState}
    (h : stateOf present absent state) (h' : stateOf present absent state') : state = state' := by
  have hpresent := h.1.trans h'.1.symm
  have habsent := h.2.trans h'.2.symm
  rcases state with _ | _ | _ <;> rcases state' with _ | _ | _ <;> simp_all

theorem Nominal.not_anomalous {judge : K → Except ModelError Bool} {x : Option K}
    (h : Nominal judge x) : ¬Anomalous judge x := by
  rintro ⟨w, hw, hj⟩
  obtain ⟨v, hv, hj'⟩ := h
  rw [hv, Option.some.injEq] at hw
  rw [hw, hj] at hj'
  exact absurd (Except.ok.inj hj') (by decide)

theorem sigStateOf_spec (errorPresent latencyHigh errorMeasured latencyMeasured : Bool) :
    stateOf (errorPresent = true ∨ latencyHigh = true)
      ((errorMeasured = true ∧ errorPresent = false) ∧
        (latencyMeasured = true ∧ latencyHigh = false))
      (sigStateOf errorPresent latencyHigh errorMeasured latencyMeasured) := by
  unfold stateOf sigStateOf
  cases errorPresent <;> cases latencyHigh <;> cases errorMeasured <;> cases latencyMeasured <;>
    simp

theorem onMeasured_returns_iff {judge : K → Except ModelError Bool} {x : Option K} :
    (∃ b, onMeasured judge x = .ok b) ↔ Judged judge x := by
  cases x with
  | none => simp [onMeasured, Judged]
  | some v => simp [onMeasured, Judged]

theorem onMeasured_spec {judge : K → Except ModelError Bool} {x : Option K} {b : Bool}
    (h : onMeasured judge x = .ok b) :
    (b = true ↔ Anomalous judge x) ∧ ((x.isSome = true ∧ b = false) ↔ Nominal judge x) := by
  cases x with
  | none =>
    obtain rfl := Except.ok.inj h
    simp [Anomalous, Nominal]
  | some v =>
    have hv : judge v = .ok b := h
    simp [Anomalous, Nominal, hv]

section Spans

variable [Arithmetic K] {rd : Rendering} {windowStart : Timestamp}

theorem measure_returns_iff {t : SpanTally K} :
    (∃ m, t.measure = .ok m) ↔ Judged isErrorRate t.rate ∧ Judged isHighRatio t.ratio := by
  rw [← onMeasured_returns_iff, ← onMeasured_returns_iff]
  unfold SpanTally.measure
  constructor
  · rintro ⟨m, hm⟩
    obtain ⟨e, he, hm⟩ := bind_eq_ok.mp hm
    obtain ⟨l, hl, -⟩ := bind_eq_ok.mp hm
    exact ⟨⟨e, he⟩, l, hl⟩
  · rintro ⟨⟨e, he⟩, l, hl⟩
    exact ⟨_, bind_eq_ok.mpr ⟨e, he, bind_eq_ok.mpr ⟨l, hl, rfl⟩⟩⟩

/-- A branch of some spans is measured and anomalous. -/
def SpanPresent (t : SpanTally K) : Prop :=
  Anomalous isErrorRate t.rate ∨ Anomalous isHighRatio t.ratio

/-- Both branches of some spans are measured and normal. -/
def SpanAbsent (t : SpanTally K) : Prop :=
  Nominal isErrorRate t.rate ∧ Nominal isHighRatio t.ratio

/-- A signal of spans says what its two branches prove. -/
theorem measure_spec {t : SpanTally K} {m : Measurement K} (h : t.measure = .ok m) :
    stateOf (SpanPresent t) (SpanAbsent t) m.sigState := by
  unfold SpanPresent SpanAbsent
  unfold SpanTally.measure at h
  obtain ⟨e, he, h⟩ := bind_eq_ok.mp h
  obtain ⟨l, hl, h⟩ := bind_eq_ok.mp h
  obtain rfl := Except.ok.inj h
  obtain ⟨hepresent, henormal⟩ := onMeasured_spec he
  obtain ⟨hlpresent, hlnormal⟩ := onMeasured_spec hl
  rw [← hepresent, ← hlpresent, ← henormal, ← hlnormal]
  exact sigStateOf_spec e l t.rate.isSome t.ratio.isSome

/-- The error branch is measured exactly by an explicit status in the incident. -/
theorem rate_isSome_iff {spans : List (TraceSpan K)} :
    (tallySpans rd windowStart spans).rate.isSome ↔
      ∃ sp ∈ spans, isIncident windowStart sp = true ∧
        ∃ c, statusClass rd sp.statusCode = some c := by
  have hpos : (tallySpans rd windowStart spans).rate.isSome ↔
      0 < (tallySpans rd windowStart spans).ok ∨ 0 < (tallySpans rd windowStart spans).err := by
    unfold SpanTally.rate
    split <;> simp <;> omega
  rw [hpos]
  simp only [tallySpans, List.countP_pos_iff, List.mem_filter, beq_iff_eq]
  constructor
  · rintro (⟨sp, ⟨hsp, hinc⟩, hc⟩ | ⟨sp, ⟨hsp, hinc⟩, hc⟩)
    · exact ⟨sp, hsp, hinc, _, hc⟩
    · exact ⟨sp, hsp, hinc, _, hc⟩
  · rintro ⟨sp, hsp, hinc, c, hc⟩
    cases c with
    | ok => exact Or.inl ⟨sp, ⟨hsp, hinc⟩, hc⟩
    | error => exact Or.inr ⟨sp, ⟨hsp, hinc⟩, hc⟩

/-- The latency branch is measured exactly by valid durations in both halves and a
positive median of the baseline. -/
theorem ratio_isSome_iff {spans : List (TraceSpan K)} :
    (tallySpans rd windowStart spans).ratio.isSome ↔
      (∃ sp ∈ spans, isIncident windowStart sp = true ∧ (validDuration sp.durationMs).isSome) ∧
      (∃ sp ∈ spans, isBaseline windowStart sp = true ∧ (validDuration sp.durationMs).isSome) ∧
      0 < median (tallySpans rd windowStart spans).baselineDurations := by
  have hne : ∀ half : TraceSpan K → Bool,
      (spans.filter half).filterMap (fun sp => validDuration sp.durationMs) ≠ [] ↔
        ∃ sp ∈ spans, half sp = true ∧ (validDuration sp.durationMs).isSome := by
    intro half
    simp [List.filterMap_eq_nil_iff, Option.isSome_iff_ne_none]
  unfold SpanTally.ratio
  rw [← hne, ← hne]
  split
  · rename_i h
    exact iff_of_true rfl h
  · rename_i h
    exact iff_of_false (by simp) h

end Spans

section Metrics

variable [Arithmetic K] {rd : Rendering} {windowStart : Timestamp}

/-- Some of the rows have a recorded identity and some have none. -/
def Mixed (rows : List (Reading K)) : Prop :=
  (∃ r ∈ rows, r.attributes = none) ∧ ∃ r ∈ rows, r.attributes ≠ none

omit [Arithmetic K] in
theorem mixed_iff {rows : List (Reading K)} :
    (none ∈ fromKeys (rows.map (fun r => seriesKey rd r.attributes)) ∧
      1 < (fromKeys (rows.map (fun r => seriesKey rd r.attributes))).length) ↔ Mixed rows := by
  have hmem : ∀ key, key ∈ fromKeys (rows.map (fun r => seriesKey rd r.attributes)) ↔
      ∃ r ∈ rows, seriesKey rd r.attributes = key := by
    intro key
    rw [mem_fromKeys, List.mem_map]
  have hnone : ∀ r : Reading K, seriesKey rd r.attributes = none ↔ r.attributes = none := by
    intro r
    simp [seriesKey]
  have hnodup := fromKeys_nodup (rows.map (fun r => seriesKey rd r.attributes))
  constructor
  · rintro ⟨hno, hlong⟩
    obtain ⟨r, hr, hrnone⟩ := (hmem none).mp hno
    refine ⟨⟨r, hr, (hnone r).mp hrnone⟩, ?_⟩
    by_contra hall
    have hreplicate := List.eq_replicate_of_mem (a := none) (fun key hkey => by
      obtain ⟨r', hr', rfl⟩ := (hmem key).mp hkey
      exact (hnone r').mpr (by_contra fun h => hall ⟨r', hr', h⟩))
    rw [hreplicate, List.nodup_replicate] at hnodup
    omega
  · rintro ⟨⟨r, hr, hrnone⟩, r', hr', hsome⟩
    have hno := (hmem none).mpr ⟨r, hr, (hnone r).mpr hrnone⟩
    have hother := (hmem _).mpr ⟨r', hr', rfl⟩
    refine ⟨hno, ?_⟩
    by_contra hshort
    obtain ⟨key, hkey⟩ := List.length_eq_one_iff.mp
      (le_antisymm (Nat.not_lt.mp hshort) (List.length_pos_of_mem hno))
    rw [hkey, List.mem_singleton] at hno hother
    exact hsome ((hnone r').mp (hother.trans hno.symm))

omit [Arithmetic K] in
theorem sortSeries_eq (rows : List (Reading K)) :
    sortSeries rd rows =
      if none ∈ fromKeys (rows.map (fun r => seriesKey rd r.attributes)) ∧
        1 < (fromKeys (rows.map (fun r => seriesKey rd r.attributes))).length then
        .error .unorderable
      else .ok (sortOn (fun key => key.getD "")
        (fromKeys (rows.map (fun r => seriesKey rd r.attributes)))) := rfl

omit [Arithmetic K] in
theorem sortSeries_returns_iff {rows : List (Reading K)} :
    (∃ keys, sortSeries rd rows = .ok keys) ↔ ¬Mixed rows := by
  rw [← mixed_iff, sortSeries_eq]
  split
  · rename_i h
    exact iff_of_false (by simp) (fun hn => hn h)
  · rename_i h
    exact iff_of_true ⟨_, rfl⟩ h

omit [Arithmetic K] in
theorem mem_sortSeries {rows : List (Reading K)} {keys : List (Option String)}
    (h : sortSeries rd rows = .ok keys) {key : Option String} :
    key ∈ keys ↔ ∃ r ∈ rows, seriesKey rd r.attributes = key := by
  rw [sortSeries_eq] at h
  split at h
  · cases h
  · obtain rfl := Except.ok.inj h
    rw [mem_sortOn, mem_fromKeys, List.mem_map]

omit [Arithmetic K] in
theorem hits_returns_iff {judge : K → Except ModelError Bool} {series : List (Option K)} :
    (∃ hs, hits judge series = .ok hs) ↔ ∀ x ∈ series, Judged judge x := by
  have hall : (∀ x ∈ series, Judged judge x) ↔ ∀ v ∈ series.filterMap id, ∃ b, judge v = .ok b := by
    constructor
    · intro h v hv
      obtain ⟨x, hx, hxv⟩ := List.mem_filterMap.mp hv
      exact h x hx v hxv
    · intro h x hx v hxv
      exact h v (List.mem_filterMap.mpr ⟨x, hx, hxv⟩)
  rw [hall, ← entries_ok_iff]
  unfold hits
  constructor
  · rintro ⟨hs, h⟩
    obtain ⟨entries, hentries, -⟩ := bind_eq_ok.mp h
    exact ⟨entries, hentries⟩
  · rintro ⟨entries, hentries⟩
    exact ⟨_, bind_eq_ok.mpr ⟨entries, hentries, rfl⟩⟩

omit [Arithmetic K] in
/-- The hits are the anomalous series, and without one every measured series is normal. -/
theorem hits_spec {judge : K → Except ModelError Bool} {series : List (Option K)} {hs : List K}
    (h : hits judge series = .ok hs) :
    ((!hs.isEmpty) = true ↔ ∃ x ∈ series, Anomalous judge x) ∧
      (((!series.isEmpty && series.all Option.isSome) = true ∧ (!hs.isEmpty) = false) ↔
        series ≠ [] ∧ ∀ x ∈ series, Nominal judge x) := by
  have hjudged := hits_returns_iff.mp ⟨hs, h⟩
  obtain ⟨entries, hentries, h⟩ := bind_eq_ok.mp h
  obtain rfl := Except.ok.inj h
  obtain ⟨hfst, hval⟩ := entries_of_keys (mapM_eq_ok_iff.mp hentries)
  have hhits : (!((entries.filter Prod.snd).map Prod.fst).isEmpty) = true ↔
      ∃ x ∈ series, Anomalous judge x := by
    rw [Bool.not_eq_true', List.isEmpty_eq_false_iff_exists_mem]
    constructor
    · rintro ⟨v, hv⟩
      obtain ⟨p, hp, rfl⟩ := List.mem_map.mp hv
      obtain ⟨hp, hhit⟩ := List.mem_filter.mp hp
      have hmem : p.1 ∈ series.filterMap id := hfst ▸ List.mem_map_of_mem hp
      obtain ⟨x, hx, hxv⟩ := List.mem_filterMap.mp hmem
      exact ⟨x, hx, p.1, hxv, hhit ▸ hval p hp⟩
    · rintro ⟨x, hx, v, hxv, hj⟩
      have hmem : v ∈ entries.map Prod.fst :=
        hfst ▸ List.mem_filterMap.mpr ⟨x, hx, hxv⟩
      obtain ⟨p, hp, rfl⟩ := List.mem_map.mp hmem
      have hhit : p.2 = true := Except.ok.inj ((hval p hp).symm.trans hj)
      exact ⟨p.1, List.mem_map_of_mem (List.mem_filter.mpr ⟨hp, hhit⟩)⟩
  refine ⟨hhits, ?_⟩
  rw [← Bool.not_eq_true, hhits, Bool.and_eq_true, Bool.not_eq_true', List.isEmpty_eq_false_iff,
    List.all_eq_true]
  constructor
  · rintro ⟨⟨hne, hmeasured⟩, hno⟩
    refine ⟨hne, ?_⟩
    intro x hx
    obtain ⟨v, rfl⟩ := Option.isSome_iff_exists.mp (hmeasured x hx)
    obtain ⟨b, hb⟩ := hjudged _ hx v rfl
    cases b with
    | true => exact absurd ⟨_, hx, v, rfl, hb⟩ hno
    | false => exact ⟨v, rfl, hb⟩
  · rintro ⟨hne, hnormal⟩
    refine ⟨⟨hne, ?_⟩, ?_⟩
    · intro x hx
      obtain ⟨v, rfl, -⟩ := hnormal x hx
      rfl
    · rintro ⟨x, hx, hanomalous⟩
      exact (hnormal x hx).not_anomalous hanomalous

/-- A signal of metrics says what its series prove. -/
theorem measureSeriesBranches_spec {errSeries latSeries : List (Option K)} {m : Measurement K}
    (h : measureSeriesBranches errSeries latSeries = .ok m) :
    stateOf ((∃ x ∈ errSeries, Anomalous isErrorRate x) ∨ ∃ x ∈ latSeries, Anomalous isHighRatio x)
      ((errSeries ≠ [] ∧ ∀ x ∈ errSeries, Nominal isErrorRate x) ∧
        latSeries ≠ [] ∧ ∀ x ∈ latSeries, Nominal isHighRatio x) m.sigState := by
  unfold measureSeriesBranches at h
  obtain ⟨e, he, h⟩ := bind_eq_ok.mp h
  obtain ⟨l, hl, h⟩ := bind_eq_ok.mp h
  obtain rfl := Except.ok.inj h
  obtain ⟨hepresent, henormal⟩ := hits_spec he
  obtain ⟨hlpresent, hlnormal⟩ := hits_spec hl
  rw [← hepresent, ← hlpresent, ← henormal, ← hlnormal]
  exact sigStateOf_spec _ _ _ _

omit [Arithmetic K] in
/-- Where every value is well-formed there are as many as were read. -/
theorem filterMap_eq_nil_iff_of_isSome {valid : Number K → Option K} {xs : List (Number K)}
    (h : ∀ x ∈ xs, (valid x).isSome) : xs.filterMap valid = [] ↔ xs = [] := by
  rw [List.filterMap_eq_nil_iff]
  constructor
  · intro hnone
    refine List.eq_nil_iff_forall_not_mem.mpr fun x hx => ?_
    have hsome := h x hx
    rw [hnone x hx] at hsome
    cases hsome
  · rintro rfl x hx
    cases hx

/-- A rate is measured exactly when there are values and all of them are rates. -/
theorem seriesRate_isSome_iff {xs : List (Number K)} :
    (seriesRate xs).isSome ↔ xs ≠ [] ∧ ∀ x ∈ xs, x.rate?.isSome := by
  unfold seriesRate
  rw [mapM_option_eq]
  by_cases hall : xs.all (fun x => x.rate?.isSome) = true
  · have hwell := List.all_eq_true.mp hall
    rw [if_pos hall, Option.bind_some]
    by_cases hempty : xs = []
    · rw [if_pos ((filterMap_eq_nil_iff_of_isSome hwell).mpr hempty)]
      exact iff_of_false (fun h => nomatch h) fun h => h.1 hempty
    · rw [if_neg (mt (filterMap_eq_nil_iff_of_isSome hwell).mp hempty)]
      exact iff_of_true rfl ⟨hempty, hwell⟩
  · rw [if_neg hall]
    exact iff_of_false (fun h => nomatch h) fun h => hall (List.all_eq_true.mpr h.2)

/-- A ratio is measured exactly when both halves have values, all of them finite and not negative,
and the mean of the baseline is positive. -/
theorem seriesRatio_isSome_iff {incident baseline : List (Number K)} :
    (seriesRatio incident baseline).isSome ↔
      (incident ≠ [] ∧ ∀ x ∈ incident, x.nonneg?.isSome) ∧
      (baseline ≠ [] ∧ ∀ x ∈ baseline, x.nonneg?.isSome) ∧
      0 < mean (baseline.filterMap Number.nonneg?) := by
  unfold seriesRatio
  rw [mapM_option_eq, mapM_option_eq]
  by_cases hi : incident.all (fun x => x.nonneg?.isSome) = true
  · by_cases hb : baseline.all (fun x => x.nonneg?.isSome) = true
    · have hi' := List.all_eq_true.mp hi
      have hb' := List.all_eq_true.mp hb
      rw [if_pos hi, if_pos hb, and_iff_left hi', and_iff_left hb', ne_eq, ne_eq,
        ← filterMap_eq_nil_iff_of_isSome hi', ← filterMap_eq_nil_iff_of_isSome hb']
      dsimp only
      split
      · rename_i h
        exact iff_of_true rfl h
      · rename_i h
        exact iff_of_false (fun hsome => nomatch hsome) h
    · rw [if_pos hi, if_neg hb]
      exact iff_of_false (fun h => nomatch h) fun h => hb (List.all_eq_true.mpr h.2.1.2)
  · rw [if_neg hi]
    exact iff_of_false (fun h => nomatch h) fun h => hi (List.all_eq_true.mpr h.1.2)

variable (rd windowStart) in
/-- The rate of an error series of a service. -/
def errorRateOf (rows : List (Reading K)) (service : String) (key : Option String) : Option K :=
  seriesRate (seriesValues rd windowStart (metricReadings rows service "error_rate") key true)

variable (rd windowStart) in
/-- The ratio of a latency series of a service. -/
def latencyRatioOf (rows : List (Reading K)) (service : String) (key : Option String) : Option K :=
  seriesRatio (seriesValues rd windowStart (metricReadings rows service "latency_ms") key true)
    (seriesValues rd windowStart (metricReadings rows service "latency_ms") key false)

variable (rd windowStart) in
/-- Some series of the service is measured and anomalous. -/
def MetricPresent (rows : List (Reading K)) (service : String) : Prop :=
  (∃ r ∈ metricReadings rows service "error_rate",
    Anomalous isErrorRate (errorRateOf rd windowStart rows service (seriesKey rd r.attributes))) ∨
  ∃ r ∈ metricReadings rows service "latency_ms",
    Anomalous isHighRatio (latencyRatioOf rd windowStart rows service (seriesKey rd r.attributes))

variable (rd windowStart) in
/-- There are series of both branches, and every one is measured and normal. -/
def MetricAbsent (rows : List (Reading K)) (service : String) : Prop :=
  (metricReadings rows service "error_rate" ≠ [] ∧
    ∀ r ∈ metricReadings rows service "error_rate",
      Nominal isErrorRate (errorRateOf rd windowStart rows service (seriesKey rd r.attributes))) ∧
  metricReadings rows service "latency_ms" ≠ [] ∧
    ∀ r ∈ metricReadings rows service "latency_ms",
      Nominal isHighRatio (latencyRatioOf rd windowStart rows service (seriesKey rd r.attributes))

omit [Arithmetic K] in
/-- The values of a branch are those of its series. -/
theorem forall_series_iff {rows : List (Reading K)} {keys : List (Option String)}
    (h : sortSeries rd rows = .ok keys) (value : Option String → Option K) (p : Option K → Prop) :
    (∀ x ∈ keys.map value, p x) ↔ ∀ r ∈ rows, p (value (seriesKey rd r.attributes)) := by
  rw [List.forall_mem_map]
  constructor
  · exact fun hall r hr => hall _ ((mem_sortSeries h).mpr ⟨r, hr, rfl⟩)
  · intro hall key hkey
    obtain ⟨r, hr, rfl⟩ := (mem_sortSeries h).mp hkey
    exact hall r hr

omit [Arithmetic K] in
theorem exists_series_iff {rows : List (Reading K)} {keys : List (Option String)}
    (h : sortSeries rd rows = .ok keys) (value : Option String → Option K) (p : Option K → Prop) :
    (∃ x ∈ keys.map value, p x) ↔ ∃ r ∈ rows, p (value (seriesKey rd r.attributes)) := by
  have hforall := forall_series_iff h value (fun x => ¬p x)
  simpa using not_congr hforall

omit [Arithmetic K] in
theorem series_ne_nil_iff {rows : List (Reading K)} {keys : List (Option String)}
    (h : sortSeries rd rows = .ok keys) (value : Option String → Option K) :
    keys.map value ≠ [] ↔ rows ≠ [] := by
  have hforall := forall_series_iff h value (fun _ => False)
  simpa [List.eq_nil_iff_forall_not_mem] using not_congr hforall

theorem metricSignal_returns_iff {rows : List (Reading K)} {service : String} :
    (∃ sig, metricSignal rd windowStart rows service = .ok sig) ↔
      (¬Mixed (metricReadings rows service "error_rate") ∧
        ¬Mixed (metricReadings rows service "latency_ms")) ∧
      (∀ r ∈ metricReadings rows service "error_rate", Judged isErrorRate
        (errorRateOf rd windowStart rows service (seriesKey rd r.attributes))) ∧
      ∀ r ∈ metricReadings rows service "latency_ms", Judged isHighRatio
        (latencyRatioOf rd windowStart rows service (seriesKey rd r.attributes)) := by
  rw [← sortSeries_returns_iff, ← sortSeries_returns_iff]
  unfold metricSignal errorSeries latencySeries measureSeriesBranches
  constructor
  · rintro ⟨sig, h⟩
    obtain ⟨es, hes, h⟩ := bind_eq_ok.mp h
    obtain ⟨ekeys, hekeys, hes⟩ := bind_eq_ok.mp hes
    obtain rfl := Except.ok.inj hes
    obtain ⟨ls, hls, h⟩ := bind_eq_ok.mp h
    obtain ⟨lkeys, hlkeys, hls⟩ := bind_eq_ok.mp hls
    obtain rfl := Except.ok.inj hls
    obtain ⟨m, hm, -⟩ := bind_eq_ok.mp h
    obtain ⟨ehits, hehits, hm⟩ := bind_eq_ok.mp hm
    obtain ⟨lhits, hlhits, -⟩ := bind_eq_ok.mp hm
    exact ⟨⟨⟨ekeys, hekeys⟩, lkeys, hlkeys⟩,
      (forall_series_iff hekeys _ _).mp (hits_returns_iff.mp ⟨ehits, hehits⟩),
      (forall_series_iff hlkeys _ _).mp (hits_returns_iff.mp ⟨lhits, hlhits⟩)⟩
  · rintro ⟨⟨⟨ekeys, hekeys⟩, lkeys, hlkeys⟩, herr, hlat⟩
    obtain ⟨ehits, hehits⟩ := hits_returns_iff.mpr ((forall_series_iff hekeys _ _).mpr herr)
    obtain ⟨lhits, hlhits⟩ := hits_returns_iff.mpr ((forall_series_iff hlkeys _ _).mpr hlat)
    exact ⟨_, bind_eq_ok.mpr ⟨_, bind_eq_ok.mpr ⟨ekeys, hekeys, rfl⟩, bind_eq_ok.mpr
      ⟨_, bind_eq_ok.mpr ⟨lkeys, hlkeys, rfl⟩, bind_eq_ok.mpr
        ⟨_, bind_eq_ok.mpr ⟨ehits, hehits, bind_eq_ok.mpr ⟨lhits, hlhits, rfl⟩⟩, rfl⟩⟩⟩⟩

/-- A metric signal says what the series of its service prove. -/
theorem metricSignal_spec {rows : List (Reading K)} {service : String} {sig : ServiceSignal K}
    (h : metricSignal rd windowStart rows service = .ok sig) :
    stateOf (MetricPresent rd windowStart rows service) (MetricAbsent rd windowStart rows service)
      sig.sigState := by
  unfold metricSignal errorSeries latencySeries at h
  obtain ⟨es, hes, h⟩ := bind_eq_ok.mp h
  obtain ⟨ekeys, hekeys, hes⟩ := bind_eq_ok.mp hes
  obtain rfl := Except.ok.inj hes
  obtain ⟨ls, hls, h⟩ := bind_eq_ok.mp h
  obtain ⟨lkeys, hlkeys, hls⟩ := bind_eq_ok.mp hls
  obtain rfl := Except.ok.inj hls
  obtain ⟨m, hm, h⟩ := bind_eq_ok.mp h
  obtain rfl := Except.ok.inj h
  have hspec := measureSeriesBranches_spec hm
  rwa [exists_series_iff hekeys, exists_series_iff hlkeys, forall_series_iff hekeys,
    forall_series_iff hlkeys, series_ne_nil_iff hekeys, series_ne_nil_iff hlkeys] at hspec

end Metrics

section Services

variable [Arithmetic K] {rd : Rendering} {windowStart : Timestamp}

theorem spanSignal_spec {spans : List (TraceSpan K)} {service : String} {sig : ServiceSignal K}
    (h : spanSignal rd windowStart spans service = .ok sig) :
    stateOf (SpanPresent (tallySpans rd windowStart (spansOf spans service)))
      (SpanAbsent (tallySpans rd windowStart (spansOf spans service))) sig.sigState := by
  obtain ⟨m, hm, h⟩ := bind_eq_ok.mp h
  obtain rfl := Except.ok.inj h
  exact measure_spec hm

theorem edgeSignal_spec {spans : List (TraceSpan K)} {edge : Pair} {e : EdgeSignal K}
    (h : edgeSignal rd windowStart spans edge = .ok e) :
    stateOf (SpanPresent (tallySpans rd windowStart (spansOfEdge spans (ofLex edge))))
      (SpanAbsent (tallySpans rd windowStart (spansOfEdge spans (ofLex edge)))) e.sigState := by
  obtain ⟨m, hm, h⟩ := bind_eq_ok.mp h
  obtain rfl := Except.ok.inj h
  exact measure_spec hm

theorem mem_spanServices {spans : List (TraceSpan K)} {service : String} :
    service ∈ inOrder ((spans.filter (countsForService rd windowStart)).filterMap
        (fun sp => truthy sp.service)).toFinset ↔
      ∃ sp ∈ spansOf spans service, countsForService rd windowStart sp = true := by
  rw [mem_inOrder, List.mem_toFinset, List.mem_filterMap]
  simp only [spansOf, List.mem_filter, beq_iff_eq]
  exact exists_congr fun sp => by tauto

/-- A span signal is looked up for the services that some span counts for. -/
theorem lookup_summarizeSpans {spans : List (TraceSpan K)} {d : Dict String (ServiceSignal K)}
    (h : summarizeSpans rd windowStart spans = .ok d) {service : String} {sig : ServiceSignal K} :
    d.lookup service = some sig ↔
      (∃ sp ∈ spansOf spans service, countsForService rd windowStart sp = true) ∧
        spanSignal rd windowStart spans service = .ok sig := by
  rw [lookup_tabulate (inOrder_nodup _) h, mem_spanServices]

theorem uncounted_of_lookup {spans : List (TraceSpan K)} {d : Dict String (ServiceSignal K)}
    (h : summarizeSpans rd windowStart spans = .ok d) {service : String}
    (hlookup : d.lookup service = none) :
    ∀ sp ∈ spansOf spans service, countsForService rd windowStart sp = false := by
  have hkey := exists_lookup_tabulate (inOrder_nodup _) h (k := service)
  rw [mem_spanServices] at hkey
  simpa [hlookup] using hkey

omit [Arithmetic K] in
theorem mem_metricServices {rows : List (Reading K)} {service : String} :
    service ∈ inOrder (rows.map Reading.service).toFinset ↔
      ∃ r ∈ rows, r.service = service := by
  rw [mem_inOrder, List.mem_toFinset, List.mem_map]

theorem lookup_summarizeMetrics {samples : List (MetricSample K)}
    {d : Dict String (ServiceSignal K)}
    (h : summarizeMetrics rd windowStart samples = .ok d) {service : String}
    {sig : ServiceSignal K} :
    d.lookup service = some sig ↔
      (∃ r ∈ readings samples, r.service = service) ∧
        metricSignal rd windowStart (readings samples) service = .ok sig := by
  rw [lookup_tabulate (inOrder_nodup _) h, mem_metricServices]

theorem unread_of_lookup {samples : List (MetricSample K)} {d : Dict String (ServiceSignal K)}
    (h : summarizeMetrics rd windowStart samples = .ok d) {service : String}
    (hlookup : d.lookup service = none) : ∀ r ∈ readings samples, r.service ≠ service := by
  have hkey := exists_lookup_tabulate (inOrder_nodup _) h (k := service)
  rw [mem_metricServices] at hkey
  simpa [hlookup] using hkey

/-- An edge is called in the incident. -/
def EdgeCalled (windowStart : Timestamp) (spans : List (TraceSpan K)) (edge : Pair) : Prop :=
  ∃ sp ∈ spansOfEdge spans (ofLex edge), isIncident windowStart sp = true

theorem mem_edgeKeys {spans : List (TraceSpan K)} {edge : Pair} :
    edge ∈ inOrder (((spans.filter (isIncident windowStart)).filterMap
        (edgeKey (learnCallTargets spans))).map toLex).toFinset ↔
      EdgeCalled windowStart spans edge := by
  rw [mem_inOrder, List.mem_toFinset]
  simp only [EdgeCalled, spansOfEdge, List.mem_filter, List.mem_map, List.mem_filterMap, beq_iff_eq]
  constructor
  · rintro ⟨edge', ⟨sp, ⟨hsp, hinc⟩, hedge⟩, rfl⟩
    exact ⟨sp, ⟨hsp, hedge⟩, hinc⟩
  · rintro ⟨sp, ⟨hsp, hedge⟩, hinc⟩
    exact ⟨ofLex edge, ⟨sp, ⟨hsp, hinc⟩, hedge⟩, rfl⟩

theorem lookup_summarizeEdges {spans : List (TraceSpan K)} {d : Dict Pair (EdgeSignal K)}
    (h : summarizeEdges rd windowStart spans = .ok d) {edge : Pair} {e : EdgeSignal K} :
    d.lookup edge = some e ↔
      EdgeCalled windowStart spans edge ∧ edgeSignal rd windowStart spans edge = .ok e := by
  rw [lookup_tabulate (inOrder_nodup _) h, mem_edgeKeys]

theorem exists_lookup_summarizeEdges {spans : List (TraceSpan K)} {d : Dict Pair (EdgeSignal K)}
    (h : summarizeEdges rd windowStart spans = .ok d) {edge : Pair} :
    (∃ e, d.lookup edge = some e) ↔ EdgeCalled windowStart spans edge := by
  rw [exists_lookup_tabulate (inOrder_nodup _) h, mem_edgeKeys]

/-- Spans that a summary does not count measure nothing. -/
theorem unmeasured_of_uncounted {rows : List (TraceSpan K)}
    (h : ∀ sp ∈ rows, countsForService rd windowStart sp = false) :
    (tallySpans rd windowStart rows).rate = none ∧
      (tallySpans rd windowStart rows).ratio = none := by
  rw [← Option.not_isSome_iff_eq_none, ← Option.not_isSome_iff_eq_none, rate_isSome_iff,
    ratio_isSome_iff]
  refine ⟨?_, ?_⟩
  · rintro ⟨sp, hsp, hinc, c, hc⟩
    simpa [countsForService, hinc, hc] using h sp hsp
  · rintro ⟨⟨sp, hsp, hinc, hvalid⟩, -⟩
    have hstart : sp.startTime.isSome = true := by
      unfold isIncident at hinc
      cases hts : sp.startTime with
      | none => simp [hts] at hinc
      | some ts => rfl
    simpa [countsForService, hstart, hvalid] using h sp hsp

/-- Spans of the baseline alone measure nothing. -/
theorem unmeasured_of_baseline {rows : List (TraceSpan K)}
    (h : ∀ sp ∈ rows, isIncident windowStart sp = false) :
    (tallySpans rd windowStart rows).rate = none ∧
      (tallySpans rd windowStart rows).ratio = none := by
  rw [← Option.not_isSome_iff_eq_none, ← Option.not_isSome_iff_eq_none, rate_isSome_iff,
    ratio_isSome_iff]
  refine ⟨?_, ?_⟩
  · rintro ⟨sp, hsp, hinc, -⟩
    rw [h sp hsp] at hinc
    cases hinc
  · rintro ⟨⟨sp, hsp, hinc, -⟩, -⟩
    rw [h sp hsp] at hinc
    cases hinc

end Services

/-! Several sources. -/

section Witness

variable {α : Type} {state : α → Option SigState} {l : List α}

/-- A witness is of the sources, and proves what any of them proves, presence first. -/
theorem witness_spec :
    stateOf (∃ a ∈ l, state a = some .present)
      ((¬∃ a ∈ l, state a = some .present) ∧ ∃ a ∈ l, state a = some .absent)
      ((witness state l).bind state) := by
  have hfound : ∀ s a, l.find? (fun a => state a == some s) = some a → state a = some s := by
    intro s a h
    simpa using List.find?_some h
  have hnone : ∀ s, l.find? (fun a => state a == some s) = none ↔ ¬∃ a ∈ l, state a = some s := by
    intro s
    simp
  have hexists : ∀ s a, l.find? (fun a => state a == some s) = some a →
      ∃ a ∈ l, state a = some s :=
    fun s a h => ⟨a, List.mem_of_find?_eq_some h, hfound s a h⟩
  unfold stateOf witness
  cases hp : l.find? (fun a => state a == some .present) with
  | some a => simp [hfound _ _ hp, hexists _ _ hp]
  | none =>
    have hnp := (hnone _).mp hp
    cases ha : l.find? (fun a => state a == some .absent) with
    | some a => simp [hfound _ _ ha, hexists _ _ ha, hnp]
    | none =>
      have hna := (hnone _).mp ha
      cases hl : l.head? with
      | none => simp [hnp, hna]
      | some a =>
        have hmem := List.mem_of_head? hl
        have hpresent : state a ≠ some .present := fun h => hnp ⟨a, hmem, h⟩
        have habsent : state a ≠ some .absent := fun h => hna ⟨a, hmem, h⟩
        simp [hnp, hna, hpresent, habsent]

theorem witness_eq_none : witness state l = none ↔ l = [] := by
  unfold witness
  cases l with
  | nil => simp
  | cons a rest =>
    simp only [List.head?_cons, reduceCtorEq, iff_false]
    cases (a :: rest).find? (fun a => state a == some .present) <;>
      cases (a :: rest).find? (fun a => state a == some .absent) <;> simp

/-- What a witness proves does not depend on the order of the sources. -/
theorem witness_state_perm {l' : List α} (h : l.Perm l') :
    (witness state l).map state = (witness state l').map state := by
  have hspec := @witness_spec α state l
  simp only [h.mem_iff] at hspec
  have hbind := hspec.unique witness_spec
  have hnone : witness state l = none ↔ witness state l' = none := by
    rw [witness_eq_none, witness_eq_none]
    exact ⟨fun hl => (hl ▸ h).nil_eq.symm, fun hl => (hl ▸ h).eq_nil⟩
  cases hw : witness state l with
  | none => rw [hnone.mp hw]
  | some a =>
    cases hw' : witness state l' with
    | none =>
      rw [hnone.mpr hw'] at hw
      cases hw
    | some a' =>
      rw [hw, hw'] at hbind
      exact congrArg some hbind

end Witness

/-- The state of a signal that may not be there. -/
def stateAt (d : Dict String (ServiceSignal K)) (service : String) : Option SigState :=
  (d.lookup service).bind (fun sig => sig.sigState)

/-- The state of an edge signal that may not be there. -/
def edgeStateAt (d : Dict Pair (EdgeSignal K)) (edge : Pair) : Option SigState :=
  (d.lookup edge).bind (fun e => e.sigState)

/-- A merged signal is that of its witness among the sources. -/
theorem lookup_combineSignals [Arithmetic K] (first second : Dict String (ServiceSignal K))
    (service : String) :
    (combineSignals [first, second]).lookup service =
      witness (fun sig => sig.sigState)
        ([first, second].filterMap (fun src => src.lookup service)) := by
  unfold combineSignals
  rw [lookup_dictOf_filterMap (inOrder_nodup _)]
  split
  · rfl
  · rename_i hno
    have hnone : ∀ src ∈ [first, second], src.lookup service = none := by
      intro src hsrc
      rw [Finmap.lookup_eq_none]
      intro hmem
      refine hno ?_
      rw [mem_inOrder]
      rcases List.mem_pair.mp hsrc with rfl | rfl
      · simp [Finmap.mem_keys, hmem]
      · simp [Finmap.mem_keys, hmem]
    rw [eq_comm, witness_eq_none, List.filterMap_eq_nil_iff]
    exact hnone

/-- A merged signal is present if a source is, and absent if one is and none is present. -/
theorem stateAt_combineSignals [Arithmetic K] (first second : Dict String (ServiceSignal K))
    (service : String) :
    stateOf (stateAt first service = some .present ∨ stateAt second service = some .present)
      (¬(stateAt first service = some .present ∨ stateAt second service = some .present) ∧
        (stateAt first service = some .absent ∨ stateAt second service = some .absent))
      (stateAt (combineSignals [first, second]) service) := by
  have hexists : ∀ s, (∃ sig ∈ [first, second].filterMap (fun src => src.lookup service),
      sig.sigState = some s) ↔
        (stateAt first service = some s ∨ stateAt second service = some s) := by
    intro s
    simp [stateAt, Option.bind_eq_some_iff, or_and_right, exists_or]
  have hspec := @witness_spec _ (fun sig : ServiceSignal K => sig.sigState)
    ([first, second].filterMap (fun src => src.lookup service))
  rw [hexists, hexists] at hspec
  unfold stateAt at *
  rw [lookup_combineSignals]
  exact hspec

end Raglogs.SignalLaws
