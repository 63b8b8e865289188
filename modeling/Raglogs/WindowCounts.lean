import Raglogs.Clustering
import Raglogs.Doubles

/-!
Window and baseline side by side. Both queries take both ends of their interval, and the
baseline ends where the window starts, so that a row at this instant is counted twice.
-/

namespace Raglogs.WindowCounts

open Clustering Clusters Collections Dicts Doubles Durations Grouping GroupingLaws LogEntries Regex
  Text

/-! Counts of the aggregated groups. -/

/-- Folding a result that leaves the counts of the groups as they are. -/
theorem count_foldl {α : Type} (update : RowGroup → α → RowGroup)
    (h : ∀ g a, (update g a).count = g.count) (l : List α) (g : RowGroup) :
    (l.foldl update g).count = g.count := by
  induction l generalizing g with
  | nil => rfl
  | cons a l ih => rw [List.foldl_cons, ih, h]

/-- An aggregated group counts the rows of its fingerprint. -/
theorem count_aggregateGroups (lowering : Lowering) (order : ResultOrder) (store : LogStore)
    (f : WindowFilter) {fp : String} (hrows : rowsOf (clusterSelect store f) fp ≠ []) :
    ∃ g, (aggregateGroups lowering order store f).lookup fp = some g ∧
      g.count = some (rowsOf (clusterSelect store f) fp).length := by
  have hcounts := filter_queryCounts order (clusterSelect store f) fp
  rw [if_neg hrows] at hcounts
  have hcounted : (accumulate Prod.fst openGroup setCount ∅
      (queryCounts order (clusterSelect store f))).lookup fp =
        some (([(fp, (rowsOf (clusterSelect store f) fp).length,
          ((rowsOf (clusterSelect store f) fp).filterMap ClusterRow.timestamp).min?,
          ((rowsOf (clusterSelect store f) fp).filterMap ClusterRow.timestamp).max?,
          (order.members.1 ((rowsOf (clusterSelect store f) fp).map ClusterRow.id)).take
            maxClusterMembers)] : List CountRow).foldl setCount openGroup) := by
    rw [lookup_accumulate, hcounts, if_neg (List.cons_ne_nil _ _)]
    rfl
  refine ⟨_, lookup_accumulate_of_some (lookup_accumulate_of_some
    (lookup_accumulate_of_some hcounted)), ?_⟩
  rw [count_foldl setMessage (fun _ _ => rfl), count_foldl setLevel (fun _ _ => rfl),
    count_foldl setService (fun _ _ => rfl)]
  rfl

/-- Every key of the groups has rows, and every fingerprint with rows is a key. -/
theorem mem_groupKeys {lowering : Lowering} {order : ResultOrder} {rows : List ClusterRow}
    {fp : String} : fp ∈ groupKeys lowering order rows ↔ rowsOf rows fp ≠ [] := by
  have hcounts := filter_queryCounts order rows fp
  have hservices : fp ∈ (queryServices lowering order rows).map Prod.fst → rowsOf rows fp ≠ [] := by
    intro hmem hnil
    obtain ⟨r, hr, rfl⟩ := List.mem_map.mp hmem
    have hvalues := ((mem_queryServices).mp hr).1
    rw [hnil] at hvalues
    simp [valuesOf] at hvalues
  have hkeys : ∀ (shuffle : Shuffle KeyRow) (column : ClusterRow → Option String),
      fp ∈ (queryKeys shuffle column rows).map Prod.fst → rowsOf rows fp ≠ [] := by
    intro shuffle column hmem hnil
    obtain ⟨r, hr, rfl⟩ := List.mem_map.mp hmem
    have hvalues := ((mem_queryKeys _).mp hr).1
    rw [hnil] at hvalues
    simp [valuesOf] at hvalues
  have hcounted : fp ∈ (queryCounts order rows).map Prod.fst ↔ rowsOf rows fp ≠ [] := by
    rw [List.mem_map]
    constructor
    · rintro ⟨r, hr, hfp⟩ hnil
      rw [if_pos hnil] at hcounts
      exact List.not_mem_nil (hcounts ▸ List.mem_filter.mpr ⟨hr, by simpa using hfp⟩)
    · intro hrows
      rw [if_neg hrows] at hcounts
      have hmem := hcounts ▸ List.mem_singleton_self _
      exact ⟨_, (List.mem_filter.mp hmem).1, rfl⟩
  rw [groupKeys, mem_fromKeys, List.mem_append, List.mem_append, List.mem_append, hcounted]
  constructor
  · rintro (((h | h) | h) | h)
    · exact h
    · exact hservices h
    · exact hkeys _ _ h
    · exact hkeys _ _ h
  · exact fun h => .inl (.inl (.inl h))

/-! Rows of a fingerprint. -/

/-- The stored rows of a fingerprint that a filter accepts. -/
def accepted (store : LogStore) (f : WindowFilter) (fp : String) : List LogEntry :=
  (store.baseWindowQuery f).filter fun e => e.fingerprint == some fp

theorem length_rowsOf_clusterSelect (store : LogStore) (f : WindowFilter) (fp : String) :
    (rowsOf (clusterSelect store f) fp).length = (accepted store f fp).length := by
  rw [clusterSelect, accepted]
  induction store.baseWindowQuery f with
  | nil => rfl
  | cons e rest ih =>
    rw [rowsOf] at ih ⊢
    cases hfp : e.fingerprint with
    | none => simpa [project, hfp] using ih
    | some fp' =>
      by_cases heq : fp' = fp
      · simpa [project, hfp, heq] using ih
      · simpa [project, hfp, heq] using ih

/-- The rows that a baseline counts. -/
def baselineFilter (f : WindowFilter) (baseline : TimeWindow) : WindowFilter :=
  { f with windowStart := baseline.start, windowEnd := baseline.stop }

/-- The rows from the start of the baseline to the end of the window. -/
def wholeFilter (f : WindowFilter) (baseline : TimeWindow) : WindowFilter :=
  { f with windowStart := baseline.start }

theorem count_getBaselineCounts (store : LogStore) (jobs : List JobStart) (f : WindowFilter)
    (baseline : TimeWindow) (fp : String) :
    count (getBaselineCounts store jobs baseline f.service f.environment none f.scope
      f.ingestionJobId) fp = (accepted store (baselineFilter f baseline) fp).length := by
  rw [getBaselineCounts, count_tally, accepted]
  have hall : ∀ l : List LogEntry, ((l.filter fun _ => true).filterMap LogEntry.fingerprint).count
      fp = (l.filter fun e => e.fingerprint == some fp).length := by
    intro l
    induction l with
    | nil => rfl
    | cons e rest ih =>
      cases hfp : e.fingerprint with
      | none => simpa [hfp] using ih
      | some fp' =>
        by_cases heq : fp' = fp
        · simpa [hfp, heq] using ih
        · simpa [hfp, heq] using ih
  exact hall _

section Run

variable {K : Type} [ScoreArithmetic K] {s : Scoring K} {order : ResultOrder}
  {store : LogStore} {jobs : List JobStart} {f : WindowFilter} {baselineWindowStr : String}
  {baseline : TimeWindow}

/-- A cluster has rows, and counts those of its fingerprint in the window and in the baseline. -/
theorem mem_windowClusters
    (hbaseline : resolveBaselineWindow s.lowering f.windowStart f.windowEnd baselineWindowStr =
      .ok baseline) {clusters : List (ClusterData K)}
    (hclusters : windowClusters s order store jobs f baselineWindowStr = .ok clusters) :
    ∀ c ∈ clusters, accepted store f c.fingerprint ≠ [] ∧
      c.count = (accepted store f c.fingerprint).length ∧
      c.baselineCount = (accepted store (baselineFilter f baseline) c.fingerprint).length := by
  have hrows : ∀ fp, rowsOf (clusterSelect store f) fp = [] ↔ accepted store f fp = [] := by
    intro fp
    rw [← List.length_eq_zero_iff, length_rowsOf_clusterSelect, List.length_eq_zero_iff]
  rw [windowClusters] at hclusters
  by_cases hkeys : groupKeys s.lowering order (clusterSelect store f) = []
  · obtain rfl := Except.ok.inj ((if_pos hkeys).symm.trans hclusters)
    exact fun c hc => absurd hc List.not_mem_nil
  · have hrun := (if_neg hkeys).symm.trans hclusters
    rw [hbaseline] at hrun
    obtain rfl := Except.ok.inj hrun
    intro c hc
    obtain ⟨fp, hfp, hc⟩ := List.mem_filterMap.mp hc
    obtain ⟨g, hg, hcount⟩ := count_aggregateGroups s.lowering order store f (mem_groupKeys.mp hfp)
    rw [clusterOf, hg] at hc
    obtain rfl := Option.some.inj hc
    refine ⟨mt (hrows fp).mpr (mem_groupKeys.mp hfp), ?_, ?_⟩
    · simp only [buildClusterData, hcount, Option.getD_some]
      exact length_rowsOf_clusterSelect store f fp
    · exact count_getBaselineCounts store jobs f baseline fp

end Run

/-! The two intervals. -/

/-- What a filter asks for besides the time. -/
def columns (f : WindowFilter) (e : LogEntry) : Prop :=
  ({ f with windowStart := e.timestamp.getD 0, windowEnd := e.timestamp.getD 0 }).accepts e = true

theorem accepts_iff {f : WindowFilter} {e : LogEntry} :
    f.accepts e = true ↔
      (∃ t, e.timestamp = some t ∧ f.windowStart ≤ t ∧ t ≤ f.windowEnd) ∧ columns f e := by
  unfold columns WindowFilter.accepts
  cases e.timestamp with
  | none => simp
  | some t => simp [and_assoc]

theorem timedeltaMicros_nonneg {value : ℚ} {unitMicros : ℕ} (h : 0 ≤ value) :
    0 ≤ timedeltaMicros value unitMicros := by
  have hwhole : (0 : ℚ) ≤ ⌊value⌋ := by exact_mod_cast Int.floor_nonneg.mpr h
  have hpart : 0 ≤ value - ⌊value⌋ := sub_nonneg.mpr (Int.floor_le value)
  refine le_roundHalfEven ?_
  rw [Int.cast_zero]
  exact add_nonneg (mul_nonneg hwhole (Nat.cast_nonneg _))
    (roundDouble_nonneg (mul_nonneg (Nat.cast_nonneg _) hpart))

theorem parseDuration_nonneg {lowering : Lowering} {durationStr : String} {duration : ℤ}
    (h : parseDuration lowering durationStr = .ok duration) : 0 ≤ duration := by
  have hdigits : ∀ (cs : List Char) (n : ℚ), 0 ≤ n →
      0 ≤ cs.foldl (fun (n : ℚ) c => 10 * n + (((digitValue c).getD 0 : ℕ) : ℚ)) n := by
    intro cs
    induction cs with
    | nil => exact fun n hn => hn
    | cons c cs ih =>
      intro n hn
      exact ih _ (add_nonneg (mul_nonneg (by norm_num) hn) (Nat.cast_nonneg _))
  have hvalue : ∀ s, 0 ≤ decimalValue s := fun s =>
    add_nonneg (hdigits _ 0 le_rfl) (div_nonneg (hdigits _ 0 le_rfl) (by positivity))
  rw [parseDuration] at h
  split at h
  · cases h
  · rename_i m hm
    dsimp only at h
    split at h
    · cases h
    · rename_i seconds hseconds
      split at h
      · cases h
      · obtain rfl := Except.ok.inj h
        exact timedeltaMicros_nonneg (roundDouble_nonneg (hvalue _))

/-- A baseline ends where the window starts. -/
theorem resolveBaselineWindow_ends {lowering : Lowering} {windowStart windowEnd : Timestamp}
    {baselineWindowStr : String} {baseline : TimeWindow}
    (h : resolveBaselineWindow lowering windowStart windowEnd baselineWindowStr = .ok baseline) :
    baseline.start ≤ windowStart ∧ baseline.stop = windowStart := by
  rw [resolveBaselineWindow] at h
  obtain ⟨duration, hduration, h⟩ := bind_eq_ok.mp h
  split at h
  · cases h
  · obtain rfl := Except.ok.inj h
    exact ⟨Int.sub_le_self windowStart (parseDuration_nonneg hduration), rfl⟩

theorem accepts_both_iff {f : WindowFilter} {baseline : TimeWindow} {e : LogEntry}
    (hstart : baseline.start ≤ f.windowStart) (hstop : baseline.stop = f.windowStart) :
    f.accepts e = true ∧ (baselineFilter f baseline).accepts e = true ↔
      f.accepts e = true ∧ e.timestamp = some f.windowStart := by
  refine and_congr_right fun hwindow => ?_
  obtain ⟨⟨t, ht, hlo, hhi⟩, hcolumns⟩ := accepts_iff.mp hwindow
  rw [accepts_iff, ht]
  constructor
  · rintro ⟨⟨t', ht', -, hle⟩, -⟩
    obtain rfl := Option.some.inj ht'
    have hle' : t ≤ f.windowStart := hstop ▸ hle
    exact congrArg some (le_antisymm hle' hlo)
  · intro heq
    obtain rfl := Option.some.inj heq
    exact ⟨⟨_, rfl, hstart, hstop.ge⟩, hcolumns⟩

theorem accepts_or_of_whole {f : WindowFilter} {baseline : TimeWindow} {e : LogEntry}
    (hstop : baseline.stop = f.windowStart) (h : (wholeFilter f baseline).accepts e = true) :
    f.accepts e = true ∨ (baselineFilter f baseline).accepts e = true := by
  obtain ⟨⟨t, ht, hlo, hhi⟩, hcolumns⟩ := accepts_iff.mp h
  rcases le_total f.windowStart t with hle | hle
  · exact .inl (accepts_iff.mpr ⟨⟨t, ht, hle, hhi⟩, hcolumns⟩)
  · exact .inr (accepts_iff.mpr ⟨⟨t, ht, hlo, hle.trans hstop.ge⟩, hcolumns⟩)

theorem accepts_whole_iff {f : WindowFilter} {baseline : TimeWindow} {e : LogEntry}
    (hstart : baseline.start ≤ f.windowStart) (hstop : baseline.stop = f.windowStart)
    (hwindow : f.windowStart ≤ f.windowEnd) :
    (wholeFilter f baseline).accepts e = true ↔
      f.accepts e = true ∨ (baselineFilter f baseline).accepts e = true := by
  refine ⟨accepts_or_of_whole hstop, fun h => ?_⟩
  rw [accepts_iff, accepts_iff] at h
  rcases h with ⟨⟨t, ht, hlo, hhi⟩, hcolumns⟩ | ⟨⟨t, ht, hlo, hhi⟩, hcolumns⟩
  · exact accepts_iff.mpr ⟨⟨t, ht, hstart.trans hlo, hhi⟩, hcolumns⟩
  · exact accepts_iff.mpr ⟨⟨t, ht, hlo, (hhi.trans hstop.le).trans hwindow⟩, hcolumns⟩

/-- Two disjoint conditions split what either of them selects. -/
theorem length_filter_split {α : Type*} {p q r : α → Bool} {l : List α}
    (hor : ∀ a ∈ l, r a = (p a || q a)) (hand : ∀ a ∈ l, ¬ (p a = true ∧ q a = true)) :
    (l.filter p).length + (l.filter q).length = (l.filter r).length := by
  induction l with
  | nil => rfl
  | cons a l ih =>
    have hrest := ih (fun b hb => hor b (List.mem_cons_of_mem _ hb))
      (fun b hb => hand b (List.mem_cons_of_mem _ hb))
    have ha := hor a List.mem_cons_self
    have hno := hand a List.mem_cons_self
    rw [List.filter_cons, List.filter_cons, List.filter_cons]
    cases hp : p a <;> cases hq : q a <;> simp_all <;> omega

/-- Every matching row from the start of the baseline to the end of the window is selected by
one of the two queries, and counted once by the cluster of its fingerprint. -/
def CountedOnce {K : Type} [ScoreArithmetic K] [LinearOrder K] (s : Scoring K) (order : ResultOrder)
    (store : LogStore) (jobs : List JobStart) (f : WindowFilter) (baselineWindowStr : String)
    (baseline : TimeWindow) : Prop :=
  (∀ e ∈ store.entries,
      ¬ (f.accepts e = true ∧ (baselineFilter f baseline).accepts e = true) ∧
        ((wholeFilter f baseline).accepts e = true →
          f.accepts e = true ∨ (baselineFilter f baseline).accepts e = true)) ∧
    ∀ clusters : List (ClusterData K),
      windowClusters s order store jobs f baselineWindowStr = .ok clusters →
        ∀ c ∈ clusters, c.count + c.baselineCount =
          (accepted store (wholeFilter f baseline) c.fingerprint).length

/-- Window and baseline share no row exactly when no row of the window lies at its start. -/
theorem countedOnce_iff {K : Type} [ScoreArithmetic K] [LinearOrder K] (s : Scoring K)
    (order : ResultOrder) (store : LogStore) (jobs : List JobStart) (f : WindowFilter)
    (baselineWindowStr : String) {baseline : TimeWindow}
    (hbaseline : resolveBaselineWindow s.lowering f.windowStart f.windowEnd baselineWindowStr =
      .ok baseline) :
    CountedOnce s order store jobs f baselineWindowStr baseline ↔
      ∀ e ∈ store.entries, f.accepts e = true → e.timestamp ≠ some f.windowStart := by
  obtain ⟨hstart, hstop⟩ := resolveBaselineWindow_ends hbaseline
  constructor
  · rintro ⟨hrows, -⟩ e he haccepts hat
    exact (hrows e he).1 ((accepts_both_iff hstart hstop).mpr ⟨haccepts, hat⟩)
  · intro hapart
    have hdisjoint : ∀ e ∈ store.entries,
        ¬ (f.accepts e = true ∧ (baselineFilter f baseline).accepts e = true) := fun e he hboth =>
      hapart e he hboth.1 ((accepts_both_iff hstart hstop).mp hboth).2
    refine ⟨fun e he => ⟨hdisjoint e he, accepts_or_of_whole hstop⟩, ?_⟩
    intro clusters hclusters c hc
    obtain ⟨hsome, hcount, hbase⟩ := mem_windowClusters hbaseline hclusters c hc
    obtain ⟨e, he⟩ := List.exists_mem_of_ne_nil _ hsome
    have haccepts := (List.mem_filter.mp (List.mem_filter.mp he).1).2
    obtain ⟨⟨t, -, hlo, hhi⟩, -⟩ := accepts_iff.mp haccepts
    rw [hcount, hbase, accepted, accepted, accepted, LogStore.baseWindowQuery,
      LogStore.baseWindowQuery, LogStore.baseWindowQuery, List.filter_filter,
      List.filter_filter, List.filter_filter]
    refine length_filter_split (fun e _ => ?_) fun e he hboth => hdisjoint e he ?_
    · have hwhole := accepts_whole_iff (e := e) hstart hstop (hlo.trans hhi)
      rw [Bool.eq_iff_iff]
      simp only [Bool.and_eq_true, Bool.or_eq_true, hwhole]
      exact and_or_left
    · simp only [Bool.and_eq_true] at hboth
      exact ⟨hboth.1.2, hboth.2.2⟩

theorem resolveBaselineWindow_hour {windowStart windowEnd : Timestamp} (h : 0 ≤ windowStart) :
    resolveBaselineWindow asciiLowering windowStart windowEnd "1h" =
      .ok ⟨windowStart - 3600000000, windowStart⟩ := by
  have hcalendar : ¬ windowStart - 3600000000 < firstInstant := by
    rw [firstInstant, not_lt, le_sub_iff_add_le]
    exact le_trans (by decide) h
  rw [resolveBaselineWindow_of_parse _ _ parseDuration_hour, if_neg hcalendar]

/-- Rows inside a window are counted once. -/
theorem countedOnce_inside :
    CountedOnce defaultScoring buildOrder sampleStore [] sampleFilter "1h"
      ⟨0 - 3600000000, 0⟩ := by
  refine (countedOnce_iff defaultScoring buildOrder sampleStore [] sampleFilter "1h"
    (resolveBaselineWindow_hour le_rfl)).mpr ?_
  simp [sampleStore, sampleEntry, sampleFilter]

/-- Rows at the start of a window are counted in the window and in the baseline. -/
theorem countedTwice_at_start :
    resolveBaselineWindow asciiLowering 10 20 "1h" = .ok ⟨10 - 3600000000, 10⟩ ∧
      ¬ CountedOnce defaultScoring buildOrder sampleStore [] ⟨10, 20, "default", none, none, none⟩
        "1h" ⟨10 - 3600000000, 10⟩ := by
  refine ⟨resolveBaselineWindow_hour (by decide), fun honce => ?_⟩
  refine (honce.1 (sampleEntry 1 "timeout" "ERROR") List.mem_cons_self).1 ?_
  exact ⟨by decide, by decide⟩

end Raglogs.WindowCounts
