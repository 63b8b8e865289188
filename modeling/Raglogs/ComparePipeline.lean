import Raglogs.DifferLaws
import Raglogs.MergeParts
import Raglogs.WindowCounts

/-!
The compare pipeline: each window is clustered, merged and capped on its own, and the
two lists are compared. A fingerprint is reported as new when only the first window's
list has it, which is not the same as having rows in the first window only: in either
window its group may be merged under another fingerprint, collapsed as noise, or cut
off by the cap.
-/

namespace Raglogs.ComparePipeline

open Collections Dicts Durations LogEntries Text Triggers Clusters Grouping GroupingLaws
  SemanticMerge SemanticMergeLaws Ranking RootCause CapLaws Clustering WindowCounts MergeParts
  Differ DirectionLaws DifferLaws

variable {K : Type} [ScoreArithmetic K] [LinearOrder K]

inductive CompareError
  | window (e : WindowError)
  | overflow (e : OverflowError)

/-- What clustering a window depends on besides the rows. -/
structure WindowRun (K : Type) where
  order : ResultOrder
  env : MergeEnvironment K
  filter : WindowFilter
  triggers : List TriggerCandidate

/-- The window of a run. -/
def WindowRun.window (w : WindowRun K) : TimeWindow := ⟨w.filter.windowStart, w.filter.windowEnd⟩

/-- Cluster both windows, then compare. -/
def comparePipeline (isWord : Char → Bool) (s : Scoring K) (similarity : List K → List K → K)
    (fpOrder : Shuffle String) (store : LogStore) (jobs : List JobStart)
    (baselineWindow : String) (maxClusters : ℤ) (runA runB : WindowRun K) :
    Except CompareError CompareResult := do
  let clustersA ← (runClustering s similarity runA.env runA.order store jobs runA.filter
    baselineWindow maxClusters).mapError .window
  let clustersB ← (runClustering s similarity runB.env runB.order store jobs runB.filter
    baselineWindow maxClusters).mapError .window
  (compareWindows isWord s.lowering fpOrder clustersA clustersB runA.triggers runB.triggers
    runA.window runB.window).mapError .overflow

/-- A fingerprint has a row in a window. -/
def HasRow (store : LogStore) (f : WindowFilter) (fp : String) : Prop :=
  ∃ e ∈ store.entries, f.accepts e = true ∧ e.fingerprint = some fp

/-- The groups of a window: for each fingerprint the cluster of its stored rows. -/
def windowGroups (s : Scoring K) (order : ResultOrder) (store : LogStore) (jobs : List JobStart)
    (f : WindowFilter) (baselineWindowStr : String) : List (ClusterData K) :=
  match resolveBaselineWindow s.lowering f.windowStart f.windowEnd baselineWindowStr with
  | .ok baseline =>
      (groupKeys s.lowering order (clusterSelect store f)).filterMap
        (clusterOf s (getBaselineCounts store jobs baseline f.service f.environment none f.scope
          f.ingestionJobId) (aggregateGroups s.lowering order store f))
  | .error _ => []

/-- The key under which noise of a kind is collapsed. -/
def noiseKey (isWord : Char → Bool) (message : String) : Option String :=
  if isRetry isWord message then some "__collapsed_retries__"
  else if isQueueGrowth message then some "__collapsed_queue_growth__"
  else none

/-- No entry of a window stands under the fingerprint. The group of the fingerprint is
noise, or a group that it is joined to goes before it, or the cap leaves out its part; and
no noise is collapsed under that name. -/
def Displaced (isWord : Char → Bool) (s : Scoring K) (similarity : List K → List K → K)
    (env : MergeEnvironment K) (maxClusters : ℤ) (groups : List (ClusterData K)) (fp : String) :
    Prop :=
  (∀ c ∈ groups, c.fingerprint = fp →
    noiseKey isWord c.representativeMessage ≠ none ∨ Absorbed similarity env groups c ∨
      ¬InKeptPart similarity env groups s maxClusters c) ∧
  ∀ c ∈ groups, noiseKey isWord c.representativeMessage = some fp →
    Absorbed similarity env groups c ∨ ¬InKeptPart similarity env groups s maxClusters c

omit [LinearOrder K] [ScoreArithmetic K] in
theorem mem_noiseCounts_keys {group : List (ClusterData K)} {key fp : String} :
    fp ∈ (noiseCounts group key).map Prod.fst ↔
      (∃ c, c ∈ group) ∧ fp = "__collapsed_" ++ key ++ "__" := by
  unfold noiseCounts
  cases group with
  | nil => simp
  | cons c rest =>
    rw [if_neg (List.cons_ne_nil c rest), List.map_singleton, List.mem_singleton]
    exact ⟨fun h => ⟨⟨c, List.mem_cons_self⟩, h⟩, fun h => h.2⟩

omit [LinearOrder K] [ScoreArithmetic K] in
/-- A cluster remains under its fingerprint, or as noise under the key of its kind. -/
theorem mem_remaining {isWord : Char → Bool} {clusters : List (ClusterData K)} {fp : String} :
    fp ∈ (remaining isWord clusters).map Prod.fst ↔
      ∃ c ∈ clusters, (noiseKey isWord c.representativeMessage).getD c.fingerprint = fp := by
  have hretries : "__collapsed_" ++ "retries" ++ "__" = "__collapsed_retries__" := rfl
  have hgrowth : "__collapsed_" ++ "queue_growth" ++ "__" = "__collapsed_queue_growth__" := rfl
  unfold remaining collapsedEntries
  rw [List.map_append, List.map_append, List.mem_append, List.mem_append, mem_noiseCounts_keys,
    mem_noiseCounts_keys, hretries, hgrowth, List.map_map]
  unfold normalGroup retryGroup queueGroup noiseKey
  simp only [List.mem_map, List.mem_filter, Bool.and_eq_true, Bool.not_eq_true',
    Function.comp_apply]
  constructor
  · rintro (⟨c, ⟨hc, hr, hg⟩, hfp⟩ | ⟨⟨c, hc, hr⟩, hfp⟩ | ⟨⟨c, hc, hr, hg⟩, hfp⟩)
    · exact ⟨c, hc, by simpa [hr, hg] using hfp⟩
    · exact ⟨c, hc, by simp [hr, hfp]⟩
    · exact ⟨c, hc, by simp [hr, hg, hfp]⟩
  · rintro ⟨c, hc, hkey⟩
    cases hr : isRetry isWord c.representativeMessage with
    | true => exact Or.inr (Or.inl ⟨⟨c, hc, hr⟩, by simpa [hr] using hkey.symm⟩)
    | false =>
      cases hg : isQueueGrowth c.representativeMessage with
      | true => exact Or.inr (Or.inr ⟨⟨c, hc, hr, hg⟩, by simpa [hr, hg] using hkey.symm⟩)
      | false => exact Or.inl ⟨c, ⟨hc, hr, hg⟩, by simpa [hr, hg] using hkey⟩

/-! The groups of a window. -/

section Groups

variable {s : Scoring K} {order : ResultOrder} {store : LogStore} {jobs : List JobStart}
  {f : WindowFilter} {baselineWindow : String}

omit [LinearOrder K] in
theorem windowClusters_eq_groups {clusters : List (ClusterData K)}
    (h : windowClusters s order store jobs f baselineWindow = .ok clusters) :
    clusters = windowGroups s order store jobs f baselineWindow := by
  unfold windowClusters at h
  unfold windowGroups
  by_cases hkeys : groupKeys s.lowering order (clusterSelect store f) = []
  · rw [if_pos hkeys] at h
    rw [hkeys, ← Except.ok.inj h]
    split <;> rfl
  · rw [if_neg hkeys] at h
    obtain ⟨baseline, hbaseline, h⟩ := bind_eq_ok.mp h
    rw [hbaseline]
    exact (Except.ok.inj h).symm

omit [LinearOrder K] in
/-- Each group is built from the rows of its fingerprint. -/
theorem exists_of_mem_groups {c : ClusterData K}
    (hc : c ∈ windowGroups s order store jobs f baselineWindow) :
    ∃ g counts, c = buildClusterData s c.fingerprint g counts := by
  unfold windowGroups at hc
  split at hc
  · obtain ⟨fp, -, hc⟩ := List.mem_filterMap.mp hc
    obtain ⟨g, -, rfl⟩ := Option.map_eq_some_iff.mp hc
    exact ⟨g, _, rfl⟩
  · exact absurd hc List.not_mem_nil

omit [LinearOrder K] in
theorem fingerprints_groups_nodup :
    ((windowGroups s order store jobs f baselineWindow).map ClusterData.fingerprint).Nodup := by
  have hnamed : ∀ (counts : Counter String) (groups : Dict String RowGroup) (keys : List String),
      ((keys.filterMap (clusterOf s counts groups)).map ClusterData.fingerprint).Sublist keys := by
    intro counts groups keys
    induction keys with
    | nil => simp
    | cons fp keys ih =>
      cases hc : clusterOf s counts groups fp with
      | none => simpa [List.filterMap_cons, hc] using ih.cons fp
      | some c =>
        have hname : c.fingerprint = fp := by
          obtain ⟨g, -, rfl⟩ := Option.map_eq_some_iff.mp hc
          rfl
        simpa [List.filterMap_cons, hc, hname] using ih.cons_cons fp
  unfold windowGroups
  split
  · exact (fromKeys_nodup _).sublist (hnamed _ _ _)
  · exact List.nodup_nil

omit [LinearOrder K] in
/-- The fingerprints of the groups are those with rows. -/
theorem hasRow_iff_group {baseline : TimeWindow}
    (hbaseline : resolveBaselineWindow s.lowering f.windowStart f.windowEnd baselineWindow =
      .ok baseline) {fp : String} :
    HasRow store f fp ↔
      ∃ c ∈ windowGroups s order store jobs f baselineWindow, c.fingerprint = fp := by
  have hrows : HasRow store f fp ↔ fp ∈ groupKeys s.lowering order (clusterSelect store f) := by
    have hlength := length_rowsOf_clusterSelect store f fp
    rw [mem_groupKeys, ne_eq, ← List.length_eq_zero_iff, hlength, List.length_eq_zero_iff,
      List.eq_nil_iff_forall_not_mem, not_forall]
    unfold HasRow accepted LogStore.baseWindowQuery
    simp [and_comm]
  unfold windowGroups
  rw [hrows, hbaseline]
  constructor
  · intro hfp
    obtain ⟨g, hg, -⟩ := count_aggregateGroups s.lowering order store f (mem_groupKeys.mp hfp)
    exact ⟨_, List.mem_filterMap.mpr ⟨fp, hfp, by rw [clusterOf, hg]; rfl⟩, rfl⟩
  · rintro ⟨c, hc, rfl⟩
    obtain ⟨fp, hfp, hc⟩ := List.mem_filterMap.mp hc
    obtain ⟨g, -, rfl⟩ := Option.map_eq_some_iff.mp hc
    exact hfp

/-- What remains of the capped window are the fingerprints that are not displaced. -/
theorem mem_remaining_iff_not_displaced {isWord : Char → Bool} {similarity : List K → List K → K}
    {env : MergeEnvironment K} {maxClusters : ℤ} {fp : String} :
    fp ∈ (remaining isWord (capClusters maxClusters (mergedClusters s similarity env
        (windowGroups s order store jobs f baselineWindow) none))).map Prod.fst ↔
      ¬Displaced isWord s similarity env maxClusters
        (windowGroups s order store jobs f baselineWindow) fp := by
  have htrigger : ∀ c ∈ windowGroups s order store jobs f baselineWindow,
      c.isTrigger = isTriggerMessage c.representativeMessage := by
    intro c hc
    obtain ⟨g, counts, heq⟩ := exists_of_mem_groups hc
    rw [heq]
    rfl
  have hnames := @kept_names_iff K _ _ similarity env _ s maxClusters fingerprints_groups_nodup
    htrigger fun fingerprint message => (noiseKey isWord message).getD fingerprint = fp
  rw [mem_remaining]
  simp only [mem_capClusters]
  rw [hnames]
  unfold Displaced
  constructor
  · rintro ⟨c, hc, habsorbed, hkept, hkey⟩ ⟨hgroup, hnoise⟩
    cases hn : noiseKey isWord c.representativeMessage with
    | none =>
      rw [hn] at hkey
      rcases hgroup c hc hkey with h | h | h
      · exact h hn
      · exact habsorbed h
      · exact h hkept
    | some key =>
      rw [hn] at hkey
      obtain rfl : key = fp := hkey
      rcases hnoise c hc hn with h | h
      · exact habsorbed h
      · exact h hkept
  · intro h
    by_contra hnone
    refine h ⟨fun c hc hfp => ?_, fun c hc hkey => ?_⟩
    · by_contra hshown
      simp only [not_or, not_not] at hshown
      exact hnone ⟨c, hc, hshown.2.1, hshown.2.2, by rw [hshown.1]; exact hfp⟩
    · by_contra hshown
      simp only [not_or, not_not] at hshown
      exact hnone ⟨c, hc, hshown.1, hshown.2, by rw [hkey]; rfl⟩

/-- With room for every group, and neither links nor noise, no fingerprint with a row is
displaced. -/
theorem not_displaced_of_room {isWord : Char → Bool} {similarity : List K → List K → K}
    {env : MergeEnvironment K} {maxClusters : ℤ} {baseline : TimeWindow} {fp : String}
    (hbaseline : resolveBaselineWindow s.lowering f.windowStart f.windowEnd baselineWindow =
      .ok baseline) (hrow : HasRow store f fp)
    (hroom : ((windowGroups s order store jobs f baselineWindow).length : ℤ) ≤ maxClusters)
    (hlinks : ∀ c d, ¬Links similarity env (windowGroups s order store jobs f baselineWindow) c d)
    (hnoise : ∀ c ∈ windowGroups s order store jobs f baselineWindow,
      noiseKey isWord c.representativeMessage = none) :
    ¬Displaced isWord s similarity env maxClusters
      (windowGroups s order store jobs f baselineWindow) fp := by
  obtain ⟨c, hc, hfp⟩ := (hasRow_iff_group hbaseline).mp hrow
  set groups := windowGroups s order store jobs f baselineWindow with hgroups
  have hnd : groups.Nodup := List.Nodup.of_map _ fingerprints_groups_nodup
  have hparts := parts_of_unjoined hnd fun c _ d _ => eq_of_joined_of_no_links hlinks
  rintro ⟨hgroup, -⟩
  rcases hgroup c hc hfp with h | ⟨d, -, hjoined, hlt⟩ | h
  · exact h (hnoise c hc)
  · exact absurd hlt (by rw [eq_of_joined_of_no_links hlinks hjoined]; exact lt_irrefl _)
  · have hmem : [c] ∈ parts similarity env groups := by
      rw [hparts]
      exact List.mem_map_of_mem hc
    have hplace := place_lt (partImportance s) hmem
    have hle := List.countP_le_length (p := fun b => partImportance s [c] ≤ partImportance s b)
      (l := parts similarity env groups)
    have hlength : (parts similarity env groups).length = groups.length := by
      rw [hparts, List.length_map]
    refine h ⟨[c], ⟨hmem, Or.inl ?_⟩, List.mem_singleton_self c⟩
    unfold sliceStop
    split <;> omega

end Groups

/-- No fingerprint with rows in both windows is reported as new or as disappeared. -/
def PresenceRespected (store : LogStore) (filterA filterB : WindowFilter) (r : CompareResult) :
    Prop :=
  ∀ fp, HasRow store filterA fp → HasRow store filterB fp →
    fp ∉ r.newClusters.map ClusterDiff.fingerprint ∧
      fp ∉ r.disappearedClusters.map ClusterDiff.fingerprint

section Presence

variable {isWord : Char → Bool} {s : Scoring K} {similarity : List K → List K → K}
  {fpOrder : Shuffle String} {store : LogStore} {jobs : List JobStart} {baselineWindow : String}
  {maxClusters : ℤ} {runA runB : WindowRun K} {r : CompareResult}

/-- Clustering a window is capping what the merge pass leaves of its groups. -/
theorem runClustering_eq_ok {env : MergeEnvironment K} {order : ResultOrder} {f : WindowFilter}
    {capped : List (ClusterData K)}
    (h : runClustering s similarity env order store jobs f baselineWindow maxClusters =
      .ok capped) :
    capped = capClusters maxClusters (mergedClusters s similarity env
      (windowGroups s order store jobs f baselineWindow) none) := by
  obtain ⟨clusters, hclusters, h⟩ := bind_eq_ok.mp h
  rw [← windowClusters_eq_groups hclusters]
  exact (Except.ok.inj h).symm

/-- The runs of the two windows, and their comparison. -/
theorem comparePipeline_eq_ok :
    comparePipeline isWord s similarity fpOrder store jobs baselineWindow maxClusters runA runB =
        .ok r ↔
      ∃ cappedA cappedB : List (ClusterData K),
        runClustering s similarity runA.env runA.order store jobs runA.filter baselineWindow
          maxClusters = .ok cappedA ∧
        runClustering s similarity runB.env runB.order store jobs runB.filter baselineWindow
          maxClusters = .ok cappedB ∧
        compareWindows isWord s.lowering fpOrder cappedA cappedB runA.triggers runB.triggers
          runA.window runB.window = .ok r := by
  unfold comparePipeline
  simp only [bind_eq_ok, mapError_eq_ok]
  constructor
  · rintro ⟨cappedA, hA, cappedB, hB, h⟩
    exact ⟨cappedA, cappedB, hA, hB, h⟩
  · rintro ⟨cappedA, cappedB, hA, hB, h⟩
    exact ⟨cappedA, hA, cappedB, hB, h⟩

/-- Presence is respected exactly if every fingerprint with rows in both windows is
displaced in both or in neither. -/
theorem presence_respected_iff
    (h : comparePipeline isWord s similarity fpOrder store jobs baselineWindow maxClusters runA
      runB = .ok r) :
    PresenceRespected store runA.filter runB.filter r ↔
      ∀ fp, HasRow store runA.filter fp → HasRow store runB.filter fp →
        (Displaced isWord s similarity runA.env maxClusters
            (windowGroups s runA.order store jobs runA.filter baselineWindow) fp ↔
          Displaced isWord s similarity runB.env maxClusters
            (windowGroups s runB.order store jobs runB.filter baselineWindow) fp) := by
  obtain ⟨cappedA, cappedB, hA, hB, hcompare⟩ := comparePipeline_eq_ok.mp h
  rw [runClustering_eq_ok hA, runClustering_eq_ok hB] at hcompare
  unfold PresenceRespected
  refine forall_congr' fun fp => imp_congr_right fun _ => imp_congr_right fun _ => ?_
  rw [mem_newClusters hcompare, mem_disappearedClusters hcompare, mem_remaining_iff_not_displaced,
    mem_remaining_iff_not_displaced, not_and_not_right, not_and_not_right,
    ← iff_iff_implies_and_implies, not_iff_not]

end Presence

/-! A quiet fingerprint behind a loud one. -/

/-- A line without a service. -/
def lineAt (id : EntryId) (timestamp : Timestamp) (fingerprint message level : String) :
    LogEntry where
  id := id
  ingestionJobId := none
  timestamp := some timestamp
  service := none
  environment := none
  level := some level
  traceId := none
  requestId := none
  host := none
  rawMessage := none
  normalizedMessage := some message
  fingerprint := some fingerprint
  parserType := none
  extraJson := none
  sourceAdapter := "file"
  sourceRef := none
  originalLineHash := none
  scope := "default"

/-- One line in the first hour and the same line, with an error, in the second hour. -/
def twoHourStore : LogStore where
  entries := [lineAt 1 5 "quiet" "cache refreshed" "info",
    lineAt 2 15 "quiet" "cache refreshed" "info", lineAt 3 15 "loud" "timeout" "error"]
  ids_nodup := by decide

def hourFilter (windowStart windowEnd : Timestamp) : WindowFilter :=
  ⟨windowStart, windowEnd, "default", none, none, none⟩

def hourRun (windowStart windowEnd : Timestamp) : WindowRun Double :=
  ⟨GroupingLaws.buildOrder, noEmbeddings, hourFilter windowStart windowEnd, []⟩

/-- The cluster of one such line. -/
def lineCluster (id : EntryId) (timestamp : Timestamp) (fingerprint message level : String)
    (baselineCounts : Counter String) : ClusterData Double :=
  buildClusterData doubleScoring fingerprint
    { messages := [message]
      services := ∅
      levels := dictOf [(level, 1)]
      levelOrder := [level]
      errorServices := ∅
      timestamps := [timestamp, timestamp]
      ids := [id]
      count := some 1 } baselineCounts

/-- In the second hour the cap leaves the loud line only. -/
theorem runClustering_secondHour :
    runClustering doubleScoring alike (hourRun 10 20).env (hourRun 10 20).order twoHourStore []
      (hourRun 10 20).filter "1h" 1 =
        .ok [lineCluster 3 15 "loud" "timeout" "error" (dictOf [("quiet", 1)])] := by
  decide +kernel

theorem runClustering_firstHour :
    runClustering doubleScoring alike (hourRun 0 9).env (hourRun 0 9).order twoHourStore []
      (hourRun 0 9).filter "1h" 1 =
        .ok [lineCluster 1 5 "quiet" "cache refreshed" "info" ∅] := by
  decide +kernel

theorem pipeline_of_twoHours :
    ∃ r, comparePipeline asciiWord doubleScoring alike listedOrder twoHourStore [] "1h" 1
      (hourRun 10 20) (hourRun 0 9) = .ok r := by
  have hcomp : Comparable asciiWord
      [lineCluster 3 15 "loud" "timeout" "error" (dictOf [("quiet", 1)])]
      [lineCluster 1 5 "quiet" "cache refreshed" "info" ∅] :=
    comparable_of_small (by decide +kernel) (by decide +kernel) (by decide +kernel)
      (by decide +kernel) (by decide +kernel) (by decide +kernel)
  have hlaw : Lawful asciiWord doubleScoring.lowering
      [lineCluster 3 15 "loud" "timeout" "error" (dictOf [("quiet", 1)])]
      [lineCluster 1 5 "quiet" "cache refreshed" "info" ∅] (hourRun 10 20).triggers
      (hourRun 0 9).triggers (hourRun 10 20).window (hourRun 0 9).window :=
    lawful_of_comparable (by decide +kernel) (by decide +kernel) (by decide +kernel)
      (by decide +kernel) hcomp
  obtain ⟨r, -, hr, -⟩ := hlaw listedOrder listedOrder
  exact ⟨r, comparePipeline_eq_ok.mpr
    ⟨_, _, runClustering_secondHour, runClustering_firstHour, hr⟩⟩

/-- The two hours as a case of the condition. -/
theorem presence_respected_sample :
    ∃ r, comparePipeline asciiWord doubleScoring alike listedOrder twoHourStore [] "1h" 1
        (hourRun 10 20) (hourRun 0 9) = .ok r ∧
      (PresenceRespected twoHourStore (hourRun 10 20).filter (hourRun 0 9).filter r ↔
        ∀ fp, HasRow twoHourStore (hourRun 10 20).filter fp →
          HasRow twoHourStore (hourRun 0 9).filter fp →
          (Displaced asciiWord doubleScoring alike (hourRun 10 20).env 1
              (windowGroups doubleScoring (hourRun 10 20).order twoHourStore []
                (hourRun 10 20).filter "1h") fp ↔
            Displaced asciiWord doubleScoring alike (hourRun 0 9).env 1
              (windowGroups doubleScoring (hourRun 0 9).order twoHourStore []
                (hourRun 0 9).filter "1h") fp)) := by
  obtain ⟨r, hr⟩ := pipeline_of_twoHours
  exact ⟨r, hr, presence_respected_iff hr⟩

/-- The quiet fingerprint has a row in both hours and is reported as disappeared. -/
theorem quiet_fingerprint_disappears :
    ∃ r, comparePipeline asciiWord doubleScoring alike listedOrder twoHourStore [] "1h" 1
        (hourRun 10 20) (hourRun 0 9) = .ok r ∧
      HasRow twoHourStore (hourFilter 10 20) "quiet" ∧
      HasRow twoHourStore (hourFilter 0 9) "quiet" ∧
      "quiet" ∈ r.disappearedClusters.map ClusterDiff.fingerprint := by
  obtain ⟨r, hr⟩ := pipeline_of_twoHours
  obtain ⟨cappedA, cappedB, hA, hB, hcompare⟩ := comparePipeline_eq_ok.mp hr
  obtain rfl := Except.ok.inj (runClustering_secondHour.symm.trans hA)
  obtain rfl := Except.ok.inj (runClustering_firstHour.symm.trans hB)
  refine ⟨r, hr, ⟨lineAt 2 15 "quiet" "cache refreshed" "info", by simp [twoHourStore],
    by decide, rfl⟩, ⟨lineAt 1 5 "quiet" "cache refreshed" "info", by simp [twoHourStore],
    by decide, rfl⟩, ?_⟩
  rw [mem_disappearedClusters hcompare]
  exact ⟨by decide +kernel, by decide +kernel⟩

end Raglogs.ComparePipeline
