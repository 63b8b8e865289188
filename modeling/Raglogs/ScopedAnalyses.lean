import Raglogs.CacheRoundTrips
import Raglogs.ClassScoring
import Raglogs.ScopedExplanations
import Raglogs.StructuralModel

/-!
All that is read of a scope for an explanation: its clusters and their baseline, the triggers by
their wording and by their rarity, the count of its lines, the features of its services, the
service graph, the onsets of errors, the rows of the structural model and the services that went
silent. Stores with the same rows of a scope give the same of each.
-/

namespace Raglogs.ScopedAnalyses

open CacheRoundTrips Candidates ClassScoring Clustering Clusters Collections Dicts Durations
  EvidencePackets ExplainRouteLaws Explanations FailedEdges Features Grouping Hypotheses Linkage
  LogEntries Outcomes RareTriggers ScopedExplanations ScopedReads SilentServices StructuralModel
  StructuralSignals Telemetry TriggerScan

variable {σ ρ : Type} [DecidableEq σ] [LinearOrder ρ] [OrderBot ρ]

/-- The samples and the spans that the structural model reads. -/
def loadStructuralRows (store : Store) (scope : String) (windowEnd baselineStart : Timestamp) :
    List (MetricSample ℚ) × List (TraceSpan (Exact ℚ)) :=
  (store.samples.filter fun m =>
      m.scope == scope && m.ts.any fun t => baselineStart ≤ t && t ≤ windowEnd,
    store.spans.filter fun sp =>
      sp.scope == scope && sp.startTime.any fun t => baselineStart ≤ t && t ≤ windowEnd)

/-- The structural result of a scope with its ranked classes, if there is any hypothesis. -/
def buildStructuralView (score : σ → ρ) (rd : Rendering) (store : Store) (scope : String)
    (windowStart windowEnd baselineStart : Timestamp) :
    Except ModelError (Option (StructuralResult × List (ScoredClass ρ))) := do
  let rows := loadStructuralRows store scope windowEnd baselineStart
  let inp ← structuralSignals rd rows.2 rows.1 windowStart
  let resolved ← resolveStructural inp
  return resolved.map fun r => (r.1, rankClasses score true r.2)

/-- Stores with the same rows in a scope, their ingestion jobs as well. -/
structure SameScope (scope : String) (store store' : Store) : Prop where
  rows : SameRows scope store store'
  jobs : store.jobs.filter (fun j => j.scope == scope) =
    store'.jobs.filter (fun j => j.scope == scope)

/-- What is read of a scope: what is asked of it further, an onset, some clusters or the start of
a baseline, is an argument. -/
structure ScopeAnalysis (ρ : Type) where
  groups : Dict String RowGroup
  clusters : Except WindowError (List (ClusterData ℚ))
  baselineCounts : TimeWindow → Counter String
  regexTriggers : Option Timestamp → Except ExplainError (List TriggerCandidate)
  rareTriggers : List (ClusterData ℚ) → Option (ClusterData ℚ) → FoundTriggers
  totalLogs : ℕ
  features : Timestamp → FeatureTable
  serviceGraph : ServiceGraph
  errorSpanEdges : List SpanRow
  errorOnsets : Dict String ℚ
  ranked : Except RankError RankOutcome
  structuralRows : Timestamp → List (MetricSample ℚ) × List (TraceSpan (Exact ℚ))
  structuralView : Timestamp →
    Except ModelError (Option (StructuralResult × List (ScoredClass ρ)))
  silentServices : Except WindowError (List String)
  explanation : Llm → Except ExplainError ExplainResult

/-- The analysis of a scope, and the explanation that is made of it. -/
def analysisOf (score : σ → ρ) (env : ExplainEnvironment) (store : Store)
    (input : ExplainInput) : ScopeAnalysis ρ :=
  let f := input.filter
  let rank := env.rank
  { groups := aggregateGroups env.scoring.lowering env.resultOrder store.logs f
    clusters := runClustering env.scoring env.mergeSimilarity env.mergeEnvironment env.resultOrder
      store.logs store.jobs f (input.baseline env) input.maxClusters
    baselineCounts := fun baseline => getBaselineCounts store.logs store.jobs baseline f.service
      f.environment none f.scope f.ingestionJobId
    regexTriggers := regexTriggers env.evidence store f
    rareTriggers := fun clusters primary => rareEventTriggers env.evidence.rare store.samples
      store.spans clusters primary f.windowStart f.windowEnd f.scope
    totalLogs := countLogsInWindow store f
    features := fun start => computeFeatures rank.isWord rank.lowering rank.rendering
      store.logs.entries store.spans store.samples f.scope start f.windowStart f.windowEnd
    serviceGraph := serviceGraphFromSpans
      (spansInWindow store.spans f.scope f.windowStart f.windowEnd)
    errorSpanEdges := FailedEdges.errorSpanEdges store.spans f.scope f.windowStart f.windowEnd
    errorOnsets := Candidates.errorOnsets rank store.logs.entries f.scope f.windowStart f.windowEnd
    ranked := rankCandidates rank store.logs.entries store.spans store.samples f.scope
      f.windowStart f.windowEnd (input.baseline env)
    structuralRows := loadStructuralRows store f.scope f.windowEnd
    structuralView :=
      buildStructuralView score rank.rendering store f.scope f.windowStart f.windowEnd
    silentServices := SilentServices.silentServices env.roundTo4 env.evidence.formats.lowering
      store.spans f.scope f.windowStart f.windowEnd (input.baseline env)
    explanation := fun llm => explainWindow env store llm input }

theorem loadStructuralRows_eq {scope : String} {store store' : Store}
    (h : SameRows scope store store') (windowEnd baselineStart : Timestamp) :
    loadStructuralRows store scope windowEnd baselineStart =
      loadStructuralRows store' scope windowEnd baselineStart := by
  unfold loadStructuralRows
  rw [filter_eq_of_part h.samples fun _ hm => (Bool.and_eq_true_iff.mp hm).1,
    filter_eq_of_part h.spans fun _ hsp => (Bool.and_eq_true_iff.mp hsp).1]

theorem buildStructuralView_eq {scope : String} {store store' : Store}
    (h : SameRows scope store store') (score : σ → ρ) (rd : Rendering)
    (windowStart windowEnd baselineStart : Timestamp) :
    buildStructuralView score rd store scope windowStart windowEnd baselineStart =
      buildStructuralView score rd store' scope windowStart windowEnd baselineStart := by
  unfold buildStructuralView
  rw [loadStructuralRows_eq h]

/-- A baseline that leaves out a job of the scope, and all that started later. -/
theorem getBaselineCounts_excluding {scope : String} {store store' : Store}
    (h : SameScope scope store store') {excluded : ℕ}
    (hjobs : ∀ j, j ∈ store.jobs ∨ j ∈ store'.jobs → j.id = excluded → j.scope = scope)
    (baseline : TimeWindow) (service environment : Option String)
    (includeOnlyIngestionJobId : Option ℕ) :
    getBaselineCounts store.logs store.jobs baseline service environment (some excluded) scope
        includeOnlyIngestionJobId =
      getBaselineCounts store'.logs store'.jobs baseline service environment (some excluded) scope
        includeOnlyIngestionJobId := by
  have hfind : ∀ jobs : List JobStart, (∀ j ∈ jobs, j.id = excluded → j.scope = scope) →
      jobs.find? (fun j => j.id == excluded) =
        (jobs.filter fun j => j.scope == scope).find? fun j => j.id == excluded := by
    intro jobs hjobs
    rw [List.find?_filter]
    refine List.find?_congr fun j hj => ?_
    cases hid : j.id == excluded with
    | false => simp
    | true =>
      have hscope := hjobs j hj (beq_iff_eq.mp hid)
      simp [hscope]
  have hlater : ∀ start, laterJobs store.jobs scope start = laterJobs store'.jobs scope start := by
    intro start
    unfold laterJobs
    rw [filter_eq_of_part h.jobs fun _ hj => (Bool.and_eq_true_iff.mp hj).2]
  have hleft : ∀ e, leftIn store.jobs scope excluded e = leftIn store'.jobs scope excluded e := by
    intro e
    unfold leftIn
    rw [hfind store.jobs fun j hj => hjobs j (Or.inl hj),
      hfind store'.jobs fun j hj => hjobs j (Or.inr hj), h.jobs]
    simp only [hlater]
  have hrows : store.logs.baseWindowQuery ⟨baseline.start, baseline.stop, scope, service,
      environment, includeOnlyIngestionJobId⟩ = store'.logs.baseWindowQuery ⟨baseline.start,
      baseline.stop, scope, service, environment, includeOnlyIngestionJobId⟩ :=
    baseWindowQuery_eq (f := ⟨baseline.start, baseline.stop, scope, service, environment,
      includeOnlyIngestionJobId⟩) h.rows.logs
  unfold getBaselineCounts
  dsimp only
  rw [hrows]
  simp only [hleft]

/-- Stores with the same rows of a scope give the same analysis of it, with whatever else is in
them. -/
theorem analysisOf_scoped (score : σ → ρ) (env : ExplainEnvironment) {store store' : Store}
    (input : ExplainInput) (h : SameScope input.filter.scope store store') :
    analysisOf score env store input = analysisOf score env store' input ∧
      ∀ excluded baseline service environment only,
        (∀ j, j ∈ store.jobs ∨ j ∈ store'.jobs → j.id = excluded →
          j.scope = input.filter.scope) →
        getBaselineCounts store.logs store.jobs baseline service environment (some excluded)
            input.filter.scope only =
          getBaselineCounts store'.logs store'.jobs baseline service environment (some excluded)
            input.filter.scope only := by
  refine ⟨?_, fun excluded baseline service environment only hjobs =>
    getBaselineCounts_excluding h hjobs baseline service environment only⟩
  have hrows := h.rows
  have hlogs := hrows.logs
  have hregex : regexTriggers env.evidence store input.filter =
      regexTriggers env.evidence store' input.filter :=
    funext fun onset => regexTriggers_eq hrows env.evidence rfl onset
  have hedges : errorSpanEdges store.spans input.filter.scope input.filter.windowStart
      input.filter.windowEnd = errorSpanEdges store'.spans input.filter.scope
        input.filter.windowStart input.filter.windowEnd := by
    rw [errorSpanEdges, errorSpanEdges, spansInWindow_eq hrows]
  have hstructural : loadStructuralRows store input.filter.scope input.filter.windowEnd =
      loadStructuralRows store' input.filter.scope input.filter.windowEnd :=
    funext fun start => loadStructuralRows_eq hrows _ start
  have hview : buildStructuralView score env.rank.rendering store input.filter.scope
      input.filter.windowStart input.filter.windowEnd = buildStructuralView score
        env.rank.rendering store' input.filter.scope input.filter.windowStart
          input.filter.windowEnd :=
    funext fun start => buildStructuralView_eq hrows score _ _ _ start
  unfold analysisOf
  simp only [aggregateGroups_eq hlogs, runClustering_eq hlogs env.scoring env.mergeSimilarity
    env.mergeEnvironment env.resultOrder store.jobs store'.jobs,
    getBaselineCounts_eq store.jobs store'.jobs hlogs, hregex, rareEventTriggers_eq hrows,
    countLogsInWindow_eq hrows rfl, computeFeatures_eq hrows, spansInWindow_eq hrows, hedges,
    errorOnsets_eq hrows, rankCandidates_eq hrows, hstructural, hview, silentServices_eq hrows,
    explainWindow_eq hrows]

/-! A line, a span, a sample and a job of another scope. -/

def foreignSample : MetricSample ℚ :=
  ⟨some "billing", "errors", some (.finite (3 : ℚ)), none, some 1000000, none, "other"⟩

def foreignRows : Store :=
  { otherRows with
    jobs := [⟨7, some 500000, "other"⟩]
    samples := [foreignSample] }

theorem sameScope_foreign : SameScope "default" errorRows foreignRows where
  rows :=
    { logs := sameRows_other.logs
      spans := sameRows_other.spans
      samples := by
        show [] = List.filter (fun m => m.scope == "default") [foreignSample]
        rw [List.filter_cons_of_neg (by decide)]
        rfl }
  jobs := by
    show [] = List.filter (fun j => j.scope == "default") [(⟨7, some 500000, "other"⟩ : JobStart)]
    rw [List.filter_cons_of_neg (by decide)]
    rfl

theorem sample_analysisOf_scoped :
    analysisOf (id : ℕ → ℕ) sampleExplain errorRows sampleInput =
        analysisOf id sampleExplain foreignRows sampleInput ∧
      ∀ excluded baseline service environment only,
        (∀ j, j ∈ errorRows.jobs ∨ j ∈ foreignRows.jobs → j.id = excluded →
          j.scope = sampleInput.filter.scope) →
        getBaselineCounts errorRows.logs errorRows.jobs baseline service environment
            (some excluded) sampleInput.filter.scope only =
          getBaselineCounts foreignRows.logs foreignRows.jobs baseline service environment
            (some excluded) sampleInput.filter.scope only :=
  analysisOf_scoped id sampleExplain sampleInput sameScope_foreign

end Raglogs.ScopedAnalyses
