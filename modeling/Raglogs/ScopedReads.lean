import Raglogs.Clustering

/-!
Reads of one scope. A query that accepts rows of one scope only has the same answer over all
stores with the same rows in that scope, and so has everything that is computed from such
queries.
-/

namespace Raglogs.ScopedReads

open Clusters Clustering Collections Dicts Durations Grouping LogEntries SemanticMerge

/-- What is picked inside a part depends on that part only. -/
theorem filter_eq_of_part {α : Type*} {mine p : α → Bool} {l l' : List α}
    (h : l.filter mine = l'.filter mine) (hp : ∀ a, p a = true → mine a = true) :
    l.filter p = l'.filter p := by
  have hinside : ∀ l : List α, l.filter p = (l.filter mine).filter p := by
    intro l
    rw [List.filter_filter]
    refine List.filter_congr fun a _ => ?_
    cases hpa : p a with
    | false => rfl
    | true => rw [hp a hpa, Bool.true_and]
  rw [hinside l, hinside l', h]

/-- Two stores with the same rows in a scope. -/
def SameEntries (scope : String) (store store' : LogStore) : Prop :=
  store.entries.filter (fun e => e.scope == scope) =
    store'.entries.filter (fun e => e.scope == scope)

theorem scope_of_accepts {f : WindowFilter} {e : LogEntry} (h : f.accepts e = true) :
    (e.scope == f.scope) = true := by
  unfold WindowFilter.accepts at h
  simp only [Bool.and_eq_true] at h
  exact h.1.1.1.2

theorem baseWindowQuery_eq {f : WindowFilter} {store store' : LogStore}
    (h : SameEntries f.scope store store') : store.baseWindowQuery f = store'.baseWindowQuery f :=
  filter_eq_of_part h fun _ => scope_of_accepts

theorem aggregateGroups_eq {f : WindowFilter} {store store' : LogStore}
    (h : SameEntries f.scope store store') (lowering : Text.Lowering) (order : ResultOrder) :
    aggregateGroups lowering order store f = aggregateGroups lowering order store' f := by
  unfold aggregateGroups clusterSelect
  rw [baseWindowQuery_eq h]

/-- Without an excluded job a baseline asks for no other rows. -/
theorem getBaselineCounts_eq {store store' : LogStore} (jobs jobs' : List JobStart)
    {baseline : TimeWindow} {service environment : Option String} {scope : String}
    {includeOnlyIngestionJobId : Option ℕ} (h : SameEntries scope store store') :
    getBaselineCounts store jobs baseline service environment none scope
        includeOnlyIngestionJobId =
      getBaselineCounts store' jobs' baseline service environment none scope
        includeOnlyIngestionJobId := by
  have hrows := baseWindowQuery_eq (f := ⟨baseline.start, baseline.stop, scope, service,
    environment, includeOnlyIngestionJobId⟩) h
  unfold getBaselineCounts
  dsimp only
  rw [hrows]

/-- A clustering run of a scope. -/
theorem runClustering_eq {K : Type} [ScoreArithmetic K] [LinearOrder K] {f : WindowFilter}
    {store store' : LogStore} (h : SameEntries f.scope store store') (s : Scoring K)
    (similarity : List K → List K → K) (env : MergeEnvironment K) (order : ResultOrder)
    (jobs jobs' : List JobStart) (baselineWindowStr : String) (maxClusters : ℤ) :
    runClustering s similarity env order store jobs f baselineWindowStr maxClusters =
      runClustering s similarity env order store' jobs' f baselineWindowStr maxClusters := by
  have hclusters : windowClusters s order store jobs f baselineWindowStr =
      windowClusters s order store' jobs' f baselineWindowStr := by
    unfold windowClusters clusterSelect
    simp only [aggregateGroups_eq h, baseWindowQuery_eq h, getBaselineCounts_eq jobs jobs' h]
  rw [runClustering, runClustering, hclusters]

end Raglogs.ScopedReads
