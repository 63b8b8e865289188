import Raglogs.QueryOverrides
import Raglogs.ScopedReads
import Raglogs.Scopes
import Raglogs.SimilarSearch

/-!
Similar incidents as a caller is answered them. What a caller may see is decided once, from
the caller and the request, and every query of the search is restricted to it: the search by
vectors, the match by fingerprint over the embeddings, and the one over the log lines that
stands in for both.
-/

namespace Raglogs.SimilarIncidents

open Clusters Clustering Collections Durations EmbeddingIntervals Grouping LogEntries Overwrites
  QueryOverrides Scopes ScopedReads SemanticMerge SimilarSearch Text

/-- Every scope, or the resolved one. -/
def visibleAcross (cross : Bool) (resolvedScope : String) : SimilarVisibility :=
  ⟨cross, if cross then none else some resolvedScope⟩

/-- Decide whether a caller sees other scopes. -/
def resolveSimilarVisibility (authEnabled : Bool) (resolvedScope : String)
    (crossScopeRequested : Option Bool) (role : String) (allowScopeOverride : Bool) :
    SimilarVisibility :=
  if !authEnabled then visibleAcross (crossScopeRequested.getD true) resolvedScope
  else if role = "admin" then visibleAcross (crossScopeRequested.getD true) resolvedScope
  else if allowScopeOverride then visibleAcross (crossScopeRequested.getD false) resolvedScope
  else ⟨false, some resolvedScope⟩

/-- The fingerprints of a request, without blanks and repetitions. -/
def collectQueryFingerprints (fingerprint : Option String) (fingerprints : Option (List String)) :
    List String :=
  fromKeys (((fingerprint :: (fingerprints.getD []).map some).filterMap fun value =>
    (truthy value).map strip).filter fun stripped => stripped ≠ "")

def queryClustersFromFingerprints (fingerprints : List String) : List QueryCluster :=
  fingerprints.map fun fp => ⟨fp, ""⟩

variable {K V : Type} [ScoreArithmetic K] [LinearOrder K]

/-- The first clusters are the query. -/
def queryClustersFromClusterData (clusters : List (ClusterData K)) (limit : ℕ) :
    List QueryCluster :=
  (clusters.take limit).filterMap fun c =>
    if c.fingerprint = "" then none else some ⟨c.fingerprint, c.representativeMessage⟩

/-! The match by fingerprint. -/

/-- The log lines of one scope and fingerprint. -/
structure FingerprintGroup where
  scope : String
  fingerprint : String
  template : Option String
  firstSeen : Option Timestamp
  lastSeen : Option Timestamp
  count : ℕ

def clusterEmbeddingFingerprintStatement (engine : Shuffle (EmbeddingRow V))
    (rows : List (EmbeddingRow V)) (fingerprints : List String)
    (visible : String → String → Bool) (limit : ℕ) : List (EmbeddingRow V) :=
  (engine.1 (rows.filter fun row => fingerprints.contains row.fingerprint &&
    visible row.scope row.fingerprint)).take limit

/-- Whether a log line has one of some fingerprints and may be seen. -/
def hasVisibleFingerprint (fingerprints : List String) (visible : String → String → Bool)
    (e : LogEntry) : Bool :=
  e.fingerprint.any fun fp => fingerprints.contains fp && visible e.scope fp

def logEntryFingerprintStatement (engine : Shuffle FingerprintGroup) (entries : List LogEntry)
    (fingerprints : List String) (visible : String → String → Bool) (limit : ℕ) :
    List FingerprintGroup :=
  let rows := entries.filter (hasVisibleFingerprint fingerprints visible)
  (engine.1 ((groupOn (fun e => (e.scope, e.fingerprint.getD "")) rows).map fun g =>
    ⟨g.1.1, g.1.2, (g.2.filterMap LogEntry.normalizedMessage).min?,
      (g.2.filterMap LogEntry.timestamp).min?, (g.2.filterMap LogEntry.timestamp).max?,
      g.2.length⟩)).take limit

/-- The match of a group that has a scope and a fingerprint. -/
def groupToMatch (g : FingerprintGroup) (similarity : Option K) : Option (SimilarMatch K) :=
  if g.scope = "" ∨ g.fingerprint = "" then none
  else some ⟨g.scope, g.fingerprint, g.template, similarity, g.firstSeen, g.lastSeen, g.count⟩

/-- Enter what a row matches, if anything. -/
def enterMatch {ρ : Type} (toMatch : ρ → Option (SimilarMatch K)) (merged : List (SimilarMatch K))
    (row : ρ) : List (SimilarMatch K) :=
  match toMatch row with
  | some m => mergeMatches merged m
  | none => merged

/-- Which statements of a request the database refuses. -/
structure Faults where
  clustering : Bool
  semantic : Bool
  fingerprint : Bool
  logEntries : Bool
  commit : Bool

/-- The tables that a search reads. -/
structure SimilarDb (V : Type) where
  logs : LogStore
  jobs : List JobStart
  embeddings : Embeddings V

/-- The server around a request. -/
structure Environment (K V : Type) [LinearOrder K] where
  lowering : Lowering
  repr : String → String
  settings : QueryOverrides.Settings
  llmModel : String
  authEnabled : Bool
  scoring : Scoring K
  mergeSimilarity : List K → List K → K
  mergeEnvironment : MergeEnvironment K
  resultOrder : ResultOrder
  /-- The provider of embeddings, unless asking for it raises. -/
  provider : Option (EmbeddingIntervals.Provider V)
  embeddingsDimensions : ℕ
  embeddingsModel : String
  similarSemanticMinSimilarity : K
  nearness : Nearness K V
  nearestOrder : ℕ → Shuffle (EmbeddingRow V)
  rowOrder : Shuffle (EmbeddingRow V)
  groupOrder : Shuffle FingerprintGroup
  parseUuid : String → Option ℕ
  isoformat : Timestamp → String
  round4 : K → K
  /-- A float with two decimals, or the text of one that is no number. -/
  format2 : Option K → String
  now : Timestamp
  /-- The ids that are drawn for new embeddings, by position. -/
  rowIds : ℕ → ℕ
  writable : Bool
  faults : Faults

/-- Match the fingerprints of the query over the embeddings, then over the log lines. -/
def searchSimilarFingerprint (env : Environment K V) (db : SimilarDb V)
    (queryClusters : List QueryCluster) (queryScope : String) (visibility : SimilarVisibility)
    (limit : ℕ) : Option (List (SimilarMatch K)) :=
  let fingerprints := (queryClusters.map QueryCluster.fingerprint).filter fun fp => fp ≠ ""
  let visible := applyVisibilityFilters queryScope fingerprints visibility
  if fingerprints = [] then some []
  else if env.faults.fingerprint then none
  else
    let merged := (clusterEmbeddingFingerprintStatement env.rowOrder db.embeddings.rows
      fingerprints visible limit).foldl (enterMatch fun row => rowToMatch row (some (1 : K))) []
    if merged ≠ [] then some (rankedMatches env.nearness merged limit)
    else if env.faults.logEntries then none
    else
      let merged := (logEntryFingerprintStatement env.groupOrder db.logs.entries fingerprints
        visible limit).foldl (enterMatch fun g => groupToMatch g (some (1 : K))) merged
      some (rankedMatches env.nearness merged limit)

structure SimilarResult (K : Type) where
  queryClusters : List QueryCluster
  similar : List (SimilarMatch K)
  retrievalMode : String
  window : TimeWindow

/-- The search by vectors, where it can be made. -/
def trySemantic (env : Environment K V) (provider : EmbeddingIntervals.Provider V)
    (db : SimilarDb V) (queryClusters : List QueryCluster) (queryScope : String)
    (visibility : SimilarVisibility) (limit : ℕ) : Option (List (SimilarMatch K)) :=
  if provider.isAvailable && env.embeddingsDimensions == storedEmbeddingDims then
    if env.faults.semantic then none
    else searchSimilarSemantic env.nearness env.nearestOrder db.embeddings queryClusters queryScope
      visibility provider env.similarSemanticMinSimilarity limit
  else some []

/-- Similar incidents; only asking for the provider can raise. -/
def findSimilarIncidents (env : Environment K V) (db : SimilarDb V)
    (queryClusters : List QueryCluster) (queryScope : String) (visibility : SimilarVisibility)
    (window : TimeWindow) (top : ℕ) : Option (SimilarResult K) :=
  if queryClusters = [] then some ⟨queryClusters, [], "fingerprint", window⟩
  else
    env.provider.map fun provider =>
      let limit := max 1 top
      match trySemantic env provider db queryClusters queryScope visibility limit with
      | some (first :: rest) => ⟨queryClusters, first :: rest, "semantic", window⟩
      | _ =>
          match searchSimilarFingerprint env db queryClusters queryScope visibility limit with
          | some found => ⟨queryClusters, found, "fingerprint", window⟩
          | none => ⟨queryClusters, [], "fingerprint", window⟩

/-! The request. -/

structure SimilarRequest where
  overrides : OverrideInput
  since : Option String
  fromTime : Option Timestamp
  toTime : Option Timestamp
  service : Option String
  env : Option String
  ingestionJobId : Option String
  fingerprint : Option String
  fingerprints : Option (List String)
  top : ℕ
  crossScope : Option Bool
  scope : Option String

/-- Who sends a request, and the scope in its query string. -/
structure HttpRequest where
  principal : Option AuthPrincipal
  queryScope : Option String

inductive RequestError
  | scope (e : ScopeResolutionError)
  | overrides (e : Raised)
  | badRequest (detail : String)
  | internal

structure LlmProvenance where
  used : Bool
  provider : String
  model : String
  fellBack : Bool

def llmFromOverrides (settings : QueryOverrides.Settings) (llmModel mode llmProvider : String)
    (llmEnabled : Bool) : LlmProvenance :=
  let requested := llmEnabled && llmProvider != "disabled"
  let used := mode == "llm"
  ⟨used, (truthy (some llmProvider)).getD settings.llmProvider, llmModel, requested && !used⟩

structure SimilarResponse (K : Type) where
  scope : String
  windowFrom : String
  windowTo : String
  queryClusters : List (String × Option String)
  similar : List (SimilarMatch K)
  retrievalMode : String
  llm : LlmProvenance
  renderedText : String

def renderSimilarSummary (format2 : Option K → String) (similar : List (SimilarMatch K))
    (retrievalMode : String) : String :=
  match similar with
  | [] =>
      if retrievalMode = "fingerprint" then "No similar incidents found (fingerprint match)."
      else "No similar incidents found."
  | first :: rest =>
      let extra := if rest = [] then "" else " and " ++ toString rest.length ++ " more"
      "Saw fingerprint " ++ first.fingerprint ++ " in " ++ first.scope ++ " (similarity " ++
        format2 first.similarity ++ ")" ++ extra ++ "."

/-- The window of a request. With fingerprints to look for none is needed. -/
def requestWindow (env : Environment K V) (request : SimilarRequest) (fingerprints : List String) :
    Except RequestError TimeWindow :=
  match resolveWindow env.lowering env.now request.since request.fromTime request.toTime with
  | .ok window => .ok window
  | .error .outOfRange => .error .internal
  | .error (.tooLong _) => .error .internal
  | .error e =>
      if fingerprints = [] then .error (.badRequest (e.message env.lowering))
      else .ok ⟨env.now, env.now⟩

def requestJob (env : Environment K V) (request : SimilarRequest) :
    Except RequestError (Option ℕ) :=
  match truthy request.ingestionJobId with
  | none => .ok none
  | some text =>
      match env.parseUuid text with
      | some job => .ok (some job)
      | none => .error (.badRequest "Invalid ingestion_job_id")

/-- The embeddings after the clusters of a query were stored; a failure changes nothing. -/
def afterClustering (env : Environment K V) (scope : String) (clusters : List (ClusterData K))
    (embeddings : Embeddings V) : Embeddings V :=
  match env.provider with
  | none => embeddings
  | some provider =>
      (persistClusterEmbeddings ⟨clusters, scope, provider, env.embeddingsDimensions,
        env.embeddingsModel, env.rowIds, env.now, env.writable⟩ embeddings).2

/-- The clusters of the request's own window. -/
def requestClusters (env : Environment K V) (request : SimilarRequest) (scope : String)
    (overrides : ResolvedOverrides) (window : TimeWindow) (job : Option ℕ) (db : SimilarDb V) :
    Option (List (ClusterData K)) :=
  if env.faults.clustering then none
  else
    (runClustering env.scoring env.mergeSimilarity env.mergeEnvironment env.resultOrder db.logs
      db.jobs ⟨window.start, window.stop, scope, request.service, request.env, job⟩
      overrides.baselineWindow overrides.maxClusters).toOption

/-- What a request finds, unless something raised. -/
def requestResult (env : Environment K V) (request : SimilarRequest) (scope : String)
    (overrides : ResolvedOverrides) (visibility : SimilarVisibility) (fingerprints : List String)
    (window : TimeWindow) (job : Option ℕ) (db : SimilarDb V) : Option (SimilarResult K) :=
  if fingerprints ≠ [] then
    findSimilarIncidents env db (queryClustersFromFingerprints fingerprints) scope visibility
      window request.top
  else
    (requestClusters env request scope overrides window job db).bind fun clusters =>
      findSimilarIncidents env
        { db with embeddings := afterClustering env scope clusters db.embeddings }
        (queryClustersFromClusterData clusters 5) scope visibility window request.top

def similarResponse (env : Environment K V) (scope : String) (overrides : ResolvedOverrides)
    (result : SimilarResult K) : SimilarResponse K where
  scope := scope
  windowFrom := env.isoformat result.window.start
  windowTo := env.isoformat result.window.stop
  queryClusters := result.queryClusters.map fun c => (c.fingerprint, truthy (some c.template))
  similar := result.similar.map fun m => { m with similarity := m.similarity.map env.round4 }
  retrievalMode := result.retrievalMode
  llm := llmFromOverrides env.settings env.llmModel "rules" overrides.llmProvider false
  renderedText := renderSimilarSummary env.format2 result.similar result.retrievalMode

def requestVisibility (env : Environment K V) (request : SimilarRequest) (http : HttpRequest)
    (scope : String) : SimilarVisibility :=
  resolveSimilarVisibility env.authEnabled scope request.crossScope
    ((http.principal.map AuthPrincipal.role).getD "")
    ((http.principal.map AuthPrincipal.allowScopeOverride).getD false)

/-- Answer a request whose scope is resolved. -/
def answerInScope (env : Environment K V) (request : SimilarRequest) (http : HttpRequest)
    (db : SimilarDb V) (scope : String) : Except RequestError (SimilarResponse K) := do
  let overrides ← (resolveQueryOverrides env.lowering env.repr request.overrides
    (http.principal.map fun p => p.configJson.getD .null) env.settings
    env.authEnabled).mapError RequestError.overrides
  let visibility := requestVisibility env request http scope
  let fingerprints := collectQueryFingerprints request.fingerprint request.fingerprints
  let window ← requestWindow env request fingerprints
  let job ← requestJob env request
  let found :=
    if env.faults.commit then none
    else requestResult env request scope overrides visibility fingerprints window job db
  return similarResponse env scope overrides
    (found.getD ⟨queryClustersFromFingerprints fingerprints, [], "fingerprint", window⟩)

/-- Answer a request for similar incidents. -/
def similarEndpoint (env : Environment K V) (request : SimilarRequest) (http : HttpRequest)
    (db : SimilarDb V) : Except RequestError (SimilarResponse K) := do
  let scope ← (bindRequestScope env.authEnabled http.principal http.queryScope
    request.scope).mapError RequestError.scope
  answerInScope env request http db scope

/-! What a search returns is of scopes that its visibility shows. -/

/-- A scope whose rows the visibility lets through. -/
def Shown (queryScope : String) (visibility : SimilarVisibility) (scope : String) : Prop :=
  if visibility.crossScope then scope ≠ queryScope
  else scope = (truthy visibility.visibleScope).getD queryScope

theorem shown_of_visible {queryScope : String} {queryFingerprints : List String}
    {visibility : SimilarVisibility} {scope fingerprint : String}
    (h : applyVisibilityFilters queryScope queryFingerprints visibility scope fingerprint = true) :
    Shown queryScope visibility scope := by
  unfold applyVisibilityFilters at h
  unfold Shown
  split at h <;> rename_i hcross
  · rw [if_pos hcross]
    simp only [Bool.and_eq_true, bne_iff_ne] at h
    exact h.2
  · rw [if_neg hcross]
    simp only [Bool.and_eq_true, beq_iff_eq] at h
    exact h.1

section Shown

variable {queryScope : String} {visibility : SimilarVisibility}

omit [ScoreArithmetic K] in
theorem forall_foldl_enterMatch {ρ : Type} {toMatch : ρ → Option (SimilarMatch K)}
    {P : SimilarMatch K → Prop} {rows : List ρ}
    (hrows : ∀ row ∈ rows, ∀ m, toMatch row = some m → P m) {merged : List (SimilarMatch K)}
    (h : ∀ m ∈ merged, P m) : ∀ m ∈ rows.foldl (enterMatch toMatch) merged, P m := by
  induction rows generalizing merged with
  | nil => exact h
  | cons row rows ih =>
    rw [List.forall_mem_cons] at hrows
    refine ih hrows.2 ?_
    intro m hm
    unfold enterMatch at hm
    split at hm
    · rename_i m' hm'
      rcases mem_of_mem_mergeMatches hm with hm | rfl
      · exact h m hm
      · exact hrows.1 m hm'
    · exact h m hm

omit [ScoreArithmetic K] in
theorem mem_of_mem_rankedMatches {near : Nearness K V} {found : List (SimilarMatch K)}
    {limit : ℕ} {m : SimilarMatch K} (h : m ∈ rankedMatches near found limit) : m ∈ found :=
  (near.sorted_perm found).mem_iff.mp (List.mem_of_mem_take h)

omit [ScoreArithmetic K] [LinearOrder K] in
theorem scope_of_rowToMatch {row : EmbeddingRow V} {x : Option K} {m : SimilarMatch K}
    (h : rowToMatch row x = some m) : m.scope = row.scope := by
  unfold rowToMatch at h
  split at h
  · cases h
  · obtain rfl := Option.some.inj h
    rfl

omit [ScoreArithmetic K] [LinearOrder K] in
theorem scope_of_groupToMatch {g : FingerprintGroup} {x : Option K} {m : SimilarMatch K}
    (h : groupToMatch g x = some m) : m.scope = g.scope := by
  unfold groupToMatch at h
  split at h
  · cases h
  · obtain rfl := Option.some.inj h
    rfl

omit [ScoreArithmetic K] in
theorem searchSimilarSemantic_shown {near : Nearness K V}
    {engine : ℕ → Shuffle (EmbeddingRow V)} {store : Embeddings V}
    {queryClusters : List QueryCluster} {provider : EmbeddingIntervals.Provider V}
    {minSimilarity : K} {limit : ℕ} {found : List (SimilarMatch K)}
    (h : searchSimilarSemantic near engine store queryClusters queryScope visibility provider
      minSimilarity limit = some found) :
    ∀ m ∈ found, Shown queryScope visibility m.scope := by
  unfold searchSimilarSemantic at h
  obtain ⟨vectors, -, h⟩ := Option.bind_eq_some_iff.mp h
  split at h
  · obtain rfl := Option.some.inj h
    exact fun m hm => absurd hm List.not_mem_nil
  · obtain rfl := Option.some.inj h
    intro m hm
    refine List.foldlRecOn vectors.zipIdx _ (motive := fun merged =>
      ∀ m ∈ merged, Shown queryScope visibility m.scope) ?_ ?_ m (mem_of_mem_rankedMatches hm)
    · exact fun m hm => absurd hm List.not_mem_nil
    · intro merged hmerged p hp
      split
      · exact hmerged
      · refine forall_foldl_enterMatch (fun row hrow m hm => ?_) hmerged
        rw [scope_of_rowToMatch hm]
        exact shown_of_visible (mem_nearest.mp (List.mem_of_mem_take hrow)).2.2

theorem scope_of_mem_groups {engine : Shuffle FingerprintGroup} {entries : List LogEntry}
    {fingerprints queryFingerprints : List String} {limit : ℕ} {g : FingerprintGroup}
    (h : g ∈ logEntryFingerprintStatement engine entries fingerprints
      (applyVisibilityFilters queryScope queryFingerprints visibility) limit) :
    Shown queryScope visibility g.scope := by
  obtain ⟨⟨key, members⟩, hgroup, rfl⟩ :=
    List.mem_map.mp ((engine.2 _).mem_iff.mp (List.mem_of_mem_take h))
  obtain ⟨e, he, rfl⟩ := (mem_groupOn_keys _ _ _).mp (List.mem_map_of_mem hgroup)
  obtain ⟨-, hvisible⟩ := List.mem_filter.mp he
  obtain ⟨fp, -, hfp⟩ := (Option.any_eq_true _ _).mp hvisible
  exact shown_of_visible (Bool.and_eq_true_iff.mp hfp).2

variable {env : Environment K V} {db : SimilarDb V} {queryClusters : List QueryCluster}

theorem searchSimilarFingerprint_shown {limit : ℕ} {found : List (SimilarMatch K)}
    (h : searchSimilarFingerprint env db queryClusters queryScope visibility limit = some found) :
    ∀ m ∈ found, Shown queryScope visibility m.scope := by
  have hnone : ∀ m ∈ ([] : List (SimilarMatch K)), Shown queryScope visibility m.scope :=
    fun m hm => absurd hm List.not_mem_nil
  have hrows : ∀ fps, ∀ row ∈ clusterEmbeddingFingerprintStatement env.rowOrder db.embeddings.rows
      fps (applyVisibilityFilters queryScope fps visibility) limit,
        ∀ m : SimilarMatch K, rowToMatch row (some 1) = some m →
          Shown queryScope visibility m.scope := by
    intro fps row hrow m hm
    have hmem := (env.rowOrder.2 _).mem_iff.mp (List.mem_of_mem_take hrow)
    rw [scope_of_rowToMatch hm]
    exact shown_of_visible (Bool.and_eq_true_iff.mp (List.mem_filter.mp hmem).2).2
  have hmerged := fun fps => forall_foldl_enterMatch (hrows fps) hnone
  unfold searchSimilarFingerprint at h
  dsimp only at h
  split at h
  · obtain rfl := Option.some.inj h
    exact hnone
  · split at h
    · cases h
    · split at h
      · obtain rfl := Option.some.inj h
        exact fun m hm => hmerged _ m (mem_of_mem_rankedMatches hm)
      · split at h
        · cases h
        · obtain rfl := Option.some.inj h
          intro m hm
          refine forall_foldl_enterMatch (fun g hg m hm => ?_) (hmerged _) m
            (mem_of_mem_rankedMatches hm)
          rw [scope_of_groupToMatch hm]
          exact scope_of_mem_groups hg

omit [ScoreArithmetic K] in
theorem trySemantic_shown {provider : EmbeddingIntervals.Provider V} {limit : ℕ}
    {found : List (SimilarMatch K)}
    (h : trySemantic env provider db queryClusters queryScope visibility limit = some found) :
    ∀ m ∈ found, Shown queryScope visibility m.scope := by
  unfold trySemantic at h
  split at h
  · split at h
    · cases h
    · exact searchSimilarSemantic_shown h
  · obtain rfl := Option.some.inj h
    exact fun m hm => absurd hm List.not_mem_nil

theorem findSimilarIncidents_shown {window : TimeWindow} {top : ℕ} {result : SimilarResult K}
    (h : findSimilarIncidents env db queryClusters queryScope visibility window top =
      some result) : ∀ m ∈ result.similar, Shown queryScope visibility m.scope := by
  unfold findSimilarIncidents at h
  split at h
  · obtain rfl := Option.some.inj h
    exact fun m hm => absurd hm List.not_mem_nil
  · obtain ⟨provider, -, rfl⟩ := Option.map_eq_some_iff.mp h
    dsimp only
    split
    · rename_i hsemantic
      exact trySemantic_shown hsemantic
    · split
      · rename_i hfound
        exact searchSimilarFingerprint_shown hfound
      · exact fun m hm => absurd hm List.not_mem_nil

theorem requestResult_shown {request : SimilarRequest} {overrides : ResolvedOverrides}
    {fingerprints : List String} {window : TimeWindow} {job : Option ℕ} {result : SimilarResult K}
    (h : requestResult env request queryScope overrides visibility fingerprints window job db =
      some result) : ∀ m ∈ result.similar, Shown queryScope visibility m.scope := by
  unfold requestResult at h
  split at h
  · exact findSimilarIncidents_shown h
  · obtain ⟨clusters, -, h⟩ := Option.bind_eq_some_iff.mp h
    exact findSimilarIncidents_shown h

end Shown

/-! A search that shows one scope depends on the rows of that scope only. -/

section Agreement

variable {scope : String} {visibility : SimilarVisibility}

/-- Two databases with the same rows in a scope, whose other embeddings have no drawn id. -/
structure SameScope (env : Environment K V) (scope : String) (db db' : SimilarDb V) : Prop where
  entries : SameEntries scope db.logs db'.logs
  embeddings : SamePart (fun row => row.scope == scope) (fun id => ∃ i, env.rowIds i = id)
    db.embeddings db'.embeddings

variable {env : Environment K V} {db db' : SimilarDb V} {queryClusters : List QueryCluster}

omit [ScoreArithmetic K] in
theorem searchSimilarSemantic_eq {near : Nearness K V}
    {engine : ℕ → Shuffle (EmbeddingRow V)} {store store' : Embeddings V}
    {provider : EmbeddingIntervals.Provider V} {minSimilarity : K} {limit : ℕ}
    (hone : ∀ scope', Shown scope visibility scope' → scope' = scope)
    (h : store.rows.filter (fun row => row.scope == scope) =
      store'.rows.filter (fun row => row.scope == scope)) :
    searchSimilarSemantic near engine store queryClusters scope visibility provider
        minSimilarity limit =
      searchSimilarSemantic near engine store' queryClusters scope visibility provider
        minSimilarity limit := by
  have hrows : ∀ vector : List V, store.rows.filter (fun row =>
      minSimilarity ≤ databaseOrder (similarity near vector row) &&
        visibleTo scope visibility queryClusters row) =
      store'.rows.filter (fun row => minSimilarity ≤ databaseOrder (similarity near vector row) &&
        visibleTo scope visibility queryClusters row) := by
    intro vector
    refine filter_eq_of_part h fun row hrow => beq_iff_eq.mpr (hone _ ?_)
    exact shown_of_visible (Bool.and_eq_true_iff.mp hrow).2
  unfold searchSimilarSemantic clusterEmbeddingSemanticStatement nearest
  simp only [hrows]

theorem searchSimilarFingerprint_eq {limit : ℕ}
    (hone : ∀ scope', Shown scope visibility scope' → scope' = scope)
    (h : SameScope env scope db db') :
    searchSimilarFingerprint env db queryClusters scope visibility limit =
      searchSimilarFingerprint env db' queryClusters scope visibility limit := by
  have hrows : ∀ fps : List String, db.embeddings.rows.filter (fun row =>
      fps.contains row.fingerprint &&
        applyVisibilityFilters scope fps visibility row.scope row.fingerprint) =
      db'.embeddings.rows.filter (fun row => fps.contains row.fingerprint &&
        applyVisibilityFilters scope fps visibility row.scope row.fingerprint) := by
    intro fps
    refine filter_eq_of_part h.embeddings.part fun row hrow => beq_iff_eq.mpr (hone _ ?_)
    exact shown_of_visible (Bool.and_eq_true_iff.mp hrow).2
  have hentries : ∀ fps : List String, db.logs.entries.filter (hasVisibleFingerprint fps
      (applyVisibilityFilters scope fps visibility)) =
      db'.logs.entries.filter (hasVisibleFingerprint fps
        (applyVisibilityFilters scope fps visibility)) := by
    intro fps
    refine filter_eq_of_part h.entries fun e he => beq_iff_eq.mpr (hone _ ?_)
    obtain ⟨fp, -, hfp⟩ := (Option.any_eq_true _ _).mp he
    exact shown_of_visible (Bool.and_eq_true_iff.mp hfp).2
  unfold searchSimilarFingerprint clusterEmbeddingFingerprintStatement
    logEntryFingerprintStatement
  simp only [hrows, hentries]

theorem findSimilarIncidents_eq {window : TimeWindow} {top : ℕ}
    (hone : ∀ scope', Shown scope visibility scope' → scope' = scope)
    (h : SameScope env scope db db') :
    findSimilarIncidents env db queryClusters scope visibility window top =
      findSimilarIncidents env db' queryClusters scope visibility window top := by
  have hsemantic : ∀ provider limit,
      trySemantic env provider db queryClusters scope visibility limit =
        trySemantic env provider db' queryClusters scope visibility limit := by
    intro provider limit
    unfold trySemantic
    rw [searchSimilarSemantic_eq hone h.embeddings.part]
  unfold findSimilarIncidents
  simp only [hsemantic, searchSimilarFingerprint_eq hone h]

omit [ScoreArithmetic K] in
theorem afterClustering_samePart {clusters : List (ClusterData K)}
    (h : SameScope env scope db db') :
    SamePart (fun row => row.scope == scope) (fun id => ∃ i, env.rowIds i = id)
      (afterClustering env scope clusters db.embeddings)
      (afterClustering env scope clusters db'.embeddings) := by
  unfold afterClustering
  split
  · exact h.embeddings
  · exact samePart_persist ⟨clusters, scope, _, env.embeddingsDimensions, env.embeddingsModel,
      env.rowIds, env.now, env.writable⟩ h.embeddings

theorem requestResult_eq {request : SimilarRequest} {overrides : ResolvedOverrides}
    {fingerprints : List String} {window : TimeWindow} {job : Option ℕ}
    (hone : ∀ scope', Shown scope visibility scope' → scope' = scope)
    (h : SameScope env scope db db') :
    requestResult env request scope overrides visibility fingerprints window job db =
      requestResult env request scope overrides visibility fingerprints window job db' := by
  have hclusters : requestClusters env request scope overrides window job db =
      requestClusters env request scope overrides window job db' := by
    unfold requestClusters
    rw [runClustering_eq (f := ⟨_, _, scope, _, _, _⟩) h.entries _ _ _ _ db.jobs db'.jobs]
  unfold requestResult
  rw [hclusters, findSimilarIncidents_eq hone h]
  congr 2
  funext clusters
  exact findSimilarIncidents_eq hone ⟨h.entries, afterClustering_samePart h⟩

end Agreement

/-! The visibility of a caller. -/

section Callers

variable {env : Environment K V} {request : SimilarRequest} {http : HttpRequest} {scope : String}

/-- A caller who has one scope, or who asks for no other. -/
def Confined (env : Environment K V) (request : SimilarRequest) (http : HttpRequest) : Prop :=
  (env.authEnabled = true ∧ ∃ p, http.principal = some p ∧ p.allowScopeOverride = false ∧
    p.role ≠ "admin") ∨ request.crossScope = some false

omit [ScoreArithmetic K] in
theorem requestVisibility_of_confined (h : Confined env request http) :
    requestVisibility env request http scope = ⟨false, some scope⟩ := by
  unfold requestVisibility resolveSimilarVisibility
  rcases h with ⟨hauth, p, hp, hoverride, hrole⟩ | hcross
  · simp [hauth, hp, hoverride, hrole]
  · simp [hcross, visibleAcross]

theorem eq_of_shown_pinned {scope' : String} (h : Shown scope ⟨false, some scope⟩ scope') :
    scope' = scope := by
  have hscope : scope' = (truthy (some scope)).getD scope := h
  rw [hscope]
  by_cases hempty : scope = ""
  · rw [hempty]
    rfl
  · rw [truthy_eq_some.mpr ⟨rfl, hempty⟩, Option.getD_some]

theorem similarEndpoint_eq {db : SimilarDb V}
    (hscope : bindRequestScope env.authEnabled http.principal http.queryScope request.scope =
      .ok scope) :
    similarEndpoint env request http db = answerInScope env request http db scope := by
  rw [similarEndpoint, hscope]
  rfl

theorem answerInScope_shown {db : SimilarDb V} {response : SimilarResponse K}
    (h : answerInScope env request http db scope = .ok response) :
    ∀ m ∈ response.similar, Shown scope (requestVisibility env request http scope) m.scope := by
  obtain ⟨overrides, -, h⟩ := bind_eq_ok.mp h
  obtain ⟨window, -, h⟩ := bind_eq_ok.mp h
  obtain ⟨job, -, h⟩ := bind_eq_ok.mp h
  obtain rfl := Except.ok.inj h
  intro m hm
  obtain ⟨m', hm', rfl⟩ := List.mem_map.mp hm
  revert hm'
  split
  · exact fun hm' => absurd hm' List.not_mem_nil
  · cases hresult : requestResult env request scope overrides
        (requestVisibility env request http scope)
        (collectQueryFingerprints request.fingerprint request.fingerprints) window job db with
    | none => exact fun hm' => absurd hm' List.not_mem_nil
    | some result => exact requestResult_shown hresult m'

/-- What a caller sees of other scopes. One who has one scope, or asks for no other, gets rows
of the resolved scope only, and an answer that depends on these rows only; and an answer from
other scopes has no row of the resolved one. -/
theorem similarEndpoint_visibility (env : Environment K V) (request : SimilarRequest)
    (http : HttpRequest) (scope : String)
    (hscope : bindRequestScope env.authEnabled http.principal http.queryScope request.scope =
      .ok scope) :
    (Confined env request http →
      (∀ db response, similarEndpoint env request http db = .ok response →
        ∀ m ∈ response.similar, m.scope = scope) ∧
      ∀ db db', SameScope env scope db db' →
        similarEndpoint env request http db = similarEndpoint env request http db') ∧
    ((requestVisibility env request http scope).crossScope = true →
      ∀ db response, similarEndpoint env request http db = .ok response →
        ∀ m ∈ response.similar, m.scope ≠ scope) := by
  simp only [similarEndpoint_eq hscope]
  refine ⟨fun hconfined => ⟨fun db response hresponse m hm => ?_, fun db db' hsame => ?_⟩,
    fun hcross db response hresponse m hm => ?_⟩
  · have hshown := answerInScope_shown hresponse m hm
    rw [requestVisibility_of_confined hconfined] at hshown
    exact eq_of_shown_pinned hshown
  · have hresult : ∀ overrides fingerprints window job,
        requestResult env request scope overrides (requestVisibility env request http scope)
            fingerprints window job db =
          requestResult env request scope overrides (requestVisibility env request http scope)
            fingerprints window job db' := by
      intro overrides fingerprints window job
      rw [requestVisibility_of_confined hconfined]
      exact requestResult_eq (fun _ => eq_of_shown_pinned) hsame
    unfold answerInScope
    simp only [hresult]
  · have hshown := answerInScope_shown hresponse m hm
    unfold Shown at hshown
    rw [if_pos hcross] at hshown
    exact hshown

end Callers

/-! A pinned key among the rows of another scope. -/

def groupsAsFound : Shuffle FingerprintGroup := ⟨id, fun _ => List.Perm.refl _⟩

def sampleEnvironment : Environment ℚ ℕ where
  lowering := asciiLowering
  repr := id
  settings := serverDefaults
  llmModel := "model"
  authEnabled := true
  scoring := ⟨id, ⟨1, 1, 1, 1, 1⟩, asciiLowering⟩
  mergeSimilarity _ _ := 0
  mergeEnvironment := ⟨.error .badVectors, fun _ => .error .badVectors⟩
  resultOrder := GroupingLaws.buildOrder
  provider := some ⟨true, fun texts => some (texts.map fun _ => padded [4, 3])⟩
  embeddingsDimensions := storedEmbeddingDims
  embeddingsModel := "model"
  similarSemanticMinSimilarity := 1
  nearness := wholeNearness
  nearestOrder := foundOrder
  rowOrder := foundOrder 0
  groupOrder := groupsAsFound
  parseUuid _ := none
  isoformat _ := ""
  round4 := id
  format2 _ := ""
  now := 0
  rowIds i := i + 10
  writable := true
  faults := ⟨false, false, false, false, false⟩

/-- A key that is pinned to the scope of the stored row. -/
def pinnedCaller : HttpRequest := ⟨some ⟨"query", "default", "api_key", false, none⟩, none⟩

def crossScopeRequest : SimilarRequest where
  overrides := emptyRequest
  since := none
  fromTime := some 0
  toTime := some 10
  service := none
  env := none
  ingestionJobId := none
  fingerprint := some "f2"
  fingerprints := none
  top := 10
  crossScope := some true
  scope := none

/-- The row of another scope. -/
def foreignRow : EmbeddingRow ℕ := { sampleRow 2 "f1" [4, 3] with scope := "other" }

def ownDb : SimilarDb ℕ where
  logs := ⟨[], List.nodup_nil⟩
  jobs := []
  embeddings := ⟨[sampleRow 1 "f1" [4, 3]], List.nodup_singleton _, List.nodup_singleton _⟩

def sharedDb : SimilarDb ℕ where
  logs := ⟨[], List.nodup_nil⟩
  jobs := []
  embeddings := ⟨[sampleRow 1 "f1" [4, 3], foreignRow], by decide, by decide⟩

theorem sameScope_sharedDb : SameScope sampleEnvironment "default" ownDb sharedDb where
  entries := rfl
  embeddings :=
    { part := rfl
      undrawn := by
        intro row hrow hother
        rw [List.mem_singleton.mp hrow] at hother
        cases hother
      undrawn' := by
        intro row hrow hother hdrawn
        obtain ⟨i, hi⟩ := hdrawn
        have hlow : row.id ≤ 2 := by
          rcases List.mem_cons.mp hrow with rfl | hrow
          · decide
          · rw [List.mem_singleton.mp hrow]
            decide
        have hhigh : i + 10 = row.id := hi
        omega }

/-- The pinned key asks for other scopes and gets none of their rows. -/
theorem similarEndpoint_pinned :
    (∀ response, similarEndpoint sampleEnvironment crossScopeRequest pinnedCaller sharedDb =
      .ok response → ∀ m ∈ response.similar, m.scope = "default") ∧
      similarEndpoint sampleEnvironment crossScopeRequest pinnedCaller ownDb =
        similarEndpoint sampleEnvironment crossScopeRequest pinnedCaller sharedDb := by
  obtain ⟨hconfined, -⟩ := similarEndpoint_visibility sampleEnvironment crossScopeRequest
    pinnedCaller "default" rfl
  obtain ⟨hown, hsame⟩ := hconfined (.inl ⟨rfl, _, rfl, rfl, by decide⟩)
  exact ⟨hown sharedDb, hsame ownDb sharedDb sameScope_sharedDb⟩

end Raglogs.SimilarIncidents
