import Raglogs.Clusters
import Raglogs.UnionFind
import Mathlib.Data.List.FinRange
import Mathlib.Data.Prod.Lex

/-!
Semantic merge of clusters. Pairs of clusters whose representative embeddings are
similar enough are joined by union-find, and each component collapses into one
cluster. The pass is optional: whatever goes wrong in the embedding backend leaves
the clusters as they were. The similarity of two vectors is a parameter.
-/

namespace Raglogs.SemanticMerge

open Collections Dicts LogEntries Text Triggers Clusters UnionFind

/-- What can go wrong on the way to a merge. -/
inductive MergeError
  | lengthMismatch
  | badVectors
  | backend (reason : String)
deriving DecidableEq, Repr

variable {K : Type} [ScoreArithmetic K] [LinearOrder K]

def isMergeEligible (cluster : ClusterData K) (embedding : List K) (minCount : ℤ) : Bool :=
  if (cluster.count : ℤ) < minCount then false
  else if strip cluster.representativeMessage = "" then false
  else if embedding = [] then false
  else embedding.any (fun v => v ≠ 0)

/-- The vectors a similarity matrix can be computed for: of one dimension, not zero. -/
def checkVectors (embeddings : List (List K)) : Except MergeError Unit :=
  match embeddings with
  | [] => .ok ()
  | first :: _ =>
      if first.length = 0 ∨ embeddings.any (fun row => row.length ≠ first.length) then
        .error .badVectors
      else .ok ()

def sumCounts (dicts : List (Counter String)) : Counter String := dicts.foldl addCounts ∅

/-- The keys of such a sum, in the order in which they are entered. -/
def sumOrder (orders : List (List String)) : List String := fromKeys orders.flatten

/-- Higher importance first, then higher count, then the lesser fingerprint. -/
def canonicalKey (c : ClusterData K) : Kᵒᵈ ×ₗ (ℕᵒᵈ ×ₗ String) :=
  toLex (OrderDual.toDual c.importanceScore, toLex (OrderDual.toDual c.count, c.fingerprint))

/-- Collapse a component, given by its first member and the others. -/
def mergeComponent (s : Scoring K) (first : ClusterData K) (others : List (ClusterData K)) :
    ClusterData K :=
  let members := first :: others
  let canonical := minOn canonicalKey first others
  let count := (members.map ClusterData.count).sum
  let baselineCount := (members.map ClusterData.baselineCount).sum
  let changeRatio := computeChangeRatio count baselineCount
  let services := sumCounts (members.map ClusterData.services)
  let levels := sumCounts (members.map ClusterData.levels)
  let levelOrder := sumOrder (members.map ClusterData.levelOrder)
  let isTrigger := members.any ClusterData.isTrigger ||
    isTriggerMessage canonical.representativeMessage
  { fingerprint := canonical.fingerprint
    representativeMessage := canonical.representativeMessage
    count := count
    services := services
    levels := levels
    levelOrder := levelOrder
    firstSeen := (members.filterMap ClusterData.firstSeen).min?
    lastSeen := (members.filterMap ClusterData.lastSeen).max?
    baselineCount := baselineCount
    changeRatio := changeRatio
    importanceScore := s.computeImportanceScore count levels levelOrder changeRatio
      (items services).card isTrigger
    isTrigger := isTrigger
    logEntryIds := canonical.logEntryIds ++
      (members.erase canonical).flatMap ClusterData.logEntryIds
    mergedFingerprints := sortOn id
      ((members.filter (fun m => m.fingerprint ≠ canonical.fingerprint)).map
        ClusterData.fingerprint)
    errorServiceCounts := sumCounts (members.map ClusterData.errorServiceCounts) }

/-- A component of one member stays as it is; no component is empty. -/
def collapse (s : Scoring K) : List (ClusterData K) → List (ClusterData K)
  | [] => []
  | [m] => [m]
  | m :: m' :: rest => [mergeComponent s m (m' :: rest)]

/-- The clusters with their embeddings, and what links two of them. -/
def linked (similarity : List K → List K → K) (threshold : K) (minCount : ℤ)
    (p q : ClusterData K × List K) : Bool :=
  isMergeEligible p.1 p.2 minCount && isMergeEligible q.1 q.2 minCount &&
    decide (threshold ≤ similarity p.2 q.2)

/-- The scan of all pairs, an earlier index first, and the components it leaves. -/
def mergeItems (s : Scoring K) (similarity : List K → List K → K) (threshold : K)
    (minCount : ℤ) (members : List (ClusterData K × List K)) : List (ClusterData K) :=
  let nodes := List.finRange members.length
  let scan := Forest.unionAll
    (fun p => linked similarity threshold minCount (members.get p.1) (members.get p.2))
    Forest.discrete (pairs nodes)
  if scan.2 then
    let components := scan.1.components nodes
    -- the first member of each component keeps its place
    let ordered := sortOn (fun p => ((p.2.map Fin.val).min?).getD 0) components
    ordered.flatMap (fun p => collapse s (p.2.map (fun i => (members.get i).1)))
  else members.map Prod.fst

def mergeSemanticClusters (s : Scoring K) (similarity : List K → List K → K)
    (clusters : List (ClusterData K)) (embeddings : List (List K)) (similarityThreshold : K)
    (minCount : ℤ) : Except MergeError (List (ClusterData K)) :=
  if clusters.length < 2 then .ok clusters
  else if embeddings.length ≠ clusters.length then .error .lengthMismatch
  else do
    checkVectors embeddings
    return mergeItems s similarity similarityThreshold minCount (clusters.zip embeddings)

/-- An embedding backend; either call may raise. -/
structure Provider (K : Type) where
  isAvailable : Except MergeError Bool
  embedTexts : List String → Except MergeError (List (List K))

structure MergeSettings (K : Type) where
  clusterMergeSimilarityThreshold : K
  clusterMergeMinCount : ℤ

/-- What the pass reads from outside: the settings and the configured provider. -/
structure MergeEnvironment (K : Type) where
  getSettings : Except MergeError (MergeSettings K)
  getEmbeddingsProvider : MergeSettings K → Except MergeError (Provider K)

/-- The part of the pass that may raise. -/
def tryMerge (s : Scoring K) (similarity : List K → List K → K) (env : MergeEnvironment K)
    (clusters : List (ClusterData K)) (provider : Option (Provider K))
    (similarityThreshold : Option K) (minCount : Option ℤ) :
    Except MergeError (List (ClusterData K) × Bool) := do
  let settings ← env.getSettings
  let provider ← match provider with
    | some p => pure p
    | none => env.getEmbeddingsProvider settings
  let available ← provider.isAvailable
  if !available then return (clusters, false)
  let threshold := similarityThreshold.getD settings.clusterMergeSimilarityThreshold
  let sizeFloor := minCount.getD settings.clusterMergeMinCount
  let embeddings ← provider.embedTexts (clusters.map ClusterData.representativeMessage)
  if embeddings.length ≠ clusters.length then return (clusters, false)
  let merged ← mergeSemanticClusters s similarity clusters embeddings threshold sizeFloor
  return (merged, true)

/-- Run the merge pass; on any error the clusters are returned unchanged. -/
def maybeSemanticMerge (s : Scoring K) (similarity : List K → List K → K)
    (env : MergeEnvironment K) (clusters : List (ClusterData K)) (provider : Option (Provider K))
    (similarityThreshold : Option K) (minCount : Option ℤ) : List (ClusterData K) × Bool :=
  if clusters.length < 2 then (clusters, false)
  else
    match tryMerge s similarity env clusters provider similarityThreshold minCount with
    | .ok result => result
    | .error _ => (clusters, false)

end Raglogs.SemanticMerge
