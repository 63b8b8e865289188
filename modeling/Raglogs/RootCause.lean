import Raglogs.Ranking
import Raglogs.SemanticMerge
import Mathlib.Data.Multiset.Lattice

/-!
From clusters to a root cause. The merged clusters are ranked by importance and cut
off at a cap, which spares the cluster with the largest error group of one service.
The primary cluster is chosen among the significant ones by a weighted score of
volume, anomaly and onset; without error lines, by volume.
-/

namespace Raglogs.RootCause

open Collections Dicts LogEntries Clusters SemanticMerge Ranking

variable {K : Type} [ScoreArithmetic K] [LinearOrder K]

/-- The elements before index `n` of a slice; a negative index counts from the end. -/
def sliceStop (n : ℤ) (length : ℕ) : ℕ := if 0 ≤ n then n.toNat else length - n.natAbs

omit [ScoreArithmetic K] [LinearOrder K] in
/-- Line count of the largest single group of one service and an error level. -/
def topErrorServiceCount (c : ClusterData K) : ℕ :=
  ((items c.errorServiceCounts).map Prod.snd).sup

omit [ScoreArithmetic K] [LinearOrder K] in
/-- The largest error group, then the count. -/
def candidateKey (c : ClusterData K) : ℕ ×ₗ ℕ := toLex (topErrorServiceCount c, c.count)

/-- A candidate is kept when it has error lines. -/
def hasErrors (key : ℕ ×ₗ ℕ) : Bool := 0 < (ofLex key).1

/-- Rank by importance and cut off; the top candidate survives. -/
def capClusters (maxClusters : ℤ) (merged : List (ClusterData K)) : List (ClusterData K) :=
  capped ClusterData.importanceScore candidateKey hasErrors
    (sliceStop maxClusters merged.length) merged

/-- Merge if enabled, sort by importance again, apply the cap. -/
def rankAndMergeClusters (s : Scoring K) (similarity : List K → List K → K)
    (env : MergeEnvironment K) (clusters : List (ClusterData K)) (maxClusters : ℤ)
    (provider : Option (Provider K)) : List (ClusterData K) × String :=
  let (merged, usedSemantic) := maybeSemanticMerge s similarity env clusters provider none none
  let algorithm := if usedSemantic then "fingerprint+semantic" else "fingerprint"
  (capClusters maxClusters merged, algorithm)

/-! Primary selection. -/

/-- The configured weights of the root-cause score. -/
structure RcaWeights (K : Type) where
  volume : K
  anomaly : K
  onset : K

/-- What the score reads besides the cluster. -/
structure Selection (K : Type) where
  log : K → K
  weights : RcaWeights K
  windowStart : Option Timestamp
  windowEnd : Option Timestamp

/-- Where the first line falls: 1 at the start of the window, 0 at its end. -/
def onsetEarliness (firstSeen windowStart windowEnd : Option Timestamp) : K :=
  match firstSeen, windowStart, windowEnd with
  | some first, some start, some stop =>
      let span := stop - start
      if span ≤ 0 then ScoreArithmetic.half
      else
        let frac : K := ScoreArithmetic.seconds (stop - first) / ScoreArithmetic.seconds span
        if frac < 0 then 0 else if 1 < frac then 1 else frac
  | _, _, _ => ScoreArithmetic.half

def candidateScore (sel : Selection K) (c : ClusterData K) : K :=
  let volume := sel.log ((topErrorServiceCount c + 1 : ℕ) : K)
  let anomaly := sel.log (c.changeRatio + 1)
  let onset := onsetEarliness c.firstSeen sel.windowStart sel.windowEnd
  sel.weights.volume * volume + sel.weights.anomaly * anomaly + sel.weights.onset * onset

def significantLevels : List String := ["error", "fatal", "warn", "critical"]

omit [ScoreArithmetic K] [LinearOrder K] in
def isSignificant (c : ClusterData K) : Bool :=
  significantLevels.any (fun level => decide (level ∈ c.levels))

omit [ScoreArithmetic K] [LinearOrder K] in
/-- The clusters with a significant level; all of them if there is none. -/
def selectSignificantClusters (clusters : List (ClusterData K)) : List (ClusterData K) :=
  let significant := clusters.filter isSignificant
  if significant = [] then clusters else significant

/-- Pick the primary cluster. -/
def selectPrimaryCluster (sel : Selection K) (significant : List (ClusterData K)) :
    Option (ClusterData K) :=
  let errorClusters := significant.filter (fun c => 0 < topErrorServiceCount c)
  if errorClusters ≠ [] then
    errorClusters.maxOn? (fun c =>
      (toLex (candidateScore sel c, toLex (c.count, c.importanceScore)) : K ×ₗ (ℕ ×ₗ K)))
  else
    significant.maxOn? (fun c => (toLex (c.count, c.importanceScore) : ℕ ×ₗ K))

/-- The root cause that is reported for some clusters. -/
def rootCause (sel : Selection K) (clusters : List (ClusterData K)) : Option (ClusterData K) :=
  selectPrimaryCluster sel (selectSignificantClusters clusters)

/-! The selection as one choice. -/

/-- Significant clusters go first, and among equals those with error lines. -/
def standing (c : ClusterData K) : ℕ :=
  (if isSignificant c then 2 else 0) + (if 0 < topErrorServiceCount c then 1 else 0)

/-- What primary selection maximises: the standing, the score of a cluster with error
lines, the count and the importance. -/
def primaryKey (sel : Selection K) (c : ClusterData K) : ℕ ×ₗ (K ×ₗ (ℕ ×ₗ K)) :=
  toLex (standing c, toLex (if 0 < topErrorServiceCount c then candidateScore sel c else 0,
    toLex (c.count, c.importanceScore)))

theorem primaryKey_lt_of_standing (sel : Selection K) {c d : ClusterData K}
    (h : standing d < standing c) : primaryKey sel d < primaryKey sel c :=
  Prod.Lex.toLex_lt_toLex.mpr (Or.inl h)

theorem primaryKey_le_iff (sel : Selection K) {c d : ClusterData K}
    (h : standing d = standing c) :
    primaryKey sel d ≤ primaryKey sel c ↔
      (toLex (if 0 < topErrorServiceCount d then candidateScore sel d else 0,
          toLex (d.count, d.importanceScore)) : K ×ₗ (ℕ ×ₗ K)) ≤
        toLex (if 0 < topErrorServiceCount c then candidateScore sel c else 0,
          toLex (c.count, c.importanceScore)) := by
  unfold primaryKey
  rw [Prod.Lex.toLex_le_toLex, h]
  simp

/-- The key settles the importance, so equal clusters keep their order in the ranking. -/
theorem importance_of_primaryKey (sel : Selection K) (c d : ClusterData K)
    (h : primaryKey sel c = primaryKey sel d) : c.importanceScore = d.importanceScore := by
  have hscore := (Prod.mk.inj (toLex.injective h)).2
  have hcount := (Prod.mk.inj (toLex.injective hscore)).2
  exact (Prod.mk.inj (toLex.injective hcount)).2

/-- Primary selection is one choice, by the primary key. -/
theorem rootCause_eq (sel : Selection K) (clusters : List (ClusterData K)) :
    rootCause sel clusters = clusters.maxOn? (primaryKey sel) := by
  -- whatever the pool, its members stand above the clusters left out of it
  have hpool : (selectSignificantClusters clusters).maxOn? (primaryKey sel) =
      clusters.maxOn? (primaryKey sel) := by
    unfold selectSignificantClusters
    by_cases hsig : clusters.filter isSignificant = []
    · simp only [hsig, if_pos]
    · simp only [if_neg hsig]
      refine maxOn?_filter _ isSignificant hsig ?_
      intro a _ ha b _ hb
      apply primaryKey_lt_of_standing
      unfold standing
      simp only [ha, hb, if_true, Bool.false_eq_true, if_false]
      split <;> split <;> omega
  have hsame : ∀ a ∈ selectSignificantClusters clusters,
      ∀ b ∈ selectSignificantClusters clusters, isSignificant a = isSignificant b := by
    intro a ha b hb
    unfold selectSignificantClusters at ha hb
    by_cases hsig : clusters.filter isSignificant = []
    · simp only [hsig, if_pos] at ha hb
      rw [List.filter_eq_nil_iff] at hsig
      rw [Bool.eq_false_iff.mpr (hsig a ha), Bool.eq_false_iff.mpr (hsig b hb)]
    · simp only [if_neg hsig, List.mem_filter] at ha hb
      rw [ha.2, hb.2]
  rw [← hpool]
  unfold rootCause selectPrimaryCluster
  set pool := selectSignificantClusters clusters with hdef
  by_cases herr : pool.filter (fun c => 0 < topErrorServiceCount c) = []
  · simp only [herr, ne_eq, not_true_eq_false, if_false]
    have hnone : ∀ c ∈ pool, ¬0 < topErrorServiceCount c := by
      intro c hc
      simpa using List.filter_eq_nil_iff.mp herr c hc
    refine maxOn?_congr _ _ ?_
    intro a ha b hb
    have hstanding : standing a = standing b := by
      unfold standing
      rw [hsame a ha b hb, if_neg (hnone a ha), if_neg (hnone b hb)]
    rw [primaryKey_le_iff sel hstanding, if_neg (hnone a ha), if_neg (hnone b hb),
      Prod.Lex.toLex_le_toLex (x := (0, _))]
    simp
  · simp only [ne_eq, herr, not_false_eq_true, if_true]
    have hcongr : (pool.filter (fun c => 0 < topErrorServiceCount c)).maxOn?
        (fun c => (toLex (candidateScore sel c, toLex (c.count, c.importanceScore)) :
          K ×ₗ (ℕ ×ₗ K))) =
        (pool.filter (fun c => 0 < topErrorServiceCount c)).maxOn? (primaryKey sel) := by
      refine maxOn?_congr _ _ ?_
      intro a ha b hb
      obtain ⟨ha, haerr⟩ := List.mem_filter.mp ha
      obtain ⟨hb, hberr⟩ := List.mem_filter.mp hb
      rw [decide_eq_true_eq] at haerr hberr
      have hstanding : standing a = standing b := by
        unfold standing
        rw [hsame a ha b hb, if_pos haerr, if_pos hberr]
      rw [primaryKey_le_iff sel hstanding, if_pos haerr, if_pos hberr]
    rw [hcongr]
    refine maxOn?_filter _ _ herr ?_
    intro a ha haerr b hb hberr
    rw [decide_eq_true_eq] at haerr
    rw [decide_eq_false_iff_not] at hberr
    apply primaryKey_lt_of_standing
    unfold standing
    rw [hsame a ha b hb, if_pos haerr, if_neg hberr]
    omega

end Raglogs.RootCause
