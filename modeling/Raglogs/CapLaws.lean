import Mathlib.Algebra.Order.Ring.Defs
import Mathlib.Tactic.Linarith
import Mathlib.Tactic.NormNum
import Raglogs.RootCause
import Raglogs.SemanticMergeLaws

/-!
The cap and the root cause. The cap ranks clusters by importance and spares the one
with the largest error group, while primary selection looks at the level names, a
weighted score, the count and the importance. The two agree exactly when every
cluster that the cap drops is beaten by one that it keeps. With volume as the only
weight, and level names that agree with the error counts, that is always so.
-/

namespace Raglogs.CapLaws

open Collections Dicts LogEntries Triggers Clusters SemanticMerge SemanticMergeLaws Ranking
  RootCause

variable {K : Type} [ScoreArithmetic K] [LinearOrder K]

/-- The clusters that the cap keeps: fewer than `maxClusters` are ahead of it by
importance, or it is the first with the largest error group. -/
def KeptByCap (maxClusters : ℤ) (merged : List (ClusterData K)) (c : ClusterData K) : Prop :=
  IsKept ClusterData.importanceScore candidateKey hasErrors
    (sliceStop maxClusters merged.length) merged c

/-- A cluster goes before another one in primary selection. -/
def Beats (sel : Selection K) (merged : List (ClusterData K)) (c d : ClusterData K) : Prop :=
  primaryKey sel d < primaryKey sel c ∨
    primaryKey sel d = primaryKey sel c ∧ merged.idxOf c < merged.idxOf d

omit [ScoreArithmetic K] in
theorem mem_capClusters {maxClusters : ℤ} {merged : List (ClusterData K)} {c : ClusterData K} :
    c ∈ capClusters maxClusters merged ↔ KeptByCap maxClusters merged c :=
  mem_capped _ _ _ _

theorem rootCause_capClusters_iff (sel : Selection K) (maxClusters : ℤ)
    (merged : List (ClusterData K)) :
    rootCause sel (capClusters maxClusters merged) = rootCause sel merged ↔
      ∀ d ∈ merged, ¬KeptByCap maxClusters merged d →
        ∃ c, KeptByCap maxClusters merged c ∧ Beats sel merged c d := by
  rw [rootCause_eq, rootCause_eq]
  exact maxOn?_capped_eq_iff _ _ _ _ _ (importance_of_primaryKey sel) merged

/-- What the merge pass leaves to be ranked. -/
def mergedClusters (s : Scoring K) (similarity : List K → List K → K) (env : MergeEnvironment K)
    (clusters : List (ClusterData K)) (provider : Option (Provider K)) : List (ClusterData K) :=
  (maybeSemanticMerge s similarity env clusters provider none none).1

/-- The root cause of the capped clusters is that of all of them, exactly when every
dropped cluster is beaten by one that is kept. -/
theorem cap_keeps_root_cause_iff (s : Scoring K) (similarity : List K → List K → K)
    (env : MergeEnvironment K) (provider : Option (Provider K))
    (clusters : List (ClusterData K)) (sel : Selection K) (maxClusters : ℤ) :
    rootCause sel (rankAndMergeClusters s similarity env clusters maxClusters provider).1 =
        rootCause sel (mergedClusters s similarity env clusters provider) ↔
      ∀ d ∈ mergedClusters s similarity env clusters provider,
        ¬KeptByCap maxClusters (mergedClusters s similarity env clusters provider) d →
        ∃ c, KeptByCap maxClusters (mergedClusters s similarity env clusters provider) c ∧
          Beats sel (mergedClusters s similarity env clusters provider) c d :=
  rootCause_capClusters_iff sel maxClusters _

/-! Scores that follow the error groups. -/

section Volume

/-- The logarithm orders counts as they are. -/
def OrdersCounts {F : Type} [Field F] [LinearOrder F] (log : F → F) : Prop :=
  ∀ m n : ℕ, log ((m + 1 : ℕ) : F) ≤ log ((n + 1 : ℕ) : F) ↔ m ≤ n

theorem ordersCounts_log : OrdersCounts Real.log := by
  intro m n
  have hpos : ∀ k : ℕ, (0 : ℝ) < ((k + 1 : ℕ) : ℝ) := fun k => by positivity
  rw [Real.log_le_log_iff (hpos m) (hpos n)]
  simp

/-- The larger error group scores more. -/
def FollowsErrors (sel : Selection K) (merged : List (ClusterData K)) : Prop :=
  ∀ c ∈ merged, ∀ d ∈ merged, candidateScore sel d ≤ candidateScore sel c ↔
    topErrorServiceCount d ≤ topErrorServiceCount c

/-- In exact arithmetic the scores do so with volume as the only weight. -/
theorem followsErrors_of_volume {F : Type} [Field F] [LinearOrder F] [IsStrictOrderedRing F]
    {sel : Selection F} (hlog : OrdersCounts sel.log) (hvolume : 0 < sel.weights.volume)
    (hanomaly : sel.weights.anomaly = 0) (honset : sel.weights.onset = 0)
    (merged : List (ClusterData F)) : FollowsErrors sel merged := by
  have hscore : ∀ c : ClusterData F, candidateScore sel c =
      sel.weights.volume * sel.log ((topErrorServiceCount c + 1 : ℕ) : F) := by
    intro c
    simp [candidateScore, hanomaly, honset]
  intro c _ d _
  rw [hscore, hscore, mul_le_mul_iff_right₀ hvolume, hlog]

/-- With such scores, and error lines in significant clusters only, the cap keeps the root
cause. -/
theorem cap_keeps_root_cause_of_volume {sel : Selection K} (maxClusters : ℤ)
    {merged : List (ClusterData K)} (hscore : FollowsErrors sel merged)
    (herror : ∃ c ∈ merged, 0 < topErrorServiceCount c)
    (hlevels : ∀ c ∈ merged, 0 < topErrorServiceCount c → isSignificant c = true) :
    rootCause sel (capClusters maxClusters merged) = rootCause sel merged := by
  rw [rootCause_capClusters_iff]
  obtain ⟨e, he, hepos⟩ := herror
  obtain ⟨c, hfound⟩ := Option.isSome_iff_exists.mp (List.isSome_maxOn?_of_mem
    (f := fun c : ClusterData K => toLex (candidateKey c, c.importanceScore)) he)
  obtain ⟨hc, hmax⟩ := (maxOn?_eq_some _).mp hfound
  -- the candidate has the largest error group, so error lines
  have htop : ∀ d ∈ merged, topErrorServiceCount d ≤ topErrorServiceCount c := by
    intro d hd
    rcases Prod.Lex.toLex_le_toLex.mp (hmax d hd).1 with hlt | ⟨heq, -⟩
    · rcases Prod.Lex.toLex_lt_toLex.mp hlt with hlt | ⟨heq, -⟩
      · exact hlt.le
      · exact heq.le
    · exact (Prod.mk.inj (toLex.injective heq)).1.le
  have hpos : 0 < topErrorServiceCount c := Nat.lt_of_lt_of_le hepos (htop e he)
  have hkept : KeptByCap maxClusters merged c :=
    ⟨hc, Or.inr ⟨decide_eq_true hpos, hfound⟩⟩
  intro d hd hdropped
  refine ⟨c, hkept, ?_⟩
  have hcstanding : standing c = 3 := by
    simp [standing, hlevels c hc hpos, hpos]
  by_cases hdpos : 0 < topErrorServiceCount d
  · have hdstanding : standing d = 3 := by
      simp [standing, hlevels d hd hdpos, hdpos]
    have hle : primaryKey sel d ≤ primaryKey sel c := by
      rw [primaryKey_le_iff sel (hdstanding.trans hcstanding.symm), if_pos hdpos, if_pos hpos,
        Prod.Lex.toLex_le_toLex, lt_iff_not_ge, hscore d hd c hc, not_le]
      rcases lt_or_eq_of_le (htop d hd) with hlt | heq
      · exact Or.inl hlt
      · have hsame := le_antisymm ((hscore c hc d hd).mpr heq.le) ((hscore d hd c hc).mpr heq.ge)
        refine Or.inr ⟨hsame, ?_⟩
        rcases Prod.Lex.toLex_le_toLex.mp (hmax d hd).1 with hlt | ⟨hkey, himp⟩
        · rcases Prod.Lex.toLex_lt_toLex.mp hlt with hlt | ⟨-, hcount⟩
          · exact absurd heq hlt.ne
          · exact Prod.Lex.toLex_le_toLex.mpr (Or.inl hcount)
        · exact Prod.Lex.toLex_le_toLex.mpr
            (Or.inr ⟨(Prod.mk.inj (toLex.injective hkey)).2, himp⟩)
    rcases lt_or_eq_of_le hle with hlt | heq
    · exact Or.inl hlt
    · refine Or.inr ⟨heq, lt_of_le_of_ne ?_ ?_⟩
      · have hrest := Prod.mk.inj (toLex.injective (Prod.mk.inj (toLex.injective heq)).2)
        have hcount := Prod.mk.inj (toLex.injective hrest.2)
        have htopeq : topErrorServiceCount d = topErrorServiceCount c := by
          have hsame := hrest.1
          rw [if_pos hdpos, if_pos hpos] at hsame
          exact le_antisymm (htop d hd) ((hscore d hd c hc).mp hsame.ge)
        refine (hmax d hd).2 ?_
        unfold candidateKey
        rw [htopeq, hcount.1, hcount.2]
      · intro hidx
        rw [List.idxOf_inj hc] at hidx
        exact hdropped (hidx ▸ hkept)
  · refine Or.inl (primaryKey_lt_of_standing sel ?_)
    rw [hcstanding]
    unfold standing
    rw [if_neg hdpos]
    split <;> omega

end Volume

/-! A weight on anomaly. -/

/-- A cluster of one service whose lines are all errors, with its importance. -/
def errorCluster (fingerprint message : String) (count baselineCount : ℕ) :
    ClusterData Double where
  fingerprint := fingerprint
  representativeMessage := message
  count := count
  services := dictOf [("checkout", count)]
  levels := dictOf [("error", count)]
  levelOrder := ["error"]
  firstSeen := some 10
  lastSeen := some 20
  baselineCount := baselineCount
  changeRatio := computeChangeRatio count baselineCount
  importanceScore := doubleScoring.computeImportanceScore count (dictOf [("error", count)])
    ["error"] (computeChangeRatio count baselineCount) 1 (isTriggerMessage message)
  isTrigger := isTriggerMessage message
  logEntryIds := []
  mergedFingerprints := []
  errorServiceCounts := dictOf [("checkout", count)]

/-- A backend that is not configured. -/
def noEmbeddings : MergeEnvironment Double where
  getSettings := .error (.backend "disabled")
  getEmbeddingsProvider := fun _ => .error (.backend "disabled")

/-- Anomaly weighs as much as volume. -/
def anomalySelection : Selection Double where
  log := Double.log
  weights := ⟨1, 1, 0⟩
  windowStart := some 0
  windowEnd := some 100

/-- The cluster with the most errors, a trigger, with as many lines as before. -/
def loudCluster : ClusterData Double := errorCluster "loud" "pod restarted" 5 5

/-- A cluster with fewer errors, of which there were none before. -/
def oddCluster : ClusterData Double := errorCluster "odd" "connection refused" 4 0

/-- With one cluster to keep, the cap keeps the loud one, and the unusual one is the
root cause of both. -/
theorem anomalous_cluster_capped_out :
    (∃ c ∈ [loudCluster, oddCluster], 0 < topErrorServiceCount c) ∧
    mergedClusters doubleScoring alike noEmbeddings [loudCluster, oddCluster] none =
      [loudCluster, oddCluster] ∧
    rootCause anomalySelection (rankAndMergeClusters doubleScoring alike noEmbeddings
      [loudCluster, oddCluster] 1 none).1 = some loudCluster ∧
    rootCause anomalySelection (mergedClusters doubleScoring alike noEmbeddings
      [loudCluster, oddCluster] none) = some oddCluster ∧
    loudCluster ≠ oddCluster := by
  have hmerged : mergedClusters doubleScoring alike noEmbeddings
      [loudCluster, oddCluster] none = [loudCluster, oddCluster] := rfl
  refine ⟨⟨loudCluster, List.mem_cons_self, by decide +kernel⟩, hmerged, ?_, ?_, ?_⟩
  · decide +kernel
  · rw [hmerged]
    decide +kernel
  · decide +kernel

end Raglogs.CapLaws
