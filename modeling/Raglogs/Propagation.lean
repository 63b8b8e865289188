import Mathlib.Algebra.Order.BigOperators.Group.List
import Mathlib.Algebra.Order.Field.Basic
import Mathlib.Analysis.Complex.Trigonometric
import Mathlib.Data.Finset.Max
import Mathlib.Data.Prod.Lex
import Mathlib.Tactic.Linarith
import Raglogs.ServiceGraphs

/-!
Candidates for a root cause, ranked again along the service graph. A service that fails
before its neighbours goes up and one that fails after them goes down, within a share of
its score; what error spans call may be added on top. The numbers are those of an ordered
field, and of the function that squashes an adjustment only its bounds are known.
-/

namespace Raglogs.Propagation

open Collections Dicts Linkage ServiceGraphs

/-- A function that squashes any adjustment into the unit interval around zero. -/
structure Squash (K : Type) [Field K] [LinearOrder K] where
  tanh : K → K
  le_one : ∀ x, tanh x ≤ 1
  neg_one_le : ∀ x, -1 ≤ tanh x
  tanh_zero : tanh 0 = 0

structure RootCauseCandidate (K : Type) where
  service : String
  score : K
  logErr : K
deriving DecidableEq

variable {K : Type} [Field K] [LinearOrder K]

/-- A value of a mapping, or zero. -/
def valueOf (d : Dict String K) (s : String) : K := (d.lookup s).getD 0

/-- The largest value of a mapping, or zero. -/
def largest (d : Dict String K) : K := (d.keys.image (valueOf d)).max.unbotD 0

/-- A number, or one instead of zero. -/
def orOne (x : K) : K := if x = 0 then 1 else x

/-- What a caller may set; without a boost the mapping is empty. -/
structure Options (K : Type) where
  dependencyBoost : Dict String K
  dependencyGamma : K
  blend : K
  proximityDecay : K
  minOnsetGap : K
  directionWeight : K
  maxHops : ℤ

def Options.default : Options K where
  dependencyBoost := ∅
  dependencyGamma := 1
  blend := 1 / ((4 : ℕ) : K)
  proximityDecay := 1 / ((2 : ℕ) : K)
  minOnsetGap := 1
  directionWeight := 0
  maxHops := 2

/-- The highest score first, services in the order of their names among equals. -/
def rank (scored : List (String × K)) : List (String × K) :=
  sortOn (fun t : String × K => toLex (-t.2, t.1)) scored

section Scores

variable (order : SetOrder) (squash : Squash K) (g : ServiceGraph) (onset anomaly : Dict String K)
  (o : Options K)

/-- The edge between two services when their onsets say nothing: a callee goes up. -/
def directionTerm (s n : String) (w : K) : K :=
  if o.directionWeight = 0 then 0
  else if (n, s) ∈ g.edges then o.directionWeight * w
  else if (s, n) ∈ g.edges then -(o.directionWeight * w)
  else 0

/-- What a neighbour some hops away does to the adjustment of a service. -/
def contribution (anomalous : Finset String) (maxMag : K) (s : String) (hop : String × ℕ) : K :=
  if hop.1 ∉ anomalous then 0
  else
    let w := o.proximityDecay ^ (hop.2 - 1) * (valueOf anomaly hop.1 / maxMag)
    match onset.lookup s, onset.lookup hop.1 with
    | some os, some on =>
        if o.minOnsetGap < |on - os| then if os < on then w else -w
        else directionTerm g o s hop.1 w
    | _, _ => directionTerm g o s hop.1 w

def adjustment (anomalous : Finset String) (maxMag : K) (s : String) : K :=
  (((undirectedHops order g s o.maxHops).getD []).map
    (contribution g onset anomaly o anomalous maxMag s)).sum

/-- The score of a service with both terms. -/
def adjustedScore (anomalous : Finset String) (maxMag depMax : K) (t : String × K) : K :=
  let score :=
    if 2 ≤ anomalous.card ∧ t.1 ∈ anomalous then
      t.2 * (1 + o.blend * squash.tanh (adjustment order g onset anomaly o anomalous maxMag t.1))
    else t.2
  if o.dependencyBoost = ∅ then score
  else score + o.dependencyGamma * (valueOf o.dependencyBoost t.1 / depMax)

/-- The scored services that show an anomaly. -/
def anomalousServices (scored : List (String × K)) : Finset String :=
  (scored.map Prod.fst).toFinset.filter fun s => 0 < valueOf anomaly s

/-- Rank scored services again by the two signals of the graph. -/
def propagationScores (scored : List (String × K)) : List (String × K) :=
  if g.services = ∅ ∨ scored.length < 2 then rank scored
  else
    let depMax := orOne (largest o.dependencyBoost)
    let anomalous := anomalousServices anomaly scored
    if ¬ 2 ≤ anomalous.card ∧ o.dependencyBoost = ∅ then rank scored
    else
      let maxMag := orOne ((anomalous.image (valueOf anomaly)).max.unbotD 0)
      rank (scored.map fun t =>
        (t.1, adjustedScore order squash g onset anomaly o anomalous maxMag depMax t))

end Scores

/-- Rank candidates again; their scores stay. Without an anomaly mapping the log errors of
the candidates are one. -/
def rerankCandidates (order : SetOrder) (squash : Squash K)
    (candidates : List (RootCauseCandidate K)) (g : ServiceGraph) (onset : Dict String K)
    (anomaly : Option (Dict String K)) (o : Options K) : List (RootCauseCandidate K) :=
  let anomaly := anomaly.getD (dictOf (candidates.map fun c => (c.service, c.logErr)))
  let scored := candidates.map fun c => (c.service, c.score)
  (propagationScores order squash g onset anomaly o scored).filterMap fun t =>
    candidates.reverse.find? fun c => c.service == t.1

/-! How far a candidate can move. -/

section Moves

variable {order : SetOrder} {squash : Squash K} {g : ServiceGraph} {onset : Dict String K}
  {anomaly : Option (Dict String K)} {o : Options K} {candidates : List (RootCauseCandidate K)}

omit [Field K] [LinearOrder K] in
/-- A candidate with an unshared service is found by it. -/
theorem find?_service (hnodup : (candidates.map RootCauseCandidate.service).Nodup)
    {c : RootCauseCandidate K} (hc : c ∈ candidates) :
    candidates.reverse.find? (fun d => d.service == c.service) = some c := by
  have hfound : (candidates.reverse.find? fun d => d.service == c.service).isSome = true :=
    List.find?_isSome.mpr ⟨c, List.mem_reverse.mpr hc, beq_self_eq_true c.service⟩
  obtain ⟨d, hd⟩ := Option.isSome_iff_exists.mp hfound
  have hservice : d.service = c.service := by simpa using List.find?_some hd
  have hmem : d ∈ candidates := List.mem_reverse.mp (List.mem_of_find?_eq_some hd)
  rw [hd, List.inj_on_of_nodup_map hnodup hmem hc hservice]

/-- The candidates of ranked services are the ranked candidates. -/
theorem filterMap_rank (hnodup : (candidates.map RootCauseCandidate.service).Nodup)
    (score : RootCauseCandidate K → K) :
    (rank (candidates.map fun c => (c.service, score c))).filterMap
        (fun t => candidates.reverse.find? fun c => c.service == t.1) =
      sortOn (fun c => toLex (-score c, c.service)) candidates := by
  rw [rank, sortOn_map (fun c => toLex (-score c, c.service))
    (fun t : String × K => toLex (-t.2, t.1)) (fun c => (c.service, score c)) fun _ => rfl,
    List.filterMap_map]
  have hsome : ∀ c ∈ sortOn (fun c => toLex (-score c, c.service)) candidates,
      candidates.reverse.find? (fun d => d.service == c.service) = some c := fun c hc =>
    find?_service hnodup ((mem_sortOn _).mp hc)
  exact (List.filterMap_congr hsome).trans List.filterMap_some

variable (anomaly candidates) in
/-- The magnitudes that a ranking goes by. -/
def magnitudes : Dict String K :=
  anomaly.getD (dictOf (candidates.map fun c => (c.service, c.logErr)))

variable (anomaly candidates) in
def anomalousCandidates : Finset String :=
  anomalousServices (magnitudes anomaly candidates) (candidates.map fun c => (c.service, c.score))

variable (g anomaly o candidates) in
/-- Whether the scores are taken as they are. -/
def Kept : Prop :=
  (g.services = ∅ ∨ candidates.length < 2) ∨
    (¬ 2 ≤ (anomalousCandidates anomaly candidates).card ∧ o.dependencyBoost = ∅)

instance : Decidable (Kept g anomaly o candidates) :=
  inferInstanceAs (Decidable ((_ ∨ _) ∨ (_ ∧ _)))

variable (order squash g onset anomaly o candidates) in
/-- The score that a candidate is ranked by. -/
def finalScore (c : RootCauseCandidate K) : K :=
  if Kept g anomaly o candidates then c.score
  else
    adjustedScore order squash g onset (magnitudes anomaly candidates) o
      (anomalousCandidates anomaly candidates)
      (orOne (((anomalousCandidates anomaly candidates).image
        (valueOf (magnitudes anomaly candidates))).max.unbotD 0))
      (orOne (largest o.dependencyBoost)) (c.service, c.score)

theorem propagationScores_eq :
    propagationScores order squash g onset (magnitudes anomaly candidates) o
        (candidates.map fun c => (c.service, c.score)) =
      rank (candidates.map fun c =>
        (c.service, finalScore order squash g onset anomaly o candidates c)) := by
  rw [propagationScores, List.length_map]
  by_cases hearly : g.services = ∅ ∨ candidates.length < 2
  · have hfinal : ∀ c, finalScore order squash g onset anomaly o candidates c = c.score :=
      fun c => if_pos (Or.inl hearly)
    rw [if_pos hearly]
    simp only [hfinal]
  · rw [if_neg hearly]
    by_cases hquiet : ¬ 2 ≤ (anomalousCandidates anomaly candidates).card ∧ o.dependencyBoost = ∅
    · have hfinal : ∀ c, finalScore order squash g onset anomaly o candidates c = c.score :=
        fun c => if_pos (Or.inr hquiet)
      simp only [hfinal]
      exact if_pos hquiet
    · have hfinal : ∀ c, finalScore order squash g onset anomaly o candidates c = _ :=
        fun c => if_neg (not_or.mpr ⟨hearly, hquiet⟩)
      simp only [hfinal]
      refine (if_neg hquiet).trans ?_
      rw [List.map_map]
      rfl

/-- The candidates come back in the order of their final scores and names. -/
theorem rerankCandidates_eq (hnodup : (candidates.map RootCauseCandidate.service).Nodup) :
    rerankCandidates order squash candidates g onset anomaly o =
      sortOn (fun c => toLex (-finalScore order squash g onset anomaly o candidates c, c.service))
        candidates := by
  rw [← filterMap_rank hnodup, ← propagationScores_eq]
  rfl

/-- Of two elements the one with the smaller key comes first. -/
theorem sublist_sortOn {α κ : Type*} [LinearOrder κ] {key : α → κ} {l : List α} {a b : α}
    (ha : a ∈ l) (hb : b ∈ l) (hlt : key a < key b) : [a, b].Sublist (sortOn key l) := by
  have hsorted := sortOn_pairwise key l
  obtain ⟨before, after, hsplit⟩ := List.append_of_mem ((mem_sortOn key).mpr ha)
  have hmem : b ∈ before ++ a :: after := hsplit ▸ (mem_sortOn key).mpr hb
  rw [hsplit, List.pairwise_append] at hsorted
  rw [hsplit]
  rcases List.mem_append.mp hmem with hmem | hmem
  · exact absurd (hsorted.2.2 b hmem a List.mem_cons_self) (not_le_of_gt hlt)
  · rcases List.mem_cons.mp hmem with rfl | hmem
    · exact absurd hlt (lt_irrefl _)
    · exact ((List.singleton_sublist.mpr hmem).cons_cons a).trans (List.sublist_append_right _ _)

variable [IsStrictOrderedRing K]

/-- Without a boost a score moves by no more than its share. -/
theorem finalScore_bounds (hboost : o.dependencyBoost = ∅) (hblend : 0 ≤ o.blend)
    {c : RootCauseCandidate K} (hscore : 0 ≤ c.score) :
    c.score * (1 - o.blend) ≤ finalScore order squash g onset anomaly o candidates c ∧
      finalScore order squash g onset anomaly o candidates c ≤ c.score * (1 + o.blend) := by
  have hkept : c.score * (1 - o.blend) ≤ c.score ∧ c.score ≤ c.score * (1 + o.blend) := by
    have hshare := mul_nonneg hscore hblend
    rw [mul_sub, mul_add, mul_one]
    exact ⟨by linarith, by linarith⟩
  have hmoved : ∀ x : K, c.score * (1 - o.blend) ≤ c.score * (1 + o.blend * squash.tanh x) ∧
      c.score * (1 + o.blend * squash.tanh x) ≤ c.score * (1 + o.blend) := by
    intro x
    have hle := mul_le_mul_of_nonneg_left (squash.le_one x) hblend
    have hge := mul_le_mul_of_nonneg_left (squash.neg_one_le x) hblend
    rw [mul_neg_one] at hge
    rw [mul_one] at hle
    exact ⟨mul_le_mul_of_nonneg_left (by linarith) hscore,
      mul_le_mul_of_nonneg_left (by linarith) hscore⟩
  rw [finalScore]
  split
  · exact hkept
  · simp only [adjustedScore, if_pos hboost]
    split
    · exact hmoved _
    · exact hkept

omit [IsStrictOrderedRing K] in
/-- Without onsets and without a boost a score does not move. -/
theorem finalScore_of_quiet (hboost : o.dependencyBoost = ∅) (hdirection : o.directionWeight = 0)
    (honset : ∀ s, onset.lookup s = none) (c : RootCauseCandidate K) :
    finalScore order squash g onset anomaly o candidates c = c.score := by
  have hdirectionTerm : ∀ s n w, directionTerm g o s n w = 0 := fun s n w => if_pos hdirection
  have hcontribution : ∀ anomaly' anomalous maxMag s hop,
      contribution g onset anomaly' o anomalous maxMag s hop = 0 := by
    intro anomaly' anomalous maxMag s hop
    rw [contribution]
    split
    · rfl
    · simp only [honset, hdirectionTerm]
  have hadjustment : ∀ anomaly' anomalous maxMag s,
      adjustment order g onset anomaly' o anomalous maxMag s = 0 := by
    intro anomaly' anomalous maxMag s
    refine List.sum_eq_zero ?_
    intro x hx
    obtain ⟨hop, -, rfl⟩ := List.mem_map.mp hx
    exact hcontribution _ _ _ _ _
  rw [finalScore]
  split
  · rfl
  · simp only [adjustedScore, if_pos hboost, hadjustment, squash.tanh_zero, mul_zero, add_zero,
      mul_one, ite_self]

end Moves

/-- The reranker is conservative. -/
theorem rerank_conservative [IsStrictOrderedRing K] (order : SetOrder) (squash : Squash K)
    (candidates : List (RootCauseCandidate K)) (g : ServiceGraph) (onset : Dict String K)
    (anomaly : Option (Dict String K)) (o : Options K)
    (hnodup : (candidates.map RootCauseCandidate.service).Nodup)
    (hblend : 0 ≤ o.blend ∧ o.blend ≤ 1) (hdirection : o.directionWeight = 0) :
    (rerankCandidates order squash candidates g onset anomaly o).Perm candidates ∧
      (o.dependencyBoost = ∅ → (∀ c ∈ candidates, 0 ≤ c.score) →
        ∀ a ∈ candidates, ∀ b ∈ candidates,
          b.score * (1 + o.blend) < a.score * (1 - o.blend) →
            [a, b].Sublist (rerankCandidates order squash candidates g onset anomaly o)) ∧
        ((g.services = ∅ ∨ candidates.length < 2 ∨ (onset = ∅ ∧ o.dependencyBoost = ∅)) →
          rerankCandidates order squash candidates g onset anomaly o =
            sortOn (fun c => toLex (-c.score, c.service)) candidates) := by
  rw [rerankCandidates_eq hnodup]
  refine ⟨sortOn_perm _ _, ?_, ?_⟩
  · intro hboost hscores a ha b hb hlt
    have hlow : a.score * (1 - o.blend) ≤
        finalScore order squash g onset anomaly o candidates a :=
      (finalScore_bounds hboost hblend.1 (hscores a ha)).1
    have hhigh : finalScore order squash g onset anomaly o candidates b ≤
        b.score * (1 + o.blend) :=
      (finalScore_bounds hboost hblend.1 (hscores b hb)).2
    refine sublist_sortOn ha hb (Prod.Lex.toLex_lt_toLex.mpr (.inl ?_))
    exact neg_lt_neg (lt_of_le_of_lt hhigh (lt_of_lt_of_le hlt hlow))
  · intro hcase
    have hsame : ∀ c, finalScore order squash g onset anomaly o candidates c = c.score := by
      intro c
      rcases hcase with hempty | hfew | ⟨honset, hboost⟩
      · exact if_pos (.inl (.inl hempty))
      · exact if_pos (.inl (.inr hfew))
      · exact finalScore_of_quiet hboost hdirection (fun s => honset ▸ Finmap.lookup_empty s) c
    simp only [hsame]

/-- Sets in the order of the names. -/
def byName : SetOrder where
  toList s := SortedDicts.inOrder s
  nodup s := SortedDicts.inOrder_nodup s
  mem_toList _ _ := SortedDicts.mem_inOrder

noncomputable def realSquash : Squash ℝ where
  tanh := Real.tanh
  le_one x := (Real.tanh_lt_one x).le
  neg_one_le x := (Real.neg_one_lt_tanh x).le
  tanh_zero := Real.tanh_zero

/-- A candidate with twice the score stays in front, whatever the onsets say. -/
theorem rerank_conservative_of_gap :
    [(⟨"store", 2, 1⟩ : RootCauseCandidate ℝ), ⟨"batch", 1, 1⟩].Sublist
      (rerankCandidates byName realSquash [⟨"batch", 1, 1⟩, ⟨"store", 2, 1⟩]
        ⟨{("store", "batch")}, {"store", "batch"}⟩ (dictOf [("batch", 0), ("store", 5)]) none
        Options.default) := by
  have h := rerank_conservative byName realSquash
    [(⟨"batch", 1, 1⟩ : RootCauseCandidate ℝ), ⟨"store", 2, 1⟩]
    ⟨{("store", "batch")}, {"store", "batch"}⟩ (dictOf [("batch", 0), ("store", 5)]) none
    Options.default (by decide) (by norm_num [Options.default]) rfl
  refine h.2.1 rfl ?_ _ (by simp) _ (by simp) ?_
  · simp
  · norm_num [Options.default]

end Raglogs.Propagation
