import Raglogs.CapLaws
import Raglogs.MergeOrders
import Raglogs.RankingOrders

/-!
The explanation and the order of the rows. The aggregation returns the groups of a
window in any order, and the levels of a group, and that order runs through the
severity, the merge, the ranking and the choice of the primary cluster. Clusters are
compared up to the order of their row ids and levels. Where no severity depends on the
order in which its shares are added, the outcome is the same for every order exactly
when no tie is left open: across the cap, for the cluster that is rescued, and for
the primary cluster among those kept.
-/

namespace Raglogs.OrderLaws

open Collections Dicts LogEntries Clusters SemanticMerge SemanticMergeLaws Ranking RankingOrders
  RootCause CapLaws MergeOrders

variable {K : Type} [ScoreArithmetic K] [LinearOrder K]

section Pass

variable (s : Scoring K) (similarity : List K → List K → K) (env : MergeEnvironment K)
  (provider : Option (Provider K))

end Pass

/-! Merged clusters, up to the order of their row ids and levels. -/

/-- The groups of a window as another run of the aggregation may give them: in another order,
with the ids and the levels of each in another order, and the importance computed anew. -/
structure Listing (s : Scoring K) (clusters l : List (ClusterData K)) : Prop where
  groups : (l.map outline).Perm (clusters.map outline)
  scored : ∀ c ∈ l, c.importanceScore = s.importanceOf c

omit [LinearOrder K] in
theorem view_eq_of_outline {s : Scoring K} {c c' : ClusterData K} (h : outline c = outline c')
    (hscored : c.importanceScore = s.importanceOf c)
    (hscored' : c'.importanceScore = s.importanceOf c') (hsettled : SumSettled s c') :
    view c = view c' := by
  have horder : c.levelOrder.Perm c'.levelOrder :=
    Multiset.coe_eq_coe.mp (congrArg (fun v : ClusterView K => v.2.2) h)
  have hcount : c.count = c'.count := congrArg (fun v : ClusterView K => v.1.count) h
  have hlevels : c.levels = c'.levels := congrArg (fun v : ClusterView K => v.1.levels) h
  have hratio : c.changeRatio = c'.changeRatio :=
    congrArg (fun v : ClusterView K => v.1.changeRatio) h
  have hservices : c.services = c'.services := congrArg (fun v : ClusterView K => v.1.services) h
  have htrigger : c.isTrigger = c'.isTrigger := congrArg (fun v : ClusterView K => v.1.isTrigger) h
  have himportance : c.importanceScore = c'.importanceScore := by
    rw [hscored, hscored']
    unfold Scoring.importanceOf Scoring.computeImportanceScore
    rw [hcount, hlevels, hratio, hservices, htrigger, hsettled c.levelOrder horder]
  calc view c = ({ (outline c).1 with importanceScore := c.importanceScore }, (outline c).2) := rfl
    _ = ({ (outline c').1 with importanceScore := c'.importanceScore }, (outline c').2) := by
      rw [h, himportance]
    _ = view c' := rfl

omit [LinearOrder K] in
/-- With settled severities another run gives the same clusters. -/
theorem Listing.views {s : Scoring K} {clusters l : List (ClusterData K)}
    (h : Listing s clusters l) (hscored : ∀ c ∈ clusters, c.importanceScore = s.importanceOf c)
    (hsettled : AllSettled s clusters) : (l.map view).Perm (clusters.map view) := by
  obtain ⟨listed, hlisted, hmap⟩ := exists_listed h.groups
  have hviews : listed.map view = l.map view := by
    refine List.ext_getElem? fun i => ?_
    have hget := congrArg (fun l => l[i]?) hmap
    simp only [List.getElem?_map] at hget ⊢
    cases hc : listed[i]? with
    | none =>
      rw [hc, Option.map_none, eq_comm, Option.map_eq_none_iff] at hget
      rw [hget]
    | some c =>
      rw [hc, Option.map_some, eq_comm, Option.map_eq_some_iff] at hget
      obtain ⟨c', hc', houtline⟩ := hget
      have hmem := hlisted.mem_iff.mp (List.mem_of_getElem? hc)
      rw [hc', Option.map_some, Option.map_some, view_eq_of_outline houtline
        (h.scored c' (List.mem_of_getElem? hc')) (hscored c hmem) (hsettled c hmem)]
  rw [← hviews]
  exact hlisted.map view

end Raglogs.OrderLaws
