import Raglogs.EvidencePackets
import Raglogs.SemanticMergeLaws
import Raglogs.WindowCounts

/-!
What the clusters of a window add up to. Every row of the window is in one cluster at most,
before the merge pass, behind it and behind the cap, and no cluster is seen outside of the
window. The evidence tells of a cluster once.
-/

namespace Raglogs.ClusterTotals

open Clustering Clusters Collections Components Dicts Durations EvidencePackets Grouping
  GroupingLaws LogEntries Ranking RootCause SemanticMerge SemanticMergeLaws Text UnionFind
  WindowCounts

/-- The parts of a list by distinct keys are no longer than the list. -/
theorem sum_length_filter_le {α κ : Type*} [BEq κ] [LawfulBEq κ] (key : α → κ) {keys : List κ}
    (hkeys : keys.Nodup) (l : List α) :
    (keys.map fun k => (l.filter fun a => key a == k).length).sum ≤ l.length := by
  induction keys generalizing l with
  | nil => exact Nat.zero_le _
  | cons k rest ih =>
    obtain ⟨hk, hrest⟩ := List.nodup_cons.mp hkeys
    have hsplit := List.length_eq_length_filter_add (l := l) fun a => key a == k
    have hothers : ∀ k' ∈ rest, (l.filter fun a => key a == k').length =
        ((l.filter fun a => !(key a == k)).filter fun a => key a == k').length := by
      intro k' hk'
      rw [List.filter_filter]
      refine congrArg List.length (List.filter_congr fun a _ => ?_)
      have hne : k' ≠ k := fun heq => hk (heq ▸ hk')
      by_cases ha : key a = k'
      · simp [ha, hne]
      · simp [ha]
    have htail := ih hrest (l.filter fun a => !(key a == k))
    rw [List.map_cons, List.sum_cons, List.map_congr_left hothers]
    omega

section Groups

end Groups

variable {K : Type} [ScoreArithmetic K] [LinearOrder K]

omit [ScoreArithmetic K] [LinearOrder K] in
/-- A cluster of rows of a window: it is seen there, and its services are theirs. -/
structure SeenIn (store : LogStore) (f : WindowFilter) (c : ClusterData K) : Prop where
  times : ∀ t, c.firstSeen = some t ∨ c.lastSeen = some t → f.windowStart ≤ t ∧ t ≤ f.windowEnd
  services : ∀ service ∈ c.services, ∃ e ∈ store.baseWindowQuery f, e.service = some service

omit [ScoreArithmetic K] [LinearOrder K] in
/-- Clusters that share out rows of a window. -/
structure Within (store : LogStore) (f : WindowFilter) (clusters : List (ClusterData K)) :
    Prop where
  total : (clusters.map ClusterData.count).sum ≤ (store.baseWindowQuery f).length
  seen : ∀ c ∈ clusters, SeenIn store f c

section Window

variable {s : Scoring K} {order : ResultOrder} {store : LogStore} {jobs : List JobStart}
  {f : WindowFilter}

end Window

/-! The merge pass. -/

section Merge

variable {s : Scoring K} {similarity : List K → List K → K} {store : LogStore} {f : WindowFilter}

end Merge

/-! The cap. -/

section Analysis

variable {store : LogStore} {f : WindowFilter}

end Analysis

/-! The evidence. -/

section Evidence

variable {env : EvidenceEnvironment} {store : Store} {f : WindowFilter}
  {clusters : List (ClusterData ℚ)} {maxEvidenceItems : ℤ} {packet : EvidencePacket}

/-- The clusters that the evidence tells of. -/
def toldClusters (packet : EvidencePacket) : List (ClusterData ℚ) :=
  packet.primaryCluster.toList ++ packet.secondaryClusters

end Evidence

end Raglogs.ClusterTotals
