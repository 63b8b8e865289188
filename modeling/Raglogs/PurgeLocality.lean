import Raglogs.PurgeLaws

/-!
The part of the tables that belongs to a scope: its rows and the rows that refer to
them. What a batch of a scope selects and counts can be told from the part of that scope;
a batch deletes from the part of its scope what it deletes from the tables, and nothing
from the part of another scope.
-/

namespace Raglogs.PurgeLocality

open KeyedTables KeyedTables.Table LogEntries Purge PurgeLaws Retention

section Rows

variable {α : Type} [Expiring α] {key : α → ℕ}

def inScope (scope : String) (row : α) : Bool := Expiring.scope row == scope

theorem inScope_of_due {scope : String} {cutoff : Option Timestamp} (row : α)
    (h : due scope cutoff row) : inScope scope row :=
  beq_iff_eq.mpr (scope_of_due h)

theorem selectDue_restrict (scope : String) (cutoff : Option Timestamp) (limit : ℕ)
    (t : Table key) :
    selectDue scope cutoff limit (t.restrict (inScope scope)) = selectDue scope cutoff limit t :=
  select_restrict inScope_of_due _ limit t

theorem count_due_restrict (scope : String) (cutoff : Option Timestamp) (t : Table key) :
    (t.restrict (inScope scope)).count (due scope cutoff) = t.count (due scope cutoff) :=
  count_restrict_of_imp inScope_of_due t

/-- What is selected for a scope is a key of its rows. -/
theorem mem_keys_of_selectDue {scope : String} {cutoff : Option Timestamp} {limit : ℕ}
    {t : Table key} {i : ℕ} (h : i ∈ selectDue scope cutoff limit t) :
    i ∈ (t.restrict (inScope scope)).keys := by
  obtain ⟨row, hrow, hdue, rfl⟩ := mem_selectDue h
  exact List.mem_map_of_mem (mem_restrict.mpr ⟨hrow, inScope_of_due row hdue⟩)

/-- Rows of two scopes have different keys. -/
theorem keys_disjoint {scope scope' : String} (hne : scope' ≠ scope) {t : Table key} {i : ℕ}
    (h : i ∈ (t.restrict (inScope scope)).keys) : i ∉ (t.restrict (inScope scope')).keys := by
  intro h'
  obtain ⟨a, ha, rfl⟩ := List.mem_map.mp h
  obtain ⟨b, hb, hkey⟩ := List.mem_map.mp h'
  obtain ⟨hmem, hscope⟩ := mem_restrict.mp ha
  obtain ⟨hmem', hscope'⟩ := mem_restrict.mp hb
  rw [eq_of_key hmem' hmem hkey] at hscope'
  exact hne ((beq_iff_eq.mp hscope').symm.trans (beq_iff_eq.mp hscope))

end Rows

/-- The rows of a scope, with the rows that refer to them. -/
def only (scope : String) (s : Store) : Store where
  logEntries := s.logEntries.restrict (inScope scope)
  logEmbeddings := s.logEmbeddings.restrict
    (fun m => (s.logEntries.restrict (inScope scope)).keys.contains m.logEntryId)
  clusterEmbeddings := s.clusterEmbeddings.restrict (inScope scope)
  explanations := s.explanations.restrict (inScope scope)
  clusterRuns := s.clusterRuns.restrict (inScope scope)
  clusters := s.clusters.restrict
    (fun c => (s.clusterRuns.restrict (inScope scope)).keys.contains c.clusterRunId)
  clusterMembers := s.clusterMembers.restrict
    (fun m => (s.logEntries.restrict (inScope scope)).keys.contains m.logEntryId &&
      (s.clusters.restrict (fun c => (s.clusterRuns.restrict (inScope scope)).keys.contains
        c.clusterRunId)).keys.contains m.clusterId)

theorem sweepOf_only (scope : String) (cutoffs : Cutoffs) (limit : ℕ) (s : Store) :
    sweepOf scope cutoffs limit (only scope s) = sweepOf scope cutoffs limit s := by
  simp only [sweepOf, only, selectDue_restrict]

theorem dueCounts_only (scope : String) (cutoffs : Cutoffs) (s : Store) :
    dueCounts scope cutoffs (only scope s) = dueCounts scope cutoffs s := by
  simp only [dueCounts, only, count_due_restrict]

theorem dueCounts_congr {scope : String} {s s' : Store} (h : only scope s = only scope s')
    (cutoffs : Cutoffs) : dueCounts scope cutoffs s = dueCounts scope cutoffs s' := by
  rw [← dueCounts_only, h, dueCounts_only]

/-- Rows that refer to selected keys belong to the scope that they are selected for. -/
theorem counts_only (scope : String) (cutoffs : Cutoffs) (limit : ℕ) (s : Store) :
    (sweepOf scope cutoffs limit s).counts scope limit (only scope s) =
      (sweepOf scope cutoffs limit s).counts scope limit s := by
  have hembeddings : (only scope s).countLogEmbeddings (sweepOf scope cutoffs limit s).entries =
      s.countLogEmbeddings (sweepOf scope cutoffs limit s).entries := by
    refine count_restrict_of_imp (fun m hm => ?_) s.logEmbeddings
    rw [List.contains_iff_mem] at hm ⊢
    exact mem_keys_of_selectDue hm
  have hclusters : (only scope s).countClustersForRuns (sweepOf scope cutoffs limit s).runs =
      s.countClustersForRuns (sweepOf scope cutoffs limit s).runs := by
    refine count_restrict_of_imp (fun c hc => ?_) s.clusters
    rw [List.contains_iff_mem] at hc ⊢
    exact mem_keys_of_selectDue hc
  simp only [Sweep.counts, hembeddings, hclusters]

theorem sweepOf_congr {scope : String} {s s' : Store} (h : only scope s = only scope s')
    (cutoffs : Cutoffs) (limit : ℕ) :
    sweepOf scope cutoffs limit s = sweepOf scope cutoffs limit s' := by
  rw [← sweepOf_only, h, sweepOf_only]

theorem counts_congr {scope : String} {s s' : Store} (h : only scope s = only scope s')
    (cutoffs : Cutoffs) (limit : ℕ) :
    (sweepOf scope cutoffs limit s).counts scope limit s =
      (sweepOf scope cutoffs limit s').counts scope limit s' := by
  rw [← counts_only, h, sweepOf_congr h, counts_only]

/-- The clusters of deleted runs, in the part of a scope. -/
theorem clustersOf_only {scope : String} (runs : List ℕ) {s : Store} {i : ℕ}
    (hi : i ∈ (only scope s).clusters.keys) :
    i ∈ (only scope s).clustersOf runs ↔ i ∈ s.clustersOf runs := by
  obtain ⟨a, ha, rfl⟩ := List.mem_map.mp hi
  constructor
  · intro h
    obtain ⟨b, hb, hkey⟩ := List.mem_map.mp h
    obtain ⟨hmem, hrun⟩ := mem_restrict.mp hb
    rw [← hkey]
    exact List.mem_map_of_mem (mem_restrict.mpr ⟨(mem_restrict.mp hmem).1, hrun⟩)
  · intro h
    obtain ⟨b, hb, hkey⟩ := List.mem_map.mp h
    obtain ⟨hmem, hrun⟩ := mem_restrict.mp hb
    rw [eq_of_key hmem (mem_restrict.mp ha).1 hkey] at hrun
    exact List.mem_map_of_mem (mem_restrict.mpr ⟨ha, hrun⟩)

/-- Deleting some clusters leaves the keys of the others. -/
theorem mem_clusters_deleteRuns {runs : List ℕ} {s : Store} {i : ℕ} :
    i ∈ (s.deleteClusterRuns runs).clusters.keys ↔
      i ∈ s.clusters.keys ∧ i ∉ s.clustersOf runs := by
  have hgone := gone_restrict (fun c => !runs.contains c.clusterRunId) s.clusters i
  simp only [Bool.not_not] at hgone
  have hiff : (i ∈ s.clusters.keys ∧ i ∉ (s.deleteClusterRuns runs).clusters.keys) ↔
      i ∈ s.clustersOf runs := by
    rw [← gone_iff, ← List.contains_iff_mem]
    exact Bool.eq_iff_iff.mp hgone
  have hsub : i ∈ (s.deleteClusterRuns runs).clusters.keys → i ∈ s.clusters.keys :=
    keys_subset List.filter_sublist
  tauto

/-- Cutting down to a scope and deleting can be done in either order. -/
theorem only_delete (scope : String) (w : Sweep) (s : Store) :
    only scope (w.delete s) = w.delete (only scope s) := by
  have hclusters : (only scope (w.delete s)).clusters = (w.delete (only scope s)).clusters :=
    cascade_restrict w.runs (inScope scope) s.clusterRuns Cluster.clusterRunId s.clusters
  refine Store.ext ?_ ?_ ?_ ?_ ?_ hclusters ?_
  · exact (deleteBy_restrict StoredEntry.id w.entries (inScope scope) s.logEntries).symm
  · exact cascade_restrict w.entries (inScope scope) s.logEntries LogEmbedding.logEntryId
      s.logEmbeddings
  · exact (deleteBy_restrict _ w.embeddings (inScope scope) s.clusterEmbeddings).symm
  · exact (deleteBy_restrict _ w.explanations (inScope scope) s.explanations).symm
  · exact (deleteBy_restrict _ w.runs (inScope scope) s.clusterRuns).symm
  · have hleft : (only scope (w.delete s)).clusterMembers =
        ((s.clusterMembers.deleteBy ClusterMember.logEntryId w.entries).deleteBy
          ClusterMember.clusterId (s.clustersOf w.runs)).restrict
            (fun m => (only scope (w.delete s)).logEntries.keys.contains m.logEntryId &&
              (only scope (w.delete s)).clusters.keys.contains m.clusterId) := rfl
    have hright : (w.delete (only scope s)).clusterMembers =
        ((s.clusterMembers.restrict (fun m =>
          (only scope s).logEntries.keys.contains m.logEntryId &&
            (only scope s).clusters.keys.contains m.clusterId)).deleteBy ClusterMember.logEntryId
            w.entries).deleteBy ClusterMember.clusterId ((only scope s).clustersOf w.runs) := rfl
    rw [hleft, hright]
    simp only [deleteBy, restrict_and]
    refine restrict_congr (fun m _ => ?_)
    have hentry : m.logEntryId ∈ (only scope (w.delete s)).logEntries.keys ↔
        m.logEntryId ∈ (only scope s).logEntries.keys ∧ m.logEntryId ∉ w.entries := by
      have heq : (only scope (w.delete s)).logEntries =
          (only scope s).logEntries.deleteBy StoredEntry.id w.entries :=
        (deleteBy_restrict StoredEntry.id w.entries (inScope scope) s.logEntries).symm
      rw [heq, mem_keys_deleteBy]
    have hcluster : m.clusterId ∈ (only scope (w.delete s)).clusters.keys ↔
        m.clusterId ∈ (only scope s).clusters.keys ∧
          m.clusterId ∉ (only scope s).clustersOf w.runs := by
      rw [hclusters]
      exact mem_clusters_deleteRuns (s := only scope s)
    have hsame : m.clusterId ∈ (only scope s).clusters.keys →
        (m.clusterId ∈ (only scope s).clustersOf w.runs ↔ m.clusterId ∈ s.clustersOf w.runs) :=
      clustersOf_only w.runs
    rw [Bool.eq_iff_iff]
    simp only [Bool.and_eq_true, Bool.not_eq_true', List.contains_eq_mem, decide_eq_true_eq,
      decide_eq_false_iff_not, hentry, hcluster]
    tauto

theorem delete_congr {scope : String} {s s' : Store} (h : only scope s = only scope s')
    (cutoffs : Cutoffs) (limit : ℕ) :
    only scope ((sweepOf scope cutoffs limit s).delete s) =
      only scope ((sweepOf scope cutoffs limit s').delete s') := by
  rw [only_delete, only_delete, h, sweepOf_congr h]

/-- A batch of one scope leaves the part of another one as it is. -/
theorem delete_only_of_ne {scope scope' : String} (hne : scope' ≠ scope) (cutoffs : Cutoffs)
    (limit : ℕ) (s : Store) :
    (sweepOf scope cutoffs limit s).delete (only scope' s) = only scope' s := by
  have hentries : ∀ i ∈ (only scope' s).logEntries.keys,
      i ∉ (sweepOf scope cutoffs limit s).entries := fun i hi hsel =>
    keys_disjoint hne (mem_keys_of_selectDue hsel) hi
  have hembeddings : ∀ i ∈ (only scope' s).clusterEmbeddings.keys,
      i ∉ (sweepOf scope cutoffs limit s).embeddings := fun i hi hsel =>
    keys_disjoint hne (mem_keys_of_selectDue hsel) hi
  have hexplanations : ∀ i ∈ (only scope' s).explanations.keys,
      i ∉ (sweepOf scope cutoffs limit s).explanations := fun i hi hsel =>
    keys_disjoint hne (mem_keys_of_selectDue hsel) hi
  have hruns : ∀ i ∈ (only scope' s).clusterRuns.keys,
      i ∉ (sweepOf scope cutoffs limit s).runs := fun i hi hsel =>
    keys_disjoint hne (mem_keys_of_selectDue hsel) hi
  generalize sweepOf scope cutoffs limit s = w at hentries hembeddings hexplanations hruns
  have hclusters : ∀ c ∈ (only scope' s).clusters.rows, c.clusterRunId ∉ w.runs := by
    intro c hc
    exact hruns _ (List.contains_iff_mem.mp (mem_restrict.mp hc).2)
  have hnone : (only scope' s).clustersOf w.runs = [] := by
    refine List.eq_nil_iff_forall_not_mem.mpr (fun i hi => ?_)
    obtain ⟨c, hc, _⟩ := List.mem_map.mp hi
    obtain ⟨hmem, hrun⟩ := mem_restrict.mp hc
    exact hclusters c hmem (List.contains_iff_mem.mp hrun)
  have hmembers : ∀ m ∈ (only scope' s).clusterMembers.rows, m.logEntryId ∉ w.entries := by
    intro m hm
    have hboth := (mem_restrict.mp hm).2
    rw [Bool.and_eq_true] at hboth
    exact hentries _ (List.contains_iff_mem.mp hboth.1)
  refine Store.ext ?_ ?_ ?_ ?_ ?_ ?_ ?_
  · exact deleteBy_of_none (fun e he => hentries _ (List.mem_map_of_mem he))
  · exact deleteBy_of_none
      (fun m hm => hentries _ (List.contains_iff_mem.mp (mem_restrict.mp hm).2))
  · exact deleteBy_of_none (fun e he => hembeddings _ (List.mem_map_of_mem he))
  · exact deleteBy_of_none (fun e he => hexplanations _ (List.mem_map_of_mem he))
  · exact deleteBy_of_none (fun r hr => hruns _ (List.mem_map_of_mem hr))
  · exact deleteBy_of_none hclusters
  · have heq : (w.delete (only scope' s)).clusterMembers =
        ((only scope' s).clusterMembers.deleteBy ClusterMember.logEntryId w.entries).deleteBy
          ClusterMember.clusterId ((only scope' s).clustersOf w.runs) := rfl
    rw [heq, hnone, deleteBy_nil]
    exact deleteBy_of_none hmembers

end Raglogs.PurgeLocality
