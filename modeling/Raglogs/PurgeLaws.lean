import Mathlib.Algebra.Group.Prod
import Raglogs.Purge

/-!
What one batch of a purge does. A batch is a sweep: the keys that it selects in each
table, what it deletes with them and what it counts. It reaps due rows of its scope up
to the limit, the foreign keys take only rows that refer to deleted ones, and the counts
are the differences of the sizes. Whatever it does can be told from the rows of its scope.
-/

namespace Raglogs.PurgeLaws

open KeyedTables KeyedTables.Table LogEntries Purge Retention

section Due

variable {α : Type} [Expiring α] {key : α → ℕ}

/-- Whether a row of a scope is expired, unless its tier is disabled. -/
def due (scope : String) (cutoff : Option Timestamp) (row : α) : Bool :=
  cutoff.elim false (fun cutoff => expired scope cutoff row)

/-- The keys that a batch selects in a table. -/
def selectDue (scope : String) (cutoff : Option Timestamp) (limit : ℕ) (t : Table key) : List ℕ :=
  t.select (due scope cutoff) (fun row => toLex (Expiring.expiry row, key row)) limit

theorem due_some (scope : String) (cutoff : Timestamp) (row : α) :
    due scope (some cutoff) row = expired scope cutoff row := rfl

theorem scope_of_due {scope : String} {cutoff : Option Timestamp} {row : α}
    (h : due scope cutoff row) : Expiring.scope row = scope := by
  cases cutoff with
  | none => cases h
  | some cutoff =>
    rw [due_some, expired, Bool.and_eq_true, beq_iff_eq] at h
    exact h.1

theorem selectDue_none (scope : String) (limit : ℕ) (t : Table key) :
    selectDue scope none limit t = [] := by
  have hzero : t.count (due scope none) = 0 := count_eq_zero.mpr (fun _ _ => Bool.false_ne_true)
  refine List.eq_nil_of_length_eq_zero ?_
  rw [selectDue, length_select, hzero, Nat.min_zero]

theorem length_selectDue (scope : String) (cutoff : Option Timestamp) (limit : ℕ)
    (t : Table key) :
    (selectDue scope cutoff limit t).length = min limit (t.count (due scope cutoff)) :=
  length_select _ _ limit t

theorem mem_selectDue {scope : String} {cutoff : Option Timestamp} {limit : ℕ} {t : Table key}
    {i : ℕ} (h : i ∈ selectDue scope cutoff limit t) :
    ∃ row ∈ t.rows, due scope cutoff row ∧ key row = i :=
  mem_select h

end Due

/-! Sweeps. -/

/-- The keys that a batch selects. -/
structure Sweep where
  entries : List ℕ
  embeddings : List ℕ
  explanations : List ℕ
  runs : List ℕ

/-- The sweep of a batch. -/
def sweepOf (scope : String) (cutoffs : Cutoffs) (limit : ℕ) (s : Store) : Sweep where
  entries := selectDue scope cutoffs.raw limit s.logEntries
  embeddings := selectDue scope cutoffs.summary limit s.clusterEmbeddings
  explanations := selectDue scope cutoffs.summary limit s.explanations
  runs := selectDue scope cutoffs.summary limit s.clusterRuns

namespace Sweep

/-- Delete the selected rows and those that refer to them. -/
def delete (w : Sweep) (s : Store) : Store :=
  (((s.deleteLogEntries w.entries).deleteClusterEmbeddings w.embeddings).deleteExplanations
    w.explanations).deleteClusterRuns w.runs

def isFull (limit : ℕ) (w : Sweep) : Bool :=
  decide (limit ≤ w.entries.length) || decide (limit ≤ w.embeddings.length) ||
    decide (limit ≤ w.explanations.length) || decide (limit ≤ w.runs.length)

def counts (scope : String) (limit : ℕ) (w : Sweep) (s : Store) : PurgeCounts where
  raw := w.entries.length
  summary := w.explanations.length + (w.runs.length + s.countClustersForRuns w.runs)
  embedding := s.countLogEmbeddings w.entries + w.embeddings.length
  scopes := [scope]
  moreRemaining := w.isFull limit

end Sweep

/-! The chunks are a sweep. -/

theorem deleteLogEntries_nil (s : Store) : s.deleteLogEntries [] = s := by
  simp only [Store.deleteLogEntries, deleteBy_nil]

theorem deleteClusterEmbeddings_nil (s : Store) : s.deleteClusterEmbeddings [] = s := by
  simp only [Store.deleteClusterEmbeddings, deleteBy_nil]

theorem deleteExplanations_nil (s : Store) : s.deleteExplanations [] = s := by
  simp only [Store.deleteExplanations, deleteBy_nil]

theorem clustersOf_nil (s : Store) : s.clustersOf [] = [] := by
  simp [Store.clustersOf, keys]

theorem deleteClusterRuns_nil (s : Store) : s.deleteClusterRuns [] = s := by
  simp only [Store.deleteClusterRuns, clustersOf_nil, deleteBy_nil]

/-- A change of the store and of nothing but the counters of metrics beside it. -/
def Sweeps (f : Store → Store) (db db' : PurgeDb) : Prop :=
  ∃ purged, db' = { db with store := f db.store, purgedRows := purged }

theorem sweeps_refl (db : PurgeDb) : Sweeps id db db := ⟨db.purgedRows, rfl⟩

theorem Sweeps.trans {f g : Store → Store} {db₁ db₂ db₃ : PurgeDb} (h₁ : Sweeps f db₁ db₂)
    (h₂ : Sweeps g db₂ db₃) : Sweeps (fun s => g (f s)) db₁ db₃ := by
  obtain ⟨purged₁, rfl⟩ := h₁
  obtain ⟨purged₂, rfl⟩ := h₂
  exact ⟨purged₂, rfl⟩

theorem Sweeps.record {f : Store → Store} {db db' : PurgeDb} (h : Sweeps f db db') (kind : String)
    (count : ℕ) : Sweeps f db (record kind count false db') := by
  obtain ⟨purged, rfl⟩ := h
  rw [Purge.record]
  split
  · exact ⟨purged, rfl⟩
  · exact ⟨_, rfl⟩

theorem sweeps_delete (f : Store → Store) (db : PurgeDb) : Sweeps f db (db.delete false f) :=
  ⟨db.purgedRows, rfl⟩

variable (scope : String) {limit : ℕ}

theorem purgeRawChunk_sweeps (hlimit : 0 < limit) (cutoff : Timestamp) (db : PurgeDb) :
    ∃ db', purgeRawChunk scope cutoff limit false db =
        (⟨(selectDue scope (some cutoff) limit db.store.logEntries).length, 0,
          db.store.countLogEmbeddings (selectDue scope (some cutoff) limit db.store.logEntries), [],
          decide (limit ≤ (selectDue scope (some cutoff) limit db.store.logEntries).length)⟩, db') ∧
      Sweeps (Store.deleteLogEntries (selectDue scope (some cutoff) limit db.store.logEntries))
        db db' := by
  have hids : db.store.selectExpiredLogEntryIds scope cutoff limit =
      selectDue scope (some cutoff) limit db.store.logEntries := rfl
  rw [purgeRawChunk, hids]
  generalize selectDue scope (some cutoff) limit db.store.logEntries = ids
  cases ids with
  | nil =>
    refine ⟨db, ?_, db.purgedRows, by rw [deleteLogEntries_nil]⟩
    have hnone : db.store.countLogEmbeddings [] = 0 := count_eq_zero.mpr (by simp)
    simp [PurgeCounts.zero, hnone, hlimit.ne']
  | cons i rest =>
    refine ⟨_, rfl, ?_⟩
    exact (((sweeps_delete _ db).record _ _).record _ _).record _ _

theorem purgeClusterEmbeddings_sweeps (hlimit : 0 < limit) (cutoff : Timestamp)
    (counts : PurgeCounts) (db : PurgeDb) {ids : List ℕ}
    (hids : selectDue scope (some cutoff) limit db.store.clusterEmbeddings = ids) :
    ∃ db', purgeClusterEmbeddings scope cutoff limit false counts db =
        ({ counts with
            embedding := counts.embedding + ids.length
            moreRemaining := counts.moreRemaining || decide (limit ≤ ids.length) }, db') ∧
      Sweeps (Store.deleteClusterEmbeddings ids) db db' := by
  have hselect : db.store.selectExpiredClusterEmbeddingIds scope cutoff limit = ids := hids
  rw [purgeClusterEmbeddings, hselect]
  cases ids with
  | nil =>
    exact ⟨db, by simp [hlimit.ne'], db.purgedRows, by rw [deleteClusterEmbeddings_nil]⟩
  | cons i rest => exact ⟨_, rfl, (sweeps_delete _ db).record _ _⟩

theorem purgeExplanations_sweeps (hlimit : 0 < limit) (cutoff : Timestamp)
    (counts : PurgeCounts) (db : PurgeDb) {ids : List ℕ}
    (hids : selectDue scope (some cutoff) limit db.store.explanations = ids) :
    ∃ db', purgeExplanations scope cutoff limit false counts db =
        ({ counts with
            summary := counts.summary + ids.length
            moreRemaining := counts.moreRemaining || decide (limit ≤ ids.length) }, db') ∧
      Sweeps (Store.deleteExplanations ids) db db' := by
  have hselect : db.store.selectExpiredExplanationIds scope cutoff limit = ids := hids
  rw [purgeExplanations, hselect]
  cases ids with
  | nil =>
    exact ⟨db, by simp [hlimit.ne'], db.purgedRows, by rw [deleteExplanations_nil]⟩
  | cons i rest => exact ⟨_, rfl, (sweeps_delete _ db).record _ _⟩

theorem countClustersForRuns_nil (s : Store) : s.countClustersForRuns [] = 0 :=
  count_eq_zero.mpr (fun _ _ => Bool.false_ne_true)

theorem purgeClusterRuns_sweeps (hlimit : 0 < limit) (cutoff : Timestamp)
    (counts : PurgeCounts) (db : PurgeDb) {ids : List ℕ}
    (hids : selectDue scope (some cutoff) limit db.store.clusterRuns = ids) :
    ∃ db', purgeClusterRuns scope cutoff limit false counts db =
        ({ counts with
            summary := counts.summary + (ids.length + db.store.countClustersForRuns ids)
            moreRemaining := counts.moreRemaining || decide (limit ≤ ids.length) }, db') ∧
      Sweeps (Store.deleteClusterRuns ids) db db' := by
  have hselect : db.store.selectExpiredClusterRunIds scope cutoff limit = ids := hids
  rw [purgeClusterRuns, hselect]
  cases ids with
  | nil =>
    refine ⟨db, ?_, db.purgedRows, by rw [deleteClusterRuns_nil]⟩
    simp [hlimit.ne', countClustersForRuns_nil]
  | cons i rest => exact ⟨_, rfl, (sweeps_delete _ db).record _ _⟩

theorem purgeSummaryChunk_sweeps (hlimit : 0 < limit) (cutoff : Timestamp) (db : PurgeDb)
    {embeddings explanations runs : List ℕ}
    (hembeddings : selectDue scope (some cutoff) limit db.store.clusterEmbeddings = embeddings)
    (hexplanations : selectDue scope (some cutoff) limit db.store.explanations = explanations)
    (hruns : selectDue scope (some cutoff) limit db.store.clusterRuns = runs) :
    ∃ db', purgeSummaryChunk scope cutoff limit false db =
        (⟨0, explanations.length + (runs.length + db.store.countClustersForRuns runs),
          embeddings.length, [], decide (limit ≤ embeddings.length) ||
            decide (limit ≤ explanations.length) || decide (limit ≤ runs.length)⟩, db') ∧
      Sweeps (fun s => ((s.deleteClusterEmbeddings embeddings).deleteExplanations
        explanations).deleteClusterRuns runs) db db' := by
  obtain ⟨db₁, heq₁, hdb₁⟩ :=
    purgeClusterEmbeddings_sweeps scope hlimit cutoff PurgeCounts.zero db hembeddings
  have hexplanations₁ : selectDue scope (some cutoff) limit db₁.store.explanations =
      explanations := by
    obtain ⟨purged, rfl⟩ := hdb₁
    exact hexplanations
  obtain ⟨db₂, heq₂, hdb₂⟩ := purgeExplanations_sweeps scope hlimit cutoff
    { PurgeCounts.zero with
      embedding := 0 + embeddings.length
      moreRemaining := false || decide (limit ≤ embeddings.length) } db₁ hexplanations₁
  have hruns₂ : selectDue scope (some cutoff) limit db₂.store.clusterRuns = runs := by
    obtain ⟨purged, rfl⟩ := hdb₁
    obtain ⟨purged', rfl⟩ := hdb₂
    exact hruns
  have hclusters : db₂.store.countClustersForRuns runs = db.store.countClustersForRuns runs := by
    obtain ⟨purged, rfl⟩ := hdb₁
    obtain ⟨purged', rfl⟩ := hdb₂
    rfl
  obtain ⟨db₃, heq₃, hdb₃⟩ := purgeClusterRuns_sweeps scope hlimit cutoff
    { PurgeCounts.zero with
      summary := 0 + explanations.length
      embedding := 0 + embeddings.length
      moreRemaining := false || decide (limit ≤ embeddings.length) ||
        decide (limit ≤ explanations.length) } db₂ hruns₂
  refine ⟨db₃, ?_, (hdb₁.trans hdb₂).trans hdb₃⟩
  rw [purgeSummaryChunk, heq₁]
  simp only [PurgeCounts.zero] at heq₂ heq₃ ⊢
  rw [heq₂, heq₃, hclusters]
  simp only [Nat.zero_add, Bool.false_or]

theorem countLogEmbeddings_nil (s : Store) : s.countLogEmbeddings [] = 0 :=
  count_eq_zero.mpr (fun _ _ => Bool.false_ne_true)

/-- A tier that is disabled selects nothing, so its chunk can be taken as made. -/
theorem purgeTier_raw (hlimit : 0 < limit) (cutoff : Option Timestamp) (counts : PurgeCounts)
    (db : PurgeDb) {ids : List ℕ} (hids : selectDue scope cutoff limit db.store.logEntries = ids) :
    ∃ db', purgeTier (fun cutoff => purgeRawChunk scope cutoff limit false) cutoff counts db =
        (counts.add ⟨ids.length, 0, db.store.countLogEmbeddings ids, [],
          decide (limit ≤ ids.length)⟩, db') ∧
      Sweeps (Store.deleteLogEntries ids) db db' := by
  subst hids
  cases cutoff with
  | none =>
    refine ⟨db, ?_, db.purgedRows, by rw [selectDue_none, deleteLogEntries_nil]⟩
    simp [purgeTier, selectDue_none, PurgeCounts.add, countLogEmbeddings_nil, hlimit.ne']
  | some cutoff =>
    obtain ⟨db', heq, hdb'⟩ := purgeRawChunk_sweeps scope hlimit cutoff db
    exact ⟨db', by rw [purgeTier, heq], hdb'⟩

theorem purgeTier_summary (hlimit : 0 < limit) (cutoff : Option Timestamp)
    (counts : PurgeCounts) (db : PurgeDb) {embeddings explanations runs : List ℕ}
    (hembeddings : selectDue scope cutoff limit db.store.clusterEmbeddings = embeddings)
    (hexplanations : selectDue scope cutoff limit db.store.explanations = explanations)
    (hruns : selectDue scope cutoff limit db.store.clusterRuns = runs) :
    ∃ db', purgeTier (fun cutoff => purgeSummaryChunk scope cutoff limit false) cutoff counts db =
        (counts.add ⟨0, explanations.length + (runs.length + db.store.countClustersForRuns runs),
          embeddings.length, [], decide (limit ≤ embeddings.length) ||
            decide (limit ≤ explanations.length) || decide (limit ≤ runs.length)⟩, db') ∧
      Sweeps (fun s => ((s.deleteClusterEmbeddings embeddings).deleteExplanations
        explanations).deleteClusterRuns runs) db db' := by
  cases cutoff with
  | none =>
    rw [selectDue_none] at hembeddings hexplanations hruns
    subst hembeddings hexplanations hruns
    refine ⟨db, ?_, db.purgedRows, ?_⟩
    · simp [purgeTier, PurgeCounts.add, countClustersForRuns_nil, hlimit.ne']
    · simp only [deleteClusterEmbeddings_nil, deleteExplanations_nil, deleteClusterRuns_nil]
  | some cutoff =>
    obtain ⟨db', heq, hdb'⟩ :=
      purgeSummaryChunk_sweeps scope hlimit cutoff db hembeddings hexplanations hruns
    exact ⟨db', by rw [purgeTier, heq], hdb'⟩

/-- A batch is a sweep of the scope. -/
theorem purgeScopeBatch_sweeps {lowering : Text.Lowering} {policy : RetentionPolicy}
    {now : Timestamp} {cutoffs : Cutoffs} (hlimit : 0 < limit)
    (hraw : computeCutoff lowering (some policy.rawInterval) now = .ok cutoffs.raw)
    (hsummary : computeCutoff lowering (some policy.summaryInterval) now = .ok cutoffs.summary)
    (db : PurgeDb) :
    ∃ db', purgeScopeBatch lowering policy now limit false db =
        (.ok ((sweepOf policy.scope cutoffs limit db.store).counts policy.scope limit db.store),
          db') ∧
      Sweeps (sweepOf policy.scope cutoffs limit db.store).delete db db' := by
  generalize hw : sweepOf policy.scope cutoffs limit db.store = w
  obtain ⟨db₁, heq₁, hdb₁⟩ := purgeTier_raw policy.scope hlimit cutoffs.raw
    { PurgeCounts.zero with scopes := [policy.scope] } db (congrArg Sweep.entries hw)
  have hsame : db₁.store.clusterEmbeddings = db.store.clusterEmbeddings ∧
      db₁.store.explanations = db.store.explanations ∧
      db₁.store.clusterRuns = db.store.clusterRuns := by
    obtain ⟨purged, rfl⟩ := hdb₁
    exact ⟨rfl, rfl, rfl⟩
  have hembeddings₁ : selectDue policy.scope cutoffs.summary limit db₁.store.clusterEmbeddings =
      w.embeddings := by
    rw [hsame.1]
    exact congrArg Sweep.embeddings hw
  have hexplanations₁ : selectDue policy.scope cutoffs.summary limit db₁.store.explanations =
      w.explanations := by
    rw [hsame.2.1]
    exact congrArg Sweep.explanations hw
  have hruns₁ : selectDue policy.scope cutoffs.summary limit db₁.store.clusterRuns = w.runs := by
    rw [hsame.2.2]
    exact congrArg Sweep.runs hw
  obtain ⟨db₂, heq₂, hdb₂⟩ := purgeTier_summary policy.scope hlimit cutoffs.summary
    (PurgeCounts.add { PurgeCounts.zero with scopes := [policy.scope] }
      ⟨w.entries.length, 0, db.store.countLogEmbeddings w.entries, [],
        decide (limit ≤ w.entries.length)⟩) db₁ hembeddings₁ hexplanations₁ hruns₁
  have hclusters : db₁.store.countClustersForRuns w.runs =
      db.store.countClustersForRuns w.runs := by
    obtain ⟨purged, rfl⟩ := hdb₁
    rfl
  refine ⟨db₂, ?_, hdb₁.trans hdb₂⟩
  rw [hclusters] at heq₂
  simp only [purgeScopeBatch, hraw, hsummary]
  rw [heq₁]
  simp only
  rw [heq₂]
  simp [PurgeCounts.add, PurgeCounts.zero, Sweep.counts, Sweep.isFull, Bool.or_assoc]

/-! What a purge may do to the tables. -/

/-- Rows only leave, and a row that refers to another one leaves with it and not otherwise. -/
structure Purged (before after : Store) : Prop where
  logEntries : after.logEntries.rows.Sublist before.logEntries.rows
  clusterEmbeddings : after.clusterEmbeddings.rows.Sublist before.clusterEmbeddings.rows
  explanations : after.explanations.rows.Sublist before.explanations.rows
  clusterRuns : after.clusterRuns.rows.Sublist before.clusterRuns.rows
  logEmbeddings : after.logEmbeddings = before.logEmbeddings.restrict
    (fun m => !gone before.logEntries after.logEntries m.logEntryId)
  clusters : after.clusters = before.clusters.restrict
    (fun c => !gone before.clusterRuns after.clusterRuns c.clusterRunId)
  clusterMembers : after.clusterMembers = before.clusterMembers.restrict
    (fun m => !(gone before.logEntries after.logEntries m.logEntryId ||
      gone before.clusters after.clusters m.clusterId))

theorem Purged.refl (s : Store) : Purged s s where
  logEntries := List.Sublist.refl _
  clusterEmbeddings := List.Sublist.refl _
  explanations := List.Sublist.refl _
  clusterRuns := List.Sublist.refl _
  logEmbeddings := (restrict_of_all (fun _ _ => by simp [gone_self])).symm
  clusters := (restrict_of_all (fun _ _ => by simp [gone_self])).symm
  clusterMembers := (restrict_of_all (fun _ _ => by simp [gone_self])).symm

theorem Purged.sublist_clusters {s s' : Store} (h : Purged s s') :
    s'.clusters.rows.Sublist s.clusters.rows := by
  rw [h.clusters]
  exact List.filter_sublist

theorem Purged.trans {s₁ s₂ s₃ : Store} (h₁ : Purged s₁ s₂) (h₂ : Purged s₂ s₃) :
    Purged s₁ s₃ where
  logEntries := h₂.logEntries.trans h₁.logEntries
  clusterEmbeddings := h₂.clusterEmbeddings.trans h₁.clusterEmbeddings
  explanations := h₂.explanations.trans h₁.explanations
  clusterRuns := h₂.clusterRuns.trans h₁.clusterRuns
  logEmbeddings := by
    rw [h₂.logEmbeddings, h₁.logEmbeddings, restrict_and]
    refine restrict_congr (fun m _ => ?_)
    rw [gone_trans h₁.logEntries h₂.logEntries, Bool.not_or]
  clusters := by
    rw [h₂.clusters, h₁.clusters, restrict_and]
    refine restrict_congr (fun c _ => ?_)
    rw [gone_trans h₁.clusterRuns h₂.clusterRuns, Bool.not_or]
  clusterMembers := by
    rw [h₂.clusterMembers, h₁.clusterMembers, restrict_and]
    refine restrict_congr (fun m _ => ?_)
    rw [gone_trans h₁.logEntries h₂.logEntries, gone_trans h₁.sublist_clusters h₂.sublist_clusters,
      ← Bool.not_or]
    congr 1
    ac_rfl

variable {scope : String}

/-- A sweep takes what it selects and what refers to it. -/
theorem purged_sweep (cutoffs : Cutoffs) (s : Store) :
    Purged s ((sweepOf scope cutoffs limit s).delete s) := by
  have hentries : ∀ i ∈ (sweepOf scope cutoffs limit s).entries, i ∈ s.logEntries.keys := by
    intro i hi
    obtain ⟨row, hrow, _, rfl⟩ := mem_selectDue hi
    exact List.mem_map_of_mem hrow
  have hruns : ∀ i ∈ (sweepOf scope cutoffs limit s).runs, i ∈ s.clusterRuns.keys := by
    intro i hi
    obtain ⟨row, hrow, _, rfl⟩ := mem_selectDue hi
    exact List.mem_map_of_mem hrow
  generalize sweepOf scope cutoffs limit s = w at hentries hruns
  refine ⟨List.filter_sublist, List.filter_sublist, List.filter_sublist, List.filter_sublist,
    ?_, ?_, ?_⟩
  · refine restrict_congr (fun m _ => ?_)
    exact congrArg not (gone_deleteBy hentries m.logEntryId).symm
  · refine restrict_congr (fun c _ => ?_)
    exact congrArg not (gone_deleteBy hruns c.clusterRunId).symm
  · have hclusters : ∀ i, gone s.clusters ((w.delete s).clusters) i =
        (s.clustersOf w.runs).contains i := by
      intro i
      have hrestrict := gone_restrict (fun c => !w.runs.contains c.clusterRunId) s.clusters i
      simp only [Bool.not_not] at hrestrict
      exact hrestrict
    have hmembers : (w.delete s).clusterMembers =
        (s.clusterMembers.restrict (fun m => !w.entries.contains m.logEntryId)).restrict
          (fun m => !(s.clustersOf w.runs).contains m.clusterId) := rfl
    rw [hmembers, restrict_and]
    refine restrict_congr (fun m _ => ?_)
    rw [hclusters, ← Bool.not_or]
    exact congrArg (fun b => !(b || (s.clustersOf w.runs).contains m.clusterId))
      (gone_deleteBy hentries m.logEntryId).symm

/-- What is counted and what is still there, for each kind. -/
def ledger (totals : PurgeCounts) (s : Store) : ℕ × ℕ × ℕ :=
  (totals.raw + s.logEntries.size,
    totals.summary + (s.explanations.size + (s.clusterRuns.size + s.clusters.size)),
    totals.embedding + (s.logEmbeddings.size + s.clusterEmbeddings.size))

/-- The numbers of some counts. -/
def numbers (c : PurgeCounts) : ℕ × ℕ × ℕ := (c.raw, c.summary, c.embedding)

theorem numbers_note (c : PurgeCounts) (scope : String) : numbers (c.note scope) = numbers c := by
  rw [PurgeCounts.note]
  split <;> rfl

theorem numbers_foldl_note (scopes : List String) (c : PurgeCounts) :
    numbers (scopes.foldl PurgeCounts.note c) = numbers c := by
  induction scopes generalizing c with
  | nil => rfl
  | cons scope rest ih => rw [List.foldl_cons, ih, numbers_note]

theorem numbers_add (c other : PurgeCounts) :
    numbers (c.add other) = numbers c + numbers other :=
  numbers_foldl_note other.scopes _

theorem ledger_eq (totals : PurgeCounts) (s : Store) :
    ledger totals s = numbers totals + ledger PurgeCounts.zero s := by
  simp [ledger, numbers, PurgeCounts.zero]

/-- The due rows of a scope that a quota allows leave each table, and no other row does. -/
structure ReapedStore (scope : String) (cutoffs : Cutoffs) (quota : Option ℕ)
    (before after : Store) : Prop where
  logEntries : ReapedUpTo (due scope cutoffs.raw) quota before.logEntries after.logEntries
  clusterEmbeddings : ReapedUpTo (due scope cutoffs.summary) quota before.clusterEmbeddings
    after.clusterEmbeddings
  explanations : ReapedUpTo (due scope cutoffs.summary) quota before.explanations
    after.explanations
  clusterRuns : ReapedUpTo (due scope cutoffs.summary) quota before.clusterRuns after.clusterRuns

theorem ReapedStore.trans {cutoffs : Cutoffs} {m : ℕ} {quota : Option ℕ} {s₁ s₂ s₃ : Store}
    (h₁ : ReapedStore scope cutoffs (some m) s₁ s₂) (h₂ : ReapedStore scope cutoffs quota s₂ s₃) :
    ReapedStore scope cutoffs (quota.map (m + ·)) s₁ s₃ where
  logEntries := h₁.logEntries.trans h₂.logEntries
  clusterEmbeddings := h₁.clusterEmbeddings.trans h₂.clusterEmbeddings
  explanations := h₁.explanations.trans h₂.explanations
  clusterRuns := h₁.clusterRuns.trans h₂.clusterRuns

/-- How many rows of a scope are due in each table. -/
def dueCounts (scope : String) (cutoffs : Cutoffs) (s : Store) : List ℕ :=
  [s.logEntries.count (due scope cutoffs.raw),
    s.clusterEmbeddings.count (due scope cutoffs.summary),
    s.explanations.count (due scope cutoffs.summary),
    s.clusterRuns.count (due scope cutoffs.summary)]

theorem ReapedStore.dueCounts {cutoffs : Cutoffs} {quota : Option ℕ} {s s' : Store}
    (h : ReapedStore scope cutoffs quota s s') :
    dueCounts scope cutoffs s' =
      (dueCounts scope cutoffs s).map (fun n => n - capped quota n) := by
  simp only [PurgeLaws.dueCounts, List.map_cons, List.map_nil, h.logEntries.count,
    h.clusterEmbeddings.count, h.explanations.count, h.clusterRuns.count]

theorem ReapedStore.size {cutoffs : Cutoffs} {quota : Option ℕ} {s s' : Store}
    (h : ReapedStore scope cutoffs quota s s') :
    s'.size + ((PurgeLaws.dueCounts scope cutoffs s).map (capped quota)).sum = s.size := by
  have hentries := Reaped.size h.logEntries
  have hembeddings := Reaped.size h.clusterEmbeddings
  have hexplanations := Reaped.size h.explanations
  have hruns := Reaped.size h.clusterRuns
  simp only [Store.size, PurgeLaws.dueCounts, List.map_cons, List.map_nil, List.sum_cons,
    List.sum_nil]
  omega

variable (scope : String) (cutoffs : Cutoffs) (limit : ℕ) (s : Store)

theorem reapedStore_sweep :
    ReapedStore scope cutoffs (some limit) s ((sweepOf scope cutoffs limit s).delete s) where
  logEntries := reaped_select _ _ limit s.logEntries
  clusterEmbeddings := reaped_select _ _ limit s.clusterEmbeddings
  explanations := reaped_select _ _ limit s.explanations
  clusterRuns := reaped_select _ _ limit s.clusterRuns

/-- What a sweep selects in a table leaves it. -/
theorem size_sweep {α : Type} [Expiring α] {key : α → ℕ} (cutoff : Option Timestamp)
    (t : Table key) :
    (selectDue scope cutoff limit t).length +
      (t.deleteBy key (selectDue scope cutoff limit t)).size = t.size := by
  have hreaped := Reaped.size (reaped_select (due scope cutoff)
    (fun row => toLex (Expiring.expiry row, key row)) limit t)
  rw [length_selectDue, Nat.add_comm]
  exact hreaped

/-- The counts of a batch are what the tables lose in it. -/
theorem ledger_sweep (totals : PurgeCounts) :
    ledger (totals.add ((sweepOf scope cutoffs limit s).counts scope limit s))
        ((sweepOf scope cutoffs limit s).delete s) = ledger totals s := by
  have hentries := size_sweep scope limit cutoffs.raw s.logEntries
  have hembeddings := size_sweep scope limit cutoffs.summary s.clusterEmbeddings
  have hexplanations := size_sweep scope limit cutoffs.summary s.explanations
  have hruns := size_sweep scope limit cutoffs.summary s.clusterRuns
  have hlogs := size_deleteBy LogEmbedding.logEntryId
    (selectDue scope cutoffs.raw limit s.logEntries) s.logEmbeddings
  have hclusters := size_deleteBy Cluster.clusterRunId
    (selectDue scope cutoffs.summary limit s.clusterRuns) s.clusters
  rw [ledger_eq, numbers_add, ledger_eq totals s, add_assoc]
  congr 1
  simp only [ledger, numbers, Sweep.counts, sweepOf, Sweep.delete, Store.countLogEmbeddings,
    Store.countClustersForRuns, Store.deleteLogEntries, Store.deleteClusterEmbeddings,
    Store.deleteExplanations, Store.deleteClusterRuns, PurgeCounts.zero, Prod.mk_add_mk,
    Prod.mk.injEq]
  omega

theorem isFull_sweep :
    (sweepOf scope cutoffs limit s).isFull limit ↔ ∃ n ∈ dueCounts scope cutoffs s, limit ≤ n := by
  simp only [Sweep.isFull, sweepOf, length_selectDue, dueCounts, Bool.or_eq_true,
    decide_eq_true_eq, le_inf_iff, le_refl, true_and, List.mem_cons, List.not_mem_nil, or_false,
    exists_eq_or_imp, exists_eq_left]
  tauto

variable {limit}

/-- A batch is empty when no row of the scope is due. -/
theorem isEmpty_sweep (hlimit : 0 < limit) :
    ((sweepOf scope cutoffs limit s).counts scope limit s).isEmpty ↔
      ∀ n ∈ dueCounts scope cutoffs s, n = 0 := by
  have hentries := length_selectDue scope cutoffs.raw limit s.logEntries
  have hembeddings := length_selectDue scope cutoffs.summary limit s.clusterEmbeddings
  have hexplanations := length_selectDue scope cutoffs.summary limit s.explanations
  have hruns := length_selectDue scope cutoffs.summary limit s.clusterRuns
  simp only [PurgeCounts.isEmpty, Sweep.counts, sweepOf, dueCounts, Bool.and_eq_true, beq_iff_eq,
    List.mem_cons, List.not_mem_nil, or_false, forall_eq_or_imp, forall_eq]
  constructor
  · rintro ⟨⟨hraw, hsummary⟩, hembedding⟩
    omega
  · rintro ⟨h₁, h₂, h₃, h₄⟩
    have hnil : selectDue scope cutoffs.raw limit s.logEntries = [] :=
      List.eq_nil_of_length_eq_zero (by omega)
    have hnil' : selectDue scope cutoffs.summary limit s.clusterRuns = [] :=
      List.eq_nil_of_length_eq_zero (by omega)
    rw [hnil, hnil', countLogEmbeddings_nil, countClustersForRuns_nil]
    exact ⟨⟨rfl, by simp only [List.length_nil]; omega⟩, by omega⟩

end Raglogs.PurgeLaws
