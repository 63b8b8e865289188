import Raglogs.PurgeRuns

/-!
A dry run predicts what draining the store deletes. The numbers of a scope are its due
rows and the rows that refer to them; a dry run adds them up with queries and a run
without a limit deletes as many, in chunks. Both raise at the same scopes, and only when
an interval is out of range.
-/

namespace Raglogs.PurgePrediction

open KeyedTables KeyedTables.Table LogEntries Purge PurgeLaws PurgeLocality PurgeRuns Retention

/-! What a dry run counts. -/

/-- The due rows of a scope and the rows that refer to them, by kind. -/
def dueNumbers (scope : String) (cutoffs : Cutoffs) (s : Store) : ℕ × ℕ × ℕ :=
  (s.logEntries.count (due scope cutoffs.raw),
    s.explanations.count (due scope cutoffs.summary) +
      (s.clusterRuns.count (due scope cutoffs.summary) +
        s.clusters.count (fun c => (s.clusterRuns.restrict
          (due scope cutoffs.summary)).keys.contains c.clusterRunId)),
    s.logEmbeddings.count (fun m => (s.logEntries.restrict
        (due scope cutoffs.raw)).keys.contains m.logEntryId) +
      s.clusterEmbeddings.count (due scope cutoffs.summary))

section Counts

variable {α β : Type} {key : α → ℕ} {key' : β → ℕ}

theorem any_eq_contains (ref : ℕ) (p : α → Bool) (t : Table key) :
    t.rows.any (fun a => key a == ref && p a) = (t.restrict p).keys.contains ref := by
  rw [Bool.eq_iff_iff, List.any_eq_true, List.contains_iff_mem]
  constructor
  · rintro ⟨a, ha, hboth⟩
    rw [Bool.and_eq_true, beq_iff_eq] at hboth
    obtain ⟨rfl, hp⟩ := hboth
    exact List.mem_map_of_mem (mem_restrict.mpr ⟨ha, hp⟩)
  · intro h
    obtain ⟨a, ha, rfl⟩ := List.mem_map.mp h
    obtain ⟨hmem, hp⟩ := mem_restrict.mp ha
    exact ⟨a, hmem, by simp [hp]⟩

theorem due_eq_expired [Expiring α] (scope : String) (cutoff : Timestamp) :
    (due scope (some cutoff) : α → Bool) = expired scope cutoff := rfl

/-- A join counts the rows that refer to a row with the property. -/
theorem countJoined_keys (ref : β → ℕ) (p : α → Bool) (t : Table key) (children : Table key') :
    t.countJoined ref p children =
      children.count (fun c => (t.restrict p).keys.contains (ref c)) := by
  rw [countJoined_eq]
  exact count_congr (fun c _ => any_eq_contains (ref c) p t)

theorem count_none [Expiring α] (scope : String) (t : Table key) : t.count (due scope none) = 0 :=
  count_eq_zero.mpr (fun _ _ => Bool.false_ne_true)

theorem children_none [Expiring α] (scope : String) (t : Table key) (ref : β → ℕ)
    (children : Table key') :
    children.count (fun c => (t.restrict (due scope none)).keys.contains (ref c)) = 0 := by
  refine count_eq_zero.mpr (fun c _ hc => ?_)
  obtain ⟨a, ha, _⟩ := List.mem_map.mp (List.contains_iff_mem.mp hc)
  exact Bool.false_ne_true (mem_restrict.mp ha).2

end Counts

variable {lowering : Text.Lowering} {cfg : Settings} {clock : Timestamp}

theorem countScopeExpired_numbers {policy : RetentionPolicy} {cutoffs : Cutoffs}
    (hraw : computeCutoff lowering (some policy.rawInterval) clock = .ok cutoffs.raw)
    (hsummary : computeCutoff lowering (some policy.summaryInterval) clock = .ok cutoffs.summary)
    (s : Store) :
    ∃ counts, countScopeExpired lowering policy clock s = .ok counts ∧
      numbers counts = dueNumbers policy.scope cutoffs s := by
  obtain ⟨raw, summary⟩ := cutoffs
  simp only at hraw hsummary
  simp only [countScopeExpired, hraw, hsummary, bind, Except.bind]
  cases raw with
  | none =>
    cases summary with
    | none =>
      refine ⟨_, rfl, ?_⟩
      simp only [numbers, dueNumbers, count_none, children_none, PurgeCounts.zero]
    | some summary =>
      refine ⟨_, rfl, ?_⟩
      simp only [numbers, dueNumbers, count_none, children_none, PurgeCounts.zero, due_eq_expired,
        Store.countExpiredClusterEmbeddings, Store.countExpiredExplanations,
        Store.countExpiredClusterRuns, Store.countExpiredClusters, countExpired, countJoined_keys,
        Nat.zero_add, Nat.add_assoc]
  | some raw =>
    cases summary with
    | none =>
      refine ⟨_, rfl, ?_⟩
      simp only [numbers, dueNumbers, count_none, children_none, PurgeCounts.zero, due_eq_expired,
        Store.countExpiredLogEntries, Store.countExpiredLogEmbeddings, countExpired,
        countJoined_keys, Nat.zero_add, Nat.add_zero]
    | some summary =>
      refine ⟨_, rfl, ?_⟩
      simp only [numbers, dueNumbers, PurgeCounts.zero, due_eq_expired,
        Store.countExpiredLogEntries, Store.countExpiredLogEmbeddings,
        Store.countExpiredClusterEmbeddings, Store.countExpiredExplanations,
        Store.countExpiredClusterRuns, Store.countExpiredClusters, countExpired, countJoined_keys,
        Nat.zero_add, Nat.add_assoc]

/-- The numbers of a scope can be told from its part of the tables. -/
theorem dueNumbers_only (scope : String) (cutoffs : Cutoffs) (s : Store) :
    dueNumbers scope cutoffs (only scope s) = dueNumbers scope cutoffs s := by
  have hentries : (only scope s).logEntries.restrict (due scope cutoffs.raw) =
      s.logEntries.restrict (due scope cutoffs.raw) := restrict_of_imp inScope_of_due s.logEntries
  have hruns : (only scope s).clusterRuns.restrict (due scope cutoffs.summary) =
      s.clusterRuns.restrict (due scope cutoffs.summary) :=
    restrict_of_imp inScope_of_due s.clusterRuns
  have hembeddings : (only scope s).logEmbeddings.count (fun m => (s.logEntries.restrict
        (due scope cutoffs.raw)).keys.contains m.logEntryId) =
      s.logEmbeddings.count (fun m => (s.logEntries.restrict
        (due scope cutoffs.raw)).keys.contains m.logEntryId) := by
    refine count_restrict_of_imp (fun m hm => ?_) s.logEmbeddings
    rw [List.contains_iff_mem] at hm ⊢
    exact keys_restrict_mono inScope_of_due hm
  have hclusters : (only scope s).clusters.count (fun c => (s.clusterRuns.restrict
        (due scope cutoffs.summary)).keys.contains c.clusterRunId) =
      s.clusters.count (fun c => (s.clusterRuns.restrict
        (due scope cutoffs.summary)).keys.contains c.clusterRunId) := by
    refine count_restrict_of_imp (fun c hc => ?_) s.clusters
    rw [List.contains_iff_mem] at hc ⊢
    exact keys_restrict_mono inScope_of_due hc
  rw [dueNumbers, dueNumbers, hentries, hruns, hembeddings, hclusters]
  simp only [only, count_due_restrict]

/-- The keys that are gone from a drained table are those of its due rows. -/
theorem gone_of_drained {α : Type} {key : α → ℕ} {due : α → Bool} {t t' : Table key}
    (h : ReapedUpTo due none t t') (i : ℕ) : gone t t' i = (t.restrict due).keys.contains i := by
  rw [Reaped.drained h (le_refl _), gone_restrict]
  simp only [Bool.not_not]

/-- Without a limit the batches of a scope delete what a dry run counts for it. -/
theorem numbers_batched {scope : String} {cutoffs : Cutoffs} {totals totals' : PurgeCounts}
    {more : Bool} {db db' : PurgeDb}
    (h : Batched scope cutoffs none totals totals' more db db') :
    numbers totals' = numbers totals + dueNumbers scope cutoffs db.store := by
  have hentries := Reaped.size h.reaped.logEntries
  have hclusterEmbeddings := Reaped.size h.reaped.clusterEmbeddings
  have hexplanations := Reaped.size h.reaped.explanations
  have hruns := Reaped.size h.reaped.clusterRuns
  have hembeddings := size_restrict_not
    (fun m => gone db.store.logEntries db'.store.logEntries m.logEntryId) db.store.logEmbeddings
  rw [← h.purged.logEmbeddings] at hembeddings
  have hclusters := size_restrict_not
    (fun c => gone db.store.clusterRuns db'.store.clusterRuns c.clusterRunId) db.store.clusters
  rw [← h.purged.clusters] at hclusters
  simp only [gone_of_drained h.reaped.logEntries] at hembeddings
  simp only [gone_of_drained h.reaped.clusterRuns] at hclusters
  have hledger := h.ledger
  simp only [ledger, Prod.mk.injEq] at hledger
  simp only [capped, Option.elim_none] at hentries hclusterEmbeddings hexplanations hruns
  simp only [PurgeLaws.numbers, dueNumbers, Prod.mk_add_mk, Prod.mk.injEq]
  omega

/-! Runs. -/

variable (lowering cfg clock)

/-- The numbers of a scope under its policy; a scope that is skipped has none. -/
def scopeNumbers (overrides : Table ScopeRetention.scope) (s : Store) (item : String) :
    ℕ × ℕ × ℕ :=
  match cutoffsOf lowering cfg clock overrides item with
  | .ok cutoffs => dueNumbers item cutoffs s
  | .error _ => 0

variable {lowering cfg clock} {maxChunks : Option ℤ} {limit : ℕ}

theorem scopeNumbers_congr {overrides : Table ScopeRetention.scope} {s s' : Store} {item : String}
    (h : only item s = only item s') :
    scopeNumbers lowering cfg clock overrides s item =
      scopeNumbers lowering cfg clock overrides s' item := by
  rw [scopeNumbers, scopeNumbers]
  split
  · rw [← dueNumbers_only, h, dueNumbers_only]
  · rfl

variable (limit) in
theorem purgeScopes_dry {scopes : List String} :
    ∀ totals more db, Readable lowering cfg clock db.scopeRetention scopes →
      ∃ totals', (∀ maxChunks,
          purgeScopes lowering cfg true maxChunks clock limit scopes totals more db =
            (.ok (totals', more), db)) ∧
        numbers totals' = numbers totals +
          (scopes.map (scopeNumbers lowering cfg clock db.scopeRetention db.store)).sum := by
  induction scopes with
  | nil => exact fun totals more db _ => ⟨totals, fun _ => rfl, (add_zero _).symm⟩
  | cons item rest ih =>
    intro totals more db hread
    have hrest : Readable lowering cfg clock db.scopeRetention rest :=
      fun item' hmem => hread item' (List.mem_cons_of_mem _ hmem)
    rw [List.map_cons, List.sum_cons, ← add_assoc]
    cases hcut : cutoffsOf lowering cfg clock db.scopeRetention item with
    | error e =>
      obtain ⟨totals', heq, hnumbers⟩ := ih (totals.note item) more db hrest
      refine ⟨totals', fun maxChunks => ?_, ?_⟩
      · rw [purgeScopes_skip hcut (hread item List.mem_cons_self e hcut)]
        exact heq maxChunks
      · rw [hnumbers, numbers_note, scopeNumbers, hcut, add_zero]
    | ok cutoffs =>
      obtain ⟨hraw, hsummary⟩ := cutoffs_spec hcut
      obtain ⟨counts, hcounts, hdue⟩ := countScopeExpired_numbers hraw hsummary db.store
      obtain ⟨totals', heq, hnumbers⟩ := ih (totals.add counts) more db hrest
      refine ⟨totals', fun maxChunks => ?_, ?_⟩
      · rw [purgeScopes_count hcut, hcounts]
        exact heq maxChunks
      · rw [hnumbers, numbers_add, hdue, scopeNumbers, hcut]
        rfl

/-- Without a limit a run deletes the numbers of its scopes. -/
theorem numbers_purgeScopes (hlimit : 0 < limit) {scopes : List String} (hnodup : scopes.Nodup) :
    ∀ {totals more db totals' more' db'}, Readable lowering cfg clock db.scopeRetention scopes →
      purgeScopes lowering cfg false none clock limit scopes totals more db =
          (.ok (totals', more'), db') →
        numbers totals' = numbers totals +
          (scopes.map (scopeNumbers lowering cfg clock db.scopeRetention db.store)).sum := by
  induction scopes with
  | nil =>
    intro totals more db totals' more' db' _ h
    rw [← (Prod.mk.inj (Except.ok.inj (Prod.mk.inj h).1)).1]
    exact (add_zero _).symm
  | cons item rest ih =>
    intro totals more db totals' more' db' hread h
    obtain ⟨hnot, hrestNodup⟩ := List.nodup_cons.mp hnodup
    have hrest : Readable lowering cfg clock db.scopeRetention rest :=
      fun item' hmem => hread item' (List.mem_cons_of_mem _ hmem)
    rw [List.map_cons, List.sum_cons, ← add_assoc]
    cases hcut : cutoffsOf lowering cfg clock db.scopeRetention item with
    | error e =>
      rw [purgeScopes_skip hcut (hread item List.mem_cons_self e hcut)] at h
      rw [ih hrestNodup hrest h, numbers_note, scopeNumbers, hcut, add_zero]
    | ok cutoffs =>
      obtain ⟨hraw, hsummary⟩ := cutoffs_spec hcut
      obtain ⟨totals₁, more₁, db₁, heq, hbatched⟩ := purgeBatches_spec hlimit hraw hsummary none
        (db.store.size + 1) 0 totals db (Nat.lt_succ_self _)
      have hretention : db₁.scopeRetention = db.scopeRetention := by
        obtain ⟨purged, h⟩ := hbatched.rest
        rw [h]
      rw [purgeScopes_purge hcut, heq] at h
      have hlater := ih hrestNodup (by rw [hretention]; exact hrest) h
      have hsame : rest.map (scopeNumbers lowering cfg clock db₁.scopeRetention db₁.store) =
          rest.map (scopeNumbers lowering cfg clock db.scopeRetention db.store) := by
        refine List.map_congr_left (fun item' hmem => ?_)
        rw [hretention]
        exact scopeNumbers_congr
          (hbatched.others item' (fun h : item' = item => hnot (h ▸ hmem)))
      have hhere : numbers totals₁ = numbers totals + dueNumbers item cutoffs db.store :=
        numbers_batched hbatched
      rw [hlater, hsame, hhere, scopeNumbers, hcut]

/-! What is left. -/

variable (lowering cfg clock)

/-- A row of a processed scope that is expired under the policy of the scope. -/
def Expired {α : Type} [Expiring α] (overrides : Table ScopeRetention.scope)
    (scopes : List String) (tier : Cutoffs → Option Timestamp) (row : α) : Prop :=
  Expiring.scope row ∈ scopes ∧ ∃ cutoffs,
    cutoffsOf lowering cfg clock overrides (Expiring.scope row) = .ok cutoffs ∧
      due (Expiring.scope row) (tier cutoffs) row

/-- Exactly the expired rows of the scopes are gone, and the rows that refer to one of them. -/
structure Drained (overrides : Table ScopeRetention.scope) (scopes : List String)
    (before after : Store) : Prop where
  logEntries : ∀ e, e ∈ after.logEntries.rows ↔ e ∈ before.logEntries.rows ∧
    ¬ Expired lowering cfg clock overrides scopes Cutoffs.raw e
  clusterEmbeddings : ∀ e, e ∈ after.clusterEmbeddings.rows ↔
    e ∈ before.clusterEmbeddings.rows ∧
      ¬ Expired lowering cfg clock overrides scopes Cutoffs.summary e
  explanations : ∀ e, e ∈ after.explanations.rows ↔ e ∈ before.explanations.rows ∧
    ¬ Expired lowering cfg clock overrides scopes Cutoffs.summary e
  clusterRuns : ∀ r, r ∈ after.clusterRuns.rows ↔ r ∈ before.clusterRuns.rows ∧
    ¬ Expired lowering cfg clock overrides scopes Cutoffs.summary r
  logEmbeddings : ∀ m, m ∈ after.logEmbeddings.rows ↔ m ∈ before.logEmbeddings.rows ∧
    ¬ ∃ e ∈ before.logEntries.rows, e.id = m.logEntryId ∧ e ∉ after.logEntries.rows
  clusters : ∀ c, c ∈ after.clusters.rows ↔ c ∈ before.clusters.rows ∧
    ¬ ∃ r ∈ before.clusterRuns.rows, r.id = c.clusterRunId ∧ r ∉ after.clusterRuns.rows
  clusterMembers : ∀ m, m ∈ after.clusterMembers.rows ↔ m ∈ before.clusterMembers.rows ∧
    (¬ ∃ e ∈ before.logEntries.rows, e.id = m.logEntryId ∧ e ∉ after.logEntries.rows) ∧
    ¬ ∃ c ∈ before.clusters.rows, c.id = m.clusterId ∧ c ∉ after.clusters.rows

variable {lowering cfg clock}

/-- A table of rows with a scope, after a run without a limit. -/
theorem mem_drained (hlimit : 0 < limit) {α : Type} [Expiring α] {key : α → ℕ}
    (table : Store → Table key) (tier : Cutoffs → Option Timestamp)
    (honly : ∀ scope s, table (only scope s) = (table s).restrict (inScope scope))
    (hreaped : ∀ {item cutoffs s s'}, ReapedStore item cutoffs none s s' →
      ReapedUpTo (due item (tier cutoffs)) none (table s) (table s'))
    {scopes : List String} {totals totals' : PurgeCounts} {more more' : Bool} {db db' : PurgeDb}
    (h : ScopesPurged limit lowering cfg clock none scopes totals totals' more more' db db')
    (row : α) :
    row ∈ (table db'.store).rows ↔ row ∈ (table db.store).rows ∧
      ¬ Expired lowering cfg clock db.scopeRetention scopes tier row := by
  have hpart : ∀ s, row ∈ (table s).rows ↔ row ∈ (table (only (Expiring.scope row) s)).rows := by
    intro s
    rw [honly, mem_restrict]
    exact ⟨fun hrow => ⟨hrow, beq_iff_eq.mpr rfl⟩, fun hrow => hrow.1⟩
  by_cases hscope : Expiring.scope row ∈ scopes ∧ ∃ cutoffs,
      cutoffsOf lowering cfg clock db.scopeRetention (Expiring.scope row) = .ok cutoffs
  · obtain ⟨hmem, cutoffs, hcut⟩ := hscope
    obtain ⟨totals₁, totals₂, more₁, mid, mid', hbatched, hbefore, hafter⟩ :=
      (h.turns _ hmem cutoffs hcut).batched hlimit hcut
    have hexpired : Expired lowering cfg clock db.scopeRetention scopes tier row ↔
        due (Expiring.scope row) (tier cutoffs) row := by
      constructor
      · rintro ⟨_, cutoffs', hcut', hdue⟩
        rw [hcut] at hcut'
        rwa [Except.ok.inj hcut']
      · exact fun hdue => ⟨hmem, cutoffs, hcut, hdue⟩
    have hdrained := Reaped.drained (hreaped hbatched.reaped) (le_refl _)
    rw [hpart, hafter, ← hpart, hdrained, mem_restrict, hpart mid.store, hbefore, ← hpart, hexpired]
    simp only [Bool.not_eq_true', Bool.not_eq_true]
  · have hsame : only (Expiring.scope row) db'.store = only (Expiring.scope row) db.store := by
      refine h.others _ (fun hmem => ?_)
      cases hcut : cutoffsOf lowering cfg clock db.scopeRetention (Expiring.scope row) with
      | error e => exact ⟨e, rfl⟩
      | ok cutoffs => exact absurd ⟨hmem, cutoffs, hcut⟩ hscope
    rw [hpart, hsame, ← hpart]
    exact ⟨fun hrow => ⟨hrow, fun ⟨hmem, cutoffs, hcut, _⟩ => hscope ⟨hmem, cutoffs, hcut⟩⟩,
      fun hrow => hrow.1⟩

theorem drained_of_scopesPurged (hlimit : 0 < limit) {scopes : List String}
    {totals totals' : PurgeCounts} {more more' : Bool} {db db' : PurgeDb}
    (h : ScopesPurged limit lowering cfg clock none scopes totals totals' more more' db db') :
    Drained lowering cfg clock db.scopeRetention scopes db.store db'.store where
  logEntries := mem_drained hlimit Store.logEntries Cutoffs.raw (fun _ _ => rfl)
    ReapedStore.logEntries h
  clusterEmbeddings := mem_drained hlimit Store.clusterEmbeddings Cutoffs.summary (fun _ _ => rfl)
    ReapedStore.clusterEmbeddings h
  explanations := mem_drained hlimit Store.explanations Cutoffs.summary (fun _ _ => rfl)
    ReapedStore.explanations h
  clusterRuns := mem_drained hlimit Store.clusterRuns Cutoffs.summary (fun _ _ => rfl)
    ReapedStore.clusterRuns h
  logEmbeddings := by
    intro m
    rw [h.purged.logEmbeddings, mem_restrict, Bool.not_eq_true', ← Bool.not_eq_true,
      gone_iff_row h.purged.logEntries]
  clusters := by
    intro c
    rw [h.purged.clusters, mem_restrict, Bool.not_eq_true', ← Bool.not_eq_true,
      gone_iff_row h.purged.clusterRuns]
  clusterMembers := by
    intro m
    rw [h.purged.clusterMembers, mem_restrict, Bool.not_eq_true', ← Bool.not_eq_true,
      Bool.or_eq_true, gone_iff_row h.purged.logEntries, gone_iff_row h.purged.sublist_clusters,
      not_or]

variable (lowering cfg clock)

/-- A dry run changes nothing and reports the totals that a run without a limit deletes;
that run ends, and takes the expired rows of its scopes and no others. -/
def DrainsAsPredicted (scope : Option String) (db : PurgeDb) : Prop :=
  ∃ predicted deleted db',
    (∀ maxChunks, runPurge lowering cfg scope true maxChunks clock db = (.ok predicted, db)) ∧
    runPurge lowering cfg scope false none clock db = (.ok deleted, db') ∧
    deleted.raw = predicted.raw ∧ deleted.summary = predicted.summary ∧
    deleted.embedding = predicted.embedding ∧
    deleted.raw + db'.store.logEntries.size = db.store.logEntries.size ∧
    deleted.summary + (db'.store.explanations.size +
        (db'.store.clusterRuns.size + db'.store.clusters.size)) =
      db.store.explanations.size + (db.store.clusterRuns.size + db.store.clusters.size) ∧
    deleted.embedding + (db'.store.logEmbeddings.size + db'.store.clusterEmbeddings.size) =
      db.store.logEmbeddings.size + db.store.clusterEmbeddings.size ∧
    db'.scopeRetention = db.scopeRetention ∧
    Drained lowering cfg clock db.scopeRetention (scopesOf scope db) db.store db'.store

/-- A dry run that returns met value errors at most. -/
theorem readable_of_dry {scope : Option String} {db db' : PurgeDb} {predicted : PurgeCounts}
    (h : runPurge lowering cfg scope true maxChunks clock db = (.ok predicted, db')) :
    Readable lowering cfg clock db.scopeRetention (scopesOf scope db) := by
  by_contra hread
  obtain ⟨before, item, after, e, hscopes, hbefore, he, hvalue⟩ := exists_unreadable hread
  obtain ⟨totals', heq, _⟩ := purgeScopes_dry (chunkLimit cfg) PurgeCounts.zero false db hbefore
  obtain ⟨f, db'', hraise, _⟩ := purgeScopes_raise (chunkLimit cfg) maxChunks true
    (chunkLimit_pos cfg) he hvalue after totals' false
  rw [runPurge, hscopes, purgeScopes_append before _ (heq maxChunks), hraise] at h
  cases (Prod.mk.inj h).1

/-- Draining is predicted exactly when no interval that a processed scope uses is out of range. -/
theorem drainsAsPredicted_iff (scope : Option String) (db : PurgeDb) :
    DrainsAsPredicted lowering cfg clock scope db ↔
      Readable lowering cfg clock db.scopeRetention (scopesOf scope db) := by
  constructor
  · rintro ⟨predicted, _, _, hdry, _⟩
    exact readable_of_dry lowering cfg clock (hdry none)
  · intro hread
    have hlimit := chunkLimit_pos cfg
    have hnodup := nodup_scopesOf scope db
    obtain ⟨predicted, hdry, hpredicted⟩ :=
      purgeScopes_dry (chunkLimit cfg) PurgeCounts.zero false db hread
    obtain ⟨deleted, more, db', heq, hpurged⟩ := purgeScopes_spec none hlimit hnodup
      PurgeCounts.zero false db hread
    have hdeleted := numbers_purgeScopes hlimit hnodup hread heq
    have hnumbers : numbers deleted = numbers predicted := hdeleted.trans hpredicted.symm
    have hmore : more = false := by
      rw [← Bool.not_eq_true, hpurged.more]
      rintro (h | ⟨_, _, _, _, q, hq, _⟩)
      · cases h
      · cases hq
    obtain ⟨hraw, hsummary, hembedding⟩ : deleted.raw = predicted.raw ∧
        deleted.summary = predicted.summary ∧ deleted.embedding = predicted.embedding := by
      simpa only [numbers, Prod.mk.injEq] using hnumbers
    have hdrained := drained_of_scopesPurged hlimit hpurged
    have hledger := hpurged.ledger
    simp only [ledger, Prod.mk.injEq, PurgeCounts.zero, Nat.zero_add] at hledger
    obtain ⟨hrawSize, hsummarySize, hembeddingSize⟩ := hledger
    have hretention : db'.scopeRetention = db.scopeRetention := by
      obtain ⟨purged, h⟩ := hpurged.rest
      rw [h]
    refine ⟨{ predicted with moreRemaining := false }, { deleted with moreRemaining := false },
      writeLastPurgeAt clock db', ?_, ?_, hraw, hsummary, hembedding, hrawSize, hsummarySize,
      hembeddingSize, hretention, hdrained⟩
    · intro maxChunks
      rw [runPurge, hdry maxChunks]
      rfl
    · rw [runPurge, heq, hmore]
      rfl

/-! An interval that parses and reaches back before the calendar. -/

def distantOverride : ScopeRetention := ⟨"payments", some "900000d", none⟩

def distantDb : PurgeDb := ⟨.empty, ⟨[distantOverride], List.nodup_singleton _⟩, [], [], []⟩

/-- The first instant of 2026. -/
def sampleClock : Timestamp := 1767225600000000

theorem distant_raises : cutoffsOf Text.asciiLowering .default sampleClock
    distantDb.scopeRetention "payments" = .error .outOfRange := by decide +kernel

theorem distant_interval_not_predicted :
    (∀ item ∈ scopesOf none distantDb, validatePolicyIntervals Text.asciiLowering
      (resolveScopePolicy .default distantDb.scopeRetention item) = .ok ()) ∧
    ¬ DrainsAsPredicted Text.asciiLowering .default sampleClock none distantDb := by
  have hscopes : scopesOf none distantDb = ["payments"] := by rfl
  have hvalid : validatePolicyIntervals Text.asciiLowering
      (resolveScopePolicy .default distantDb.scopeRetention "payments") = .ok () := by
    decide +kernel
  refine ⟨fun item hmem => ?_, fun ⟨predicted, _, _, hdry, _⟩ => ?_⟩
  · rw [hscopes] at hmem
    rw [List.mem_singleton.mp hmem]
    exact hvalid
  · have hread := readable_of_dry Text.asciiLowering .default sampleClock (hdry none)
    have hvalue := hread "payments" (by rw [hscopes]; exact List.mem_cons_self) _
      distant_raises
    cases hvalue

end Raglogs.PurgePrediction
