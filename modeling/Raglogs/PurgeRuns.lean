import Mathlib.Algebra.Order.BigOperators.Group.List
import Raglogs.PurgeLocality

/-!
The batches of a scope and the runs over several scopes. A quota says how many rows the
batches that are left may take of each table. The batches end, take the due rows that
the quota allows, count what they take, and tell whether the quota was used up; a run
over scopes does this for each scope whose policy can be read, unless one raises.
-/

namespace Raglogs.PurgeRuns

open KeyedTables KeyedTables.Table LogEntries Purge PurgeLaws PurgeLocality Retention

/-! The batches of one scope. -/

/-- How many rows of a table the batches that are left may take. -/
def quotaOf (limit : ℕ) (maxChunks : Option ℤ) (chunks : ℕ) : Option ℕ :=
  maxChunks.map (fun bound => limit * (max 1 (bound - (chunks : ℤ))).toNat)

theorem quotaOf_pos {limit : ℕ} (hlimit : 0 < limit) {maxChunks : Option ℤ} {chunks q : ℕ}
    (h : quotaOf limit maxChunks chunks = some q) : 0 < q := by
  obtain ⟨bound, _, rfl⟩ := Option.map_eq_some_iff.mp h
  exact Nat.mul_pos hlimit (by omega)

theorem quotaOf_last {limit chunks : ℕ} {bound : ℤ} (h : bound ≤ (chunks + 1 : ℕ)) :
    quotaOf limit (some bound) chunks = some limit := by
  have hone : (max 1 (bound - chunks)).toNat = 1 := by omega
  rw [quotaOf, Option.map_some, hone, Nat.mul_one]

theorem quotaOf_next {limit chunks : ℕ} {maxChunks : Option ℤ}
    (h : ∀ bound, maxChunks = some bound → ¬ bound ≤ (chunks + 1 : ℕ)) :
    quotaOf limit maxChunks chunks =
      (quotaOf limit maxChunks (chunks + 1)).map (limit + ·) := by
  cases maxChunks with
  | none => rfl
  | some bound =>
    have hbound := h bound rfl
    have hnext : (max 1 (bound - chunks)).toNat =
        (max 1 (bound - (chunks + 1 : ℕ))).toNat + 1 := by omega
    rw [quotaOf, quotaOf, Option.map_some, Option.map_some, Option.map_some, hnext, Nat.mul_add,
      Nat.mul_one, Nat.add_comm]

/-- The quota of a scope is used up. -/
def Reached (scope : String) (cutoffs : Cutoffs) (quota : Option ℕ) (s : Store) : Prop :=
  ∃ q, quota = some q ∧ ∃ n ∈ dueCounts scope cutoffs s, q ≤ n

/-- What the batches of a scope leave of a database and of the counts. -/
structure Batched (scope : String) (cutoffs : Cutoffs) (quota : Option ℕ)
    (totals totals' : PurgeCounts) (more : Bool) (db db' : PurgeDb) : Prop where
  reaped : ReapedStore scope cutoffs quota db.store db'.store
  purged : Purged db.store db'.store
  ledger : ledger totals' db'.store = ledger totals db.store
  others : ∀ scope', scope' ≠ scope → only scope' db'.store = only scope' db.store
  rest : Sweeps (fun _ => db'.store) db db'
  more : more = true ↔ Reached scope cutoffs quota db.store

variable {scope : String} {cutoffs : Cutoffs} {limit : ℕ}

/-- With nothing due every quota says the same. -/
theorem reaped_any_quota {quota : Option ℕ} {s s' : Store}
    (hnone : ∀ n ∈ dueCounts scope cutoffs s, n = 0) (h : ReapedStore scope cutoffs quota s s')
    (quota' : Option ℕ) : ReapedStore scope cutoffs quota' s s' := by
  have hcapped : ∀ n ∈ dueCounts scope cutoffs s, capped quota n = capped quota' n := by
    intro n hn
    have hle := capped_le quota n
    have hle' := capped_le quota' n
    have hzero := hnone n hn
    omega
  simp only [dueCounts, List.mem_cons, List.not_mem_nil, or_false, forall_eq_or_imp,
    forall_eq] at hcapped
  obtain ⟨hentries, hembeddings, hexplanations, hruns⟩ := hcapped
  refine ⟨?_, ?_, ?_, ?_⟩
  · rw [ReapedUpTo, ← hentries]
    exact h.logEntries
  · rw [ReapedUpTo, ← hembeddings]
    exact h.clusterEmbeddings
  · rw [ReapedUpTo, ← hexplanations]
    exact h.explanations
  · rw [ReapedUpTo, ← hruns]
    exact h.clusterRuns

theorem not_reached (hlimit : 0 < limit) {maxChunks : Option ℤ} {chunks : ℕ} {s : Store}
    (hnone : ∀ n ∈ dueCounts scope cutoffs s, n = 0) :
    ¬ Reached scope cutoffs (quotaOf limit maxChunks chunks) s := by
  rintro ⟨q, hq, n, hn, hle⟩
  have hpos := quotaOf_pos hlimit hq
  have hzero := hnone n hn
  omega

/-- A batch that is not empty makes the tables smaller. -/
theorem size_sweep_lt (hlimit : 0 < limit) {s : Store}
    (h : ¬ ∀ n ∈ dueCounts scope cutoffs s, n = 0) :
    ((sweepOf scope cutoffs limit s).delete s).size < s.size := by
  obtain ⟨n, hn, hpos⟩ : ∃ n ∈ dueCounts scope cutoffs s, n ≠ 0 := by
    by_contra hnone
    exact h (fun n hn => by_contra fun hpos => hnone ⟨n, hn, hpos⟩)
  have hsize := (reapedStore_sweep scope cutoffs limit s).size
  have hle : capped (some limit) n ≤ ((dueCounts scope cutoffs s).map (capped (some limit))).sum :=
    List.le_sum_of_mem (List.mem_map_of_mem hn)
  have hcapped : capped (some limit) n = min limit n := rfl
  omega

/-- One batch. -/
theorem batched_sweep (totals : PurgeCounts) {db db' : PurgeDb}
    (h : Sweeps (sweepOf scope cutoffs limit db.store).delete db db') :
    Batched scope cutoffs (some limit) totals
      (totals.add ((sweepOf scope cutoffs limit db.store).counts scope limit db.store))
      ((sweepOf scope cutoffs limit db.store).isFull limit) db db' := by
  obtain ⟨purged, rfl⟩ := h
  refine ⟨reapedStore_sweep scope cutoffs limit db.store, purged_sweep cutoffs db.store,
    ledger_sweep scope cutoffs limit db.store totals, ?_, ⟨purged, rfl⟩, ?_⟩
  · intro scope' hne
    exact (only_delete scope' _ db.store).trans (delete_only_of_ne hne cutoffs limit db.store)
  · rw [isFull_sweep]
    constructor
    · exact fun hn => ⟨limit, rfl, hn⟩
    · rintro ⟨q, hq, hn⟩
      rwa [Option.some.inj hq]

/-- One batch and then the others. -/
theorem Batched.trans {quota : Option ℕ} (hpos : ∀ q, quota = some q → 0 < q)
    {totals₁ totals₂ totals₃ : PurgeCounts} {full more : Bool} {db₁ db₂ db₃ : PurgeDb}
    (h₁ : Batched scope cutoffs (some limit) totals₁ totals₂ full db₁ db₂)
    (h₂ : Batched scope cutoffs quota totals₂ totals₃ more db₂ db₃) :
    Batched scope cutoffs (quota.map (limit + ·)) totals₁ totals₃ more db₁ db₃ where
  reaped := h₁.reaped.trans h₂.reaped
  purged := h₁.purged.trans h₂.purged
  ledger := h₂.ledger.trans h₁.ledger
  others := fun scope' hne => (h₂.others scope' hne).trans (h₁.others scope' hne)
  rest := h₁.rest.trans h₂.rest
  more := by
    rw [h₂.more, Reached, Reached, h₁.reaped.dueCounts]
    constructor
    · rintro ⟨q, rfl, n', hn', hle⟩
      obtain ⟨n, hn, rfl⟩ := List.mem_map.mp hn'
      have hq := hpos q rfl
      refine ⟨limit + q, rfl, n, hn, ?_⟩
      simp only [capped, Option.elim_some] at hle
      omega
    · rintro ⟨q', hq', n, hn, hle⟩
      obtain ⟨q, rfl, rfl⟩ := Option.map_eq_some_iff.mp hq'
      refine ⟨q, rfl, _, List.mem_map_of_mem hn, ?_⟩
      simp only [capped, Option.elim_some]
      omega

/-- The batches of a scope end, and take what the quota allows. -/
theorem purgeBatches_spec {lowering : Text.Lowering} {policy : RetentionPolicy} {now : Timestamp}
    (hlimit : 0 < limit)
    (hraw : computeCutoff lowering (some policy.rawInterval) now = .ok cutoffs.raw)
    (hsummary : computeCutoff lowering (some policy.summaryInterval) now = .ok cutoffs.summary)
    (maxChunks : Option ℤ) (fuel : ℕ) :
    ∀ chunks totals db, db.store.size < fuel →
      ∃ totals' more db', purgeBatches lowering policy now limit maxChunks fuel chunks totals db =
          (.ok (totals', more), db') ∧
        Batched policy.scope cutoffs (quotaOf limit maxChunks chunks) totals totals' more
          db db' := by
  induction fuel with
  | zero => exact fun chunks totals db h => absurd h (Nat.not_lt_zero _)
  | succ fuel ih =>
    intro chunks totals db hfuel
    obtain ⟨db₁, heq, hdb₁⟩ := purgeScopeBatch_sweeps hlimit hraw hsummary db
    have hbatch := batched_sweep totals hdb₁
    have hstore : db₁.store = (sweepOf policy.scope cutoffs limit db.store).delete db.store := by
      obtain ⟨purged, rfl⟩ := hdb₁
      rfl
    rw [purgeBatches, heq]
    dsimp only
    by_cases hempty : ∀ n ∈ dueCounts policy.scope cutoffs db.store, n = 0
    · rw [if_pos ((isEmpty_sweep policy.scope cutoffs db.store hlimit).mpr hempty)]
      refine ⟨_, _, db₁, rfl, ?_⟩
      exact
        { reaped := reaped_any_quota hempty hbatch.reaped _
          purged := hbatch.purged
          ledger := by
            rw [ledger_eq, numbers_note, ← ledger_eq]
            exact hbatch.ledger
          others := hbatch.others
          rest := hbatch.rest
          more := ⟨fun h => absurd h Bool.false_ne_true,
            fun h => absurd h (not_reached hlimit hempty)⟩ }
    · have hnot := fun h => hempty ((isEmpty_sweep policy.scope cutoffs db.store hlimit).mp h)
      have hless := size_sweep_lt hlimit hempty
      have hnext : ∃ totals' more db',
          purgeBatches lowering policy now limit maxChunks fuel (chunks + 1)
            (totals.add ((sweepOf policy.scope cutoffs limit db.store).counts policy.scope limit
              db.store)) db₁ = (.ok (totals', more), db') ∧
          Batched policy.scope cutoffs
            ((quotaOf limit maxChunks (chunks + 1)).map (limit + ·)) totals totals' more
            db db' := by
        obtain ⟨totals', more, db', heq', hrest⟩ := ih (chunks + 1)
          (totals.add ((sweepOf policy.scope cutoffs limit db.store).counts policy.scope limit
            db.store)) db₁ (by rw [hstore]; omega)
        exact ⟨totals', more, db', heq', hbatch.trans (fun q hq => quotaOf_pos hlimit hq) hrest⟩
      rw [if_neg hnot]
      cases maxChunks with
      | none => exact hnext
      | some bound =>
        dsimp only
        split
        · rename_i hbound
          rw [quotaOf_last hbound]
          exact ⟨_, _, db₁, rfl, hbatch⟩
        · rename_i hbound
          rw [quotaOf_next (fun b hb => by rwa [← Option.some.inj hb])]
          exact hnext

/-- What the batches of a scope leave of it depends on its part of the tables only. -/
theorem purgeBatches_only {lowering : Text.Lowering} {policy : RetentionPolicy} {now : Timestamp}
    (hlimit : 0 < limit)
    (hraw : computeCutoff lowering (some policy.rawInterval) now = .ok cutoffs.raw)
    (hsummary : computeCutoff lowering (some policy.summaryInterval) now = .ok cutoffs.summary)
    {maxChunks : Option ℤ} {fuel : ℕ} :
    ∀ {fuel₂ chunks totals totals₂ db db₂ result result₂ db' db₂'},
      only policy.scope db.store = only policy.scope db₂.store →
      purgeBatches lowering policy now limit maxChunks fuel chunks totals db = (.ok result, db') →
      purgeBatches lowering policy now limit maxChunks fuel₂ chunks totals₂ db₂ =
        (.ok result₂, db₂') →
      only policy.scope db'.store = only policy.scope db₂'.store := by
  induction fuel with
  | zero =>
    intro fuel₂ chunks totals totals₂ db db₂ result result₂ db' db₂' _ h _
    cases h
  | succ fuel ih =>
    intro fuel₂ chunks totals totals₂ db db₂ result result₂ db' db₂' hsame h h₂
    cases fuel₂ with
    | zero => cases h₂
    | succ fuel₂ =>
      obtain ⟨next, heq, hnext⟩ := purgeScopeBatch_sweeps hlimit hraw hsummary db
      obtain ⟨next₂, heq₂, hnext₂⟩ := purgeScopeBatch_sweeps hlimit hraw hsummary db₂
      have hstores : only policy.scope next.store = only policy.scope next₂.store := by
        obtain ⟨purged, rfl⟩ := hnext
        obtain ⟨purged₂, rfl⟩ := hnext₂
        exact delete_congr hsame cutoffs limit
      rw [← counts_congr hsame] at heq₂
      rw [purgeBatches, heq] at h
      rw [purgeBatches, heq₂] at h₂
      dsimp only at h h₂
      split at h
      · rename_i hempty
        rw [if_pos hempty] at h₂
        rw [← (Prod.mk.inj h).2, ← (Prod.mk.inj h₂).2]
        exact hstores
      · rename_i hempty
        rw [if_neg hempty] at h₂
        cases maxChunks with
        | none => exact ih hstores h h₂
        | some bound =>
          dsimp only at h h₂
          split at h
          · rename_i hbound
            rw [if_pos hbound] at h₂
            rw [← (Prod.mk.inj h).2, ← (Prod.mk.inj h₂).2]
            exact hstores
          · rename_i hbound
            rw [if_neg hbound] at h₂
            exact ih hstores h h₂

/-! Runs over scopes. -/

section Scopes

variable (lowering : Text.Lowering) (cfg : Settings) (clock : Timestamp)

/-- What the policy of a scope comes to. -/
def cutoffsOf (overrides : Table ScopeRetention.scope) (item : String) :
    Except PurgeError Cutoffs :=
  policyCutoffs lowering clock (resolveScopePolicy cfg overrides item)

variable {lowering cfg clock} {maxChunks : Option ℤ} {dryRun : Bool}

/-- A value error skips the scope. -/
theorem purgeScopes_skip {db : PurgeDb} {item : String} {e : PurgeError}
    (he : cutoffsOf lowering cfg clock db.scopeRetention item = .error e)
    (hvalue : e.isValueError = true) (rest : List String) (totals : PurgeCounts) (more : Bool) :
    purgeScopes lowering cfg dryRun maxChunks clock limit (item :: rest) totals more db =
      purgeScopes lowering cfg dryRun maxChunks clock limit rest (totals.note item) more db := by
  obtain ⟨cutoffs, hcut, _⟩ | ⟨e', hcut, hvalid⟩ | ⟨hcut, _⟩ :=
    policyCutoffs_cases lowering clock (resolveScopePolicy cfg db.scopeRetention item)
  · rw [cutoffsOf, hcut] at he
    cases he
  · rw [cutoffsOf, hcut] at he
    rw [purgeScopes, hvalid, Except.error.inj he]
    exact if_pos hvalue
  · rw [cutoffsOf, hcut] at he
    rw [← Except.error.inj he] at hvalue
    cases hvalue

theorem valid_of_cutoffs {overrides : Table ScopeRetention.scope} {item : String}
    {cutoffs : Cutoffs} (hcut : cutoffsOf lowering cfg clock overrides item = .ok cutoffs) :
    validatePolicyIntervals lowering (resolveScopePolicy cfg overrides item) = .ok () := by
  obtain ⟨_, _, hvalid, _⟩ | ⟨e, he, _⟩ | ⟨he, _⟩ :=
    policyCutoffs_cases lowering clock (resolveScopePolicy cfg overrides item)
  · exact hvalid
  · rw [cutoffsOf, he] at hcut
    cases hcut
  · rw [cutoffsOf, he] at hcut
    cases hcut

/-- A scope with cutoffs is purged in batches. -/
theorem purgeScopes_purge {db : PurgeDb} {item : String} {cutoffs : Cutoffs}
    (hcut : cutoffsOf lowering cfg clock db.scopeRetention item = .ok cutoffs)
    (rest : List String) (totals : PurgeCounts) (more : Bool) :
    purgeScopes lowering cfg false maxChunks clock limit (item :: rest) totals more db =
      match purgeBatches lowering (resolveScopePolicy cfg db.scopeRetention item) clock limit
          maxChunks (db.store.size + 1) 0 totals db with
      | (.error e, db) => (.error e, db)
      | (.ok (totals, more'), db) =>
          purgeScopes lowering cfg false maxChunks clock limit rest totals (more || more') db := by
  rw [purgeScopes, valid_of_cutoffs hcut]
  rfl

/-- In a dry run it is counted. -/
theorem purgeScopes_count {db : PurgeDb} {item : String} {cutoffs : Cutoffs}
    (hcut : cutoffsOf lowering cfg clock db.scopeRetention item = .ok cutoffs)
    (rest : List String) (totals : PurgeCounts) (more : Bool) :
    purgeScopes lowering cfg true maxChunks clock limit (item :: rest) totals more db =
      match countScopeExpired lowering (resolveScopePolicy cfg db.scopeRetention item) clock
          db.store with
      | .error e => (.error e, db)
      | .ok counts =>
          purgeScopes lowering cfg true maxChunks clock limit rest (totals.add counts) more db := by
  rw [purgeScopes, valid_of_cutoffs hcut]
  rfl

theorem cutoffs_spec {overrides : Table ScopeRetention.scope} {item : String} {cutoffs : Cutoffs}
    (hcut : cutoffsOf lowering cfg clock overrides item = .ok cutoffs) :
    computeCutoff lowering (some (resolveScopePolicy cfg overrides item).rawInterval) clock =
        .ok cutoffs.raw ∧
      computeCutoff lowering (some (resolveScopePolicy cfg overrides item).summaryInterval) clock =
        .ok cutoffs.summary := by
  obtain ⟨cutoffs', h, _, hraw, hsummary⟩ | ⟨e, he, _⟩ | ⟨he, _⟩ :=
    policyCutoffs_cases lowering clock (resolveScopePolicy cfg overrides item)
  · rw [cutoffsOf, h] at hcut
    rw [← Except.ok.inj hcut]
    exact ⟨hraw, hsummary⟩
  · rw [cutoffsOf, he] at hcut
    cases hcut
  · rw [cutoffsOf, he] at hcut
    cases hcut

variable (lowering cfg clock limit maxChunks)

/-- A scope was purged in its turn, from its rows as they were at first to its rows as they
are at last. -/
def Turn (item : String) (db db' : PurgeDb) : Prop :=
  ∃ totals totals' more mid mid',
    purgeBatches lowering (resolveScopePolicy cfg db.scopeRetention item) clock limit maxChunks
      (mid.store.size + 1) 0 totals mid = (.ok (totals', more), mid') ∧
    only item mid.store = only item db.store ∧ only item db'.store = only item mid'.store

variable {lowering cfg clock limit maxChunks} in
theorem Turn.batched (hlimit : 0 < limit) {item : String} {db db' : PurgeDb}
    (h : Turn limit lowering cfg clock maxChunks item db db') {cutoffs : Cutoffs}
    (hcut : cutoffsOf lowering cfg clock db.scopeRetention item = .ok cutoffs) :
    ∃ totals totals' more mid mid',
      Batched item cutoffs (quotaOf limit maxChunks 0) totals totals' more mid mid' ∧
      only item mid.store = only item db.store ∧ only item db'.store = only item mid'.store := by
  obtain ⟨totals, totals', more, mid, mid', heq, hbefore, hafter⟩ := h
  obtain ⟨hraw, hsummary⟩ := cutoffs_spec hcut
  obtain ⟨totals₁, more₁, mid₁, heq₁, hbatched⟩ := purgeBatches_spec hlimit hraw hsummary maxChunks
    (mid.store.size + 1) 0 totals mid (Nat.lt_succ_self _)
  rw [heq] at heq₁
  obtain ⟨hok, rfl⟩ := Prod.mk.inj heq₁
  obtain ⟨rfl, rfl⟩ := Prod.mk.inj (Except.ok.inj hok)
  exact ⟨totals, totals', more, mid, mid', hbatched, hbefore, hafter⟩

/-- What a run over some scopes leaves. -/
structure ScopesPurged (scopes : List String) (totals totals' : PurgeCounts) (more more' : Bool)
    (db db' : PurgeDb) : Prop where
  purged : Purged db.store db'.store
  ledger : ledger totals' db'.store = ledger totals db.store
  rest : Sweeps (fun _ => db'.store) db db'
  others : ∀ scope, (scope ∈ scopes → ∃ e,
    cutoffsOf lowering cfg clock db.scopeRetention scope = .error e) →
    only scope db'.store = only scope db.store
  turns : ∀ item ∈ scopes, ∀ cutoffs,
    cutoffsOf lowering cfg clock db.scopeRetention item = .ok cutoffs →
    Turn limit lowering cfg clock maxChunks item db db'
  more : more' = true ↔ more = true ∨ ∃ item ∈ scopes, ∃ cutoffs,
    cutoffsOf lowering cfg clock db.scopeRetention item = .ok cutoffs ∧
      Reached item cutoffs (quotaOf limit maxChunks 0) db.store

/-- No policy of the scopes raises anything but a value error. -/
def Readable (overrides : Table ScopeRetention.scope) (scopes : List String) : Prop :=
  ∀ item ∈ scopes, ∀ e, cutoffsOf lowering cfg clock overrides item = .error e →
    e.isValueError = true

variable {lowering cfg clock limit maxChunks}

theorem scopesPurged_nil (totals : PurgeCounts) (more : Bool) (db : PurgeDb) :
    ScopesPurged limit lowering cfg clock maxChunks [] totals totals more more db db where
  purged := Purged.refl db.store
  ledger := rfl
  rest := ⟨db.purgedRows, rfl⟩
  others := fun _ _ => rfl
  turns := fun _ h => nomatch h
  more := ⟨Or.inl, fun h => h.resolve_right (fun ⟨_, hmem, _⟩ => nomatch hmem)⟩

/-- A scope that is skipped keeps its rows. -/
theorem ScopesPurged.skip {item : String} {rest : List String} {totals totals' : PurgeCounts}
    {more more' : Bool} {db db' : PurgeDb} {e : PurgeError}
    (he : cutoffsOf lowering cfg clock db.scopeRetention item = .error e)
    (h : ScopesPurged limit lowering cfg clock maxChunks rest (totals.note item) totals' more more'
      db db') :
    ScopesPurged limit lowering cfg clock maxChunks (item :: rest) totals totals' more more' db
      db' where
  purged := h.purged
  ledger := by
    rw [h.ledger, ledger_eq, numbers_note, ← ledger_eq]
  rest := h.rest
  others := fun scope hscope => h.others scope (fun hmem => hscope (List.mem_cons_of_mem _ hmem))
  turns := by
    intro item' hmem cutoffs hcut
    obtain rfl | hrest := List.mem_cons.mp hmem
    · rw [he] at hcut
      cases hcut
    · exact h.turns item' hrest cutoffs hcut
  more := by
    rw [h.more]
    constructor
    · rintro (hmore | ⟨item', hmem, hreached⟩)
      · exact Or.inl hmore
      · exact Or.inr ⟨item', List.mem_cons_of_mem _ hmem, hreached⟩
    · rintro (hmore | ⟨item', hmem, cutoffs, hcut, hreached⟩)
      · exact Or.inl hmore
      · obtain rfl | hrest := List.mem_cons.mp hmem
        · rw [he] at hcut
          cases hcut
        · exact Or.inr ⟨item', hrest, cutoffs, hcut, hreached⟩

/-- A scope that is purged, and then the rest of them. -/
theorem ScopesPurged.cons {item : String} {rest : List String}
    {totals₁ totals₂ totals₃ : PurgeCounts} {more₁ more₂ more₃ : Bool} {db₁ db₂ db₃ : PurgeDb}
    {cutoffs : Cutoffs} (hnot : item ∉ rest)
    (hcut : cutoffsOf lowering cfg clock db₁.scopeRetention item = .ok cutoffs)
    (heq : purgeBatches lowering (resolveScopePolicy cfg db₁.scopeRetention item) clock limit
      maxChunks (db₁.store.size + 1) 0 totals₁ db₁ = (.ok (totals₂, more₂), db₂))
    (h₁ : Batched item cutoffs (quotaOf limit maxChunks 0) totals₁ totals₂ more₂ db₁ db₂)
    (h₂ : ScopesPurged limit lowering cfg clock maxChunks rest totals₂ totals₃ (more₁ || more₂)
      more₃ db₂ db₃) :
    ScopesPurged limit lowering cfg clock maxChunks (item :: rest) totals₁ totals₃ more₁ more₃ db₁
      db₃ := by
  have hretention : db₂.scopeRetention = db₁.scopeRetention := by
    obtain ⟨purged, h⟩ := h₁.rest
    rw [h]
  have hstays : only item db₃.store = only item db₂.store :=
    h₂.others item (fun hmem => absurd hmem hnot)
  have hfirst : ∀ scope ∈ rest, only scope db₂.store = only scope db₁.store := fun scope hmem =>
    h₁.others scope (fun h => hnot (h ▸ hmem))
  exact
    { purged := h₁.purged.trans h₂.purged
      ledger := h₂.ledger.trans h₁.ledger
      rest := h₁.rest.trans h₂.rest
      others := by
        intro scope hscope
        have hne : scope ≠ item := by
          intro h
          subst h
          obtain ⟨e, he⟩ := hscope List.mem_cons_self
          rw [he] at hcut
          cases hcut
        have hrest := h₂.others scope (fun hmem => by
          rw [hretention]
          exact hscope (List.mem_cons_of_mem _ hmem))
        exact hrest.trans (h₁.others scope hne)
      turns := by
        intro item' hmem cutoffs' hcut'
        obtain rfl | hrest := List.mem_cons.mp hmem
        · exact ⟨totals₁, totals₂, more₂, db₁, db₂, heq, rfl, hstays⟩
        · obtain ⟨totals, totals', more, mid, mid', heq', hbefore, hafter⟩ :=
            h₂.turns item' hrest cutoffs' (by rw [hretention]; exact hcut')
          rw [hretention] at heq'
          exact ⟨totals, totals', more, mid, mid', heq', hbefore.trans (hfirst item' hrest), hafter⟩
      more := by
        have hreached : ∀ item' ∈ rest, ∀ cutoffs',
            Reached item' cutoffs' (quotaOf limit maxChunks 0) db₂.store ↔
              Reached item' cutoffs' (quotaOf limit maxChunks 0) db₁.store := by
          intro item' hmem cutoffs'
          rw [Reached, Reached, dueCounts_congr (hfirst item' hmem)]
        rw [h₂.more, Bool.or_eq_true, h₁.more, hretention]
        constructor
        · rintro ((hmore | hhere) | ⟨item', hmem, cutoffs', hcut', hlater⟩)
          · exact Or.inl hmore
          · exact Or.inr ⟨item, List.mem_cons_self, cutoffs, hcut, hhere⟩
          · exact Or.inr ⟨item', List.mem_cons_of_mem _ hmem, cutoffs', hcut',
              (hreached item' hmem cutoffs').mp hlater⟩
        · rintro (hmore | ⟨item', hmem, cutoffs', hcut', hlater⟩)
          · exact Or.inl (Or.inl hmore)
          · obtain rfl | hrest := List.mem_cons.mp hmem
            · rw [hcut] at hcut'
              rw [← Except.ok.inj hcut'] at hlater
              exact Or.inl (Or.inr hlater)
            · exact Or.inr ⟨item', hrest, cutoffs', hcut',
                (hreached item' hrest cutoffs').mpr hlater⟩ }

variable (maxChunks) in
/-- A run over scopes whose policies raise value errors at most. -/
theorem purgeScopes_spec (hlimit : 0 < limit) {scopes : List String} (hnodup : scopes.Nodup) :
    ∀ totals more db, Readable lowering cfg clock db.scopeRetention scopes →
      ∃ totals' more' db',
        purgeScopes lowering cfg false maxChunks clock limit scopes totals more db =
          (.ok (totals', more'), db') ∧
        ScopesPurged limit lowering cfg clock maxChunks scopes totals totals' more more'
          db db' := by
  induction scopes with
  | nil =>
    exact fun totals more db _ => ⟨totals, more, db, rfl, scopesPurged_nil totals more db⟩
  | cons item rest ih =>
    intro totals more db hread
    obtain ⟨hnot, hrest⟩ := List.nodup_cons.mp hnodup
    cases hcut : cutoffsOf lowering cfg clock db.scopeRetention item with
    | error e =>
      rw [purgeScopes_skip hcut (hread item List.mem_cons_self e hcut)]
      obtain ⟨totals', more', db', heq, h⟩ := ih hrest (totals.note item) more db
        (fun item' hmem => hread item' (List.mem_cons_of_mem _ hmem))
      exact ⟨totals', more', db', heq, h.skip hcut⟩
    | ok cutoffs =>
      obtain ⟨hraw, hsummary⟩ := cutoffs_spec hcut
      obtain ⟨totals₂, more₂, db₂, heq₂, hbatched⟩ :=
        purgeBatches_spec hlimit hraw hsummary maxChunks (db.store.size + 1) 0 totals db
          (Nat.lt_succ_self _)
      have hretention : db₂.scopeRetention = db.scopeRetention := by
        obtain ⟨purged, h⟩ := hbatched.rest
        rw [h]
      obtain ⟨totals', more', db', heq, h⟩ := ih hrest totals₂ (more || more₂) db₂ (by
        rw [hretention]
        exact fun item' hmem => hread item' (List.mem_cons_of_mem _ hmem))
      refine ⟨totals', more', db', ?_, ScopesPurged.cons hnot hcut heq₂ hbatched h⟩
      rw [purgeScopes_purge hcut, heq₂]
      exact heq

variable (dryRun limit maxChunks) in
/-- Any other exception leaves the run; only rows of the scope itself may have gone by then. -/
theorem purgeScopes_raise (hlimit : 0 < limit) {db : PurgeDb} {item : String} {e : PurgeError}
    (he : cutoffsOf lowering cfg clock db.scopeRetention item = .error e)
    (hvalue : e.isValueError = false) (rest : List String) (totals : PurgeCounts) (more : Bool) :
    ∃ f db', purgeScopes lowering cfg dryRun maxChunks clock limit (item :: rest) totals more db =
        (.error e, db') ∧ Sweeps f db db' ∧
      ∀ scope, scope ≠ item → only scope (f db.store) = only scope db.store := by
  have hkept : ∀ scope, scope ≠ item → only scope (id db.store) = only scope db.store :=
    fun _ _ => rfl
  rw [purgeScopes]
  obtain ⟨cutoffs, hcut, _⟩ | ⟨e', hcut, hvalid⟩ | ⟨hcut, hvalid, hraise⟩ :=
    policyCutoffs_cases lowering clock (resolveScopePolicy cfg db.scopeRetention item)
  · rw [cutoffsOf, hcut] at he
    cases he
  · rw [cutoffsOf, hcut] at he
    rw [hvalid, Except.error.inj he]
    refine ⟨id, db, ?_, sweeps_refl db, hkept⟩
    dsimp only
    rw [if_neg (by rw [hvalue]; exact Bool.false_ne_true)]
  · rw [cutoffsOf, hcut] at he
    rw [hvalid, ← Except.error.inj he]
    dsimp only
    cases dryRun with
    | true =>
      refine ⟨id, db, ?_, sweeps_refl db, hkept⟩
      obtain hraw | ⟨raw, hraw, hsummary⟩ := hraise
      · simp [countScopeExpired, hraw, bind, Except.bind]
      · simp [countScopeExpired, hraw, hsummary, bind, Except.bind]
    | false =>
      rw [if_neg Bool.false_ne_true, purgeBatches, purgeScopeBatch]
      obtain hraw | ⟨raw, hraw, hsummary⟩ := hraise
      · rw [hraw]
        exact ⟨id, db, rfl, sweeps_refl db, hkept⟩
      · obtain ⟨db', htier, hdb'⟩ := purgeTier_raw item hlimit raw
          { PurgeCounts.zero with scopes := [item] } db rfl
        refine ⟨_, db', ?_, hdb', fun scope hne => ?_⟩
        · rw [hraw, hsummary]
          dsimp only [resolveScopePolicy, applyScopeOverride] at htier ⊢
          rw [htier]
        · have hsweep : (sweepOf item ⟨raw, none⟩ limit db.store).delete db.store =
              db.store.deleteLogEntries (selectDue item raw limit db.store.logEntries) := by
            simp only [sweepOf, Sweep.delete, selectDue_none, deleteClusterEmbeddings_nil,
              deleteExplanations_nil, deleteClusterRuns_nil]
          rw [← hsweep, only_delete, delete_only_of_ne hne]

/-- A dry run changes nothing, however it ends. -/
theorem purgeScopes_dry_db (scopes : List String) :
    ∀ totals more db,
      (purgeScopes lowering cfg true maxChunks clock limit scopes totals more db).2 = db := by
  induction scopes with
  | nil => exact fun _ _ _ => rfl
  | cons item rest ih =>
    intro totals more db
    rw [purgeScopes]
    cases validatePolicyIntervals lowering (resolveScopePolicy cfg db.scopeRetention item) with
    | error e =>
      dsimp only
      split
      · exact ih _ _ _
      · rfl
    | ok u =>
      dsimp only
      rw [if_pos rfl]
      split
      · rfl
      · exact ih _ _ _

/-- The scopes after some scopes are purged on what these have left. -/
theorem purgeScopes_append (before after : List String) :
    ∀ {totals more db totals' more' db'},
      purgeScopes lowering cfg dryRun maxChunks clock limit before totals more db =
          (.ok (totals', more'), db') →
        purgeScopes lowering cfg dryRun maxChunks clock limit (before ++ after) totals more db =
          purgeScopes lowering cfg dryRun maxChunks clock limit after totals' more' db' := by
  induction before with
  | nil =>
    intro totals more db totals' more' db' h
    obtain ⟨hok, rfl⟩ := Prod.mk.inj h
    obtain ⟨rfl, rfl⟩ := Prod.mk.inj (Except.ok.inj hok)
    rfl
  | cons item rest ih =>
    intro totals more db totals' more' db' h
    rw [purgeScopes] at h
    rw [List.cons_append, purgeScopes]
    cases hvalid : validatePolicyIntervals lowering
        (resolveScopePolicy cfg db.scopeRetention item) with
    | error e =>
      rw [hvalid] at h
      dsimp only at h ⊢
      split at h
      · rename_i hvalue
        rw [if_pos hvalue]
        exact ih h
      · cases h
    | ok u =>
      rw [hvalid] at h
      dsimp only at h ⊢
      cases dryRun with
      | true =>
        rw [if_pos rfl] at h ⊢
        cases hcount : countScopeExpired lowering (resolveScopePolicy cfg db.scopeRetention item)
            clock db.store with
        | error e =>
          rw [hcount] at h
          cases h
        | ok counts =>
          rw [hcount] at h
          exact ih h
      | false =>
        rw [if_neg Bool.false_ne_true] at h ⊢
        split at h
        · cases h
        · exact ih h

/-- Unless all policies are readable, there is a first scope whose policy is not. -/
theorem exists_unreadable {overrides : Table ScopeRetention.scope} {scopes : List String}
    (h : ¬ Readable lowering cfg clock overrides scopes) :
    ∃ before item after e, scopes = before ++ item :: after ∧
      Readable lowering cfg clock overrides before ∧
      cutoffsOf lowering cfg clock overrides item = .error e ∧ e.isValueError = false := by
  induction scopes with
  | nil => exact absurd (fun _ hmem => nomatch hmem) h
  | cons item rest ih =>
    by_cases hitem : ∀ e, cutoffsOf lowering cfg clock overrides item = .error e →
        e.isValueError = true
    · have hrest : ¬ Readable lowering cfg clock overrides rest := fun hrest => h (by
        intro item' hmem
        obtain rfl | hlater := List.mem_cons.mp hmem
        · exact hitem
        · exact hrest item' hlater)
      obtain ⟨before, item', after, e, rfl, hbefore, he, hvalue⟩ := ih hrest
      refine ⟨item :: before, item', after, e, rfl, (fun item'' hmem => ?_), he, hvalue⟩
      obtain rfl | hlater := List.mem_cons.mp hmem
      · exact hitem
      · exact hbefore item'' hlater
    · push Not at hitem
      obtain ⟨e, he, hvalue⟩ := hitem
      exact ⟨[], item, rest, e, rfl, (fun _ hmem => nomatch hmem), he, by simpa using hvalue⟩

variable (maxChunks) in
/-- A run up to the first scope that raises. -/
theorem purgeScopes_raises (after : List String) (hlimit : 0 < limit) {before : List String}
    {item : String}
    {e : PurgeError} {db : PurgeDb} (hnodup : before.Nodup)
    (hbefore : Readable lowering cfg clock db.scopeRetention before)
    (he : cutoffsOf lowering cfg clock db.scopeRetention item = .error e)
    (hvalue : e.isValueError = false) (totals : PurgeCounts) (more : Bool) :
    ∃ totals' more' mid f db',
      purgeScopes lowering cfg false maxChunks clock limit (before ++ item :: after) totals more
          db = (.error e, db') ∧
      ScopesPurged limit lowering cfg clock maxChunks before totals totals' more more' db mid ∧
      Sweeps f mid db' ∧
      ∀ scope, scope ≠ item → only scope (f mid.store) = only scope mid.store := by
  obtain ⟨totals', more', mid, heq, hmid⟩ :=
    purgeScopes_spec maxChunks hlimit hnodup totals more db hbefore
  have hretention : mid.scopeRetention = db.scopeRetention := by
    obtain ⟨purged, h⟩ := hmid.rest
    rw [h]
  obtain ⟨f, db', hraise, hf, hothers⟩ := purgeScopes_raise limit maxChunks false hlimit
    (by rw [hretention]; exact he) hvalue after totals' more'
  exact ⟨totals', more', mid, f, db', (purgeScopes_append before _ heq).trans hraise, hmid, hf,
    hothers⟩

end Scopes

/-! The scopes of a call. -/

theorem chunkLimit_pos (cfg : Settings) : 0 < chunkLimit cfg := by
  rw [chunkLimit]
  omega

theorem nodup_scopesOf (scope : Option String) (db : PurgeDb) : (scopesOf scope db).Nodup := by
  rw [scopesOf]
  split
  · exact List.nodup_singleton _
  · exact (Collections.sortOn_perm id _).nodup_iff.mpr (List.nodup_dedup _)

end Raglogs.PurgeRuns
