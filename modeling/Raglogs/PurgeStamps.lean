import Mathlib.Data.List.TakeWhile
import Raglogs.PurgeRuns

/-!
What the recorded time of the last purge says of the store. A call that ends without a
stop at its limit stamps one time for all scopes; whether the store is clean then depends
on the scopes that the call did not purge. A call that an interval out of range ends
neither stamps nor enqueues, whatever the limit has left behind by then.
-/

namespace Raglogs.PurgeStamps

open KeyedTables KeyedTables.Table LogEntries Purge PurgeLaws PurgeLocality PurgeRuns Retention
open Workers (purgeJob shouldEnqueuePurge)

/-- No row of a scope is expired under its cutoffs. -/
def Clean (item : String) (cutoffs : Cutoffs) (s : Store) : Prop :=
  (∀ e ∈ s.logEntries.rows, ¬ due item cutoffs.raw e) ∧
  (∀ e ∈ s.clusterEmbeddings.rows, ¬ due item cutoffs.summary e) ∧
  (∀ e ∈ s.explanations.rows, ¬ due item cutoffs.summary e) ∧
  ∀ r ∈ s.clusterRuns.rows, ¬ due item cutoffs.summary r

theorem clean_iff {item : String} {cutoffs : Cutoffs} {s : Store} :
    Clean item cutoffs s ↔ ∀ n ∈ dueCounts item cutoffs s, n = 0 := by
  simp only [Clean, dueCounts, List.mem_cons, List.not_mem_nil, or_false, forall_eq_or_imp,
    forall_eq, count_eq_zero]

theorem clean_congr {item : String} {s s' : Store} (h : only item s = only item s')
    (cutoffs : Cutoffs) : Clean item cutoffs s ↔ Clean item cutoffs s' := by
  rw [clean_iff, clean_iff, dueCounts_congr h]

/-- Rows stay behind when there are more than the quota. -/
theorem clean_after_iff {item : String} {cutoffs : Cutoffs} {quota : Option ℕ} {s s' : Store}
    (h : dueCounts item cutoffs s' = (dueCounts item cutoffs s).map (fun n => n - capped quota n)) :
    Clean item cutoffs s' ↔ ∀ q, quota = some q → ∀ n ∈ dueCounts item cutoffs s, n ≤ q := by
  rw [clean_iff, h]
  constructor
  · rintro hzero q rfl n hn
    have hleft := hzero _ (List.mem_map_of_mem hn)
    simp only [capped, Option.elim_some] at hleft
    omega
  · intro hall n' hn'
    obtain ⟨n, hn, rfl⟩ := List.mem_map.mp hn'
    cases quota with
    | none =>
      simp only [capped, Option.elim_none]
      omega
    | some q =>
      have hle := hall q rfl n hn
      simp only [capped, Option.elim_some]
      omega

/-- A call of the purge. -/
structure PurgeCall where
  scope : Option String
  dryRun : Bool
  maxChunks : Option ℤ
  clock : Timestamp

variable (lowering : Text.Lowering) (cfg : Settings)

namespace PurgeCall

def run (call : PurgeCall) (db : PurgeDb) : Except PurgeError PurgeCounts × PurgeDb :=
  runPurge lowering cfg call.scope call.dryRun call.maxChunks call.clock db

/-- What the policy of a scope comes to at the clock of the call. -/
def cutoffs (call : PurgeCall) (db : PurgeDb) (item : String) : Except PurgeError Cutoffs :=
  cutoffsOf lowering cfg call.clock db.scopeRetention item

/-- The policy of the scope ends the call with an exception. -/
def raises (call : PurgeCall) (db : PurgeDb) (item : String) : Bool :=
  match call.cutoffs lowering cfg db item with
  | .ok _ => false
  | .error e => !e.isValueError

/-- The scopes whose turn is over when the call ends. -/
def processed (call : PurgeCall) (db : PurgeDb) : List String :=
  (scopesOf call.scope db).takeWhile (fun item => !call.raises lowering cfg db item)

/-- How many rows of a table the call may delete for a scope. -/
def quota (call : PurgeCall) : Option ℕ := quotaOf (chunkLimit cfg) call.maxChunks 0

end PurgeCall

/-- What a recorded time promises, and what a limit that leaves rows behind. -/
structure StampMeansClean (call : PurgeCall) (db : PurgeDb) : Prop where
  clean : (call.run lowering cfg db).2.stamps ≠ db.stamps →
    ∀ item cutoffs, call.cutoffs lowering cfg db item = .ok cutoffs →
      Clean item cutoffs (call.run lowering cfg db).2.store
  followup : call.dryRun = false →
    (∃ item ∈ call.processed lowering cfg db, ∃ cutoffs,
      call.cutoffs lowering cfg db item = .ok cutoffs ∧
        ¬ Clean item cutoffs (call.run lowering cfg db).2.store) →
    (call.run lowering cfg db).2.workerJobs = db.workerJobs ++ [purgeJob call.clock] ∧
      (call.run lowering cfg db).2.stamps = db.stamps
  skip : (call.run lowering cfg db).2.stamps ≠ db.stamps → ∀ now intervalSeconds,
    0 < intervalSeconds →
      shouldEnqueuePurge (readLastPurgeAt (call.run lowering cfg db).2) false now intervalSeconds =
        false →
      ∀ item cutoffs, call.cutoffs lowering cfg db item = .ok cutoffs →
        Clean item cutoffs (call.run lowering cfg db).2.store

/-- The limit was reached for some scope, so that a follow-up is enqueued; or no other scope
had an expired row. A call that raises left no row behind by its limit. -/
def StampCondition (call : PurgeCall) (db : PurgeDb) : Prop :=
  call.dryRun = true ∨
  (Readable lowering cfg call.clock db.scopeRetention (scopesOf call.scope db) ∧
    ((∃ item ∈ scopesOf call.scope db, ∃ cutoffs,
        call.cutoffs lowering cfg db item = .ok cutoffs ∧
          Reached item cutoffs (call.quota cfg) db.store) ∨
      ∀ item, item ∉ scopesOf call.scope db → ∀ cutoffs,
        call.cutoffs lowering cfg db item = .ok cutoffs → Clean item cutoffs db.store)) ∨
  (¬ Readable lowering cfg call.clock db.scopeRetention (scopesOf call.scope db) ∧
    ∀ item ∈ call.processed lowering cfg db, ∀ cutoffs,
      call.cutoffs lowering cfg db item = .ok cutoffs →
        ∀ q, call.quota cfg = some q → ∀ n ∈ dueCounts item cutoffs db.store, n ≤ q)

variable {lowering cfg}

/-- The due rows of a scope after its turn. -/
theorem dueCounts_turn {limit : ℕ} (hlimit : 0 < limit) {clock : Timestamp}
    {maxChunks : Option ℤ} {item : String} {db db' : PurgeDb}
    (h : Turn limit lowering cfg clock maxChunks item db db') {cutoffs : Cutoffs}
    (hcut : cutoffsOf lowering cfg clock db.scopeRetention item = .ok cutoffs) :
    dueCounts item cutoffs db'.store = (dueCounts item cutoffs db.store).map
      (fun n => n - capped (quotaOf limit maxChunks 0) n) := by
  obtain ⟨totals, totals', more, mid, mid', hbatched, hbefore, hafter⟩ := h.batched hlimit hcut
  rw [dueCounts_congr hafter, hbatched.reaped.dueCounts, dueCounts_congr hbefore]

theorem processed_of_unreadable {call : PurgeCall} {db : PurgeDb} {before after : List String}
    {item : String} {e : PurgeError} (hscopes : scopesOf call.scope db = before ++ item :: after)
    (hbefore : Readable lowering cfg call.clock db.scopeRetention before)
    (he : call.cutoffs lowering cfg db item = .error e) (hvalue : e.isValueError = false) :
    call.processed lowering cfg db = before := by
  have hall : ∀ item' ∈ before, (!call.raises lowering cfg db item') = true := by
    intro item' hmem
    rw [PurgeCall.raises]
    split
    · rfl
    · rename_i e' he'
      rw [hbefore item' hmem e' he']
      rfl
  have hraises : (!call.raises lowering cfg db item) = false := by
    rw [PurgeCall.raises, he]
    simp [hvalue]
  rw [PurgeCall.processed, hscopes, List.takeWhile_append_of_pos hall, List.takeWhile_cons, hraises]
  simp

theorem stamps_of_sweeps {f : Store → Store} {db db' : PurgeDb} (h : Sweeps f db db') :
    db'.stamps = db.stamps ∧ db'.workerJobs = db.workerJobs ∧
      db'.scopeRetention = db.scopeRetention := by
  obtain ⟨purged, rfl⟩ := h
  exact ⟨rfl, rfl, rfl⟩

/-- A call that purges all its scopes. -/
theorem run_of_readable {call : PurgeCall} {db : PurgeDb} (hdry : call.dryRun = false)
    (h : Readable lowering cfg call.clock db.scopeRetention (scopesOf call.scope db)) :
    ∃ totals' more db', (call.run lowering cfg db).2 =
        (if more then enqueueFollowupPurge call.clock db' else writeLastPurgeAt call.clock db') ∧
      ScopesPurged (chunkLimit cfg) lowering cfg call.clock call.maxChunks (scopesOf call.scope db)
        PurgeCounts.zero totals' false more db db' := by
  obtain ⟨totals', more, db', heq, hpurged⟩ := purgeScopes_spec call.maxChunks (chunkLimit_pos cfg)
    (nodup_scopesOf call.scope db) PurgeCounts.zero false db h
  refine ⟨totals', more, db', ?_, hpurged⟩
  rw [PurgeCall.run, hdry, runPurge, heq]
  cases more <;> rfl

/-- A call that returns stamps unless a limit was reached, and is right to if the scopes that
it did not purge are clean. -/
theorem stampMeansClean_of_readable {call : PurgeCall} {db : PurgeDb} (hdry : call.dryRun = false)
    (h : Readable lowering cfg call.clock db.scopeRetention (scopesOf call.scope db)) :
    StampMeansClean lowering cfg call db ↔
      (∃ item ∈ scopesOf call.scope db, ∃ cutoffs,
        call.cutoffs lowering cfg db item = .ok cutoffs ∧
          Reached item cutoffs (call.quota cfg) db.store) ∨
      ∀ item, item ∉ scopesOf call.scope db → ∀ cutoffs,
        call.cutoffs lowering cfg db item = .ok cutoffs → Clean item cutoffs db.store := by
  obtain ⟨totals', more, db', heq, hpurged⟩ := run_of_readable hdry h
  obtain ⟨hstamps, hjobs, _⟩ := stamps_of_sweeps hpurged.rest
  have hmore := hpurged.more
  simp only [Bool.false_eq_true, false_or] at hmore
  have hothers : ∀ item, item ∉ scopesOf call.scope db → ∀ cutoffs,
      Clean item cutoffs db'.store ↔ Clean item cutoffs db.store := by
    intro item hnot cutoffs
    exact clean_congr (hpurged.others item (fun hmem => absurd hmem hnot)) cutoffs
  cases more with
  | true =>
    have hafter : (call.run lowering cfg db).2 = enqueueFollowupPurge call.clock db' := heq
    have hsame : (call.run lowering cfg db).2.stamps = db.stamps := by
      rw [hafter]
      exact hstamps
    refine ⟨fun _ => Or.inl (hmore.mp rfl), fun _ => ?_⟩
    refine ⟨fun hne => absurd hsame hne, fun _ _ => ⟨?_, hsame⟩, fun hne => absurd hsame hne⟩
    rw [hafter, ← hjobs]
    rfl
  | false =>
    have hafter : (call.run lowering cfg db).2 = writeLastPurgeAt call.clock db' := heq
    have hstore : (call.run lowering cfg db).2.store = db'.store := by rw [hafter]; rfl
    have hne : (call.run lowering cfg db).2.stamps ≠ db.stamps := by
      rw [hafter, ← hstamps]
      simp [writeLastPurgeAt]
    have hhere : ∀ item ∈ scopesOf call.scope db, ∀ cutoffs,
        call.cutoffs lowering cfg db item = .ok cutoffs → Clean item cutoffs db'.store := by
      intro item hmem cutoffs hcut
      have hcounts :=
        dueCounts_turn (chunkLimit_pos cfg) (hpurged.turns item hmem cutoffs hcut) hcut
      refine (clean_after_iff hcounts).mpr (fun q hq n hn => ?_)
      by_contra hle
      have hreached : Reached item cutoffs (call.quota cfg) db.store := ⟨q, hq, n, hn, by omega⟩
      exact absurd (hmore.mpr ⟨item, hmem, cutoffs, hcut, hreached⟩) Bool.false_ne_true
    constructor
    · intro hclean
      refine Or.inr (fun item hnot cutoffs hcut => (hothers item hnot cutoffs).mp ?_)
      rw [← hstore]
      exact hclean.clean hne item cutoffs hcut
    · intro hcondition
      have hall : ∀ item cutoffs, call.cutoffs lowering cfg db item = .ok cutoffs →
          Clean item cutoffs (call.run lowering cfg db).2.store := by
        intro item cutoffs hcut
        rw [hstore]
        by_cases hmem : item ∈ scopesOf call.scope db
        · exact hhere item hmem cutoffs hcut
        · obtain hreached | hclean := hcondition
          · exact absurd (hmore.mpr hreached) Bool.false_ne_true
          · exact (hothers item hmem cutoffs).mpr (hclean item hmem cutoffs hcut)
      exact ⟨fun _ => hall,
        fun _ ⟨item, _, cutoffs, hcut, hnot⟩ => absurd (hall item cutoffs hcut) hnot,
        fun _ _ _ _ _ => hall⟩

/-- A call that raises has left no row behind, or no follow-up is there for it. -/
theorem stampMeansClean_of_unreadable {call : PurgeCall} {db : PurgeDb} (hdry : call.dryRun = false)
    (h : ¬ Readable lowering cfg call.clock db.scopeRetention (scopesOf call.scope db)) :
    StampMeansClean lowering cfg call db ↔
      ∀ item ∈ call.processed lowering cfg db, ∀ cutoffs,
        call.cutoffs lowering cfg db item = .ok cutoffs →
          ∀ q, call.quota cfg = some q → ∀ n ∈ dueCounts item cutoffs db.store, n ≤ q := by
  obtain ⟨before, item, after, e, hscopes, hbefore, he, hvalue⟩ := exists_unreadable h
  have hnodup := nodup_scopesOf call.scope db
  rw [hscopes] at hnodup
  obtain ⟨hnodupBefore, _, hdisjoint⟩ := List.nodup_append.mp hnodup
  obtain ⟨totals', more', mid, f, db', heq, hpurged, hf, hkept⟩ :=
    purgeScopes_raises call.maxChunks after (chunkLimit_pos cfg) hnodupBefore hbefore he hvalue
      PurgeCounts.zero false
  rw [← hscopes] at heq
  have hafter : (call.run lowering cfg db).2 = db' := by
    rw [PurgeCall.run, hdry, runPurge, heq]
  obtain ⟨hstampsMid, hjobsMid, _⟩ := stamps_of_sweeps hpurged.rest
  obtain ⟨hstamps, hjobs, _⟩ := stamps_of_sweeps hf
  have hsame : (call.run lowering cfg db).2.stamps = db.stamps := by
    rw [hafter, hstamps, hstampsMid]
  have hnoJob : (call.run lowering cfg db).2.workerJobs ≠
      db.workerJobs ++ [purgeJob call.clock] := by
    rw [hafter, hjobs, hjobsMid]
    simp
  have hclean : ∀ item' ∈ before, ∀ cutoffs, call.cutoffs lowering cfg db item' = .ok cutoffs →
      (Clean item' cutoffs (call.run lowering cfg db).2.store ↔
        ∀ q, call.quota cfg = some q → ∀ n ∈ dueCounts item' cutoffs db.store, n ≤ q) := by
    intro item' hmem cutoffs hcut
    have hne : item' ≠ item := hdisjoint item' hmem item List.mem_cons_self
    have hstore : only item' db'.store = only item' mid.store := by
      obtain ⟨purged, rfl⟩ := hf
      exact hkept item' hne
    have hcounts := dueCounts_turn (chunkLimit_pos cfg) (hpurged.turns item' hmem cutoffs hcut) hcut
    rw [hafter, clean_congr hstore]
    exact clean_after_iff hcounts
  rw [processed_of_unreadable hscopes hbefore he hvalue]
  constructor
  · intro hmeans item' hmem cutoffs hcut
    rw [← hclean item' hmem cutoffs hcut]
    by_contra hleft
    refine hnoJob (hmeans.followup hdry ⟨item', ?_, cutoffs, hcut, hleft⟩).1
    rwa [processed_of_unreadable hscopes hbefore he hvalue]
  · intro hquota
    refine ⟨fun hne => absurd hsame hne, ?_, fun hne => absurd hsame hne⟩
    rintro _ ⟨item', hmem, cutoffs, hcut, hleft⟩
    rw [processed_of_unreadable hscopes hbefore he hvalue] at hmem
    exact absurd ((hclean item' hmem cutoffs hcut).mpr (hquota item' hmem cutoffs hcut)) hleft

theorem run_dry {call : PurgeCall} (hdry : call.dryRun = true) (db : PurgeDb) :
    (call.run lowering cfg db).2 = db := by
  have hdb : (purgeScopes lowering cfg true call.maxChunks call.clock (chunkLimit cfg)
      (scopesOf call.scope db) PurgeCounts.zero false db).2 = db := purgeScopes_dry_db _ _ _ _
  rw [PurgeCall.run, hdry, runPurge]
  cases hrun : purgeScopes lowering cfg true call.maxChunks call.clock (chunkLimit cfg)
      (scopesOf call.scope db) PurgeCounts.zero false db with
  | mk result after =>
    rw [hrun] at hdb
    cases result <;> exact hdb

variable (lowering cfg)

/-- When a recorded time means a clean store, and a limit a follow-up. -/
theorem stampMeansClean_iff (call : PurgeCall) (db : PurgeDb) :
    StampMeansClean lowering cfg call db ↔ StampCondition lowering cfg call db := by
  cases hdry : call.dryRun with
  | true =>
    have hsame : (call.run lowering cfg db).2.stamps = db.stamps := by rw [run_dry hdry]
    refine ⟨fun _ => Or.inl hdry, fun _ => ?_⟩
    refine ⟨fun hne => absurd hsame hne, fun hreal => ?_, fun hne => absurd hsame hne⟩
    rw [hdry] at hreal
    cases hreal
  | false =>
    by_cases hread : Readable lowering cfg call.clock db.scopeRetention (scopesOf call.scope db)
    · rw [stampMeansClean_of_readable hdry hread]
      constructor
      · exact fun h => Or.inr (Or.inl ⟨hread, h⟩)
      · rintro (h | ⟨_, h⟩ | ⟨h, _⟩)
        · rw [hdry] at h
          cases h
        · exact h
        · exact absurd hread h
    · rw [stampMeansClean_of_unreadable hdry hread]
      constructor
      · exact fun h => Or.inr (Or.inr ⟨hread, h⟩)
      · rintro (h | ⟨h, _⟩ | ⟨_, h⟩)
        · rw [hdry] at h
          cases h
        · exact absurd h hread
        · exact h

/-! A purge of one scope that stamps the time for all of them. -/

def oldEntry : StoredEntry :=
  { entry :=
      { id := 0, ingestionJobId := none, timestamp := none, service := none, environment := none,
        level := none, traceId := none, requestId := none, host := none, rawMessage := none,
        normalizedMessage := none, fingerprint := none, parserType := none, extraJson := none,
        sourceAdapter := "file", sourceRef := none, originalLineHash := none, scope := "payments" }
    createdAt := 0 }

def oldDb : PurgeDb :=
  ⟨{ Store.empty with logEntries := ⟨[oldEntry], List.nodup_singleton _⟩ }, .empty, [], [], []⟩

/-- A purge of a scope that has no rows, 2026. -/
def otherScopeCall : PurgeCall := ⟨some "orders", false, some 1, 1767225600000000⟩

theorem named_scope_not_clean :
    ¬ StampMeansClean Text.asciiLowering .default otherScopeCall oldDb := by
  have hstamps : (otherScopeCall.run Text.asciiLowering .default oldDb).2.stamps =
      [1767225600000000] := by decide +kernel
  have hcut : otherScopeCall.cutoffs Text.asciiLowering .default oldDb "payments" =
      .ok ⟨some 1764633600000000, some 1751673600000000⟩ := by decide +kernel
  have hleft : (otherScopeCall.run Text.asciiLowering .default oldDb).2.store.logEntries.rows.any
      (due "payments" (some 1764633600000000)) = true := by decide +kernel
  obtain ⟨e, he, hdue⟩ := List.any_eq_true.mp hleft
  intro h
  have hclean := h.clean (by rw [hstamps]; exact List.cons_ne_nil _ _) "payments" _ hcut
  exact hclean.1 e he hdue

end Raglogs.PurgeStamps
