import Mathlib.Data.List.Find
import Raglogs.PurgePrediction
import Raglogs.PurgeStamps

/-!
Whether a bad retention override is contained in its scope. An override is bad when it
cannot be parsed, or its cutoff cannot be computed. A call skips a scope whose policy
raises a value error and goes on; an override out of range raises another exception,
which ends the call and leaves the scopes after it as they were.
-/

namespace Raglogs.OverrideContainment

open KeyedTables KeyedTables.Table LogEntries Purge PurgeLaws PurgeLocality PurgePrediction
open PurgeRuns PurgeStamps Retention

variable (lowering : Text.Lowering) (cfg : Settings)

/-- Whether a stored interval cannot be parsed or applied. -/
def badInterval (clock : Timestamp) (interval : Option String) : Bool :=
  match interval with
  | none => false
  | some value =>
      match computeCutoff lowering (some value) clock with
      | .ok _ => false
      | .error _ => true

def badOverride (clock : Timestamp) (row : ScopeRetention) : Bool :=
  badInterval lowering clock row.rawInterval || badInterval lowering clock row.summaryInterval

/-- The override of the scope itself is bad. -/
def hasBadOverride (clock : Timestamp) (overrides : Table ScopeRetention.scope) (item : String) :
    Bool :=
  (scopeOverride overrides item).any (badOverride lowering clock)

/-- The same database with the bad overrides absent. -/
def withoutBad (clock : Timestamp) (db : PurgeDb) : PurgeDb :=
  { db with
    scopeRetention := db.scopeRetention.restrict (fun row => !badOverride lowering clock row) }

/-- The same call for one scope. -/
def forScope (call : PurgeCall) (item : String) : PurgeCall := { call with scope := some item }

/-- A call returns, skips the scopes with a bad override of their own and no others, and
purges each other scope as a call for it alone, and as the same call, do when the bad
overrides are absent. -/
structure Contained (call : PurgeCall) (db : PurgeDb) : Prop where
  completes : ∃ totals, (call.run lowering cfg db).1 = .ok totals
  skips : ∀ item ∈ scopesOf call.scope db, ∀ e, call.cutoffs lowering cfg db item = .error e →
    hasBadOverride lowering call.clock db.scopeRetention item ∧
      only item (call.run lowering cfg db).2.store = only item db.store
  alone : ∀ item ∈ scopesOf call.scope db,
    ¬ hasBadOverride lowering call.clock db.scopeRetention item →
      only item (call.run lowering cfg db).2.store =
        only item ((forScope call item).run lowering cfg
          (withoutBad lowering call.clock db)).2.store
  absent : (∃ totals, (call.run lowering cfg (withoutBad lowering call.clock db)).1 = .ok totals) →
    ∀ item ∈ scopesOf call.scope db,
      ¬ hasBadOverride lowering call.clock db.scopeRetention item →
        only item (call.run lowering cfg db).2.store =
          only item (call.run lowering cfg (withoutBad lowering call.clock db)).2.store

/-- Each policy of the scopes comes to cutoffs, or raises a value error over an override of
the scope itself. -/
def ContainedCondition (call : PurgeCall) (db : PurgeDb) : Prop :=
  ∀ item ∈ scopesOf call.scope db, ∀ e, call.cutoffs lowering cfg db item = .error e →
    e.isValueError = true ∧ hasBadOverride lowering call.clock db.scopeRetention item = true

variable {lowering cfg}

/-! Overrides. -/

/-- A scope without a bad override keeps its override when the bad ones are absent. -/
theorem scopeOverride_withoutBad {clock : Timestamp} {db : PurgeDb} {item : String}
    (h : ¬ hasBadOverride lowering clock db.scopeRetention item) :
    scopeOverride (withoutBad lowering clock db).scopeRetention item =
      scopeOverride db.scopeRetention item := by
  have hrows : ∀ row ∈ db.scopeRetention.rows, row.scope = item →
      badOverride lowering clock row = false := by
    intro row hrow hscope
    cases hfind : scopeOverride db.scopeRetention item with
    | none =>
      have hnone := List.find?_eq_none.mp hfind row hrow
      exact absurd (beq_iff_eq.mpr hscope) hnone
    | some found =>
      have hfound := List.find?_some hfind
      have heq : row = found := eq_of_key hrow (List.mem_of_find?_eq_some hfind)
        (hscope.trans (beq_iff_eq.mp hfound).symm)
      rw [hasBadOverride, hfind, ← heq] at h
      simpa using h
  rw [scopeOverride, scopeOverride, withoutBad, rows_restrict, List.find?_filter]
  refine List.find?_congr (fun row hrow => ?_)
  by_cases hscope : row.scope = item
  · simp [hrows row hrow hscope, hscope]
  · simp [hscope]

theorem policy_withoutBad {clock : Timestamp} {db : PurgeDb} {item : String}
    (h : ¬ hasBadOverride lowering clock db.scopeRetention item) :
    resolveScopePolicy cfg (withoutBad lowering clock db).scopeRetention item =
      resolveScopePolicy cfg db.scopeRetention item := by
  rw [resolveScopePolicy, resolveScopePolicy, scopeOverride_withoutBad h]

/-! Scopes. -/

theorem ne_empty_of_mem_scopesOf {scope : Option String} {db : PurgeDb} {item : String}
    (h : item ∈ scopesOf scope db) : item ≠ "" := by
  rw [scopesOf] at h
  split at h
  · rename_i named hnamed
    rw [List.mem_singleton.mp h]
    exact (Text.truthy_eq_some.mp hnamed).2
  · rw [listScopesToPurge, Collections.mem_sortOn, List.mem_dedup, List.mem_filter] at h
    simpa using h.2

theorem scopesOf_some {item : String} (h : item ≠ "") (db : PurgeDb) :
    scopesOf (some item) db = [item] := by
  rw [scopesOf, Text.truthy_eq_some.mpr ⟨rfl, h⟩]

/-- Without the bad overrides the scopes of a call are the same, but for some with a bad one. -/
theorem mem_scopesOf_withoutBad {clock : Timestamp} {scope : Option String} {db : PurgeDb}
    {item : String} (hmem : item ∈ scopesOf scope db)
    (h : ¬ hasBadOverride lowering clock db.scopeRetention item) :
    item ∈ scopesOf scope (withoutBad lowering clock db) := by
  have hne := ne_empty_of_mem_scopesOf hmem
  rw [scopesOf] at hmem ⊢
  split
  · rename_i named hnamed
    rw [hnamed] at hmem
    exact hmem
  · rename_i hnamed
    rw [hnamed] at hmem
    have hoverride : item ∈ db.scopeRetention.rows.map ScopeRetention.scope →
        item ∈ (withoutBad lowering clock db).scopeRetention.rows.map ScopeRetention.scope := by
      intro hin
      obtain ⟨row, hrow, rfl⟩ := List.mem_map.mp hin
      refine List.mem_map_of_mem (mem_restrict.mpr ⟨hrow, ?_⟩)
      have hfound : (scopeOverride db.scopeRetention row.scope).isSome :=
        List.find?_isSome.mpr ⟨row, hrow, beq_self_eq_true _⟩
      obtain ⟨found, hfind⟩ := Option.isSome_iff_exists.mp hfound
      have hscope := List.find?_some hfind
      have heq : found = row := eq_of_key (List.mem_of_find?_eq_some hfind) hrow
        (beq_iff_eq.mp hscope)
      rw [hasBadOverride, hfind, heq] at h
      simpa using h
    simp only [listScopesToPurge, Collections.mem_sortOn, List.mem_dedup, List.mem_filter,
      List.mem_append] at hmem ⊢
    obtain ⟨hdata | hrow, hkept⟩ := hmem
    · exact ⟨Or.inl hdata, hkept⟩
    · exact ⟨Or.inr (hoverride hrow), hkept⟩

/-! Turns. -/

/-- Two turns of a scope under one policy, on tables that agree on the scope. -/
theorem turn_only {limit : ℕ} (hlimit : 0 < limit) {clock : Timestamp} {maxChunks : Option ℤ}
    {item : String} {db db' d d' : PurgeDb} {cutoffs : Cutoffs}
    (h : Turn limit lowering cfg clock maxChunks item db db')
    (h' : Turn limit lowering cfg clock maxChunks item d d')
    (hcut : cutoffsOf lowering cfg clock db.scopeRetention item = .ok cutoffs)
    (hpolicy : resolveScopePolicy cfg d.scopeRetention item =
      resolveScopePolicy cfg db.scopeRetention item)
    (hsame : only item db.store = only item d.store) :
    only item db'.store = only item d'.store := by
  obtain ⟨_, _, _, mid, mid', heq, hbefore, hafter⟩ := h
  obtain ⟨_, _, _, mid₂, mid₂', heq₂, hbefore₂, hafter₂⟩ := h'
  rw [hpolicy] at heq₂
  obtain ⟨hraw, hsummary⟩ := cutoffs_spec hcut
  have hmid : only item mid.store = only item mid₂.store :=
    hbefore.trans (hsame.trans hbefore₂.symm)
  rw [hafter, hafter₂]
  exact purgeBatches_only hlimit hraw hsummary hmid heq heq₂

/-- The store after a call that purges all its scopes. -/
theorem store_of_readable {call : PurgeCall} {db : PurgeDb} (hdry : call.dryRun = false)
    (h : Readable lowering cfg call.clock db.scopeRetention (scopesOf call.scope db)) :
    ∃ totals' more db', (call.run lowering cfg db).2.store = db'.store ∧
      ScopesPurged (chunkLimit cfg) lowering cfg call.clock call.maxChunks (scopesOf call.scope db)
        PurgeCounts.zero totals' false more db db' := by
  obtain ⟨totals', more, db', heq, hpurged⟩ := run_of_readable hdry h
  refine ⟨totals', more, db', ?_, hpurged⟩
  rw [heq]
  cases more <;> rfl

/-- A call returns when it meets value errors at most. -/
theorem completes_iff (call : PurgeCall) (db : PurgeDb) :
    (∃ totals, (call.run lowering cfg db).1 = .ok totals) ↔
      Readable lowering cfg call.clock db.scopeRetention (scopesOf call.scope db) := by
  have hlimit := chunkLimit_pos cfg
  cases hdry : call.dryRun with
  | true =>
    constructor
    · rintro ⟨totals, htotals⟩
      rw [PurgeCall.run, hdry] at htotals
      exact readable_of_dry lowering cfg call.clock (Prod.ext htotals rfl)
    · intro hread
      obtain ⟨totals, heq, _⟩ := purgeScopes_dry (chunkLimit cfg) PurgeCounts.zero false db hread
      refine ⟨{ totals with moreRemaining := false }, ?_⟩
      rw [PurgeCall.run, hdry, runPurge, heq call.maxChunks]
      rfl
  | false =>
    constructor
    · rintro ⟨totals, htotals⟩
      by_contra hread
      obtain ⟨before, item, after, e, hscopes, hbefore, he, hvalue⟩ := exists_unreadable hread
      have hnodup := nodup_scopesOf call.scope db
      rw [hscopes] at hnodup
      obtain ⟨_, _, _, _, _, heq, _⟩ := purgeScopes_raises call.maxChunks after hlimit
        (List.nodup_append.mp hnodup).1 hbefore he hvalue PurgeCounts.zero false
      rw [← hscopes] at heq
      rw [PurgeCall.run, hdry, runPurge, heq] at htotals
      cases htotals
    · intro hread
      obtain ⟨totals, more, db', heq, _⟩ := purgeScopes_spec call.maxChunks hlimit
        (nodup_scopesOf call.scope db) PurgeCounts.zero false db hread
      refine ⟨{ totals with moreRemaining := more }, ?_⟩
      rw [PurgeCall.run, hdry, runPurge, heq]
      cases more <;> rfl

/-- The rows of a scope without a bad override, after two calls that purge it. -/
theorem only_run_eq {call call' : PurgeCall} {db d : PurgeDb} {item : String} {cutoffs : Cutoffs}
    (hdry : call.dryRun = false) (hdry' : call'.dryRun = false)
    (hclock : call'.clock = call.clock) (hchunks : call'.maxChunks = call.maxChunks)
    (hread : Readable lowering cfg call.clock db.scopeRetention (scopesOf call.scope db))
    (hread' : Readable lowering cfg call'.clock d.scopeRetention (scopesOf call'.scope d))
    (hmem : item ∈ scopesOf call.scope db) (hmem' : item ∈ scopesOf call'.scope d)
    (hcut : call.cutoffs lowering cfg db item = .ok cutoffs)
    (hpolicy : resolveScopePolicy cfg d.scopeRetention item =
      resolveScopePolicy cfg db.scopeRetention item) (hstore : d.store = db.store) :
    only item (call.run lowering cfg db).2.store =
      only item (call'.run lowering cfg d).2.store := by
  obtain ⟨_, _, db', heq, hpurged⟩ := store_of_readable hdry hread
  obtain ⟨_, _, d', heq', hpurged'⟩ := store_of_readable hdry' hread'
  have hcut' : cutoffsOf lowering cfg call'.clock d.scopeRetention item = .ok cutoffs := by
    rw [cutoffsOf, hpolicy, hclock]
    exact hcut
  have hturn := hpurged'.turns item hmem' cutoffs hcut'
  rw [hclock, hchunks] at hturn
  rw [heq, heq']
  exact turn_only (chunkLimit_pos cfg) (hpurged.turns item hmem cutoffs hcut) hturn hcut hpolicy
    (by rw [hstore])

variable (lowering cfg)

/-- Bad overrides are contained exactly when each policy that fails raises a value error over
an override of its own scope. -/
theorem overrides_contained_iff (call : PurgeCall) (db : PurgeDb) :
    Contained lowering cfg call db ↔ ContainedCondition lowering cfg call db := by
  constructor
  · intro h item hmem e he
    exact ⟨(completes_iff call db).mp h.completes item hmem e he, (h.skips item hmem e he).1⟩
  · intro hcondition
    have hread : Readable lowering cfg call.clock db.scopeRetention (scopesOf call.scope db) :=
      fun item hmem e he => (hcondition item hmem e he).1
    have hgood : ∀ item ∈ scopesOf call.scope db,
        ¬ hasBadOverride lowering call.clock db.scopeRetention item →
          ∃ cutoffs, call.cutoffs lowering cfg db item = .ok cutoffs := by
      intro item hmem hnot
      cases hcut : call.cutoffs lowering cfg db item with
      | error e => exact absurd (hcondition item hmem e hcut).2 hnot
      | ok cutoffs => exact ⟨cutoffs, rfl⟩
    refine ⟨(completes_iff call db).mpr hread, fun item hmem e he =>
      ⟨(hcondition item hmem e he).2, ?_⟩, fun item hmem hnot => ?_,
      fun habsent item hmem hnot => ?_⟩
    · cases hdry : call.dryRun with
      | true => rw [run_dry hdry]
      | false =>
        obtain ⟨_, _, db', heq, hpurged⟩ := store_of_readable hdry hread
        rw [heq]
        exact hpurged.others item (fun _ => ⟨e, he⟩)
    · obtain ⟨cutoffs, hcut⟩ := hgood item hmem hnot
      have hpolicy :
          resolveScopePolicy cfg (withoutBad lowering call.clock db).scopeRetention item =
            resolveScopePolicy cfg db.scopeRetention item := policy_withoutBad hnot
      have hscopes :
          scopesOf (forScope call item).scope (withoutBad lowering call.clock db) = [item] :=
        scopesOf_some (ne_empty_of_mem_scopesOf hmem) _
      cases hdry : call.dryRun with
      | true =>
        have hdry' : (forScope call item).dryRun = true := hdry
        rw [run_dry hdry, run_dry hdry']
        rfl
      | false =>
        have hdry' : (forScope call item).dryRun = false := hdry
        refine only_run_eq hdry hdry' rfl rfl hread ?_ hmem ?_ hcut hpolicy rfl
        · rw [hscopes]
          intro item' hmem' e he
          have heq : cutoffsOf lowering cfg call.clock db.scopeRetention item = .error e := by
            rw [← List.mem_singleton.mp hmem', cutoffsOf]
            rw [← List.mem_singleton.mp hmem'] at hpolicy
            rw [← hpolicy]
            exact he
          rw [PurgeCall.cutoffs, heq] at hcut
          cases hcut
        · rw [hscopes]
          exact List.mem_cons_self
    · obtain ⟨cutoffs, hcut⟩ := hgood item hmem hnot
      cases hdry : call.dryRun with
      | true =>
        rw [run_dry hdry, run_dry hdry]
        rfl
      | false =>
        exact only_run_eq hdry hdry rfl rfl hread ((completes_iff call _).mp habsent) hmem
          (mem_scopesOf_withoutBad hmem hnot) hcut (policy_withoutBad hnot) rfl

/-- A purge of all scopes. -/
def distantCall : PurgeCall := ⟨none, false, some 1, sampleClock⟩

theorem distant_override_not_contained :
    ¬ Contained Text.asciiLowering .default distantCall distantDb := by
  intro h
  have hread := (completes_iff distantCall distantDb).mp h.completes
  have hvalue := hread "payments" (List.mem_singleton.mpr rfl) _ distant_raises
  cases hvalue

end Raglogs.OverrideContainment
