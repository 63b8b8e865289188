import Raglogs.TriggerScan

/-!
What a bound on the causal patterns changes in the search for triggers: nothing up to
the bound. Behind it the query goes by the raw text of a row without a normalized one
and the check by the message in it, so that a change after the bound may be shown, and a
search may be spent on rows that the check rejects.
-/

namespace Raglogs.TriggerScanLaws

open BoundedScans Collections LogEntries TriggerScan Text Triggers

variable (loads : String → Except String Json) (store : LogStore) (search : Search)
  (onset : Timestamp)

def instant (e : LogEntry) : Timestamp := instantOf e.timestamp

/-- The trigger messages among some rows. -/
def triggersAmong (rows : List LogEntry) : List Reading :=
  (rows.filterMap (readRow loads)).filter fun r => isTriggerMessage r.2

theorem mem_triggersAmong {rows : List LogEntry} {r : Reading} :
    r ∈ triggersAmong loads rows ↔
      r.1 ∈ rows ∧ messageOf loads r.1 = some r.2 ∧ isTriggerMessage r.2 = true := by
  obtain ⟨e, message⟩ := r
  rw [triggersAmong, List.mem_filter, List.mem_filterMap]
  constructor
  · rintro ⟨⟨e', he', hread⟩, htrigger⟩
    obtain ⟨message', hmessage, heq⟩ := Option.map_eq_some_iff.mp hread
    obtain ⟨rfl, rfl⟩ := Prod.mk.inj heq
    exact ⟨he', hmessage, htrigger⟩
  · intro ⟨he, hmessage, htrigger⟩
    exact ⟨⟨e, he, Option.map_eq_some_iff.mpr ⟨message, hmessage, rfl⟩⟩, htrigger⟩

theorem triggersAmong_append (rows rows' : List LogEntry) :
    triggersAmong loads (rows ++ rows') =
      triggersAmong loads rows ++ triggersAmong loads rows' := by
  rw [triggersAmong, List.filterMap_append, List.filter_append]
  rfl

section Rows

variable {store search onset}

theorem instant_le_of_rowOrder_le {a b : LogEntry} (hab : rowOrder a ≤ rowOrder b) :
    instant a ≤ instant b := by
  rcases (Prod.Lex.toLex_le_toLex).mp hab with hlt | ⟨heq, -⟩
  · exact le_of_lt hlt
  · exact le_of_eq heq

theorem rows_sorted (searchEnd : Option Timestamp) :
    (search.rows store searchEnd).Pairwise fun a b => instant a ≤ instant b :=
  (sortOn_pairwise rowOrder _).take.imp instant_le_of_rowOrder_le

/-- The candidates of the rows are already in order. -/
theorem sortOn_triggersAmong (store : LogStore) (search : Search) (searchEnd : Option Timestamp) :
    sortOn (fun r : Reading => instantOf r.1.timestamp)
        (triggersAmong loads (search.rows store searchEnd)) =
      triggersAmong loads (search.rows store searchEnd) := by
  refine List.Pairwise.insertionSort_eq ?_
  refine List.Pairwise.filter _ (List.Pairwise.filterMap _ ?_ (rows_sorted searchEnd))
  intro a a' hle r hr r' hr'
  obtain ⟨message, -, rfl⟩ := Option.map_eq_some_iff.mp hr
  obtain ⟨message', -, rfl⟩ := Option.map_eq_some_iff.mp hr'
  exact hle

/-- The search shows the first three trigger messages that do not begin alike, if every
message is a text. -/
theorem shown_eq_some_iff {searchEnd : Option Timestamp} {shown : List Reading} :
    search.shown loads store searchEnd = some shown ↔
      (∀ e ∈ search.rows store searchEnd, (messageOf loads e).isSome = true) ∧
        (firsts dedupKey [] (triggersAmong loads (search.rows store searchEnd))).take 3 =
          shown := by
  have hread : ∀ e, (readRow loads e).isSome = (messageOf loads e).isSome :=
    fun e => Option.isSome_map
  constructor
  · intro h
    obtain ⟨readings, hreadings, hshown⟩ := Option.bind_eq_some_iff.mp h
    obtain ⟨hall, rfl⟩ := mapM_eq_some_iff.mp hreadings
    refine ⟨fun e he => hread e ▸ hall e he, ?_⟩
    have hsorted := congrArg (fun l => (firsts dedupKey [] l).take 3)
      (sortOn_triggersAmong loads store search searchEnd)
    exact hsorted.symm.trans (Option.some.inj hshown)
  · intro ⟨hall, hshown⟩
    refine Option.bind_eq_some_iff.mpr ⟨_, mapM_eq_some_iff.mpr ⟨fun e he => ?_, rfl⟩, ?_⟩
    · rw [hread]
      exact hall e he
    · have hsorted := congrArg (fun l => some ((firsts dedupKey [] l).take 3))
        (sortOn_triggersAmong loads store search searchEnd)
      exact hsorted.trans (congrArg some hshown)

/-- Up to the bound a query with it takes the rows that one without it takes. -/
theorem accepts_of_le (honset : onset ≤ search.windowEnd) {e : LogEntry}
    (he : instant e ≤ onset) : search.accepts (some onset) e = search.accepts none e := by
  rw [Search.accepts, Search.accepts]
  cases ht : e.timestamp with
  | none => rfl
  | some t =>
    rw [instant, ht] at he
    have hbound : t ≤ search.causalUpper (some onset) := he
    have hend : t ≤ search.causalUpper none := le_trans he honset
    simp only [hbound, hend, decide_true]

/-- The rows up to the bound, in order. -/
def early (store : LogStore) (search : Search) (onset : Timestamp) : List LogEntry :=
  sortOn rowOrder (store.entries.filter fun e => search.accepts none e && instant e ≤ onset)

/-- The rows up to the bound come first, and are the same with it and without it. -/
theorem exists_back (store : LogStore) (honset : onset ≤ search.windowEnd)
    {searchEnd : Option Timestamp} (hsearch : searchEnd = some onset ∨ searchEnd = none) : ∃ back,
      search.rows store searchEnd = (early store search onset).take triggerRowCap ++ back ∧
        ∀ e ∈ back, onset < instant e := by
  have hkey : ∀ a ∈ store.entries, ∀ b ∈ store.entries, rowOrder a = rowOrder b → a = b := by
    intro a ha b hb hab
    exact List.inj_on_of_nodup_map store.ids_nodup ha hb (congrArg (fun k => (ofLex k).2) hab)
  have hfront : (sortOn rowOrder (store.entries.filter (search.accepts searchEnd))).filter
      (fun e => instant e ≤ onset) = early store search onset := by
    rw [filter_sortOn fun a ha b hb =>
      hkey a (List.mem_of_mem_filter ha) b (List.mem_of_mem_filter hb), List.filter_filter, early]
    congr 1
    refine List.filter_congr fun e _ => ?_
    rw [Bool.and_comm]
    by_cases he : instant e ≤ onset
    · rcases hsearch with rfl | rfl
      · rw [accepts_of_le honset he]
      · rfl
    · simp [he]
  have hsplit := split_sorted ((sortOn_pairwise rowOrder
    (store.entries.filter (search.accepts searchEnd))).imp instant_le_of_rowOrder_le) onset
  rw [hfront] at hsplit
  refine ⟨_, by rw [Search.rows, ← hsplit, List.take_append], ?_⟩
  intro e he
  simpa using (List.mem_filter.mp (List.mem_of_mem_take he)).2

theorem early_le {e : LogEntry} (he : e ∈ early store search onset) : instant e ≤ onset := by
  have hmem := (List.mem_filter.mp ((mem_sortOn rowOrder).mp he)).2
  simpa using (Bool.and_eq_true_iff.mp hmem).2

end Rows

/-- A row that a bounded search is to find something for. -/
def Due (e : LogEntry) : Prop :=
  e.scope = search.scope ∧ (∀ job ∈ search.ingestionJobId, e.ingestionJobId = some job) ∧
    ∃ t message, e.timestamp = some t ∧ messageOf loads e = some message ∧ search.searchStart ≤ t ∧
      ((t ≤ onset ∧ isTriggerMessage message = true) ∨
        (t ≤ search.windowEnd ∧ matchesAny reactiveTriggerPatterns message = true))

def upTo (c : TriggerCandidate) : Bool := instantOf c.timestamp ≤ onset

/-- A bound at the onset only saves work: the candidates up to the onset are those of a
search without a bound, those after it are reactive, and there is one if a row is due. -/
def BoundSavesWork : Prop :=
  ∃ bounded unbounded, search.shown loads store (some onset) = some bounded ∧
    search.shown loads store none = some unbounded ∧
      (bounded.map candidateOf).filter (upTo onset) =
        (unbounded.map candidateOf).filter (upTo onset) ∧
      (∀ r ∈ bounded, onset < instant r.1 → matchesAny reactiveTriggerPatterns r.2 = true) ∧
        ((∃ e ∈ store.entries, Due loads search onset e) → bounded ≠ [])

/-- A message behind the onset that only the raw text of its row lets pass: the row has no
normalized message, and its message is causal alone. -/
def Slipped (r : Reading) : Prop :=
  onset < instant r.1 ∧ truthy r.1.normalizedMessage = none ∧
    matchesAny reactiveTriggerPatterns r.2 = false

/-- What the rows that the queries give have to be like. -/
structure Regular : Prop where
  /-- A row that a query gives has a message. -/
  readable : ∀ searchEnd, searchEnd = some onset ∨ searchEnd = none →
    ∀ e ∈ search.rows store searchEnd, (messageOf loads e).isSome = true
  /-- A message that slips through comes behind one that begins alike, or behind three. -/
  hidden : ∀ before r after,
    triggersAmong loads (search.rows store (some onset)) = before ++ r :: after →
      Slipped onset r →
        dedupKey r ∈ before.map dedupKey ∨ 3 ≤ (before.map dedupKey).toFinset.card
  /-- If a row is due, the check passes one of the rows that the query gives. -/
  passed : (∃ e ∈ store.entries, Due loads search onset e) →
    ∃ e ∈ search.rows store (some onset), ∃ message,
      messageOf loads e = some message ∧ isTriggerMessage message = true

/-- The check passes a row. -/
def passes (e : LogEntry) : Bool := (messageOf loads e).any isTriggerMessage

/-- A row of which the query and the check do not think differently. -/
structure Faithful (e : LogEntry) : Prop where
  /-- A row that the query takes has a message. -/
  readable : search.accepts none e = true → (messageOf loads e).isSome = true
  /-- Behind the onset the check passes a row that the query takes for a reactive one. -/
  reactive : onset < instant e → search.accepts (some onset) e = true → ∀ message,
    messageOf loads e = some message → isTriggerMessage message = true →
      matchesAny reactiveTriggerPatterns message = true
  /-- The query takes a due row. -/
  found : Due loads search onset e → search.accepts (some onset) e = true

/-- Every row is faithful, and those that the check rejects leave room for a due one. -/
structure FaithfulStore : Prop where
  rows : ∀ e ∈ store.entries, Faithful loads search onset e
  room : (∃ e ∈ store.entries, Due loads search onset e) →
    (store.entries.filter fun e =>
      search.accepts (some onset) e && !passes loads e).length < triggerRowCap

variable {loads store search onset}

/-- Up to the onset a search shows what it shows of the rows up to it. -/
theorem shown_upTo (honset : onset ≤ search.windowEnd) {searchEnd : Option Timestamp}
    (hsearch : searchEnd = some onset ∨ searchEnd = none) {shown : List Reading}
    (h : search.shown loads store searchEnd = some shown) :
    shown.filter (fun r => upTo onset (candidateOf r)) =
      (firsts dedupKey [] (triggersAmong loads
        ((early store search onset).take triggerRowCap))).take 3 := by
  obtain ⟨-, rfl⟩ := (shown_eq_some_iff loads).mp h
  obtain ⟨back, hrows, hback⟩ := exists_back store honset hsearch
  rw [hrows, triggersAmong_append]
  obtain ⟨rest, hrest, hmem⟩ := firsts_append dedupKey []
    (triggersAmong loads ((early store search onset).take triggerRowCap)) (triggersAmong loads back)
  rw [hrest]
  refine filter_take_append ?_ ?_ 3
  · intro r hr
    have hearly := ((mem_triggersAmong loads).mp (mem_of_mem_firsts dedupKey hr)).1
    exact decide_eq_true (early_le (List.mem_of_mem_take hearly))
  · intro r hr
    have hlate := hback r.1 ((mem_triggersAmong loads).mp (hmem r hr)).1
    exact decide_eq_false (not_le_of_gt hlate)

/-- Behind the onset the query takes a row with a normalized message for a reactive one. -/
theorem reactive_of_normalized {r : Reading} (haccepts : search.accepts (some onset) r.1 = true)
    (hmessage : messageOf loads r.1 = some r.2) (hlate : onset < instant r.1)
    (hnormalized : truthy r.1.normalizedMessage ≠ none) :
    matchesAny reactiveTriggerPatterns r.2 = true := by
  obtain ⟨message, hnormalized⟩ := Option.ne_none_iff_exists'.mp hnormalized
  obtain rfl : message = r.2 := by
    rw [messageOf, hnormalized] at hmessage
    exact Option.some.inj hmessage
  have htext : searchedText r.1 = some r.2 := by rw [searchedText, Parsing.orElse, hnormalized]
  cases ht : r.1.timestamp with
  | none =>
    rw [Search.accepts, ht] at haccepts
    cases haccepts
  | some t =>
    rw [instant, ht] at hlate
    have hbound : ¬ t ≤ search.causalUpper (some onset) := not_le_of_gt hlate
    rw [Search.accepts, ht, htext] at haccepts
    simp only [hbound, decide_false, Bool.false_and, Bool.false_or, Bool.and_eq_true] at haccepts
    exact haccepts.1.1.2.2

/-- A row with a normalized message that a query gives is a trigger. -/
theorem trigger_of_normalized {searchEnd : Option Timestamp} {e : LogEntry} {message : String}
    (hnormalized : truthy e.normalizedMessage = some message)
    (haccepts : search.accepts searchEnd e = true) : isTriggerMessage message = true := by
  have htext : searchedText e = some message := by rw [searchedText, Parsing.orElse, hnormalized]
  rw [isTriggerMessage, triggerPatterns, List.any_append]
  cases ht : e.timestamp with
  | none =>
    rw [Search.accepts, ht] at haccepts
    cases haccepts
  | some t =>
    rw [Search.accepts, ht, htext] at haccepts
    simp only [Bool.and_eq_true, Bool.or_eq_true] at haccepts
    rcases haccepts.1.1.2 with ⟨-, hcausal⟩ | ⟨-, hreactive⟩
    · exact Bool.or_eq_true_iff.mpr (.inl hcausal)
    · exact Bool.or_eq_true_iff.mpr (.inr hreactive)

/-- A due row with a normalized message is one that the query looks for. -/
theorem accepts_of_due (honset : onset ≤ search.windowEnd) {e : LogEntry} {normalized : String}
    (hnormalized : truthy e.normalizedMessage = some normalized) (hdue : Due loads search onset e) :
    search.accepts (some onset) e = true := by
  obtain ⟨hscope, hjob, t, message, ht, hmessage, hstart, hkind⟩ := hdue
  obtain rfl : normalized = message := by
    rw [messageOf, hnormalized] at hmessage
    exact Option.some.inj hmessage
  have htext : searchedText e = some normalized := by rw [searchedText, Parsing.orElse, hnormalized]
  have hjob' : search.ofJob e = true := by
    rw [Search.ofJob]
    cases hid : search.ingestionJobId with
    | none => rfl
    | some job => exact beq_iff_eq.mpr (hjob job hid)
  have hclass : ((t ≤ search.causalUpper (some onset) &&
      matchesAny causalTriggerPatterns normalized) ||
        (t ≤ search.windowEnd && matchesAny reactiveTriggerPatterns normalized)) = true := by
    simp only [Bool.or_eq_true, Bool.and_eq_true, decide_eq_true_eq]
    rcases hkind with ⟨ht, htrigger⟩ | ⟨ht, hreactive⟩
    · rw [isTriggerMessage, triggerPatterns, List.any_append, Bool.or_eq_true] at htrigger
      exact htrigger.imp (fun h => ⟨ht, h⟩) (fun h => ⟨le_trans ht honset, h⟩)
    · exact .inr ⟨ht, hreactive⟩
  rw [Search.accepts, ht, htext]
  exact Bool.and_eq_true_iff.mpr ⟨Bool.and_eq_true_iff.mpr
    ⟨Bool.and_eq_true_iff.mpr ⟨decide_eq_true hstart, hclass⟩, beq_iff_eq.mpr hscope⟩, hjob'⟩

/-- What a query gives is in the store, and the query takes it. -/
theorem accepts_of_mem_rows {searchEnd : Option Timestamp} {e : LogEntry}
    (h : e ∈ search.rows store searchEnd) :
    e ∈ store.entries ∧ search.accepts searchEnd e = true :=
  List.mem_filter.mp ((mem_sortOn rowOrder).mp (List.mem_of_mem_take h))

/-- A query without the bound takes what one with it takes. -/
theorem accepts_of_accepts (honset : onset ≤ search.windowEnd) {e : LogEntry}
    (h : search.accepts (some onset) e = true) : search.accepts none e = true := by
  rw [Search.accepts] at h ⊢
  cases ht : e.timestamp with
  | none => rw [ht] at h; cases h
  | some t =>
    rw [ht] at h
    have hbound : t ≤ search.causalUpper (some onset) → t ≤ search.causalUpper none :=
      fun hle => le_trans hle honset
    cases htext : searchedText e with
    | none => simp [htext] at h
    | some text =>
      rw [htext] at h
      simp only [Bool.and_eq_true, Bool.or_eq_true, decide_eq_true_eq] at h ⊢
      exact ⟨⟨⟨h.1.1.1, h.1.1.2.imp (fun hcausal => ⟨hbound hcausal.1, hcausal.2⟩) id⟩, h.1.2⟩, h.2⟩

theorem passes_iff {e : LogEntry} : passes loads e = true ↔
    ∃ message, messageOf loads e = some message ∧ isTriggerMessage message = true := by
  unfold passes
  cases messageOf loads e <;> simp

/-- The check passes a due row. -/
theorem passes_of_due {e : LogEntry} (h : Due loads search onset e) : passes loads e = true := by
  obtain ⟨-, -, t, message, -, hmessage, -, hkind⟩ := h
  refine passes_iff.mpr ⟨message, hmessage, ?_⟩
  rcases hkind with ⟨-, htrigger⟩ | ⟨-, hreactive⟩
  · exact htrigger
  · rw [isTriggerMessage, triggerPatterns, List.any_append]
    exact Bool.or_eq_true_iff.mpr (.inr hreactive)

/-- With room for a due row, the query gives a row that the check passes. -/
theorem exists_passed (hfaithful : FaithfulStore loads store search onset)
    (hdue : ∃ e ∈ store.entries, Due loads search onset e) :
    ∃ e ∈ search.rows store (some onset), passes loads e = true := by
  have hroom := hfaithful.room hdue
  obtain ⟨e, he, hdue⟩ := hdue
  by_contra hnone
  have hrejected : ∀ e ∈ search.rows store (some onset), (!passes loads e) = true := by
    intro e' he'
    rw [Bool.not_eq_true', ← Bool.not_eq_true]
    exact fun hpasses => hnone ⟨e', he', hpasses⟩
  have htaken : e ∈ sortOn rowOrder (store.entries.filter (search.accepts (some onset))) :=
    (mem_sortOn rowOrder).mpr (List.mem_filter.mpr ⟨he, (hfaithful.rows e he).found hdue⟩)
  rcases Nat.lt_or_ge (search.rows store (some onset)).length triggerRowCap with hshort | hfull
  · -- a query that gives less than the cap gives all that it takes
    have hall : e ∈ search.rows store (some onset) := by
      rw [Search.rows, List.length_take] at hshort
      rw [Search.rows, List.take_of_length_le (by omega)]
      exact htaken
    have hnot := hrejected e hall
    rw [passes_of_due hdue] at hnot
    cases hnot
  · have hsub : (search.rows store (some onset)).Subperm
        (store.entries.filter fun e => search.accepts (some onset) e && !passes loads e) := by
      have hsub := ((List.take_sublist triggerRowCap _).subperm.trans
        (sortOn_perm rowOrder (store.entries.filter (search.accepts (some onset)))).subperm).filter
          fun e => !passes loads e
      rw [List.filter_filter] at hsub
      rw [← List.filter_eq_self.mpr hrejected]
      simpa only [Bool.and_comm, Search.rows] using hsub
    exact absurd (hfull.trans hsub.length_le) (not_le.mpr hroom)

/-- The queries of a faithful store give rows that hide nothing. -/
theorem regular_of_faithful (honset : onset ≤ search.windowEnd)
    (hfaithful : FaithfulStore loads store search onset) : Regular loads store search onset := by
  refine ⟨?_, ?_, ?_⟩
  · rintro searchEnd hsearch e he
    obtain ⟨hmem, haccepts⟩ := accepts_of_mem_rows he
    refine (hfaithful.rows e hmem).readable ?_
    rcases hsearch with rfl | rfl
    · exact accepts_of_accepts honset haccepts
    · exact haccepts
  · intro before r after hsplit ⟨hlate, _, hcausal⟩
    obtain ⟨hrow, hmessage, htrigger⟩ := (mem_triggersAmong loads).mp
      (hsplit ▸ List.mem_append_right before List.mem_cons_self)
    obtain ⟨hmem, haccepts⟩ := accepts_of_mem_rows hrow
    have hreactive := (hfaithful.rows r.1 hmem).reactive hlate haccepts r.2 hmessage htrigger
    rw [hcausal] at hreactive
    cases hreactive
  · intro hdue
    obtain ⟨e, he, hpasses⟩ := exists_passed hfaithful hdue
    exact ⟨e, he, passes_iff.mp hpasses⟩

/-- A row with a normalized message is faithful, and never rejected. -/
theorem faithful_of_normalized (honset : onset ≤ search.windowEnd) {e : LogEntry}
    {normalized : String} (hnormalized : truthy e.normalizedMessage = some normalized) :
    Faithful loads search onset e ∧
      (search.accepts (some onset) e = true → passes loads e = true) := by
  have hmessage : messageOf loads e = some normalized := by rw [messageOf, hnormalized]
  refine ⟨⟨fun _ => by rw [hmessage]; rfl, fun hlate haccepts message hread _ => ?_,
    accepts_of_due honset hnormalized⟩, fun haccepts => ?_⟩
  · exact reactive_of_normalized (r := (e, message)) haccepts hread hlate
      (by rw [hnormalized]; exact Option.some_ne_none _)
  · exact passes_iff.mpr ⟨normalized, hmessage, trigger_of_normalized hnormalized haccepts⟩

/-- A store whose rows have normalized messages is faithful. -/
theorem faithfulStore_of_normalized (honset : onset ≤ search.windowEnd)
    (hnormalized : ∀ e ∈ store.entries, ∃ message, truthy e.normalizedMessage = some message) :
    FaithfulStore loads store search onset := by
  refine ⟨fun e he => ?_, fun _ => ?_⟩
  · obtain ⟨message, hsome⟩ := hnormalized e he
    exact (faithful_of_normalized honset hsome).1
  · have hnone : (store.entries.filter fun e =>
        search.accepts (some onset) e && !passes loads e) = [] := by
      refine List.filter_eq_nil_iff.mpr fun e he hrejected => ?_
      obtain ⟨message, hsome⟩ := hnormalized e he
      obtain ⟨haccepts, hnot⟩ := Bool.and_eq_true_iff.mp hrejected
      have hpasses : passes loads e = true := (faithful_of_normalized honset hsome).2 haccepts
      rw [hpasses] at hnot
      cases hnot
    rw [hnone]
    decide

/-- A bound at the onset only saves work exactly if the rows of the queries hide nothing. -/
theorem bound_saves_work_iff (honset : onset ≤ search.windowEnd) :
    BoundSavesWork loads store search onset ↔ Regular loads store search onset := by
  constructor
  · rintro ⟨bounded, unbounded, hbounded, hunbounded, -, hreactive, hfound⟩
    have hread := (shown_eq_some_iff loads).mp hbounded
    refine ⟨?_, ?_, ?_⟩
    · rintro searchEnd (rfl | rfl)
      · exact hread.1
      · exact ((shown_eq_some_iff loads).mp hunbounded).1
    · intro before r after hsplit ⟨hlate, _, hcausal⟩
      by_contra hhidden
      rw [not_or, not_le] at hhidden
      have hshown : r ∈ bounded := by
        rw [← hread.2]
        refine (mem_take_firsts dedupKey).mpr
          ⟨before, after, hsplit, List.not_mem_nil, hhidden.1, ?_⟩
        rw [length_firsts]
        exact lt_of_le_of_lt (Finset.card_le_card Finset.sdiff_subset) hhidden.2
      have hmatch := hreactive r hshown hlate
      rw [hcausal] at hmatch
      cases hmatch
    · intro hdue
      have hne := hfound hdue
      rw [← hread.2] at hne
      obtain ⟨r, hr⟩ := List.exists_mem_of_ne_nil _ hne
      obtain ⟨hrow, hmessage, htrigger⟩ := (mem_triggersAmong loads).mp
        (mem_of_mem_firsts dedupKey (List.mem_of_mem_take hr))
      exact ⟨r.1, hrow, r.2, hmessage, htrigger⟩
  · intro ⟨hreadable, hhidden, hpassed⟩
    have hbounded := (shown_eq_some_iff loads).mpr ⟨hreadable (some onset) (.inl rfl), rfl⟩
    have hunbounded := (shown_eq_some_iff loads).mpr ⟨hreadable none (.inr rfl), rfl⟩
    refine ⟨_, _, hbounded, hunbounded, ?_, ?_, ?_⟩
    · rw [List.filter_map, List.filter_map]
      exact congrArg (List.map candidateOf) ((shown_upTo honset (.inl rfl) hbounded).trans
        (shown_upTo honset (.inr rfl) hunbounded).symm)
    · intro r hr hlate
      obtain ⟨before, after, hsplit, -, hnew, hfew⟩ := (mem_take_firsts dedupKey).mp hr
      obtain ⟨hrow, hmessage, -⟩ := (mem_triggersAmong loads).mp
        (hsplit ▸ List.mem_append_right before List.mem_cons_self)
      by_contra hcausal
      by_cases hnormalized : truthy r.1.normalizedMessage = none
      · rcases hhidden before r after hsplit
          ⟨hlate, hnormalized, Bool.eq_false_iff.mpr hcausal⟩ with hold | hmany
        · exact hnew hold
        · rw [length_firsts, List.toFinset_nil, Finset.sdiff_empty] at hfew
          exact absurd hmany (not_le_of_gt hfew)
      · exact hcausal
          (reactive_of_normalized (accepts_of_mem_rows hrow).2 hmessage hlate hnormalized)
    · intro hdue hnone
      obtain ⟨e, hrow, message, hmessage, htrigger⟩ := hpassed hdue
      have hmem := (mem_triggersAmong loads (r := (e, message))).mpr ⟨hrow, hmessage, htrigger⟩
      rw [List.take_eq_nil_iff] at hnone
      rcases hnone with hthree | hnone
      · cases hthree
      · rw [(firsts_eq_nil dedupKey).mp hnone] at hmem
        cases hmem

def storeOf (e : LogEntry) : LogStore := ⟨[e], List.nodup_singleton _⟩

theorem mem_rows_storeOf {searchEnd : Option Timestamp} {e : LogEntry}
    (h : search.accepts searchEnd e = true) : e ∈ search.rows (storeOf e) searchEnd := by
  rw [Search.rows, storeOf, List.filter_cons_of_pos h]
  exact List.mem_singleton_self e

/-- A row that is alone in a store is shown as one would expect exactly if it is faithful. -/
theorem regular_storeOf_iff (honset : onset ≤ search.windowEnd) {e : LogEntry} :
    Regular loads (storeOf e) search onset ↔ Faithful loads search onset e := by
  constructor
  · intro h
    refine ⟨fun haccepts => ?_, fun hlate haccepts message hmessage htrigger => ?_, fun hdue => ?_⟩
    · exact h.readable none (.inr rfl) e (mem_rows_storeOf haccepts)
    · by_contra hcausal
      have hnormalized : truthy e.normalizedMessage = none := by
        by_contra hsome
        exact hcausal (reactive_of_normalized (r := (e, message)) haccepts hmessage hlate hsome)
      have hone : search.rows (storeOf e) (some onset) = [e] := by
        rw [Search.rows, storeOf, List.filter_cons_of_pos haccepts]
        rfl
      have hread : triggersAmong loads [e] = [(e, message)] := by
        rw [triggersAmong, List.filterMap_cons_some (by rw [readRow, hmessage]; rfl)]
        exact List.filter_cons_of_pos htrigger
      rcases h.hidden [] (e, message) [] (by rw [hone, hread]; rfl)
        ⟨hlate, hnormalized, Bool.eq_false_iff.mpr hcausal⟩ with hold | hmany
      · exact absurd hold List.not_mem_nil
      · exact absurd hmany (by decide)
    · obtain ⟨e', he', -⟩ := h.passed ⟨e, List.mem_singleton_self e, hdue⟩
      obtain ⟨hmem, haccepts⟩ := accepts_of_mem_rows he'
      rwa [List.mem_singleton.mp hmem] at haccepts
  · intro h
    refine regular_of_faithful honset ⟨fun e' he' => ?_, fun _ => ?_⟩
    · rwa [List.mem_singleton.mp he']
    · exact lt_of_le_of_lt (List.length_filter_le _ _) (by decide : 1 < triggerRowCap)

/-- A bound at the onset only saves work in a faithful store, and in a store of one row
exactly if that row is faithful. -/
theorem bound_saves_work (honset : onset ≤ search.windowEnd) :
    (FaithfulStore loads store search onset → BoundSavesWork loads store search onset) ∧
      ∀ e, BoundSavesWork loads (storeOf e) search onset ↔ Faithful loads search onset e :=
  ⟨fun h => (bound_saves_work_iff honset).mpr (regular_of_faithful honset h),
    fun _ => (bound_saves_work_iff honset).trans (regular_storeOf_iff honset)⟩

def rowOf (id : EntryId) (timestamp : Timestamp) (raw : String) (normalized : Option String) :
    LogEntry where
  id := id
  ingestionJobId := none
  timestamp := some timestamp
  service := none
  environment := none
  level := none
  traceId := none
  requestId := none
  host := none
  rawMessage := some raw
  normalizedMessage := normalized
  fingerprint := none
  parserType := none
  extraJson := none
  sourceAdapter := "file"
  sourceRef := none
  originalLineHash := none
  scope := "default"

/-- A quarter of an hour of lookback. -/
def shortSearch : Search := ⟨0, 20, 15, none, "default", by decide⟩

def changeText : String :=
  "\x7b\"message\": \"deploy started\", \"detail\": \"pod restarted\"\x7d"

def changeLoads (text : String) : Except String Json :=
  if text = changeText then
    .ok (.obj [("message", .str "deploy started"), ("detail", .str "pod restarted")])
  else .error "unexpected character"

/-- A change before the onset, a restart and a change after it. -/
def normalizedStore : LogStore where
  entries := [rowOf 1 5 changeText (some "deploy started"),
    rowOf 2 12 changeText (some "pod restarted"), rowOf 3 15 changeText (some "config changed")]
  ids_nodup := by decide

theorem bound_saves_work_of_normalized :
    BoundSavesWork changeLoads normalizedStore shortSearch 10 := by
  refine (bound_saves_work (by decide)).1 (faithfulStore_of_normalized (by decide) ?_)
  intro e he
  simp only [normalizedStore, List.mem_cons, List.not_mem_nil, or_false] at he
  rcases he with rfl | rfl | rfl <;> exact ⟨_, rfl⟩

/-- A change after the onset is shown as what may have set the incident off. -/
theorem not_bound_saves_work_of_raw :
    ¬ BoundSavesWork changeLoads (storeOf (rowOf 1 15 changeText none)) shortSearch 10 := by
  rintro ⟨bounded, unbounded, hbounded, -, -, hreactive, -⟩
  have haccepts : shortSearch.accepts (some 10) (rowOf 1 15 changeText none) = true := by
    decide +kernel
  have hrows : shortSearch.rows (storeOf (rowOf 1 15 changeText none)) (some 10) =
      [rowOf 1 15 changeText none] := by
    rw [Search.rows, storeOf, List.filter_cons_of_pos haccepts]
    rfl
  have hshown := ((shown_eq_some_iff changeLoads).mp hbounded).2
  have htrigger : isTriggerMessage "deploy started" = true := by decide +kernel
  have htriggers : triggersAmong changeLoads [rowOf 1 15 changeText none] =
      [(rowOf 1 15 changeText none, "deploy started")] :=
    List.filter_cons_of_pos htrigger
  rw [hrows, htriggers] at hshown
  have hlate := hreactive (rowOf 1 15 changeText none, "deploy started")
    (hshown ▸ List.mem_singleton_self _) (by decide)
  revert hlate
  decide +kernel

end Raglogs.TriggerScanLaws
