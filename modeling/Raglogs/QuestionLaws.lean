import Raglogs.ClusterTotals
import Raglogs.ExplainRouteLaws
import Raglogs.Questions
import Raglogs.ScopedReads

/-!
What an answer to a question is told from. The lines are those that the question may see, found
in the first way that finds any; every group of the answer is all the found lines of one key, and
a group is left out only for larger ones. No model changes what was found.
-/

namespace Raglogs.QuestionLaws

open ClusterTotals Collections Durations EvidencePackets ExplainRoute ExplainSchema Grouping
  LogEntries QueryOverrides Questions RootCause ScopedReads Scopes SemanticMerge Shortlists Text

section Retrieval

variable (env : AskEnvironment) (store : AskStore) (question : String) (f : AskFilter)

/-- The vector that a question is searched by, if there is one that can be. -/
def SearchedBy (vector : List ℚ) : Prop :=
  vector.length = storedEmbeddingDims ∧ ∃ provider rest, env.embeddingsProvider = .ok provider ∧
    provider.isAvailable = .ok true ∧ provider.embedTexts [question] = .ok (vector :: rest)

/-- A line that has a vector near to that of the question. -/
def Near (e : LogEntry) : Prop :=
  ∃ vector d, SearchedBy env question vector ∧ distanceOf env store vector e = some d ∧
    nearEnough env d = true

/-- A line that a way of searching looks for. -/
def Sought : RetrievalMode → LogEntry → Prop
  | .semantic, e => Near env store question e ∧
      hasLevel (inferLevelBias env.lowering question) e = true
  | .keyword, e =>
      matchesKeywords env (extractKeywords env.isWord env.lowering question) e = true ∧
        hasLevel (inferLevelBias env.lowering question) e = true
  | .fallback, e => e.level.any fallbackLevels.contains = true

/-- A line that the question may see, and that a way of searching looks for. -/
def Seen (mode : RetrievalMode) (e : LogEntry) : Prop :=
  e ∈ store.logs.entries ∧ f.accepts e = true ∧ Sought env store question mode e

/-- How a line compares with a line that was found instead of it. -/
def GoesBefore : RetrievalMode → LogEntry → LogEntry → Prop
  | .semantic, m, e => ∀ vector, SearchedBy env question vector →
      farness env store vector m ≤ farness env store vector e
  | _, m, e => orTop e.timestamp ≤ orTop m.timestamp

/-- How many lines a way of searching finds at most. -/
def limitOf : RetrievalMode → ℤ
  | .semantic => env.semanticTopK
  | _ => 500

/-- What is found: lines that are looked for, each once, in the first way that finds any. -/
structure Retrieved (matching : List LogEntry) (mode : RetrievalMode) : Prop where
  nodup : (matching.map LogEntry.id).Nodup
  seen : ∀ e ∈ matching, Seen env store question f mode e
  /-- A line is left out only when the list is full of lines that go before it. -/
  left_out : ∀ e, Seen env store question f mode e → e ∈ matching ∨
    (matching.length : ℤ) = limitOf env mode ∧
      ∀ m ∈ matching, GoesBefore env store question mode m e
  near_first : mode ≠ .semantic → 0 < env.semanticTopK →
    ∀ e, ¬Seen env store question f .semantic e
  keyword_first : mode = .fallback → ∀ e, ¬Seen env store question f .keyword e

variable {env store question f}

theorem execute_eq_ok {aborted : Bool} {rows found : List LogEntry} :
    execute aborted f rows = .ok found ↔
      sendable f.scope [f.service] = true ∧ aborted = false ∧ rows = found := by
  unfold execute
  cases sendable f.scope [f.service] <;> cases aborted <;> simp

theorem execute_eq_error {aborted : Bool} {rows : List LogEntry} {e : QueryError} :
    execute aborted f rows = .error e ↔
      e = .unsendable ∧ sendable f.scope [f.service] = false ∨
        e = .refused ∧ sendable f.scope [f.service] = true ∧ aborted = true := by
  unfold execute
  cases sendable f.scope [f.service] <;> cases aborted <;> simp [eq_comm]

theorem nodup_newest (limit : ℕ) {rows : List LogEntry} (h : (rows.map LogEntry.id).Nodup) :
    ((newest env limit rows).map LogEntry.id).Nodup :=
  nodup_map_shortlist (((env.engine.2 rows).map LogEntry.id).nodup_iff.mpr h)

theorem mem_of_mem_newest {limit : ℕ} {rows : List LogEntry} {e : LogEntry}
    (h : e ∈ newest env limit rows) : e ∈ rows :=
  (env.engine.2 rows).mem_iff.mp (mem_of_mem_shortlist h)

theorem mem_newest_or (limit : ℕ) {rows : List LogEntry} {e : LogEntry} (h : e ∈ rows) :
    e ∈ newest env limit rows ∨ (newest env limit rows).length = limit ∧
      ∀ m ∈ newest env limit rows, orTop e.timestamp ≤ orTop m.timestamp :=
  mem_shortlist_or limit (fun e : LogEntry => OrderDual.toDual (orTop e.timestamp))
    ((env.engine.2 rows).mem_iff.mpr h)

theorem ids_filter_nodup (store : AskStore) (p : LogEntry → Bool) :
    ((store.logs.entries.filter p).map LogEntry.id).Nodup :=
  store.logs.ids_nodup.sublist (List.filter_sublist.map _)

/-- An empty list of the newest lines was cut from an empty one. -/
theorem eq_nil_of_newest {limit : ℕ} (hlimit : 0 < limit) {rows : List LogEntry}
    (h : newest env limit rows = []) : rows = [] := by
  refine List.eq_nil_iff_forall_not_mem.mpr fun e he => ?_
  rcases mem_newest_or limit he with hmem | ⟨hlen, -⟩
  · rw [h] at hmem
    exact List.not_mem_nil hmem
  · rw [h] at hlen
    exact hlimit.ne hlen

theorem mem_keywordRows {e : LogEntry} :
    (e ∈ store.logs.entries.filter fun e =>
        matchesKeywords env (extractKeywords env.isWord env.lowering question) e && f.accepts e &&
          hasLevel (inferLevelBias env.lowering question) e) ↔
      Seen env store question f .keyword e := by
  simp only [List.mem_filter, Bool.and_eq_true, Seen, Sought]
  tauto

theorem mem_fallbackRows {e : LogEntry} :
    (e ∈ store.logs.entries.filter fun e =>
        e.level.any fallbackLevels.contains && f.accepts e) ↔
      Seen env store question f .fallback e := by
  simp only [List.mem_filter, Bool.and_eq_true, Seen, Sought]
  tauto

/-- The rows that a search by a vector looks through. -/
def nearRows (env : AskEnvironment) (store : AskStore) (question : String) (f : AskFilter)
    (vector : List ℚ) : List LogEntry :=
  store.logs.entries.filter fun e =>
    (distanceOf env store vector e).any (nearEnough env) && f.accepts e &&
      hasLevel (inferLevelBias env.lowering question) e

/-- The rows that a search by a vector finds. -/
def nearestRows (env : AskEnvironment) (store : AskStore) (question : String) (f : AskFilter)
    (vector : List ℚ) : List LogEntry :=
  shortlist env.semanticTopK.toNat (farness env store vector)
    (env.engine.1 (nearRows env store question f vector))

theorem SearchedBy.unique {v w : List ℚ} (hv : SearchedBy env question v)
    (hw : SearchedBy env question w) : v = w := by
  obtain ⟨-, provider, rest, hprovider, -, htexts⟩ := hv
  obtain ⟨-, provider', rest', hprovider', -, htexts'⟩ := hw
  obtain rfl : provider = provider' := Except.ok.inj (hprovider.symm.trans hprovider')
  exact (List.cons.inj (Except.ok.inj (htexts.symm.trans htexts'))).1

theorem mem_nearRows {vector : List ℚ} (hvector : SearchedBy env question vector) {e : LogEntry} :
    e ∈ nearRows env store question f vector ↔ Seen env store question f .semantic e := by
  have hnear : (distanceOf env store vector e).any (nearEnough env) = true ↔
      Near env store question e := by
    rw [Option.any_eq_true]
    constructor
    · rintro ⟨d, hd, hnear⟩
      exact ⟨vector, d, hvector, hd, hnear⟩
    · rintro ⟨w, d, hw, hd, hnear⟩
      obtain rfl := hvector.unique hw
      exact ⟨d, hd, hnear⟩
  rw [nearRows, List.mem_filter, Bool.and_eq_true, Bool.and_eq_true, hnear]
  simp only [Seen, Sought]
  tauto

/-- A search without any effect, or by a vector. -/
theorem semanticHits_cases (env : AskEnvironment) (store : AskStore) (provider : Provider ℚ)
    (question : String) (f : AskFilter) :
    semanticHits env store provider question f (inferLevelBias env.lowering question) =
        ([], false) ∨
      ∃ vector rest, vector.length = storedEmbeddingDims ∧
        provider.embedTexts [question] = .ok (vector :: rest) := by
  unfold semanticHits searchLogsSemantic
  split
  · rename_i vector rest htexts
    by_cases hlength : vector.length = storedEmbeddingDims
    · exact .inr ⟨vector, rest, hlength, htexts⟩
    · left
      rw [if_pos hlength]
  · exact .inl rfl

/-- What a search by a vector finds, and whether it aborts the transaction. -/
theorem semanticHits_eq {provider : Provider ℚ} {vector : List ℚ} {rest : List (List ℚ)}
    (htexts : provider.embedTexts [question] = .ok (vector :: rest))
    (hlength : vector.length = storedEmbeddingDims) :
    semanticHits env store provider question f (inferLevelBias env.lowering question) =
      if sendable f.scope [f.service] then
        if limitTaken env.semanticTopK then (nearestRows env store question f vector, false)
        else ([], true)
      else ([], false) := by
  unfold semanticHits searchLogsSemantic execute
  rw [htexts]
  simp only [hlength, ne_eq, not_true_eq_false, if_false]
  cases sendable f.scope [f.service] <;> cases limitTaken env.semanticTopK <;> rfl

/-- A question that a search by a vector makes abort the transaction. -/
def Refused (env : AskEnvironment) (question : String) : Prop :=
  limitTaken env.semanticTopK = false ∧ ∃ vector, SearchedBy env question vector

theorem refused_of_aborted {provider : Provider ℚ}
    (hprovider : env.embeddingsProvider = .ok provider)
    (havailable : provider.isAvailable = .ok true)
    (h : (semanticHits env store provider question f
      (inferLevelBias env.lowering question)).2 = true) : Refused env question := by
  rcases semanticHits_cases env store provider question f with
    hnone | ⟨vector, rest, hlength, htexts⟩
  · rw [hnone] at h
    cases h
  · rw [semanticHits_eq htexts hlength] at h
    refine ⟨?_, vector, hlength, provider, rest, hprovider, havailable, htexts⟩
    cases hlimit : limitTaken env.semanticTopK with
    | false => rfl
    | true =>
      rw [hlimit] at h
      cases hsend : sendable f.scope [f.service] <;> rw [hsend] at h <;> cases h

theorem retrieved_semantic {vector : List ℚ} (hvector : SearchedBy env question vector)
    (htop : limitTaken env.semanticTopK = true) :
    Retrieved env store question f (nearestRows env store question f vector) .semantic where
  nodup := nodup_map_shortlist
    (((env.engine.2 _).map LogEntry.id).nodup_iff.mpr (ids_filter_nodup store _))
  seen e he := (mem_nearRows hvector).mp ((env.engine.2 _).mem_iff.mp (mem_of_mem_shortlist he))
  left_out e he := by
    have hrow := (env.engine.2 _).mem_iff.mpr ((mem_nearRows hvector).mpr he)
    rcases mem_shortlist_or env.semanticTopK.toNat (farness env store vector) hrow with
      hmem | ⟨hfull, hbefore⟩
    · exact .inl hmem
    · refine .inr ⟨?_, fun m hm w hw => ?_⟩
      · have hnonneg : 0 ≤ env.semanticTopK := of_decide_eq_true (Bool.and_eq_true_iff.mp htop).1
        unfold nearestRows
        rw [hfull]
        exact Int.toNat_of_nonneg hnonneg
      · obtain rfl := hvector.unique hw
        exact hbefore m hm
  near_first h := (h rfl).elim
  keyword_first h := nomatch h

/-- Lines near to a question are found whenever there are any. -/
theorem not_seen_of_nearestRows {vector : List ℚ} (hvector : SearchedBy env question vector)
    (h : nearestRows env store question f vector = []) (htop : 0 < env.semanticTopK)
    (e : LogEntry) : ¬Seen env store question f .semantic e := by
  intro he
  have hrow := (env.engine.2 _).mem_iff.mpr ((mem_nearRows hvector).mpr he)
  unfold nearestRows at h
  rcases mem_shortlist_or env.semanticTopK.toNat (farness env store vector) hrow with
    hmem | ⟨hfull, -⟩
  · rw [h] at hmem
    exact List.not_mem_nil hmem
  · rw [h, List.length_nil] at hfull
    omega

/-- The lines that a search by words finds. -/
def wordedRows (env : AskEnvironment) (store : AskStore) (question : String) (f : AskFilter) :
    List LogEntry :=
  newest env 500 (store.logs.entries.filter fun e =>
    matchesKeywords env (extractKeywords env.isWord env.lowering question) e && f.accepts e &&
      hasLevel (inferLevelBias env.lowering question) e)

theorem retrieved_keyword
    (hfirst : 0 < env.semanticTopK → ∀ e, ¬Seen env store question f .semantic e) :
    Retrieved env store question f (wordedRows env store question f) .keyword where
  nodup := nodup_newest 500 (ids_filter_nodup store _)
  seen e he := mem_keywordRows.mp (mem_of_mem_newest he)
  left_out e he := by
    rcases mem_newest_or 500 (mem_keywordRows.mpr he) with hmem | ⟨hfull, hbefore⟩
    · exact .inl hmem
    · exact .inr ⟨congrArg Nat.cast hfull, hbefore⟩
  near_first _ := hfirst
  keyword_first h := nomatch h

/-- The errors and warnings that are found. -/
def alarmingRows (env : AskEnvironment) (store : AskStore) (f : AskFilter) : List LogEntry :=
  newest env 500 (store.logs.entries.filter fun e =>
    e.level.any fallbackLevels.contains && f.accepts e)

theorem retrieved_fallback
    (hfirst : 0 < env.semanticTopK → ∀ e, ¬Seen env store question f .semantic e)
    (hkeyword : ∀ e, ¬Seen env store question f .keyword e) :
    Retrieved env store question f (alarmingRows env store f) .fallback where
  nodup := nodup_newest 500 (ids_filter_nodup store _)
  seen e he := mem_fallbackRows.mp (mem_of_mem_newest he)
  left_out e he := by
    rcases mem_newest_or 500 (mem_fallbackRows.mpr he) with hmem | ⟨hfull, hbefore⟩
    · exact .inl hmem
    · exact .inr ⟨congrArg Nat.cast hfull, hbefore⟩
  near_first _ := hfirst
  keyword_first _ := hkeyword

/-- The hits of the search by a vector, if there is one. -/
def hitsOf (env : AskEnvironment) (store : AskStore) (question : String) (f : AskFilter)
    (provider : Provider ℚ) (available : Bool) : List LogEntry × Bool :=
  if available then
    semanticHits env store provider question f (inferLevelBias env.lowering question)
  else ([], false)

/-- What retrieving does, step by step. -/
theorem retrieveMatchingLogs_eq_ok {matching : List LogEntry} {mode : RetrievalMode}
    (h : retrieveMatchingLogs env store question f = .ok (matching, mode)) :
    ∃ provider available, env.embeddingsProvider = .ok provider ∧
      provider.isAvailable = .ok available ∧
      (matching = (hitsOf env store question f provider available).1 ∧ mode = .semantic ∧
          matching ≠ [] ∨
        (hitsOf env store question f provider available).1 = [] ∧
          sendable f.scope [f.service] = true ∧
          (hitsOf env store question f provider available).2 = false ∧
          (matching = wordedRows env store question f ∧ mode = .keyword ∨
            wordedRows env store question f = [] ∧ matching = alarmingRows env store f ∧
              mode = .fallback)) := by
  unfold retrieveMatchingLogs at h
  obtain ⟨provider, hprovider, h⟩ := bind_eq_ok.mp h
  obtain ⟨available, havailable, h⟩ := bind_eq_ok.mp h
  refine ⟨provider, available, mapError_eq_ok.mp hprovider, mapError_eq_ok.mp havailable, ?_⟩
  change (if (hitsOf env store question f provider available).1 ≠ [] then _ else _) = _ at h
  split at h
  case isTrue hsome =>
    obtain ⟨rfl, rfl⟩ := Prod.mk.inj (Except.ok.inj h)
    exact .inl ⟨rfl, rfl, hsome⟩
  case isFalse hnone =>
    obtain ⟨found, hfound, h⟩ := bind_eq_ok.mp h
    obtain ⟨hsent, haborted, rfl⟩ := execute_eq_ok.mp (mapError_eq_ok.mp hfound)
    refine .inr ⟨not_not.mp hnone, hsent, haborted, ?_⟩
    split at h
    case isTrue =>
      obtain ⟨rfl, rfl⟩ := Prod.mk.inj (Except.ok.inj h)
      exact .inl ⟨rfl, rfl⟩
    case isFalse hworded =>
      obtain ⟨alarming, halarming, h⟩ := bind_eq_ok.mp h
      obtain ⟨-, -, rfl⟩ := execute_eq_ok.mp (mapError_eq_ok.mp halarming)
      obtain ⟨rfl, rfl⟩ := Prod.mk.inj (Except.ok.inj h)
      exact .inr ⟨not_not.mp hworded, rfl, rfl⟩

theorem retrieved_of_ok {matching : List LogEntry} {mode : RetrievalMode}
    (h : retrieveMatchingLogs env store question f = .ok (matching, mode)) :
    Retrieved env store question f matching mode := by
  obtain ⟨provider, available, hprovider, havailable, h⟩ := retrieveMatchingLogs_eq_ok h
  rcases h with ⟨hhits, rfl, hsome⟩ | ⟨hnone, hsent, haborted, h⟩
  · cases available with
    | false => exact (hsome hhits).elim
    | true =>
      change matching = (semanticHits env store provider question f _).1 at hhits
      rcases semanticHits_cases env store provider question f with
        hno | ⟨vector, rest, hlength, htexts⟩
      · rw [hno] at hhits
        exact (hsome hhits).elim
      · rw [semanticHits_eq htexts hlength] at hhits
        split_ifs at hhits with hsent htop
        · rw [hhits]
          exact retrieved_semantic ⟨hlength, provider, rest, hprovider, havailable, htexts⟩ htop
        · exact (hsome hhits).elim
        · exact (hsome hhits).elim
  · have hfirst : 0 < env.semanticTopK → ∀ e, ¬Seen env store question f .semantic e := by
      intro htop e he
      obtain ⟨vector, d, hvector, -⟩ := he.2.2.1
      obtain ⟨hlength, provider', rest, hprovider', hon, htexts⟩ := id hvector
      obtain rfl : provider' = provider := Except.ok.inj (hprovider'.symm.trans hprovider)
      obtain rfl : true = available := Except.ok.inj (hon.symm.trans havailable)
      change (semanticHits env store provider' question f _).1 = [] at hnone
      change (semanticHits env store provider' question f _).2 = false at haborted
      rw [semanticHits_eq htexts hlength, if_pos hsent] at hnone haborted
      split_ifs at hnone haborted
      exact not_seen_of_nearestRows hvector hnone htop e he
    rcases h with ⟨rfl, rfl⟩ | ⟨hworded, rfl, rfl⟩
    · exact retrieved_keyword hfirst
    · refine retrieved_fallback hfirst fun e he => ?_
      have hrow := mem_keywordRows.mpr he
      rw [eq_nil_of_newest (by decide) hworded] at hrow
      exact List.not_mem_nil hrow

end Retrieval

/-! The groups of an answer. -/

section Groups

variable {isoformat : Timestamp → String} {matching : List LogEntry} {maxClusters : ℤ}

/-- The lines of a key. -/
def linesOf (matching : List LogEntry) (key : String) : List LogEntry :=
  matching.filter fun e => groupKey e = key

/-- The groups that an answer shows: all the lines of some keys, the largest first. -/
structure Told (isoformat : Timestamp → String) (matching : List LogEntry) (maxClusters : ℤ)
    (keys : List String) (clusters : List AskCluster) : Prop where
  nodup : keys.Nodup
  made : clusters = keys.map fun k => clusterOfGroup isoformat (linesOf matching k)
  found : ∀ k ∈ keys, ∃ e ∈ matching, groupKey e = k
  number : keys.length =
    min (sliceStop maxClusters (matching.map groupKey).toFinset.card)
      (matching.map groupKey).toFinset.card
  largest_first : clusters.Pairwise fun a b => b.count ≤ a.count
  /-- The lines of a key that is left out are no more than those of any group shown. -/
  left_out : ∀ e ∈ matching, groupKey e ∈ keys ∨
    ∀ c ∈ clusters, (linesOf matching (groupKey e)).length ≤ c.count
  total_le : (clusters.map AskCluster.count).sum ≤ matching.length

theorem length_groupOn (matching : List LogEntry) :
    (groupOn groupKey matching).length = (matching.map groupKey).toFinset.card := by
  have hkeys : (matching.map groupKey).toFinset =
      ((groupOn groupKey matching).map Prod.fst).toFinset := by
    ext k
    rw [List.mem_toFinset, List.mem_toFinset, mem_groupOn_keys, List.mem_map]
  rw [hkeys, List.toFinset_card_of_nodup (groupOn_keys_nodup groupKey matching), List.length_map]

theorem group_eq {g : String × List LogEntry} (h : g ∈ largestGroups matching maxClusters) :
    g.2 = linesOf matching g.1 :=
  ((mem_groupOn groupKey matching g.1 g.2).mp (mem_of_mem_shortlist h)).1

theorem told_clusterLogs (isoformat : Timestamp → String) (matching : List LogEntry)
    (maxClusters : ℤ) :
    Told isoformat matching maxClusters ((largestGroups matching maxClusters).map Prod.fst)
      (clusterLogs isoformat matching maxClusters) := by
  have hmade : clusterLogs isoformat matching maxClusters =
      ((largestGroups matching maxClusters).map Prod.fst).map fun k =>
        clusterOfGroup isoformat (linesOf matching k) := by
    rw [clusterLogs, List.map_map]
    exact List.map_congr_left fun g hg => congrArg (clusterOfGroup isoformat) (group_eq hg)
  have hnodup : ((largestGroups matching maxClusters).map Prod.fst).Nodup :=
    nodup_map_shortlist (groupOn_keys_nodup groupKey matching)
  refine ⟨hnodup, hmade, ?_, ?_, ?_, ?_, ?_⟩
  · intro k hk
    obtain ⟨g, hg, rfl⟩ := List.mem_map.mp hk
    exact (mem_groupOn_keys groupKey matching g.1).mp
      (List.mem_map_of_mem (mem_of_mem_shortlist hg))
  · rw [← length_groupOn, List.length_map, largestGroups, shortlist, List.length_take,
      (sortOn_perm _ _).length_eq]
  · rw [clusterLogs, List.pairwise_map]
    exact (shortlisted _ (fun g : String × List LogEntry => OrderDual.toDual g.2.length) _).sorted
  · intro e he
    have hgroup : (groupKey e, linesOf matching (groupKey e)) ∈ groupOn groupKey matching :=
      (mem_groupOn groupKey matching _ _).mpr
        ⟨rfl, List.ne_nil_of_mem (List.mem_filter.mpr ⟨he, decide_eq_true rfl⟩)⟩
    rcases mem_shortlist_or (sliceStop maxClusters (groupOn groupKey matching).length)
      (fun g : String × List LogEntry => OrderDual.toDual g.2.length) hgroup with hmem | ⟨-, hle⟩
    · exact .inl (List.mem_map_of_mem (f := Prod.fst) hmem)
    · refine .inr fun c hc => ?_
      obtain ⟨g, hg, rfl⟩ := List.mem_map.mp hc
      exact hle g hg
  · rw [hmade, List.map_map]
    exact sum_length_filter_le groupKey hnodup matching

end Groups

/-! Answers. -/

section Answers

variable (env : AskEnvironment) (store : AskStore) (llm : AskLlm) (question : String)
  (f : AskFilter) (o : AskOptions)

/-- An answer by rules. -/
def rulesText (matching : List LogEntry) (clusters : List AskCluster) : String :=
  if matching = [] then
    "No log activity found in the requested window. Try a wider time range with --since."
  else rulesAnswer question clusters matching.length

/-- A text that a language model wrote about some groups. -/
structure WrittenBy (matching : List LogEntry) (clusters : List AskCluster) (text : String) :
    Prop where
  allowed : o.noLlm = false
  enabled : o.llmProvider.getD env.llmProvider ≠ "disabled"
  nonempty : text ≠ ""
  written : ∃ model packet, llm (o.llmProvider.getD env.llmProvider) = some model ∧
    model packet = some text ∧ packet.question = question ∧ packet.clusters = clusters ∧
    packet.totalMatchingLogs = matching.length

/-- An answer is told from the lines that were found; a language model gives its text only. -/
structure Answered (result : AskResult) (matching : List LogEntry) (keys : List String) :
    Prop where
  question_eq : result.question = question
  retrieved : Retrieved env store question f matching result.retrievalMode
  told : Told env.isoformat matching (o.maxClusters.getD 8) keys result.clustersUsed
  total_eq : result.totalMatches = matching.length
  evidence : result.evidenceItems =
    if matching = [] then ["No logs found in window"]
    else upTo o.maxEvidenceItems (result.clustersUsed.map evidenceItem)
  text : result.mode = "rules" ∧
      result.answerText = rulesText question matching result.clustersUsed ∨
    result.mode = "llm" ∧
      WrittenBy env llm question o matching result.clustersUsed result.answerText

variable {env store llm question f o}

theorem llmAnswer_eq_some {packet : AskPacket} {text : String}
    (h : llmAnswer env llm o packet = some text) :
    o.noLlm = false ∧ o.llmProvider.getD env.llmProvider ≠ "disabled" ∧ text ≠ "" ∧
      ∃ model, llm (o.llmProvider.getD env.llmProvider) = some model ∧
        model packet = some text := by
  unfold llmAnswer at h
  dsimp only at h
  split at h
  · rename_i hasked
    obtain ⟨hno, hon⟩ := Bool.and_eq_true_iff.mp hasked
    obtain ⟨htext, hne⟩ := truthy_eq_some.mp h
    obtain ⟨model, hmodel, hwritten⟩ := Option.bind_eq_some_iff.mp htext
    exact ⟨by simpa using hno, bne_iff_ne.mp hon, hne, model, hmodel, hwritten⟩
  · cases h

theorem answered_answerFrom {matching : List LogEntry} {mode : RetrievalMode}
    (h : Retrieved env store question f matching mode) :
    Answered env store llm question f o (answerFrom env llm question f o matching mode) matching
      ((largestGroups matching (o.maxClusters.getD 8)).map Prod.fst) := by
  have htold := told_clusterLogs env.isoformat matching (o.maxClusters.getD 8)
  by_cases hnone : matching = []
  · subst hnone
    rw [show clusterLogs env.isoformat [] (o.maxClusters.getD 8) = [] from
      congrArg (List.map _) List.take_nil] at htold
    exact ⟨rfl, h, htold, rfl, rfl, .inl ⟨rfl, rfl⟩⟩
  · rw [answerFrom, if_neg hnone]
    refine ⟨rfl, h, htold, rfl, (if_neg hnone).symm, ?_⟩
    dsimp only
    generalize hpacket : AskPacket.mk question _ _ _ _ _ _ = packet
    cases hwritten : llmAnswer env llm o packet with
    | none => exact .inl ⟨rfl, (if_neg hnone).symm⟩
    | some text =>
      obtain ⟨hallowed, henabled, hne, model, hmodel, htext⟩ := llmAnswer_eq_some hwritten
      subst hpacket
      exact .inr ⟨rfl, hallowed, henabled, hne, model, _, hmodel, htext, rfl, rfl, rfl⟩

end Answers

/-! The route. -/

section Route

variable (env : AskEnvironment) (server : Server)

/-- The lines that a request may see, once it is settled. -/
def filterOf (a : AskArrival) (q : Question) (window : TimeWindow) : AskFilter :=
  ⟨window.start, window.stop, a.request.service, q.job, q.scope⟩

/-- What keeps lines from being looked for: an embeddings provider that cannot be set up or that
cannot say whether it is available, a text that does not reach the database, or a limit that the
database refuses. -/
inductive Unsearched (question : String) (f : AskFilter) : AskError → Prop
  | setUp {e : MergeError} (h : env.embeddingsProvider = .error e) :
      Unsearched question f (.provider e)
  | asked {provider : Provider ℚ} {e : MergeError}
      (hprovider : env.embeddingsProvider = .ok provider)
      (h : provider.isAvailable = .error e) : Unsearched question f (.provider e)
  | unsendable (h : sendable f.scope [f.service] = false) :
      Unsearched question f (.query .unsendable)
  | refused (h : Refused env question) : Unsearched question f (.query .refused)

/-- What a request is answered: the answer told from the lines that it may see, unless it is
refused, there is no window for it or its lines cannot be looked for. -/
def Sound (a : AskArrival) : Except (RouteError AskError) AskResponse → Prop
  | .error e => settleQuestion server a = .error e ∨
      ∃ q w, settleQuestion server a = .ok q ∧ e = .failed w ∧
        (windowOrLastDay env a.now q.window = .error w ∨
          ∃ window, windowOrLastDay env a.now q.window = .ok window ∧
            Unsearched env a.request.question (filterOf a q window) w)
  | .ok body => ∃ q window result matching keys, settleQuestion server a = .ok q ∧
      windowOrLastDay env a.now q.window = .ok window ∧
      body = q.response server result ∧
      Answered env a.store a.llm a.request.question (filterOf a q window) q.options result matching
        keys

variable {env}

/-- A query fails for its texts, or behind one that the database refused. -/
theorem unsearched_of_execute {store : AskStore} {question : String} {f : AskFilter}
    {provider : Provider ℚ} {available : Bool} {rows : List LogEntry} {e : QueryError}
    (hprovider : env.embeddingsProvider = .ok provider)
    (havailable : provider.isAvailable = .ok available)
    (h : execute (hitsOf env store question f provider available).2 f rows = .error e) :
    Unsearched env question f (.query e) := by
  rcases execute_eq_error.mp h with ⟨rfl, hsend⟩ | ⟨rfl, -, haborted⟩
  · exact .unsendable hsend
  · cases available with
    | false => cases haborted
    | true => exact .refused (refused_of_aborted hprovider havailable haborted)

theorem unsearched_of_retrieve {store : AskStore} {question : String} {f : AskFilter} {e : AskError}
    (h : retrieveMatchingLogs env store question f = .error e) : Unsearched env question f e := by
  unfold retrieveMatchingLogs at h
  rcases bind_eq_error.mp h with hfails | ⟨provider, hprovider, h⟩
  · obtain ⟨w, hw, rfl⟩ := mapError_eq_error.mp hfails
    exact .setUp hw
  rw [mapError_eq_ok] at hprovider
  rcases bind_eq_error.mp h with hfails | ⟨available, havailable, h⟩
  · obtain ⟨w, hw, rfl⟩ := mapError_eq_error.mp hfails
    exact .asked hprovider hw
  rw [mapError_eq_ok] at havailable
  change (if (hitsOf env store question f provider available).1 ≠ [] then _ else _) = _ at h
  split at h
  · cases h
  · rcases bind_eq_error.mp h with hfails | ⟨found, -, h⟩
    · obtain ⟨w, hw, rfl⟩ := mapError_eq_error.mp hfails
      exact unsearched_of_execute hprovider havailable hw
    split at h
    · cases h
    · rcases bind_eq_error.mp h with hfails | ⟨alarming, -, h⟩
      · obtain ⟨w, hw, rfl⟩ := mapError_eq_error.mp hfails
        exact unsearched_of_execute hprovider havailable hw
      · cases h

/-- The answer to every request, over any lines. -/
theorem askEndpoint_sound (a : AskArrival) : Sound env server a (askEndpoint env server a) := by
  unfold askEndpoint
  cases hsettle : settleQuestion server a with
  | error e => exact .inl hsettle
  | ok q =>
    show Sound env server a ((Except.mapError _ (windowOrLastDay env a.now q.window >>= _)) >>= _)
    cases hwindow : windowOrLastDay env a.now q.window with
    | error e => exact .inr ⟨q, e, hsettle, rfl, .inl hwindow⟩
    | ok window =>
      show Sound env server a ((Except.mapError _ (retrieveMatchingLogs env a.store
        a.request.question (filterOf a q window) >>= _)) >>= _)
      cases hfound : retrieveMatchingLogs env a.store a.request.question (filterOf a q window) with
      | error e =>
        exact .inr ⟨q, e, hsettle, rfl, .inr ⟨window, hwindow, unsearched_of_retrieve hfound⟩⟩
      | ok found =>
        exact ⟨q, window, _, found.1, _, hsettle, hwindow, rfl,
          answered_answerFrom (retrieved_of_ok hfound)⟩

end Route

/-! What a request may not see. -/

/-- Two stores with the same lines for a filter, and the same vectors of these. -/
structure SameLines (f : AskFilter) (store store' : AskStore) : Prop where
  lines : store.logs.entries.filter f.accepts = store'.logs.entries.filter f.accepts
  vectors : ∀ e ∈ store.logs.entries, f.accepts e = true →
    store.embeddings.find? (fun m => m.logEntryId == e.id) =
      store'.embeddings.find? fun m => m.logEntryId == e.id

section Same

variable {env : AskEnvironment} {f : AskFilter} {store store' : AskStore}
  (h : SameLines f store store')

include h

theorem distanceOf_eq (vector : List ℚ) {e : LogEntry} (he : e ∈ store.logs.entries)
    (haccepts : f.accepts e = true) :
    distanceOf env store vector e = distanceOf env store' vector e := by
  unfold distanceOf
  rw [h.vectors e he haccepts]

theorem searchLogs_eq (aborted : Bool) (keywords : List String) (levelBias : Option String) :
    searchLogs env store aborted keywords f levelBias =
      searchLogs env store' aborted keywords f levelBias := by
  unfold searchLogs
  rw [filter_eq_of_part h.lines]
  intro e he
  simp only [Bool.and_eq_true] at he
  exact he.1.2

theorem fetchFallbackClusters_eq (aborted : Bool) :
    fetchFallbackClusters env store aborted f = fetchFallbackClusters env store' aborted f := by
  unfold fetchFallbackClusters
  rw [filter_eq_of_part h.lines]
  intro e he
  exact (Bool.and_eq_true_iff.mp he).2

theorem searchLogsSemantic_eq (vector : List ℚ) (levelBias : Option String) :
    searchLogsSemantic env store vector f levelBias =
      searchLogsSemantic env store' vector f levelBias := by
  have hrows : (store.logs.entries.filter fun e =>
        (distanceOf env store vector e).any (nearEnough env) && f.accepts e &&
          hasLevel levelBias e) =
      store'.logs.entries.filter fun e =>
        (distanceOf env store' vector e).any (nearEnough env) && f.accepts e &&
          hasLevel levelBias e := by
    rw [← filter_eq_of_part h.lines]
    · refine List.filter_congr fun e he => ?_
      cases haccepts : f.accepts e with
      | false => rw [Bool.and_false, Bool.and_false]
      | true => rw [distanceOf_eq h vector he haccepts]
    · intro e he
      simp only [Bool.and_eq_true] at he
      exact he.1.2
  have hkeys : ∀ e ∈ env.engine.1 (store.logs.entries.filter fun e =>
      (distanceOf env store vector e).any (nearEnough env) && f.accepts e && hasLevel levelBias e),
      farness env store vector e = farness env store' vector e := by
    intro e he
    obtain ⟨hmem, hp⟩ := List.mem_filter.mp ((env.engine.2 _).mem_iff.mp he)
    simp only [Bool.and_eq_true] at hp
    rw [farness, farness, distanceOf_eq h vector hmem hp.1.2]
  unfold searchLogsSemantic
  dsimp only
  rw [← hrows, shortlist_congr _ hkeys]

theorem retrieveMatchingLogs_eq (question : String) :
    retrieveMatchingLogs env store question f = retrieveMatchingLogs env store' question f := by
  unfold retrieveMatchingLogs semanticHits
  simp only [searchLogs_eq h, fetchFallbackClusters_eq h, searchLogsSemantic_eq h]

end Same

theorem scope_of_settleQuestion {server : Server} {a : AskArrival} {q : Question}
    (h : settleQuestion server a = .ok q) :
    bindRequestScope server.authEnabled a.principal a.queryScope a.request.scope = .ok q.scope := by
  obtain ⟨scope, hscope, h⟩ := bind_eq_ok.mp h
  obtain ⟨overrides, -, h⟩ := bind_eq_ok.mp h
  obtain ⟨window, -, h⟩ := bind_eq_ok.mp h
  obtain ⟨job, -, h⟩ := bind_eq_ok.mp h
  obtain rfl := Except.ok.inj h
  exact mapError_eq_ok.mp hscope

/-- An answer depends on the lines that the question may see, and their vectors. -/
theorem answer_eq_of_sameLines (env : AskEnvironment) (a : AskArrival) (q : Question)
    (store' : AskStore)
    (h : ∀ window, windowOrLastDay env a.now q.window = .ok window →
      SameLines (filterOf a q window) a.store store') :
    answerQuestion env store' a.llm a.request.question a.now q.window a.request.service q.job
        q.scope q.options =
      answerQuestion env a.store a.llm a.request.question a.now q.window a.request.service q.job
        q.scope q.options := by
  unfold answerQuestion
  cases hwindow : windowOrLastDay env a.now q.window with
  | error e => rfl
  | ok window =>
    have hsame : retrieveMatchingLogs env a.store a.request.question (filterOf a q window) =
        retrieveMatchingLogs env store' a.request.question (filterOf a q window) :=
      retrieveMatchingLogs_eq (h window hwindow) a.request.question
    show (retrieveMatchingLogs env store' _ (filterOf a q window) >>= _) =
      (retrieveMatchingLogs env a.store _ (filterOf a q window) >>= _)
    rw [hsame]

/-- Lines of other scopes, windows, services and jobs, and vectors of these, change no answer. -/
theorem askEndpoint_unseen {env : AskEnvironment} {server : Server} (a : AskArrival)
    (store' : AskStore)
    (h : ∀ q window, settleQuestion server a = .ok q →
      windowOrLastDay env a.now q.window = .ok window →
      SameLines (filterOf a q window) a.store store') :
    askEndpoint env server { a with store := store' } = askEndpoint env server a := by
  have hsettle : settleQuestion server { a with store := store' } = settleQuestion server a := rfl
  unfold askEndpoint
  rw [hsettle]
  cases hq : settleQuestion server a with
  | error e => rfl
  | ok q =>
    have hanswer := answer_eq_of_sameLines env a q store' fun window => h q window hq
    show (Except.mapError _ _ >>= _) = (Except.mapError _ _ >>= _)
    rw [hanswer]

/-! Lines of two scopes, with vectors. -/

/-- A vector of one direction or of the opposite one. -/
def direction (towards : Bool) : List ℚ :=
  List.replicate storedEmbeddingDims (if towards then 1 else -1)

/-- A search that every question starts in one direction. -/
def askEnvironment : AskEnvironment where
  isWord c := c.isAlphanum
  lowering := asciiLowering
  isoformat t := toString t
  cosineDistance v w := some (if v = w then 0 else 2)
  oneMinus d := 1 - d
  engine := ⟨id, fun l => .refl l⟩
  embeddingsProvider := .ok ⟨.ok true, fun texts => .ok (texts.map fun _ => direction true)⟩
  semanticTopK := 100
  semanticMinSimilarity := 3 / 4
  llmProvider := "disabled"

def loginLine : LogEntry := GroupingLaws.sampleEntry 0 "login failed" "error"

def stockLine : LogEntry :=
  { GroupingLaws.sampleEntry 2 "stock is low" "error" with fingerprint := some "f2" }

def refundLine : LogEntry :=
  { GroupingLaws.sampleEntry 1 "refund failed" "error" with scope := "billing" }

def askRows : AskStore where
  logs := ⟨[loginLine, stockLine], by decide⟩
  embeddings := [⟨0, direction true⟩, ⟨2, direction false⟩]
  embeddings_nodup := by simp

def askRowsWithOther : AskStore where
  logs := ⟨[refundLine, loginLine, stockLine], by decide⟩
  embeddings := [⟨1, direction true⟩, ⟨0, direction true⟩, ⟨2, direction false⟩]
  embeddings_nodup := by simp

def sampleQuestion (scope : String) (store : AskStore) : AskArrival where
  request := ⟨"why did login fail", none, some 0, some 3600000000, none, none, some scope,
    ExplainRouteLaws.sampleOverrides⟩
  queryScope := none
  principal := none
  now := 0
  store := store
  llm _ := none

/-- How an answer was found, and how many lines it is told from. -/
def answeredBy (answer : Except (RouteError AskError) AskResponse) : Option (String × ℕ) :=
  answer.toOption.map fun body => (body.retrievalMode, body.totalMatches)

theorem sameLines_other {f : AskFilter} (hscope : f.scope = "default") :
    SameLines f askRows askRowsWithOther where
  lines := by
    have hother : f.accepts refundLine = false := by
      unfold AskFilter.accepts
      rw [hscope]
      rfl
    show _ = List.filter f.accepts (refundLine :: askRows.logs.entries)
    rw [List.filter_cons_of_neg (by rw [hother]; decide)]
  vectors e he _ := by
    rcases List.mem_pair.mp he with rfl | rfl <;> rfl

theorem sample_unseen :
    askEndpoint askEnvironment ExplainRouteLaws.sampleServer
        (sampleQuestion "default" askRowsWithOther) =
      askEndpoint askEnvironment ExplainRouteLaws.sampleServer
        (sampleQuestion "default" askRows) ∧
      answeredBy (askEndpoint askEnvironment ExplainRouteLaws.sampleServer
        (sampleQuestion "default" askRows)) = some ("semantic", 1) := by
  refine ⟨?_, by decide +kernel⟩
  refine askEndpoint_unseen (sampleQuestion "default" askRows) askRowsWithOther fun q window hq _ =>
    ?_
  refine sameLines_other ?_
  have hscope := scope_of_settleQuestion hq
  have hbound : bindRequestScope false none none (some "default") = .ok "default" := by decide
  exact Except.ok.inj (hscope.symm.trans hbound)

end Raglogs.QuestionLaws
