import Raglogs.ExplainRouteLaws
import Raglogs.ScopedReads

/-!
Explanations of one scope. Every query of an explanation asks for the rows of its scope, so the
rows of other scopes do not matter, neither for one explanation nor in a run of requests that
are answered from stored bodies as well.
-/

namespace Raglogs.ScopedExplanations

open Candidates Clusters Collections Dicts EvidencePackets ExplainRoute ExplainSchema
  ExplainRouteLaws Explanations FailedEdges Features LogEntries Memos RareTriggers ScopedReads
  SilentServices Telemetry TriggerScan

/-- Two stores with the same rows in a scope. -/
structure SameRows (scope : String) (store store' : Store) : Prop where
  logs : SameEntries scope store.logs store'.logs
  spans : store.spans.filter (fun sp => sp.scope == scope) =
    store'.spans.filter (fun sp => sp.scope == scope)
  samples : store.samples.filter (fun m => m.scope == scope) =
    store'.samples.filter (fun m => m.scope == scope)

/-- What is read inside a part depends on that part only. -/
theorem filterMap_eq_of_part {α β : Type*} {mine : α → Bool} {f : α → Option β} {l l' : List α}
    (h : l.filter mine = l'.filter mine) (hf : ∀ a, (f a).isSome = true → mine a = true) :
    l.filterMap f = l'.filterMap f := by
  have hinside : ∀ l : List α, l.filterMap f = (l.filter mine).filterMap f := by
    intro l
    rw [List.filterMap_filter]
    refine List.filterMap_congr fun a _ => ?_
    cases hm : mine a with
    | true => rfl
    | false =>
      cases hfa : f a with
      | none => rfl
      | some b =>
        have := hf a (by rw [hfa]; rfl)
        rw [hm] at this
        cases this
  rw [hinside l, hinside l', h]

section Queries

variable {scope : String} {store store' : Store} (h : SameRows scope store store')

include h

theorem countLogsInWindow_eq {f : WindowFilter} (hf : f.scope = scope) :
    countLogsInWindow store f = countLogsInWindow store' f := by
  subst hf
  unfold countLogsInWindow
  rw [List.countP_eq_length_filter, List.countP_eq_length_filter, filter_eq_of_part h.logs]
  intro e he
  simp only [Bool.and_eq_true] at he
  exact he.1.1.2

theorem spansInWindow_eq (windowStart windowEnd : Timestamp) :
    spansInWindow store.spans scope windowStart windowEnd =
      spansInWindow store'.spans scope windowStart windowEnd :=
  filter_eq_of_part h.spans fun _ hsp => (Bool.and_eq_true_iff.mp hsp).1

theorem rows_eq {search : Search} (hs : search.scope = scope) (searchEnd : Option Timestamp) :
    search.rows store.logs searchEnd = search.rows store'.logs searchEnd := by
  subst hs
  unfold Search.rows
  rw [filter_eq_of_part h.logs]
  intro e he
  unfold Search.accepts at he
  simp only [Bool.and_eq_true] at he
  exact he.1.2

theorem regexTriggers_eq (env : EvidenceEnvironment) {f : WindowFilter} (hf : f.scope = scope)
    (onset : Option Timestamp) :
    regexTriggers env store f onset = regexTriggers env store' f onset := by
  have hfind : ∀ search : Search, search.scope = scope →
      findTriggerCandidates env.loads store.logs search onset =
        findTriggerCandidates env.loads store'.logs search onset := by
    intro search hs
    unfold findTriggerCandidates Search.shown
    rw [rows_eq h hs]
  unfold regexTriggers
  split
  · rw [hfind _ hf]
  · rfl

theorem rareEventTriggers_eq (env : RareEnvironment ℚ) (clusters : List (ClusterData ℚ))
    (primary : Option (ClusterData ℚ)) (windowStart windowEnd : Timestamp) :
    rareEventTriggers env store.samples store.spans clusters primary windowStart windowEnd scope =
      rareEventTriggers env store'.samples store'.spans clusters primary windowStart windowEnd
        scope := by
  have hmetrics : metricOnsets env.rd env.log1p env.sqrt store.samples scope windowStart windowEnd =
      metricOnsets env.rd env.log1p env.sqrt store'.samples scope windowStart windowEnd := by
    unfold metricOnsets
    rw [filter_eq_of_part h.samples fun _ hm => (Bool.and_eq_true_iff.mp hm).1]
  have hlinks : links env store.spans primary windowStart windowEnd scope =
      links env store'.spans primary windowStart windowEnd scope := by
    unfold links
    rw [spansInWindow_eq h]
  unfold rareEventTriggers scoredTriggers
  rw [hmetrics, hlinks]

theorem assembleEvidence_eq (env : EvidenceEnvironment) {f : WindowFilter} (hf : f.scope = scope)
    (clusters : List (ClusterData ℚ)) (maxEvidenceItems : ℤ) :
    assembleEvidence env store f clusters maxEvidenceItems =
      assembleEvidence env store' f clusters maxEvidenceItems := by
  have htriggers : ∀ primary, triggersIn env store f clusters primary =
      triggersIn env store' f clusters primary := by
    intro primary
    unfold triggersIn
    rw [regexTriggers_eq h env hf, hf, rareEventTriggers_eq h]
  unfold assembleEvidence
  rw [countLogsInWindow_eq h hf]
  simp only [htriggers]

theorem silentServices_eq (roundTo4 : Exact ℚ → Exact ℚ) (lowering : Text.Lowering)
    (windowStart windowEnd : Timestamp) (baselineWindow : String) :
    silentServices roundTo4 lowering store.spans scope windowStart windowEnd baselineWindow =
      silentServices roundTo4 lowering store'.spans scope windowStart windowEnd
        baselineWindow := by
  have hcounts : ∀ lo hi, countsBetween store.spans scope lo hi =
      countsBetween store'.spans scope lo hi := by
    intro lo hi
    unfold countsBetween spansBetween
    rw [filter_eq_of_part h.spans fun _ hsp => (Bool.and_eq_true_iff.mp hsp).1]
  unfold silentServices
  simp only [hcounts]

theorem computeFeatures_eq (isWord : Char → Bool) (lowering : Text.Lowering) (rd : Rendering)
    (baselineStart incidentStart incidentEnd : Timestamp) :
    computeFeatures isWord lowering rd store.logs.entries store.spans store.samples scope
        baselineStart incidentStart incidentEnd =
      computeFeatures isWord lowering rd store'.logs.entries store'.spans store'.samples scope
        baselineStart incidentStart incidentEnd := by
  unfold computeFeatures
  rw [filter_eq_of_part h.logs fun _ he => (Bool.and_eq_true_iff.mp he).1,
    filter_eq_of_part h.spans fun _ hsp => (Bool.and_eq_true_iff.mp hsp).1,
    filter_eq_of_part h.samples fun _ hm => (Bool.and_eq_true_iff.mp hm).1]

theorem errorOnsets_eq (env : RankEnvironment) (windowStart windowEnd : Timestamp) :
    errorOnsets env store.logs.entries scope windowStart windowEnd =
      errorOnsets env store'.logs.entries scope windowStart windowEnd := by
  unfold errorOnsets
  rw [filterMap_eq_of_part h.logs]
  intro e he
  simp only [Option.bind_eq_bind, Option.isSome_bind, Option.any_eq_true] at he
  obtain ⟨_, -, _, -, _, -, hif⟩ := he
  split at hif
  · rename_i hrow
    exact beq_iff_eq.mpr hrow.1
  · cases hif

theorem propagationRerank_eq (env : RankEnvironment) (windowStart windowEnd : Timestamp)
    (candidates : List Candidate) :
    propagationRerank env store.logs.entries store.spans scope windowStart windowEnd candidates =
      propagationRerank env store'.logs.entries store'.spans scope windowStart windowEnd
        candidates := by
  unfold propagationRerank errorSpanEdges
  rw [spansInWindow_eq h, errorOnsets_eq h]

theorem rankCandidates_eq (env : RankEnvironment) (windowStart windowEnd : Timestamp)
    (baselineWindow : String) :
    rankCandidates env store.logs.entries store.spans store.samples scope windowStart windowEnd
        baselineWindow =
      rankCandidates env store'.logs.entries store'.spans store'.samples scope windowStart windowEnd
        baselineWindow := by
  unfold rankCandidates movedCandidates
  simp only [computeFeatures_eq h, propagationRerank_eq h]

theorem explainWindow_eq (env : ExplainEnvironment) (llm : Llm) {input : ExplainInput}
    (hscope : input.filter.scope = scope) :
    explainWindow env store llm input = explainWindow env store' llm input := by
  have hanalyse : analyse env store input = analyse env store' input := by
    subst hscope
    unfold analyse
    dsimp only
    rw [runClustering_eq h.logs env.scoring env.mergeSimilarity env.mergeEnvironment
      env.resultOrder store.jobs store'.jobs]
    simp only [assembleEvidence_eq h env.evidence rfl, rankCandidates_eq h, silentServices_eq h]
  rw [explainWindow, explainWindow, hanalyse]

end Queries

/-! Runs of requests. -/

variable {server : Server} {digest : KeyParts → String}

/-- The same request, over stores with the same rows in its scope. -/
structure SameAsk (a b : Ask) : Prop where
  asked : a.asked = b.asked
  job : a.job = b.job
  forceRefresh : a.forceRefresh = b.forceRefresh
  markdown : a.markdown = b.markdown
  structural : a.structural = b.structural
  llm : a.llm = b.llm
  rows : SameRows a.asked.scope a.store b.store

theorem explainFresh_eq {a b : Ask} (h : SameAsk a b) :
    explainFresh server a = explainFresh server b := by
  have hinput : explainInput a = explainInput b := by
    unfold explainInput
    rw [h.asked, h.job]
  have hwindow : explainWindow (server.explainIn a.asked.zones) a.store a.llm (explainInput a) =
      explainWindow (server.explainIn a.asked.zones) b.store b.llm (explainInput b) := by
    rw [explainWindow_eq h.rows _ a.llm rfl, hinput, h.llm]
  unfold explainFresh
  rw [hwindow, h.asked]

theorem alike_of_sameAsk {a b : Ask} (h : SameAsk a b) : (cache server digest).Alike a b where
  key := congrArg (fun asked => digest (keyParts server asked)) h.asked
  reads := by
    show (!a.forceRefresh && !a.structural) = (!b.forceRefresh && !b.structural)
    rw [h.forceRefresh, h.structural]
  compute := explainFresh_eq h
  keeps := by
    funext v
    show (v.1.mode == "rules" && !a.structural) = (v.1.mode == "rules" && !b.structural)
    rw [h.structural]
  replay := by
    funext p
    show answerCached server a p = answerCached server b p
    unfold answerCached maybeAddMarkdown
    rw [h.asked, h.markdown]
  answer := by
    funext v
    show maybeAddMarkdown server v.2 v.1 a = maybeAddMarkdown server v.2 v.1 b
    unfold maybeAddMarkdown
    rw [h.asked, h.markdown]

/-- The requests of one key, of two runs that ask the same. -/
theorem alike_filter (k : String) {l l' : List Ask} (hl : List.Forall₂ SameAsk l l') :
    List.Forall₂ (cache server digest).Alike
      (l.filter fun q => (cache server digest).key q = k)
      (l'.filter fun q => (cache server digest).key q = k) := by
  induction hl with
  | nil => exact .nil
  | @cons q q' l l' hq _ ih =>
    have halike : (cache server digest).Alike q q' := alike_of_sameAsk hq
    by_cases hk : (cache server digest).key q = k
    · rw [List.filter_cons_of_pos (by simpa using hk),
        List.filter_cons_of_pos (by simpa using halike.key ▸ hk)]
      exact .cons halike ih
    · rw [List.filter_cons_of_neg (by simpa using hk),
        List.filter_cons_of_neg (by simpa using halike.key ▸ hk)]
      exact ih

/-- The settled requests of a run that ask for a scope. -/
def askedIn (server : Server) (scope : String) (l : List Arrival) : List Ask :=
  (settled server l).filter fun q => q.asked.scope == scope

/-- What other scopes store and ask for does not matter: two runs with the same requests in a
scope, over the same rows of that scope, answer a request for that scope alike, but for the
structural view of a request that asks for one, which is not part of the answers here. -/
theorem explainEndpoint_scoped {earlier earlier' : List Arrival} {a a' : Arrival} {ask ask' : Ask}
    (hsettle : settle server a = .ok ask) (hsettle' : settle server a' = .ok ask')
    (hsame : SameAsk ask ask')
    (hruns : List.Forall₂ SameAsk (askedIn server ask.asked.scope earlier)
      (askedIn server ask.asked.scope earlier'))
    (hdistinct : Distinct server digest earlier a)
    (hdistinct' : Distinct server digest earlier' a') :
    (explainEndpoint server digest (tableAfter server digest [] earlier) a).1 =
      (explainEndpoint server digest (tableAfter server digest [] earlier') a').1 := by
  have halike : (cache server digest).Alike ask ask' := alike_of_sameAsk hsame
  have hkey := halike.key
  have hmine : ∀ {l : List Ask}, (∀ q ∈ l, (cache server digest).key q =
      (cache server digest).key ask → q.asked = ask.asked) →
      l.filter (fun q => (cache server digest).key q = (cache server digest).key ask) =
        (l.filter fun q => q.asked.scope == ask.asked.scope).filter fun q =>
          (cache server digest).key q = (cache server digest).key ask := by
    intro l hl
    rw [List.filter_filter]
    refine List.filter_congr fun q hq => ?_
    by_cases hk : (cache server digest).key q = (cache server digest).key ask
    · simp [hl q hq hk]
    · simp [hk]
  rw [tableAfter_eq, tableAfter_eq, explainEndpoint, explainEndpoint, hsettle, hsettle']
  refine Cache.serve_after_congr (alike_of_sameAsk hsame) ?_
  have hearlier := hmine (l := settled server earlier) fun q hq => hdistinct q hq ask hsettle
  have hearlier' := hmine (l := settled server earlier') fun q hq hk =>
    (hdistinct' q hq ask' hsettle' (hk.trans hkey)).trans hsame.asked.symm
  rw [hearlier, hearlier']
  exact alike_filter _ hruns

/-! A line and a span of another scope, and a request for that scope. -/

def otherSpan : TraceSpan (Exact ℚ) :=
  ⟨some "t", some "s", none, some "billing", none, some 1000000, some (.finite (5 : ℚ)), some "2",
    "other"⟩

def otherEntry : LogEntry :=
  { GroupingLaws.sampleEntry 3 "refund failed" "error" with scope := "other" }

def otherRows : Store :=
  { errorRows with
    logs := ⟨otherEntry :: errorRows.logs.entries, by decide⟩
    spans := [otherSpan] }

theorem sameRows_other : SameRows "default" errorRows otherRows where
  logs := by
    show _ = List.filter (fun e => e.scope == "default") (otherEntry :: errorRows.logs.entries)
    rw [List.filter_cons_of_neg (by decide)]
  spans := by
    show [] = List.filter (fun sp => sp.scope == "default") [otherSpan]
    rw [List.filter_cons_of_neg (by decide)]
    rfl
  samples := rfl

theorem sameAsk_default : SameAsk (sampleAsk "default" errorRows) (sampleAsk "default" otherRows) :=
  ⟨rfl, rfl, rfl, rfl, rfl, rfl, sameRows_other⟩

theorem askedIn_default :
    askedIn sampleServer "default" sampleRun = [sampleAsk "default" errorRows] := by
  rw [askedIn, settled_sampleRun]
  rfl

theorem sample_scoped :
    (explainEndpoint sampleServer scopeDigest (tableAfter sampleServer scopeDigest [] sampleRun)
        (sampleArrival "default" errorRows)).1 =
      (explainEndpoint sampleServer scopeDigest
        (tableAfter sampleServer scopeDigest [] [sampleArrival "default" otherRows])
        (sampleArrival "default" otherRows)).1 := by
  have hasked : askedIn sampleServer "default" [sampleArrival "default" otherRows] =
      [sampleAsk "default" otherRows] := by
    rw [askedIn, settled, List.filterMap_cons, settle_default]
    rfl
  refine explainEndpoint_scoped (settle_default errorRows) (settle_default otherRows)
    sameAsk_default ?_ distinct_sampleRun ?_
  · show List.Forall₂ SameAsk (askedIn sampleServer "default" sampleRun) _
    rw [askedIn_default]
    show List.Forall₂ SameAsk _ (askedIn sampleServer "default" _)
    rw [hasked]
    exact .cons sameAsk_default .nil
  · intro q hq ask hask _
    obtain ⟨b, hb, hsettle⟩ := mem_settled.mp hq
    obtain rfl := List.mem_singleton.mp hb
    rw [hsettle] at hask
    rw [Except.ok.inj hask]

end Raglogs.ScopedExplanations
