import Raglogs.ExplainRoute
import Raglogs.FeatureLaws
import Raglogs.MarkdownReportLaws

/-!
What a run of explain requests answers. An answer is an explanation made for it, or the body of
an earlier one that asked for the same, which comes back as it was but for its flags and its
report. As long as the rows stay and no language model is asked, nobody can tell the two apart.
-/

namespace Raglogs.ExplainRouteLaws

open CachedBodies Collections EvidencePackets ExplainRoute ExplainSchema Explanations
  ExplanationLaws FeatureLaws LogEntries MarkdownReportLaws MarkdownReports Memos Memos.Cache
  QueryOverrides Scopes Text

variable {server : Server} {digest : KeyParts → String}

/-- A body that comes back, with the report that is made of it. -/
def recalled (server : Server) (a : Ask) (v : ExplainResult × ExplainResponse) : ExplainResponse :=
  maybeAddMarkdown server (replayed v.2) (asReplayed v.2.trigger v.1) a

/-- What a request was explained by. -/
theorem explainFresh_eq_ok {a : Ask} {v : ExplainResult × ExplainResponse} :
    explainFresh server a = .ok v ↔ sendable a.asked.scope [a.asked.service, a.asked.env] = true ∧
      explainWindow (server.explainIn a.asked.zones) a.store a.llm (explainInput a) = .ok v.1 ∧
        explainFromResult (server.runtimeIn a.asked.zones) v.1 (noLlm a.asked) false a.asked.scope
          (some a.asked.overrides.llmProvider) = .ok v.2 := by
  unfold explainFresh
  rw [bind_eq_ok]
  constructor
  · rintro ⟨result, hresult, hrest⟩
    rw [bind_eq_ok] at hrest
    obtain ⟨body, hbody, hv⟩ := hrest
    obtain rfl : (result, body) = v := Except.ok.inj hv
    obtain ⟨hsent, hwindow⟩ := queried_eq_ok.mp hresult
    exact ⟨hsent, mapError_eq_ok.mp hwindow, mapError_eq_ok.mp hbody⟩
  · rintro ⟨hsent, hresult, hbody⟩
    refine ⟨v.1, queried_eq_ok.mpr ⟨hsent, mapError_eq_ok.mpr hresult⟩, ?_⟩
    rw [bind_eq_ok]
    exact ⟨v.2, mapError_eq_ok.mpr hbody, rfl⟩

/-- The window of an explanation is the one that was asked for. -/
theorem window_explainWindow {env : ExplainEnvironment} {store : Store} {llm : Llm}
    {input : ExplainInput} {result : ExplainResult}
    (h : explainWindow env store llm input = .ok result) :
    result.windowStart = input.filter.windowStart ∧
      result.windowEnd = input.filter.windowEnd := by
  rw [explainWindow] at h
  cases ha : analyse env store input with
  | error e =>
    rw [ha] at h
    cases h
  | ok a =>
    rw [ha] at h
    obtain rfl : summarise env llm input a = result := Except.ok.inj h
    unfold summarise
    split
    · exact ⟨rfl, rfl⟩
    · split <;> exact ⟨rfl, rfl⟩

theorem cachePayload_ne_nil (b : ExplainResponse) : b.cachePayload.isEmpty = false := by
  rw [cachePayload_eq]
  rfl

/-- A stored body comes back for every request that asks for the same. -/
theorem answerCached_stored {a b : Ask} (hasked : a.asked = b.asked)
    {v : ExplainResult × ExplainResponse} (h : explainFresh server a = .ok v) :
    answerCached server b v.2.cachePayload = .ok (recalled server b v) := by
  obtain ⟨-, hresult, hbody⟩ := explainFresh_eq_ok.mp h
  obtain ⟨primary, secondary, hmade⟩ := madeFrom_explainWindow hresult
  obtain ⟨hstart, hstop⟩ := window_explainWindow hresult
  have hcanonical := canonical_of_explainFromResult hmade hbody
  have hreport := cached_report b.asked.env hresult hbody
  have hstart' : v.1.windowStart = b.asked.window.start := hstart.trans (by rw [← hasked]; rfl)
  have hstop' : v.1.windowEnd = b.asked.window.stop := hstop.trans (by rw [← hasked]; rfl)
  rw [hstart', hstop', hasked] at hcanonical hreport
  rw [answerCached, explainFromCached_stored hcanonical]
  set rt := server.runtimeIn b.asked.zones
  show ((explainResultFromPayload rt ((replayed v.2).modelDump false) b.asked.window.start
    b.asked.window.stop).mapError _ >>= _) = _
  cases hpayload : explainResultFromPayload rt ((replayed v.2).modelDump false)
      b.asked.window.start b.asked.window.stop with
  | error e =>
    rw [hpayload] at hreport
    cases hreport
  | ok made =>
    rw [hpayload] at hreport
    have hrender : renderIncidentReport rt made none b.asked.env =
        renderIncidentReport rt (asReplayed v.2.trigger v.1) none b.asked.env :=
      Except.ok.inj hreport
    show Except.ok (maybeAddMarkdown server (replayed v.2) made b) = _
    rw [recalled, maybeAddMarkdown, maybeAddMarkdown, hrender]

/-- The settled requests of a run. -/
def settled (server : Server) (l : List Arrival) : List Ask :=
  l.filterMap fun a => (settle server a).toOption

theorem mem_settled {l : List Arrival} {q : Ask} :
    q ∈ settled server l ↔ ∃ a ∈ l, settle server a = .ok q := by
  rw [settled, List.mem_filterMap]
  refine exists_congr fun a => and_congr_right fun _ => ?_
  cases settle server a <;> simp [Except.toOption]

/-- A request that is not settled does not matter. -/
theorem tableAfter_eq (table : List (String × Fields)) (l : List Arrival) :
    tableAfter server digest table l = (cache server digest).after table (settled server l) := by
  induction l generalizing table with
  | nil => rfl
  | cons a rest ih =>
    rw [tableAfter, ih, explainEndpoint]
    cases hsettle : settle server a with
    | error e =>
      have hrest : settled server (a :: rest) = settled server rest := by
        rw [settled, List.filterMap_cons, hsettle]
        rfl
      rw [hrest]
    | ok ask =>
      have hrest : settled server (a :: rest) = ask :: settled server rest := by
        rw [settled, List.filterMap_cons, hsettle]
        rfl
      rw [hrest]
      rfl

/-- No other request of a run has the digest of this one. -/
def Distinct (server : Server) (digest : KeyParts → String) (earlier : List Arrival)
    (a : Arrival) : Prop :=
  ∀ q ∈ settled server earlier, ∀ ask, settle server a = .ok ask →
    digest (keyParts server q.asked) = digest (keyParts server ask.asked) → q.asked = ask.asked

theorem faithful_cache {l : List Ask} {ask : Ask}
    (h : ∀ q ∈ l, digest (keyParts server q.asked) = digest (keyParts server ask.asked) →
      q.asked = ask.asked) :
    (cache server digest).Faithful l ask (recalled server ask) := by
  intro q hq v hkept hkey
  refine ⟨?_, answerCached_stored (h q hq hkey) hkept.1⟩
  show (!v.2.cachePayload.isEmpty) = true
  rw [cachePayload_ne_nil]
  rfl

/-- A request that was explained without a model, and not for a structural view. -/
def Explained (server : Server) (q : Ask) (v : ExplainResult × ExplainResponse) : Prop :=
  explainFresh server q = .ok v ∧ v.1.mode = "rules" ∧ q.structural = false

theorem kept_iff {q : Ask} {v : ExplainResult × ExplainResponse} :
    (cache server digest).Kept q v ↔ Explained server q v := by
  show (explainFresh server q = .ok v ∧ (v.1.mode == "rules" && !q.structural) = true) ↔ _
  rw [Explained, Bool.and_eq_true, beq_iff_eq, Bool.not_eq_true']

/-- A request behind some others is explained anew: it skips the cache, or none of them that
asked for the same could be kept. -/
def Anew (server : Server) (earlier : List Ask) (ask : Ask) : Prop :=
  ask.forceRefresh = true ∨ ask.structural = true ∨
    ∀ q ∈ earlier, q.asked = ask.asked → ∀ v, ¬Explained server q v

/-- The last of the requests for the same that was explained anew and kept, and how. -/
def LastExplained (server : Server) (earlier : List Ask) (ask : Ask)
    (v : ExplainResult × ExplainResponse) : Prop :=
  ∃ older q newer, earlier = older ++ q :: newer ∧ q.asked = ask.asked ∧ Explained server q v ∧
    Anew server older q ∧
    ∀ q' ∈ newer, q'.asked = ask.asked → q'.forceRefresh = true → ∀ v', ¬Explained server q' v'

theorem anew_of_new {l : List Ask} {ask : Ask} (h : (cache server digest).New l ask) :
    Anew server l ask := by
  rcases h with hreads | hno
  · have hask : ask.forceRefresh = false → ask.structural = true := by
      simpa [cache] using hreads
    cases hrefresh : ask.forceRefresh with
    | true => exact Or.inl hrefresh
    | false => exact Or.inr (Or.inl (hask hrefresh))
  · refine Or.inr (Or.inr fun q hq hasked v hv => ?_)
    exact hno q hq (congrArg (fun b => digest (keyParts server b)) hasked) v (kept_iff.mpr hv)

/-- How a request is answered behind some others: it is refused, answered by the body of the last
request for the same that was explained, or explained itself. -/
inductive Answered (server : Server) (earlier : List Ask) (a : Arrival) :
    Except (RouteError ExplainFailure) ExplainResponse → Prop
  | refused {e : RouteError ExplainFailure} (hsettle : settle server a = .error e) :
      Answered server earlier a (.error e)
  | again {ask : Ask} {v : ExplainResult × ExplainResponse} (hsettle : settle server a = .ok ask)
      (hreads : ask.forceRefresh = false ∧ ask.structural = false)
      (hlast : LastExplained server earlier ask v) :
      Answered server earlier a (.ok (recalled server ask v))
  | anew {ask : Ask} (hsettle : settle server a = .ok ask) (hanew : Anew server earlier ask) :
      Answered server earlier a
        ((explainFresh server ask).map fun v => maybeAddMarkdown server v.2 v.1 ask)

/-- In every run, whatever the rows and the models that its requests find. -/
theorem explainEndpoint_after (earlier : List Arrival) (a : Arrival)
    (hdistinct : Distinct server digest earlier a) :
    Answered server (settled server earlier) a
      (explainEndpoint server digest (tableAfter server digest [] earlier) a).1 := by
  rw [tableAfter_eq, explainEndpoint]
  cases hsettle : settle server a with
  | error e => exact .refused hsettle
  | ok ask =>
    have hsame := fun q hq => hdistinct q hq ask hsettle
    rcases serve_after (faithful_cache hsame) with ⟨v, hreads, hlast, hanswer⟩ | ⟨hnew, hanswer⟩
    · have hask : ask.forceRefresh = false ∧ ask.structural = false := by
        simpa [cache] using hreads
      obtain ⟨older, q, newer, hl, hkey, hkept, hnew, hnewer⟩ := hlast
      show Answered server _ a ((cache server digest).serve _ ask).1
      rw [hanswer]
      refine .again hsettle hask
        ⟨older, q, newer, hl, hsame q (by simp [hl]) hkey, kept_iff.mp hkept, anew_of_new hnew, ?_⟩
      intro q' hq' hasked hrefresh v' hv'
      rcases hnewer q' hq' (congrArg (fun b => digest (keyParts server b)) hasked) with
        hreads' | hno
      · simp [cache, hrefresh] at hreads'
      · exact hno v' (kept_iff.mpr hv')
    · show Answered server _ a ((cache server digest).serve _ ask).1
      rw [hanswer]
      exact .anew hsettle (anew_of_new hnew)

/-! As long as the rows stay and no model is asked. -/

/-- What a settled request finds, and what its job is. -/
theorem settle_eq_ok {a : Arrival} {ask : Ask} (h : settle server a = .ok ask) :
    ask.store = a.store ∧
      (parseJob server ask.asked.ingestionJobId : Except (RouteError ExplainFailure) (Option ℕ)) =
        .ok ask.job := by
  unfold settle at h
  simp only [bind_eq_ok] at h
  obtain ⟨scope, -, overrides, -, window, -, job, hjob, h⟩ := h
  cases h
  exact ⟨rfl, hjob⟩

/-- A model that is not asked does not matter. -/
theorem explainWindow_noLlm (env : ExplainEnvironment) (store : Store) (llm llm' : Llm)
    {input : ExplainInput} (h : input.noLlm = true) :
    explainWindow env store llm input = explainWindow env store llm' input := by
  have htext : ∀ packet, llmText env llm input packet = llmText env llm' input packet := by
    intro packet
    have hasks : input.asksLlm env = false := by
      rw [ExplainInput.asksLlm, llmRequested, h]
      rfl
    rw [llmText, llmText, hasks, if_neg Bool.false_ne_true, if_neg Bool.false_ne_true]
  have hsummarise : summarise env llm input = summarise env llm' input := by
    funext a
    unfold summarise explained
    rw [htext]
  rw [explainWindow, explainWindow, hsummarise]

/-- Requests for the same, over the same rows and without a model, are explained alike. -/
theorem explainFresh_congr {a b : Ask} (hasked : a.asked = b.asked) (hjob : a.job = b.job)
    (hstore : a.store = b.store) (hllm : b.asked.overrides.llmEnabled = false) :
    explainFresh server a = explainFresh server b := by
  have hinput : explainInput a = explainInput b := by
    unfold explainInput
    rw [hasked, hjob]
  have hno : (explainInput b).noLlm = true := by
    show (!b.asked.overrides.llmEnabled) = true
    rw [hllm]
    rfl
  unfold explainFresh
  rw [hinput, hstore, hasked,
    explainWindow_noLlm (server.explainIn b.asked.zones) b.store a.llm b.llm hno]

/-- In every run over the same rows: a request that no model is asked for is answered as if it
were explained itself, by the body or by the body as it comes back. -/
theorem explainEndpoint_transparent (earlier : List Arrival) (a : Arrival)
    (hdistinct : Distinct server digest earlier a) (hrows : ∀ b ∈ earlier, b.store = a.store)
    {ask : Ask} (hsettle : settle server a = .ok ask)
    (hllm : ask.asked.overrides.llmEnabled = false) :
    (explainEndpoint server digest (tableAfter server digest [] earlier) a).1 =
        (explainFresh server ask).map (fun v => maybeAddMarkdown server v.2 v.1 ask) ∨
      (explainEndpoint server digest (tableAfter server digest [] earlier) a).1 =
        (explainFresh server ask).map (recalled server ask) := by
  obtain ⟨hstore, hjob⟩ := settle_eq_ok hsettle
  rw [tableAfter_eq, explainEndpoint, hsettle]
  rcases serve_after (faithful_cache fun q hq => hdistinct q hq ask hsettle) with
    ⟨v, -, hlast, hanswer⟩ | ⟨-, hanswer⟩
  · obtain ⟨older, q, newer, hl, hkey, hkept, -, -⟩ := hlast
    have hmem : q ∈ settled server earlier := by simp [hl]
    have hasked := hdistinct q hmem ask hsettle hkey
    obtain ⟨b, hb, hq⟩ := mem_settled.mp hmem
    obtain ⟨hqstore, hqjob⟩ := settle_eq_ok hq
    have hsamejob : q.job = ask.job := by
      rw [hasked, hjob] at hqjob
      exact (Except.ok.inj hqjob).symm
    have hsamestore : q.store = ask.store := by rw [hqstore, hrows b hb, hstore]
    have hfresh : explainFresh server q = explainFresh server ask :=
      explainFresh_congr hasked hsamejob hsamestore hllm
    have hv : explainFresh server ask = .ok v := hfresh ▸ hkept.1
    right
    rw [hv]
    exact hanswer
  · exact Or.inl hanswer

/-! A server without models or keys. -/

def sampleFormats : Formats where
  isWord c := c.isAlphanum
  lowering := asciiLowering
  keys := ⟨fun d => SortedDicts.inOrder d.keys, fun _ => SortedDicts.inOrder_nodup _,
    fun _ _ => SortedDicts.mem_inOrder.trans Finmap.mem_keys⟩
  fixed _ x := toString x.num
  clock t := toString t
  stamp _ t := toString t
  zones := ⟨0, 0⟩
  isoformat t := toString t
  round2 x := x

def sampleExplain : ExplainEnvironment where
  scoring := ⟨fun x => x, ⟨5, 4, 3, 1, 1⟩, asciiLowering⟩
  mergeSimilarity _ _ := 0
  mergeEnvironment := ⟨.error (.backend "disabled"), fun _ => .error (.backend "disabled")⟩
  resultOrder := GroupingLaws.buildOrder
  evidence :=
    { formats := sampleFormats
      loads := fun _ => .error ""
      log := fun x => x
      weights := ⟨1, 1, 0⟩
      triggerMode := "regex"
      lookbackMinutes := 30
      rare := ⟨sampleFormats.keys, Propagation.byName, sampleRank.rendering, fun x => x,
        fun x => x, 3⟩ }
  confidence := Confidences.ConfidenceSettings.default
  settings := serverDefaults
  roundTo4 x := x
  rank := sampleRank

def sampleServer : Server where
  explain := sampleExplain
  runtime :=
    { lowering := asciiLowering
      repr := fun _ => ""
      intOfText := fun _ => none
      floatOfText := fun _ => none
      boolOfText := fun _ => none
      parseIso := fun _ => none
      isoformat := fun _ t => toString t
      zones := ⟨0, 0⟩
      labelScores := ⟨1 / 4, 1 / 2, 3 / 4, 1⟩
      settings := serverDefaults
      llmModel := "" }
  authEnabled := false
  repr := id
  parseUuid _ := none

def sampleOverrides : OverrideInput := ⟨some "24h", some 10, some 8, some "disabled", none, none⟩

/-- An hour of a scope is asked for. -/
def sampleArrival (scope : String) (store : Store) : Arrival where
  request := ⟨none, some ⟨0, none⟩, some ⟨3600000000, none⟩, none, none, none, false, false,
    some scope, false, sampleOverrides⟩
  queryScope := none
  principal := none
  now := 0
  store := store
  llm _ := none

def sampleAsk (scope : String) (store : Store) : Ask where
  asked := ⟨⟨0, 3600000000⟩, ⟨0, 0⟩, none, none, none, scope, ⟨"24h", 10, 8, "disabled", false⟩⟩
  job := none
  forceRefresh := false
  markdown := false
  structural := false
  store := store
  llm _ := none

theorem settle_sample {scope : String} (store : Store)
    (hscope : bindRequestScope false none none (some scope) = .ok scope) :
    settle sampleServer (sampleArrival scope store) = .ok (sampleAsk scope store) := by
  have hday : parseBaselineWindow asciiLowering "24h" "baseline_window" = .ok "24h" :=
    (parseBaselineWindow_checks _).accepts _ serverDefaults_withinBounds.1
  have hresolve : resolveQueryOverrides asciiLowering id sampleOverrides none serverDefaults false =
      .ok ⟨"24h", 10, 8, "disabled", false⟩ := by
    unfold resolveQueryOverrides
    show (parseBaselineWindow asciiLowering "24h" "baseline_window" >>= fun _ => _) = _
    rw [hday]
    rfl
  unfold settle
  show ((bindRequestScope false none none (some scope)).mapError RouteError.scope >>= fun _ => _) =
    _
  rw [hscope]
  show ((resolveQueryOverrides asciiLowering id sampleOverrides none serverDefaults false).mapError
    RouteError.overrides >>= fun _ => _) = _
  rw [hresolve]
  rfl

/-- Two errors of one service in the hour, of different fingerprints. -/
def errorRows : Store where
  logs := ⟨[GroupingLaws.sampleEntry 1 "login failed" "error",
    { GroupingLaws.sampleEntry 2 "gateway timeout" "error" with fingerprint := some "f2" }],
    by decide⟩
  jobs := []
  spans := []
  samples := []

/-- Scopes as short as these are their own digest. -/
def scopeDigest (k : KeyParts) : String := k.scope

def sampleRun : List Arrival := [sampleArrival "default" errorRows, sampleArrival "other" errorRows]

theorem settle_default (store : Store) :
    settle sampleServer (sampleArrival "default" store) = .ok (sampleAsk "default" store) :=
  settle_sample store (by decide)

theorem settle_other (store : Store) :
    settle sampleServer (sampleArrival "other" store) = .ok (sampleAsk "other" store) :=
  settle_sample store (by decide)

theorem settled_sampleRun :
    settled sampleServer sampleRun =
      [sampleAsk "default" errorRows, sampleAsk "other" errorRows] := by
  unfold sampleRun settled
  simp only [List.filterMap_cons, settle_default, settle_other]
  rfl

theorem distinct_sampleRun :
    Distinct sampleServer scopeDigest sampleRun (sampleArrival "default" errorRows) := by
  intro q hq ask hask hdigest
  rw [settle_default] at hask
  obtain rfl := Except.ok.inj hask
  rw [settled_sampleRun, List.mem_cons, List.mem_singleton] at hq
  rcases hq with rfl | rfl
  · rfl
  · exact absurd hdigest (by decide)

theorem sample_answered :
    Answered sampleServer (settled sampleServer sampleRun) (sampleArrival "default" errorRows)
      (explainEndpoint sampleServer scopeDigest (tableAfter sampleServer scopeDigest [] sampleRun)
        (sampleArrival "default" errorRows)).1 :=
  explainEndpoint_after sampleRun (sampleArrival "default" errorRows) distinct_sampleRun

theorem sample_transparent :
    (explainEndpoint sampleServer scopeDigest (tableAfter sampleServer scopeDigest [] sampleRun)
          (sampleArrival "default" errorRows)).1 =
        (explainFresh sampleServer (sampleAsk "default" errorRows)).map
          (fun v => maybeAddMarkdown sampleServer v.2 v.1 (sampleAsk "default" errorRows)) ∨
      (explainEndpoint sampleServer scopeDigest (tableAfter sampleServer scopeDigest [] sampleRun)
          (sampleArrival "default" errorRows)).1 =
        (explainFresh sampleServer (sampleAsk "default" errorRows)).map
          (recalled sampleServer (sampleAsk "default" errorRows)) := by
  refine explainEndpoint_transparent sampleRun (sampleArrival "default" errorRows)
    distinct_sampleRun ?_ (settle_default errorRows) rfl
  intro b hb
  simp only [sampleRun, List.mem_cons, List.not_mem_nil, or_false] at hb
  rcases hb with rfl | rfl <;> rfl

end Raglogs.ExplainRouteLaws
