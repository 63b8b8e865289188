import Raglogs.ExplanationLaws
import Raglogs.MarkdownReports

/-!
What a reader of markdown sees in a report. An escaped text, and a text in inline code, is read
as the words it was made of, whatever they are, and ends where it was ended. A report of a
cached body is that of the explanation the body was made from, but for its importance and for
all triggers but the first, which is told by its type.
-/

namespace Raglogs.MarkdownReportLaws

open CachedBodies Clusters Collections EvidencePackets ExplainSchema Explanations ExplanationLaws
  LogEntries MarkdownReports Text Wording

/-! Words. -/

theorem words_cons_space {c : Char} (hc : isSpace c = true) (l l' : List Char) :
    words (l ++ c :: l') = words l ++ words l' := by
  rw [words, List.splitOnP_append_cons l l' hc, List.filter_append]
  rfl

theorem words_of_noSpace {w : List Char} (hne : w ≠ []) (hw : ∀ c ∈ w, isSpace c = false) :
    words w = [w] := by
  rw [words, List.splitOnP_eq_singleton hw, List.filter_singleton]
  cases w with
  | nil => exact absurd rfl hne
  | cons c w => rfl

/-- What a split yields has no white space. -/
theorem noSpace_of_mem_words {l w : List Char} (hw : w ∈ words l) :
    w ≠ [] ∧ ∀ c ∈ w, isSpace c = false := by
  rw [words, List.mem_filter] at hw
  obtain ⟨hw, hne⟩ := hw
  refine ⟨by simpa using hne, ?_⟩
  clear hne
  induction l generalizing w with
  | nil =>
    rw [List.splitOnP_nil, List.mem_singleton] at hw
    subst hw
    exact fun c hc => absurd hc List.not_mem_nil
  | cons a l ih =>
    by_cases ha : isSpace a = true
    · have hsplit : (a :: l).splitOnP isSpace = [] :: l.splitOnP isSpace :=
        List.splitOnP_append_cons [] l ha
      rw [hsplit, List.mem_cons] at hw
      rcases hw with rfl | hw
      · exact fun c hc => absurd hc List.not_mem_nil
      · exact ih hw
    · rw [List.splitOnP_cons_eq_if_modifyHead, if_neg ha] at hw
      obtain ⟨first, others, hsplit⟩ := List.exists_cons_of_ne_nil
        (List.splitOnP_ne_nil isSpace l)
      rw [hsplit, List.modifyHead_cons, List.mem_cons] at hw
      rcases hw with rfl | hw
      · intro c hc
        rcases List.mem_cons.mp hc with rfl | hc
        · simpa using ha
        · exact ih (hsplit ▸ List.mem_cons_self) c hc
      · exact ih (hsplit ▸ List.mem_cons_of_mem _ hw)

theorem words_intercalate {ws : List (List Char)}
    (h : ∀ w ∈ ws, w ≠ [] ∧ ∀ c ∈ w, isSpace c = false) :
    words ([' '].intercalate ws) = ws := by
  induction ws with
  | nil => rfl
  | cons w ws ih =>
    obtain ⟨hne, hw⟩ := h w List.mem_cons_self
    cases ws with
    | nil => simpa [List.intercalate] using words_of_noSpace hne hw
    | cons w' ws =>
      have hjoin : [' '].intercalate (w :: w' :: ws) =
          w ++ ' ' :: [' '].intercalate (w' :: ws) := by
        simp [List.intercalate]
      rw [hjoin, words_cons_space (by decide), words_of_noSpace hne hw,
        ih fun u hu => h u (List.mem_cons_of_mem w hu)]
      rfl

/-- Collapsing keeps the words. -/
@[simp]
theorem words_collapsed (text : String) : words (collapsed text) = words text.toList :=
  words_intercalate fun _ hw => noSpace_of_mem_words hw

/-! Escapes. -/

/-- A backslash before a mark is the mark. -/
def unescapeChars : List Char → List Char
  | [] => []
  | ['\\'] => ['\\']
  | '\\' :: c :: rest =>
      if mdSpecial.contains c then c :: unescapeChars rest else '\\' :: unescapeChars (c :: rest)
  | c :: rest => c :: unescapeChars rest

theorem unescapeChars_cons {c : Char} (hc : c ≠ '\\') (rest : List Char) :
    unescapeChars (c :: rest) = c :: unescapeChars rest := by
  rw [unescapeChars]
  · exact fun h => absurd h hc
  · exact fun _ _ h => absurd h hc

theorem unescapeChars_escapeChars (l : List Char) : unescapeChars (escapeChars l) = l := by
  induction l with
  | nil => rfl
  | cons c l ih =>
    have hstep : escapeChars (c :: l) =
        (if mdSpecial.contains c then ['\\', c] else [c]) ++ escapeChars l := by
      rw [escapeChars, List.flatMap_cons]
      rfl
    rw [hstep]
    by_cases hc : mdSpecial.contains c = true
    · rw [if_pos hc]
      show unescapeChars ('\\' :: c :: escapeChars l) = _
      rw [unescapeChars, if_pos hc, ih]
    · rw [if_neg hc]
      have hne : c ≠ '\\' := by
        rintro rfl
        exact hc (by decide)
      exact (unescapeChars_cons hne _).trans (congrArg _ ih)

/-! Inline code. -/

/-- What comes before the first run of exactly `n` backticks, and what comes behind it; some
backticks were read already. -/
def splitAtRun (n : ℕ) : ℕ → List Char → Option (List Char × List Char)
  | run, [] => if run = n then some ([], []) else none
  | run, c :: rest =>
      if c = '`' then splitAtRun n (run + 1) rest
      else if run = n then some ([], c :: rest)
      else (splitAtRun n 0 rest).map fun s => (List.replicate run '`' ++ c :: s.1, s.2)

/-- The content of the inline code that a line begins with, and the rest of the line. -/
def readCode (l : List Char) : Option (List Char × List Char) :=
  let n := (l.takeWhile fun c => c = '`').length
  if n = 0 then none else splitAtRun n 0 (l.drop n)

theorem splitAtRun_replicate {n k run : ℕ} (h : run + k = n) {rest : List Char}
    (hrest : rest.head? ≠ some '`') :
    splitAtRun n run (List.replicate k '`' ++ rest) = some ([], rest) := by
  induction k generalizing run with
  | zero =>
    have hn : run = n := h
    rw [List.replicate_zero, List.nil_append]
    cases rest with
    | nil => exact if_pos hn
    | cons c rest =>
      have hc : c ≠ '`' := fun hc => hrest (hc ▸ rfl)
      rw [splitAtRun, if_neg hc, if_pos hn]
  | succ k ih =>
    rw [List.replicate_succ, List.cons_append, splitAtRun, if_pos rfl]
    exact ih (by omega)

theorem longestRun_cons {c : Char} (hc : c ≠ '`') (run : ℕ) (l : List Char) :
    longestRun run (c :: l) = max run (longestRun 0 l) := by
  rw [longestRun]
  exact hc

/-- A content whose runs are all shorter is read as it is. -/
theorem splitAtRun_content {n : ℕ} {rest : List Char} (hrest : rest.head? ≠ some '`')
    {m : List Char} {run : ℕ} (hrun : longestRun run m < n) (hempty : m = [] → run = 0)
    (hlast : m.getLast? ≠ some '`') :
    splitAtRun n run (m ++ (List.replicate n '`' ++ rest)) =
      some (List.replicate run '`' ++ m, rest) := by
  induction m generalizing run with
  | nil =>
    obtain rfl := hempty rfl
    exact splitAtRun_replicate (Nat.zero_add n) hrest
  | cons c m ih =>
    have hlast' : m.getLast? ≠ some '`' := by
      cases m with
      | nil => exact nofun
      | cons d m => simpa using hlast
    by_cases hc : c = '`'
    · subst hc
      have hne : m ≠ [] := by
        rintro rfl
        exact hlast rfl
      rw [List.cons_append, splitAtRun, if_pos rfl,
        ih hrun (fun hm => absurd hm hne) hlast', List.replicate_succ']
      simp
    · rw [longestRun_cons hc, Nat.max_lt] at hrun
      rw [List.cons_append, splitAtRun, if_neg hc, if_neg (by omega),
        ih hrun.2 (fun _ => rfl) hlast']
      rfl

theorem longestRun_append_space (run : ℕ) (l : List Char) :
    longestRun run (l ++ [' ']) = longestRun run l := by
  induction l generalizing run with
  | nil => exact (longestRun_cons (by decide) run []).trans (max_eq_left (Nat.zero_le run))
  | cons c l ih =>
    by_cases hc : c = '`'
    · subst hc
      exact ih (run + 1)
    · rw [List.cons_append, longestRun_cons hc, longestRun_cons hc, ih]

/-- A text between backticks, with a space next to a backtick of its own. -/
def padded (l : List Char) : List Char :=
  (if l.head? = some '`' then [' '] else []) ++ l ++ (if l.getLast? = some '`' then [' '] else [])

theorem longestRun_padded (l : List Char) : longestRun 0 (padded l) = longestRun 0 l := by
  have hright : longestRun 0 (l ++ if l.getLast? = some '`' then [' '] else []) =
      longestRun 0 l := by
    split
    · exact longestRun_append_space 0 l
    · rw [List.append_nil]
  rw [padded, List.append_assoc]
  split
  · rw [List.singleton_append, longestRun_cons (by decide), hright, Nat.zero_max]
  · exact hright

theorem words_padded (l : List Char) : words (padded l) = words l := by
  have hright : words (l ++ if l.getLast? = some '`' then [' '] else []) = words l := by
    split
    · rw [words_cons_space (by decide)]
      exact List.append_nil _
    · rw [List.append_nil]
  rw [padded, List.append_assoc]
  split
  · rw [List.singleton_append, ← List.nil_append (' ' :: _), words_cons_space (by decide), hright]
    rfl
  · exact hright

theorem readCode_codeChars {l : List Char} (hne : l ≠ []) {rest : List Char}
    (hrest : rest.head? ≠ some '`') :
    readCode (codeChars l ++ rest) = some (padded l, rest) := by
  set n := longestRun 0 l + 1 with hn
  have hchars : codeChars l ++ rest =
      List.replicate n '`' ++ (padded l ++ (List.replicate n '`' ++ rest)) := by
    simp [codeChars, padded, hn]
  have hhead : (padded l).head? ≠ some '`' := by
    rw [padded]
    split
    · exact nofun
    · rename_i h
      cases l with
      | nil => exact absurd rfl hne
      | cons c l => exact h
  have hlast : (padded l).getLast? ≠ some '`' := by
    rw [padded]
    by_cases h : l.getLast? = some '`'
    · rw [if_pos h, List.getLast?_append]
      exact nofun
    · have hc := List.getLast?_eq_some_getLast hne
      rw [if_neg h, List.append_nil, List.getLast?_append, hc]
      exact fun heq => h (hc.trans heq)
  have hpadded : padded l ≠ [] := by
    intro h
    have := congrArg List.length h
    have hpos := List.length_pos_iff.mpr hne
    simp only [padded, List.length_append, List.length_nil] at this
    omega
  have hticks : ((codeChars l ++ rest).takeWhile fun c => c = '`').length = n := by
    obtain ⟨c, m, hm⟩ := List.exists_cons_of_ne_nil hpadded
    have hc : c ≠ '`' := fun hc => hhead (by rw [hm, hc]; rfl)
    rw [hchars, List.takeWhile_append_of_pos (by simp), hm, List.cons_append,
      List.takeWhile_cons_of_neg (by simpa using hc), List.append_nil, List.length_replicate]
  rw [readCode, hticks, if_neg (by omega), hchars, List.drop_left' (by simp),
    splitAtRun_content hrest (by rw [longestRun_padded]; omega) (fun _ => rfl) hlast]
  rfl

/-- What the two escapes make of a text reads back: the escaped text is unescaped into its words,
and the inline code ends where it was closed and holds them. -/
theorem text_reads_back (text : String) :
    unescapeChars (escapeMd text).toList = collapsed text ∧
      (∀ rest : List Char, rest.head? ≠ some '`' →
        ∃ content, readCode ((inlineCode text).toList ++ rest) = some (content, rest) ∧
          words content = words text.toList) ∧
      words (unescapeChars (escapeMd text).toList) = words text.toList := by
  have hescape : unescapeChars (escapeMd text).toList = collapsed text := by
    rw [escapeMd, String.toList_ofList, unescapeChars_escapeChars]
  refine ⟨hescape, ?_, by rw [hescape, words_collapsed]⟩
  intro rest hrest
  by_cases hempty : collapsed text = []
  · have hwords : words text.toList = [] := by rw [← words_collapsed, hempty]; rfl
    have hcode : (inlineCode text).toList ++ rest = '`' :: ' ' :: '`' :: rest := by
      rw [inlineCode, if_pos hempty]
      rfl
    refine ⟨[' '], ?_, hwords.symm ▸ rfl⟩
    rw [hcode]
    exact congrArg (Option.map _) (splitAtRun_replicate (k := 1) (Nat.zero_add 1) hrest)
  · refine ⟨padded (collapsed text), ?_, by rw [words_padded, words_collapsed]⟩
    rw [inlineCode, if_neg hempty, String.toList_ofList]
    exact readCode_codeChars hempty hrest

/-! Reports of cached bodies. -/

section Cached

variable {f : Formats} {rt : Runtime}

/-- Members that a report reads alike. -/
structure SameCluster (a b : Fields) : Prop where
  fingerprint : get a "fingerprint" = get b "fingerprint"
  count : get a "count" = get b "count"
  services : get a "services" = get b "services"
  firstSeen : get a "first_seen" = get b "first_seen"
  lastSeen : get a "last_seen" = get b "last_seen"
  baselineCount : get a "baseline_count" = get b "baseline_count"
  changeRatio : get a "change_ratio" = get b "change_ratio"
  message : orElse (get a "message") (.str "") = orElse (get b "message") (.str "")

theorem isTruthy_orElse_empty (v : Json) : isTruthy (orElse v (.str "")) = isTruthy v := by
  unfold orElse
  split
  · rfl
  · rename_i h
    simpa [isTruthy] using h

/-- A value that a truth test accepts is told as itself or as no text. -/
theorem truthyLine_orElse (name : String) (shape : String → String) (v : Json) :
    truthyLine rt name shape (orElse v (.str "")) = truthyLine rt name shape v := by
  rw [truthyLine, isTruthy_orElse_empty]
  by_cases h : isTruthy v = true
  · rw [orElse_of_truthy h, truthyLine]
  · rw [if_neg h, truthyLine, if_neg h]

theorem primaryClusterSection_congr {a b : Fields} (h : SameCluster a b)
    (himportance : get a "importance_score" = get b "importance_score")
    (hempty : a.isEmpty = b.isEmpty) :
    primaryClusterSection rt a = primaryClusterSection rt b := by
  have hmessage : truthyLine rt "Message" inlineCode (get a "message") =
      truthyLine rt "Message" inlineCode (get b "message") := by
    rw [← truthyLine_orElse, h.message, truthyLine_orElse]
  unfold primaryClusterSection servicesOf
  rw [hmessage, hempty, himportance, h.fingerprint, h.count, h.services, h.firstSeen, h.lastSeen,
    h.baselineCount, h.changeRatio]

theorem secondaryLine_congr {a b : Fields} (h : SameCluster a b) :
    secondaryLine rt a = secondaryLine rt b := by
  unfold secondaryLine servicesOf
  rw [h.message, h.count, h.fingerprint, h.services]

/-- The members of a cluster but for its importance. -/
def withoutImportance (cluster : Fields) : Fields :=
  cluster.filter fun m => m.1 ≠ "importance_score"

def evidenceFields (c : ClusterEvidence) : Fields := (objectOf c.dump).getD []

theorem sameCluster_clusterFields (c : ClusterData ℚ) :
    SameCluster (evidenceFields (clusterEvidence f c)) (clusterFields f c) where
  fingerprint := rfl
  count := rfl
  services := rfl
  firstSeen := rfl
  lastSeen := rfl
  baselineCount := rfl
  changeRatio := rfl
  message := by
    show orElse (ofText (truthy (some c.representativeMessage))) (.str "") =
      orElse (.str c.representativeMessage) (.str "")
    by_cases h : c.representativeMessage = ""
    · rw [h]
      rfl
    · rw [truthy_eq_some.mpr ⟨rfl, h⟩]
      rfl

theorem primaryClusterSection_evidence (c : ClusterData ℚ) :
    primaryClusterSection rt (evidenceFields (clusterEvidence f c)) =
      primaryClusterSection rt (withoutImportance (clusterFields f c)) :=
  primaryClusterSection_congr
    ⟨rfl, rfl, rfl, rfl, rfl, rfl, rfl, (sameCluster_clusterFields c).message⟩ rfl rfl

/-- The one trigger that a cached body tells of. -/
def typedTrigger (t : TriggerInfo) : Fields :=
  [("message", orElse (ofText t.type) (orElse .null (.str ""))),
    ("timestamp", ofText t.occurredAt), ("service", ofText t.service)]

/-- An explanation as its cached body is reported. -/
def asReplayed (trigger : TriggerInfo) (result : ExplainResult) : ExplainResult :=
  { result with
    primaryCluster := result.primaryCluster.map withoutImportance
    triggerCandidates := if trigger.detected then [typedTrigger trigger] else [] }

/-- What a report is made of, where a cluster and its evidence are told alike. -/
theorem explainResultFromPayload_replayed {windowStart windowEnd : Timestamp} {noLlm : Bool}
    {scope : String} {llmProvider : Option String} {b : ExplainResponse}
    (hb : Canonical rt windowStart windowEnd noLlm scope llmProvider b)
    (hdetail : ∀ e ∈ b.evidence, e.detail ≠ "") :
    explainResultFromPayload rt ((replayed b).modelDump false) windowStart windowEnd = .ok
      { windowStart := windowStart
        windowEnd := windowEnd
        summaryText := b.renderedText
        confidence := b.confidence.label
        evidenceItems := b.evidence.map EvidenceItem.detail
        servicesAffected := b.servicesAffected
        primaryCluster := b.primaryCluster.map evidenceFields
        secondaryClusters := b.secondaryClusters.map evidenceFields
        triggerCandidates := if b.trigger.detected then [typedTrigger b.trigger] else []
        totalLogs := b.totalLogs
        mode := b.mode
        predictedRootCause := none
        rootCauseCandidates := []
        generatedCandidates := []
        absenceCandidates := []
        predictedRootCauseConfidence := none
        confidenceCalibrated := false } := by
  set d := (replayed b).modelDump false with hd
  have hevidence : elements (get d "evidence") = .ok (b.evidence.map (EvidenceItem.dump false)) :=
    elements_arr _
  have hservices : elements (get d "services_affected") = .ok (b.servicesAffected.map .str) :=
    elements_ofTexts _
  have hsecondary : elements (get d "secondary_clusters") =
      .ok (b.secondaryClusters.map ClusterEvidence.dump) := elements_arr _
  have hlogs : toInt rt (orElse (get d "total_logs") (.int 0)) = .ok b.totalLogs :=
    toInt_orElse_zero b.totalLogs
  have hprose : str rt (orElse (get d "rendered_text") (orElse (get d "summary") (.str ""))) =
      b.renderedText := str_prose hb.summary
  have hlabel : confidenceLabel rt d = b.confidence.label := by
    show str rt (orElse (.str b.confidence.label) (.str "low")) = _
    rw [str_orElse, if_neg hb.label]
  have hmode : str rt (orElse (get d "mode") (.str "rules")) = b.mode := by
    show str rt (orElse (.str b.mode) (.str "rules")) = _
    rw [str_orElse, if_neg hb.mode]
  have hitems : (b.evidence.map (EvidenceItem.dump false)).map (evidenceString rt) =
      b.evidence.map EvidenceItem.detail := by
    rw [List.map_map]
    refine List.map_congr_left fun e he => ?_
    show str rt (orElse (.str e.detail) _) = e.detail
    rw [orElse_of_truthy (isTruthy_str.mpr (hdetail e he)), str_str]
  have hclusters : (b.secondaryClusters.map ClusterEvidence.dump).filterMap objectOf =
      b.secondaryClusters.map evidenceFields := by
    rw [List.filterMap_map, ← List.filterMap_eq_map]
    rfl
  have hpc : primaryForMarkdown d = b.primaryCluster.map evidenceFields := by
    show (objectOf ((b.primaryCluster.map ClusterEvidence.dump).getD .null)).map _ = _
    cases hc : b.primaryCluster with
    | none => rfl
    | some c =>
      obtain ⟨hmessage, -⟩ := hb.primary c hc
      have hsame : (isTruthy (ofText c.message) || !isTruthy (ofText c.template)) = true := by
        rw [hmessage]
        cases isTruthy (ofText c.template) <;> rfl
      exact congrArg some (if_pos hsame)
  have htriggers : triggerCandidatesForMarkdown d =
      if b.trigger.detected then [typedTrigger b.trigger] else [] := by
    show (if isTruthy (.bool b.trigger.detected) then _ else _) = _
    cases b.trigger.detected <;> rfl
  rw [explainResultFromPayload, hevidence, hservices, hsecondary, hlogs]
  simp only [bind, Except.bind, mapM_requiredStr, hprose, hlabel, hmode, hitems, hclusters, hpc,
    htriggers]
  rfl

/-- Explanations that are reported alike. -/
structure SameReport (rt : Runtime) (a b : ExplainResult) : Prop where
  message : orElse (get (a.primaryCluster.getD []) "message") (.str "") =
    orElse (get (b.primaryCluster.getD []) "message") (.str "")
  summaryText : a.summaryText = b.summaryText
  window : a.windowStart = b.windowStart ∧ a.windowEnd = b.windowEnd
  services : a.servicesAffected = b.servicesAffected
  totalLogs : a.totalLogs = b.totalLogs
  confidence : a.confidence = b.confidence
  mode : a.mode = b.mode
  evidence : a.evidenceItems = b.evidenceItems
  primary : primaryClusterSection rt (a.primaryCluster.getD []) =
    primaryClusterSection rt (b.primaryCluster.getD [])
  secondary : a.secondaryClusters.map (secondaryLine rt) =
    b.secondaryClusters.map (secondaryLine rt)
  triggers : a.triggerCandidates = b.triggerCandidates

theorem title_congr {a b : ExplainResult} (h : SameReport rt a b) : title rt a = title rt b := by
  have htruthy : isTruthy (get (a.primaryCluster.getD []) "message") =
      isTruthy (get (b.primaryCluster.getD []) "message") := by
    rw [← isTruthy_orElse_empty, h.message, isTruthy_orElse_empty]
  unfold title
  by_cases ha : isTruthy (get (a.primaryCluster.getD []) "message") = true
  · have hb := htruthy ▸ ha
    have heq := h.message
    rw [orElse_of_truthy ha, orElse_of_truthy hb] at heq
    rw [if_pos ha, if_pos hb, heq]
  · have hb := htruthy ▸ ha
    rw [if_neg ha, if_neg hb, h.summaryText]

theorem reportLines_congr {a b : ExplainResult} (h : SameReport rt a b)
    (reproduceCmd environment : Option String) :
    reportLines rt a reproduceCmd environment = reportLines rt b reproduceCmd environment := by
  have hmeta : metadataLines rt a environment = metadataLines rt b environment := by
    rw [metadataLines, metadataLines, h.window.1, h.window.2, h.services, h.totalLogs,
      h.confidence, h.mode]
  have hsecondary : secondaryClustersSection rt a.secondaryClusters =
      secondaryClustersSection rt b.secondaryClusters := by
    have hempty := congrArg List.isEmpty h.secondary
    rw [List.isEmpty_map, List.isEmpty_map] at hempty
    rw [secondaryClustersSection, secondaryClustersSection, hempty, h.secondary]
  rw [reportLines, reportLines, title_congr h, hmeta, h.summaryText, h.evidence, h.primary,
    hsecondary, h.triggers]

variable {env : ExplainEnvironment} {store : Store} {llm : Llm} {input : ExplainInput}
  {result : ExplainResult} {body : ExplainResponse} {noLlm cached : Bool} {scope : String}
  {llmProvider : Option String}

/-- The report of a cached body is that of its explanation, but for the importance of the
primary cluster, and for all triggers but the first, which is told by its type. -/
theorem cached_report (environment : Option String)
    (hresult : explainWindow env store llm input = .ok result)
    (hbody : explainFromResult rt result noLlm cached scope llmProvider = .ok body) :
    (explainResultFromPayload rt ((replayed body).modelDump false) result.windowStart
        result.windowEnd).map (fun made => renderIncidentReport rt made none environment) =
      .ok (renderIncidentReport rt (asReplayed body.trigger result) none environment) := by
  obtain ⟨primary, secondary, hmade⟩ := madeFrom_explainWindow hresult
  set f := env.evidence.formats
  have hcanonical := canonical_of_explainFromResult hmade hbody
  obtain ⟨c, roots, hc, -, rfl⟩ := explainFromResult_eq_ok hmade hbody
  obtain ⟨hlabel, -, -⟩ := confidenceForResult_eq_ok hmade.label hc
  have hmessage : orElse (get (((primary.map (clusterEvidence f)).map evidenceFields).getD [])
        "message") (.str "") =
      orElse (get ((result.primaryCluster.map withoutImportance).getD []) "message")
        (.str "") := by
    rw [hmade.primary_eq]
    cases primary with
    | none => rfl
    | some c => exact (sameCluster_clusterFields c).message
  have hprimary : primaryClusterSection rt
        (((primary.map (clusterEvidence f)).map evidenceFields).getD []) =
      primaryClusterSection rt ((result.primaryCluster.map withoutImportance).getD []) := by
    rw [hmade.primary_eq]
    cases primary with
    | none => rfl
    | some c => exact primaryClusterSection_evidence c
  have hsecondary : ((secondary.map (clusterEvidence f)).map evidenceFields).map
        (secondaryLine rt) = result.secondaryClusters.map (secondaryLine rt) := by
    rw [hmade.secondary_eq, List.map_map, List.map_map, List.map_map]
    exact List.map_congr_left fun c _ => secondaryLine_congr (sameCluster_clusterFields c)
  rw [explainResultFromPayload_replayed hcanonical]
  · refine congrArg Except.ok ?_
    unfold renderIncidentReport
    refine congrArg (fun lines => rstrip ("\n".intercalate lines) ++ "\n")
      (reportLines_congr ?_ none environment)
    exact
      { message := hmessage
        summaryText := rfl
        window := ⟨rfl, rfl⟩
        services := rfl
        totalLogs := rfl
        confidence := hlabel
        mode := rfl
        evidence := (List.map_map).trans (List.map_id' _)
        primary := hprimary
        secondary := hsecondary
        triggers := rfl }
  · intro e he
    obtain ⟨item, hitem, rfl⟩ := List.mem_map.mp he
    exact hmade.evidence item hitem

end Cached

end Raglogs.MarkdownReportLaws
