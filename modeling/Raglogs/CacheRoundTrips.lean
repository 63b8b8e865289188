import Raglogs.ExplainRouteLaws

/-!
Explanations that make the round trip through the cache. The stored body of an explanation
comes back with its confidence no longer marked as calibrated, and the report that is made of
it does not tell the importance of the primary cluster. So only an explanation without a
primary cluster comes back whole.
-/

namespace Raglogs.CacheRoundTrips

open CachedBodies Clusters EvidencePackets ExplainRoute ExplainRouteLaws ExplainSchema Explanations
  ExplanationLaws FeatureLaws LogEntries MarkdownReportLaws MarkdownReports ModelFiles Text

/-- The report of a stored payload. -/
def replayedReport (rt : Runtime) (payload : Fields) (windowStart windowEnd : Timestamp)
    (noLlm : Bool) (scope : String) (llmProvider environment : Option String) :
    Except PayloadError String := do
  let body ← explainFromCached rt payload windowStart windowEnd noLlm scope llmProvider
  let result ← explainResultFromPayload rt (body.modelDump false) windowStart windowEnd
  return renderIncidentReport rt result none environment

/-- A body comes back from the cache in all its fields but the mark of a cached one, and so does
its report. -/
structure RoundTrips (rt : Runtime) (result : ExplainResult) (body : ExplainResponse)
    (noLlm : Bool) (scope : String) (llmProvider environment : Option String) : Prop where
  fields : explainFromCached rt body.cachePayload result.windowStart result.windowEnd noLlm scope
    llmProvider = .ok { body with cached := true }
  report : replayedReport rt body.cachePayload result.windowStart result.windowEnd noLlm scope
    llmProvider environment = .ok (renderIncidentReport rt result none environment)

/-! Reports that differ in one line. -/

theorem rstrip_mark {l r : List Char} {c : Char} (hc : isSpace c = false) :
    ∃ r', (rstrip (String.ofList (l ++ c :: r))).toList = l ++ c :: r' := by
  rw [rstrip, String.toList_ofList, String.toList_ofList, List.reverse_append, List.reverse_cons,
    List.append_assoc, List.dropWhile_append]
  split
  · exact ⟨[], by simp [hc]⟩
  · exact ⟨(r.reverse.dropWhile isSpace).reverse, by simp⟩

variable {rt : Runtime}

/-- The characters of a report up to a mark in one of its lines. -/
theorem render_mark {a : ExplainResult} {environment : Option String}
    {before after : List String} {line : String} {mark rest : List Char} {c : Char}
    (hlines : reportLines rt a none environment = before ++ line :: after) (hbefore : before ≠ [])
    (hline : line.toList = mark ++ c :: rest) (hc : isSpace c = false) :
    ∃ tail, (renderIncidentReport rt a none environment).toList =
      (("\n".intercalate before).toList ++ '\n' :: mark) ++ c :: tail := by
  have hafter : ∃ behind, "\n".intercalate (line :: after) = line ++ behind := by
    cases after with
    | nil => exact ⟨"", by rw [String.intercalate_singleton, String.append_empty]⟩
    | cons next others =>
      exact ⟨"\n" ++ "\n".intercalate (next :: others), by
        rw [String.intercalate_cons_cons, String.append_assoc]⟩
  obtain ⟨behind, hbehind⟩ := hafter
  have htext : "\n".intercalate (before ++ line :: after) =
      String.ofList (("\n".intercalate before).toList ++ '\n' :: mark ++
        c :: (rest ++ behind.toList)) := by
    rw [String.intercalate_append_of_ne_nil hbefore (List.cons_ne_nil _ _), hbehind]
    apply String.toList_injective
    simp [hline]
  obtain ⟨tail, htail⟩ := rstrip_mark (l := ("\n".intercalate before).toList ++ '\n' :: mark)
    (r := rest ++ behind.toList) hc
  refine ⟨tail ++ ['\n'], ?_⟩
  rw [renderIncidentReport, hlines, htext, String.toList_append, htail]
  simp

theorem render_ne {a b : ExplainResult} {environment : Option String}
    {before after after' : List String} {line line' : String} {mark rest rest' : List Char}
    {c c' : Char} (ha : reportLines rt a none environment = before ++ line :: after)
    (hb : reportLines rt b none environment = before ++ line' :: after') (hbefore : before ≠ [])
    (hline : line.toList = mark ++ c :: rest) (hline' : line'.toList = mark ++ c' :: rest')
    (hc : isSpace c = false) (hc' : isSpace c' = false) (hne : c ≠ c') :
    renderIncidentReport rt a none environment ≠ renderIncidentReport rt b none environment := by
  intro heq
  obtain ⟨tail, htail⟩ := render_mark ha hbefore hline hc
  obtain ⟨tail', htail'⟩ := render_mark hb hbefore hline' hc'
  rw [heq, htail'] at htail
  exact hne (List.cons.inj (List.append_cancel_left htail)).1.symm

/-! The importance of the primary cluster. -/

/-- The section of a cluster up to its importance. -/
def sectionHead (rt : Runtime) (cluster : Fields) : List String :=
  ["## Primary cluster", ""] ++
    truthyLine rt "Fingerprint" inlineCode (get cluster "fingerprint") ++
    givenLine rt "Count" (get cluster "count")

/-- What follows the importance of a cluster in its section. -/
def sectionTail (rt : Runtime) (cluster : Fields) : List String :=
  truthyLine rt "Message" inlineCode (get cluster "message") ++
    ((if servicesOf rt cluster = [] then []
      else [bullet "Services" (", ".intercalate (servicesOf rt cluster))]) ++
    (truthyLine rt "First seen" escapeMd (get cluster "first_seen") ++
    (truthyLine rt "Last seen" escapeMd (get cluster "last_seen") ++
    (givenLine rt "Baseline count" (get cluster "baseline_count") ++
    (givenLine rt "Change ratio" (get cluster "change_ratio") ++ [""])))))

theorem primaryClusterSection_eq {cluster : Fields} (h : cluster.isEmpty = false) :
    primaryClusterSection rt cluster =
      sectionHead rt cluster ++
        (givenLine rt "Importance" (get cluster "importance_score") ++ sectionTail rt cluster) := by
  rw [primaryClusterSection, h, if_neg Bool.false_ne_true, sectionHead, sectionTail]
  simp only [List.append_assoc]

/-- The first line is a bullet, but not that of the importance. -/
def Unimportant (l : List String) : Prop :=
  ∃ line after, l = line :: after ∧
    ∃ c rest, line.toList = "- **".toList ++ c :: rest ∧ isSpace c = false ∧ 'I' ≠ c

theorem unimportant_bullet {name : String} {c : Char} {rest : List Char}
    (hname : name.toList = c :: rest) (hc : isSpace c = false) (hne : 'I' ≠ c) (text : String)
    (after : List String) : Unimportant (bullet name text :: after) := by
  refine ⟨_, after, rfl, c, rest ++ ":** ".toList ++ text.toList, ?_, hc, hne⟩
  rw [bullet, String.toList_append, String.toList_append, String.toList_append, hname]
  simp

theorem unimportant_append {l after : List String}
    (hl : l = [] ∨ ∃ name text, l = [bullet name text] ∧
      ∃ c rest, name.toList = c :: rest ∧ isSpace c = false ∧ 'I' ≠ c)
    (hafter : Unimportant after) : Unimportant (l ++ after) := by
  rcases hl with rfl | ⟨name, text, rfl, c, rest, hname, hc, hne⟩
  · exact hafter
  · exact unimportant_bullet hname hc hne text after

theorem unimportant_sectionTail (rt : Runtime) {cluster : Fields} {n : ℤ}
    (hbaseline : get cluster "baseline_count" = .int n) :
    Unimportant (sectionTail rt cluster) := by
  have htruthy : ∀ (name : String) (shape : String → String) (v : Json),
      truthyLine rt name shape v = [] ∨
        ∃ name' text, truthyLine rt name shape v = [bullet name' text] ∧ name' = name := by
    intro name shape v
    unfold truthyLine
    split
    · exact Or.inr ⟨name, _, rfl, rfl⟩
    · exact Or.inl rfl
  unfold sectionTail
  refine unimportant_append ?_ (unimportant_append ?_ (unimportant_append ?_
    (unimportant_append ?_ ?_)))
  · exact (htruthy _ _ _).imp id fun ⟨_, text, h, hname⟩ =>
      ⟨_, text, h, 'M', "essage".toList, hname ▸ rfl, by decide, by decide⟩
  · split
    · exact Or.inl rfl
    · exact Or.inr ⟨"Services", _, rfl, 'S', "ervices".toList, rfl, by decide, by decide⟩
  · exact (htruthy _ _ _).imp id fun ⟨_, text, h, hname⟩ =>
      ⟨_, text, h, 'F', "irst seen".toList, hname ▸ rfl, by decide, by decide⟩
  · exact (htruthy _ _ _).imp id fun ⟨_, text, h, hname⟩ =>
      ⟨_, text, h, 'L', "ast seen".toList, hname ▸ rfl, by decide, by decide⟩
  · have hname : "Baseline count".toList = 'B' :: "aseline count".toList := rfl
    rw [hbaseline]
    exact unimportant_bullet hname (by decide) (by decide) (str rt (.int n)) _

/-- The lines of a report up to the section of its primary cluster. -/
def reportFront (rt : Runtime) (result : ExplainResult) (environment : Option String) :
    List String :=
  ["# Incident report", "", escapeMd (title rt result), ""] ++
    metadataLines rt result environment ++
    ["", "## Summary", "", rstrip result.summaryText, "", "## Evidence", ""] ++
    evidenceSection result.evidenceItems

theorem reportLines_front (rt : Runtime) (result : ExplainResult) (environment : Option String) :
    reportLines rt result none environment =
      reportFront rt result environment ++
        (primaryClusterSection rt (result.primaryCluster.getD []) ++
          (secondaryClustersSection rt result.secondaryClusters ++
            (triggerCandidatesSection rt result.triggerCandidates ++ reproduceSection none))) := by
  rw [reportLines, reportFront]
  simp only [List.append_assoc]

/-- The report of a cached body lacks the importance of the primary cluster. -/
theorem report_ne_of_primary {f : Formats} {pc : ClusterData ℚ} {result : ExplainResult}
    (hprimary : result.primaryCluster = some (clusterFields f pc)) (trigger : TriggerInfo)
    (environment : Option String) :
    renderIncidentReport rt result none environment ≠
      renderIncidentReport rt (asReplayed trigger result) none environment := by
  set a := clusterFields f pc
  have hreplayed : (asReplayed trigger result).primaryCluster = some (withoutImportance a) := by
    show result.primaryCluster.map withoutImportance = _
    rw [hprimary]
    rfl
  have hsection : primaryClusterSection rt a = sectionHead rt a ++
      (bullet "Importance" (str rt (.float (f.round2 pc.importanceScore))) ::
        sectionTail rt a) := primaryClusterSection_eq rfl
  have hbaseline : get (withoutImportance a) "baseline_count" = .int pc.baselineCount := rfl
  obtain ⟨line, after, htail, c, rest, hline, hc, hne⟩ := unimportant_sectionTail rt hbaseline
  have hsection' : primaryClusterSection rt (withoutImportance a) =
      sectionHead rt a ++ (line :: after) := by
    rw [primaryClusterSection_eq rfl, htail]
    rfl
  have htitle : title rt (asReplayed trigger result) = title rt result := by
    unfold title
    rw [hreplayed, hprimary]
    rfl
  have hfront : reportFront rt (asReplayed trigger result) environment =
      reportFront rt result environment := by
    rw [reportFront, reportFront, htitle]
    rfl
  have hlines := reportLines_front rt result environment
  have hlines' := reportLines_front rt (asReplayed trigger result) environment
  rw [hprimary, Option.getD_some, hsection, List.append_assoc, ← List.append_assoc] at hlines
  rw [hreplayed, Option.getD_some, hsection', hfront, List.append_assoc,
    ← List.append_assoc] at hlines'
  have himportance : (bullet "Importance" (str rt (.float (f.round2 pc.importanceScore)))).toList =
      "- **".toList ++ 'I' :: ("mportance:** ".toList ++
        (str rt (.float (f.round2 pc.importanceScore))).toList) := by
    rw [bullet, String.toList_append, String.toList_append, String.toList_append]
    simp
  exact render_ne hlines hlines' (by simp [sectionHead]) himportance hline (by decide) hc hne

/-! The round trip of an explanation. -/

variable {env : ExplainEnvironment} {store : Store} {llm : Llm} {input : ExplainInput}
  {result : ExplainResult} {body : ExplainResponse} {noLlm : Bool} {scope : String}
  {llmProvider : Option String}

/-- An explanation tells of no primary cluster and of no triggers, or of the cluster that the
evidence gives. -/
theorem primary_of_explainWindow (h : explainWindow env store llm input = .ok result) :
    (result.primaryCluster = none ∧ result.triggerCandidates = [] ∧
        result.confidenceCalibrated = false) ∨
      ∃ pc, result.primaryCluster = some (clusterFields env.evidence.formats pc) ∧
        (result.confidenceCalibrated = true →
          result.predictedRootCauseConfidence.isSome = true) := by
  rw [explainWindow] at h
  cases ha : analyse env store input with
  | error e =>
    rw [ha] at h
    cases h
  | ok a =>
    rw [ha] at h
    obtain rfl : summarise env llm input a = result := Except.ok.inj h
    unfold summarise
    split
    · exact Or.inl ⟨rfl, rfl, rfl⟩
    · split
      · exact Or.inr ⟨_, rfl, id⟩
      · exact Or.inl ⟨rfl, rfl, rfl⟩

theorem replayed_eq_iff {b : ExplainResponse} (hmarkdown : b.markdown = none) :
    replayed b = { b with cached := true } ↔ b.confidence.calibrated = false := by
  constructor
  · intro heq
    exact (congrArg (fun b => b.confidence.calibrated) heq).symm
  · intro hno
    have hsame : { b.confidence with calibrated := false } = b.confidence := by rw [← hno]
    rw [replayed, hsame, ← hmarkdown]

/-- A body comes back in all its fields exactly if its confidence is not calibrated. -/
theorem fields_iff (hresult : explainWindow env store llm input = .ok result)
    (hbody : explainFromResult rt result noLlm false scope llmProvider = .ok body) :
    explainFromCached rt body.cachePayload result.windowStart result.windowEnd noLlm scope
        llmProvider = .ok { body with cached := true } ↔ result.confidenceCalibrated = false := by
  obtain ⟨primary, secondary, hmade⟩ := madeFrom_explainWindow hresult
  have hcanonical := canonical_of_explainFromResult hmade hbody
  obtain ⟨c, roots, hc, -, rfl⟩ := explainFromResult_eq_ok hmade hbody
  obtain ⟨-, -, hcalibrated⟩ := confidenceForResult_eq_ok hmade.label hc
  have hflag : c.calibrated = result.confidenceCalibrated := by
    have hsome : result.confidenceCalibrated = true →
        result.predictedRootCauseConfidence.isSome = true := by
      rcases primary_of_explainWindow hresult with ⟨-, -, hno⟩ | ⟨_, -, hsome⟩
      · intro htrue
        rw [hno] at htrue
        cases htrue
      · exact hsome
    rw [Bool.eq_iff_iff, hcalibrated]
    exact ⟨And.left, fun htrue => ⟨htrue, hsome htrue⟩⟩
  rw [explainFromCached_stored hcanonical, ← hflag, Except.ok.injEq]
  exact replayed_eq_iff rfl

/-- The report of the stored body. -/
theorem replayedReport_eq (environment : Option String)
    (hresult : explainWindow env store llm input = .ok result)
    (hbody : explainFromResult rt result noLlm false scope llmProvider = .ok body) :
    replayedReport rt body.cachePayload result.windowStart result.windowEnd noLlm scope llmProvider
        environment =
      .ok (renderIncidentReport rt (asReplayed body.trigger result) none environment) := by
  obtain ⟨primary, secondary, hmade⟩ := madeFrom_explainWindow hresult
  have hcanonical := canonical_of_explainFromResult hmade hbody
  rw [replayedReport, explainFromCached_stored hcanonical,
    ← cached_report environment hresult hbody]
  show (explainResultFromPayload rt ((replayed body).modelDump false) result.windowStart
    result.windowEnd >>= fun made => pure (renderIncidentReport rt made none environment)) = _
  cases explainResultFromPayload rt ((replayed body).modelDump false) result.windowStart
    result.windowEnd <;> rfl

/-- An explanation without a primary cluster is reported as it is. -/
theorem asReplayed_eq (hresult : explainWindow env store llm input = .ok result)
    (hbody : explainFromResult rt result noLlm false scope llmProvider = .ok body)
    (hprimary : result.primaryCluster = none) (htriggers : result.triggerCandidates = []) :
    asReplayed body.trigger result = result := by
  obtain ⟨primary, secondary, hmade⟩ := madeFrom_explainWindow hresult
  obtain ⟨c, roots, -, -, rfl⟩ := explainFromResult_eq_ok hmade hbody
  unfold asReplayed
  rw [hprimary, htriggers]
  cases result
  cases hprimary
  cases htriggers
  rfl

/-- An explanation and its report make the round trip through the cache exactly if no primary
cluster is told of, and the fields alone exactly if the confidence is not calibrated. -/
theorem explanation_roundTrips_iff (environment : Option String)
    (hresult : explainWindow env store llm input = .ok result)
    (hbody : explainFromResult rt result noLlm false scope llmProvider = .ok body) :
    (RoundTrips rt result body noLlm scope llmProvider environment ↔
        result.primaryCluster = none) ∧
      (explainFromCached rt body.cachePayload result.windowStart result.windowEnd noLlm scope
          llmProvider = .ok { body with cached := true } ↔
        result.confidenceCalibrated = false) := by
  have hfields := fields_iff hresult hbody
  have hreport := replayedReport_eq environment hresult hbody
  refine ⟨⟨?_, ?_⟩, hfields⟩
  · intro h
    rcases primary_of_explainWindow hresult with ⟨hnone, -⟩ | ⟨pc, hsome, -⟩
    · exact hnone
    · have heq := hreport.symm.trans h.report
      exact absurd (Except.ok.inj heq).symm
        (report_ne_of_primary hsome body.trigger environment)
  · intro hnone
    rcases primary_of_explainWindow hresult with ⟨-, htriggers, hno⟩ | ⟨pc, hsome, -⟩
    · refine ⟨hfields.mpr hno, ?_⟩
      rw [hreport, asReplayed_eq hresult hbody hnone htriggers]
    · rw [hnone] at hsome
      cases hsome

/-! Two errors of a service that a ranker with a calibrator blames. -/

def calibratedExplain : ExplainEnvironment :=
  { sampleExplain with
    rank := { sampleRank with calibrator := some ⟨1, 0, .topScore⟩, propagationRerank := false } }

def sampleInput : ExplainInput := explainInput (sampleAsk "default" errorRows)

theorem eq_ok_of_toOption {ε α : Type} {x : Except ε α} {a : α} (h : x.toOption = some a) :
    x = .ok a := by
  cases x with
  | error e => cases h
  | ok b => exact congrArg Except.ok (Option.some.inj h)

theorem sample_calibrated : ∃ result body,
    explainWindow calibratedExplain errorRows (fun _ => none) sampleInput = .ok result ∧
      explainFromResult sampleServer.runtime result true false "default" (some "disabled") =
        .ok body ∧
      result.mode = "rules" ∧ result.confidenceCalibrated = true ∧
      result.primaryCluster.isSome = true := by
  have heval : ((explainWindow calibratedExplain errorRows (fun _ => none)
      sampleInput).toOption.any fun result =>
        (explainFromResult sampleServer.runtime result true false "default"
            (some "disabled")).toOption.isSome && (result.mode == "rules" &&
          (result.confidenceCalibrated && result.primaryCluster.isSome))) = true := by
    decide +kernel
  obtain ⟨result, hresult, htells⟩ := Option.any_eq_true _ _ |>.mp heval
  simp only [Bool.and_eq_true, beq_iff_eq] at htells
  obtain ⟨hbody, hmode, hcalibrated, hprimary⟩ := htells
  obtain ⟨body, hbody⟩ := Option.isSome_iff_exists.mp hbody
  exact ⟨result, body, eq_ok_of_toOption hresult, eq_ok_of_toOption hbody, hmode,
    hcalibrated, hprimary⟩

theorem sample_roundTrips : ∃ result body,
    explainWindow calibratedExplain errorRows (fun _ => none) sampleInput = .ok result ∧
      explainFromResult sampleServer.runtime result true false "default" (some "disabled") =
        .ok body ∧
      ((RoundTrips sampleServer.runtime result body true "default" (some "disabled") none ↔
          result.primaryCluster = none) ∧
        (explainFromCached sampleServer.runtime body.cachePayload result.windowStart
            result.windowEnd true "default" (some "disabled") = .ok { body with cached := true } ↔
          result.confidenceCalibrated = false)) := by
  obtain ⟨result, body, hresult, hbody, -⟩ := sample_calibrated
  exact ⟨result, body, hresult, hbody, explanation_roundTrips_iff none hresult hbody⟩

/-- Neither the fields nor the report make the round trip. -/
theorem calibrated_not_roundTrips : ∃ result body,
    explainWindow calibratedExplain errorRows (fun _ => none) sampleInput = .ok result ∧
      explainFromResult sampleServer.runtime result true false "default" (some "disabled") =
        .ok body ∧
      result.mode = "rules" ∧
      explainFromCached sampleServer.runtime body.cachePayload result.windowStart result.windowEnd
        true "default" (some "disabled") ≠ .ok { body with cached := true } ∧
      replayedReport sampleServer.runtime body.cachePayload result.windowStart result.windowEnd
        true "default" (some "disabled") none ≠
          .ok (renderIncidentReport sampleServer.runtime result none none) := by
  obtain ⟨result, body, hresult, hbody, hmode, hcalibrated, hprimary⟩ := sample_calibrated
  refine ⟨result, body, hresult, hbody, hmode, fun hfields => ?_, fun hreport => ?_⟩
  · have hno := (fields_iff hresult hbody).mp hfields
    rw [hcalibrated] at hno
    cases hno
  · rcases primary_of_explainWindow hresult with ⟨hnone, -⟩ | ⟨pc, hsome, -⟩
    · rw [hnone] at hprimary
      cases hprimary
    · rw [replayedReport_eq none hresult hbody] at hreport
      exact report_ne_of_primary hsome body.trigger none (Except.ok.inj hreport).symm

end Raglogs.CacheRoundTrips
