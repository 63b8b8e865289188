import Raglogs.ExplainSchema

/-!
Bodies that come back from the cache. A body is canonical if it is as a fresh one is made: its
summary is the one of its prose, a cluster has one text, and what must not be empty is not.
Such a body comes back as it was, but for the flag of a calibrated confidence.
-/

namespace Raglogs.CachedBodies

open Collections ExplainSchema LogEntries Text

/-- The stored members of a body. -/
def stored (b : ExplainResponse) : Fields :=
  [("schema_version", .str b.schemaVersion), ("scope", .str b.scope),
    ("window", .obj [("from", .str b.window.start), ("to", .str b.window.stop)]),
    ("confidence", b.confidence.dump true), ("summary", .str b.summary),
    ("trigger", b.trigger.dump),
    ("primary_cluster", (b.primaryCluster.map ClusterEvidence.dump).getD .null),
    ("secondary_clusters", .arr (b.secondaryClusters.map ClusterEvidence.dump)),
    ("evidence", .arr (b.evidence.map (EvidenceItem.dump true))),
    ("llm", b.llm.dump), ("rendered_text", .str b.renderedText),
    ("total_logs", .int b.totalLogs), ("mode", .str b.mode),
    ("services_affected", ofTexts b.servicesAffected),
    ("predicted_root_cause", ofText b.predictedRootCause),
    ("root_cause_candidates", .arr (b.rootCauseCandidates.map RootCauseCandidate.dump)),
    ("predicted_root_cause_confidence", ofFloat b.predictedRootCauseConfidence),
    ("absence_candidates", ofTexts b.absenceCandidates)]

theorem cachePayload_eq (b : ExplainResponse) : b.cachePayload = stored b := by
  cases hmarkdown : b.markdown with
  | none => simp [ExplainResponse.cachePayload, ExplainResponse.modelDump, stored, given, hmarkdown]
  | some m => simp [ExplainResponse.cachePayload, ExplainResponse.modelDump, stored, given,
      hmarkdown]

variable {rt : Runtime}

@[simp]
theorem str_str (s : String) : str rt (.str s) = s := rfl

theorem orElse_of_truthy {a b : Json} (h : isTruthy a = true) : orElse a b = a := if_pos h

theorem isTruthy_str {s : String} : isTruthy (.str s) = true ↔ s ≠ "" := by
  simp [isTruthy]

/-- A text, or another one in place of the empty one. -/
theorem str_orElse (s t : String) :
    str rt (orElse (.str s) (.str t)) = if s = "" then t else s := by
  by_cases h : s = ""
  · subst h
    rfl
  · rw [if_neg h, orElse_of_truthy (isTruthy_str.mpr h), str_str]

@[simp]
theorem optionalStr_ofText (s : Option String) : optionalStr (ofText s) = .ok s := by
  cases s <;> rfl

@[simp]
theorem optionalInt_ofInt (n : Option ℤ) : optionalInt rt (ofInt n) = .ok n := by
  cases n <;> rfl

@[simp]
theorem optionalFloat_ofFloat (x : Option ℚ) : optionalFloat rt (ofFloat x) = .ok x := by
  cases x <;> rfl

@[simp]
theorem isText_ofText (s : Option String) : isText (ofText s) = s := by
  cases s <;> rfl

@[simp]
theorem isNumber_ofFloat (x : Option ℚ) : isNumber (ofFloat x) = x := by
  cases x <;> rfl

@[simp]
theorem namesOf_ofTexts (l : List String) : namesOf rt (ofTexts l) = l := by
  rw [ofTexts, namesOf, List.map_map]
  exact List.map_id' l

@[simp]
theorem elements_arr (l : List Json) : elements (.arr l) = .ok l := by
  cases l <;> rfl

@[simp]
theorem elements_ofTexts (l : List String) : elements (ofTexts l) = .ok (l.map .str) :=
  elements_arr _

/-- The prose of a payload, whose summary is that of its text. -/
theorem str_prose {prose summary : String} (h : summary = shortSummary rt prose) :
    str rt (orElse (.str prose) (orElse (.str summary) (.str ""))) = prose := by
  by_cases hempty : prose = ""
  · rw [h, hempty]
    rfl
  · rw [orElse_of_truthy (isTruthy_str.mpr hempty), str_str]

theorem toInt_orElse_zero (n : ℤ) : toInt rt (orElse (.int n) (.int 0)) = .ok n := by
  by_cases hzero : n = 0
  · rw [hzero]
    rfl
  · rw [orElse_of_truthy (by simpa [isTruthy] using hzero)]
    rfl

theorem mapM_requiredStr (l : List String) : (l.map Json.str).mapM requiredStr = .ok l := by
  rw [List.mapM_map]
  exact (mapM_ok fun _ _ => rfl).trans (congrArg _ (List.map_id' _))

/-! The parts come back. -/

/-- A cluster with one text, which is not empty. -/
structure CanonicalCluster (c : ClusterEvidence) : Prop where
  message : c.message = c.template
  template : c.template ≠ some ""

theorem clusterFromMapping_dump {c : ClusterEvidence} (h : CanonicalCluster c) :
    clusterFromMapping rt c.dump = .ok (some c) := by
  obtain ⟨fingerprint, template, count, baselineCount, changeRatio, services, levels, firstSeen,
    lastSeen, message⟩ := c
  obtain ⟨hmessage, htemplate⟩ := h
  dsimp only at hmessage htemplate
  subst hmessage
  have hfields : clusterFromMapping rt (ClusterEvidence.dump ⟨fingerprint, message, count,
      baselineCount, changeRatio, services, levels, firstSeen, lastSeen, message⟩) = (do
        let template := orElse (ofText message) (orElse (ofText message) .null)
        let text := if Push.isNull template then none else some (str rt template)
        let fingerprint ← optionalStr (ofText fingerprint)
        let count ← optionalInt rt (ofInt count)
        let baselineCount ← optionalInt rt (ofInt baselineCount)
        let changeRatio ← optionalFloat rt (ofFloat changeRatio)
        let firstSeen ← optionalStr (ofText firstSeen)
        let lastSeen ← optionalStr (ofText lastSeen)
        return some ⟨fingerprint, text, count, baselineCount, changeRatio,
          namesOf rt (ofTexts services), namesOf rt (ofTexts levels), firstSeen, lastSeen,
          text⟩) := rfl
  rw [hfields]
  simp only [optionalStr_ofText, optionalInt_ofInt, optionalFloat_ofFloat, namesOf_ofTexts]
  cases message with
  | none => rfl
  | some m =>
    have hm : m ≠ "" := fun hm => htemplate (hm ▸ rfl)
    have htext : orElse (ofText (some m)) (orElse (ofText (some m)) .null) = .str m :=
      orElse_of_truthy (isTruthy_str.mpr hm)
    rw [htext]
    rfl

theorem clustersFrom_dump {clusters : List ClusterEvidence}
    (h : ∀ c ∈ clusters, CanonicalCluster c) :
    clustersFrom rt (clusters.map ClusterEvidence.dump) = .ok clusters := by
  have hall : (clusters.map ClusterEvidence.dump).mapM (clusterFromMapping rt) =
      .ok (clusters.map some) := by
    rw [List.mapM_map]
    exact mapM_ok fun c hc => clusterFromMapping_dump (h c hc)
  rw [clustersFrom, hall]
  show Except.ok ((clusters.map some).filterMap id) = _
  rw [List.filterMap_map]
  simp

theorem evidenceFromItem_dump {e : EvidenceItem} (h : e.kind ≠ "") :
    evidenceFromItem rt (e.dump true) = .ok e := by
  obtain ⟨kind, detail, ref, sourceRef⟩ := e
  have hkind : str rt (orElse (.str kind) (.str "log")) = kind := by
    rw [str_orElse, if_neg h]
  cases ref <;> cases sourceRef <;>
    exact congrArg (fun kind => Except.ok (EvidenceItem.mk kind detail _ _)) hkind

theorem confidenceFromValue_dump {c : Confidence} (hlabel : c.label ≠ "")
    (hscore : 0 ≤ c.score ∧ c.score ≤ 1) :
    confidenceFromValue rt (c.dump true) = .ok { c with calibrated := false } := by
  obtain ⟨label, score, calibrated⟩ := c
  have hfields : confidenceFromValue rt (Confidence.dump true ⟨label, score, calibrated⟩) =
      confidence (str rt (orElse (.str label) (.str "low"))) score false := by
    cases calibrated <;> rfl
  rw [hfields, str_orElse, if_neg hlabel, confidence, if_pos hscore]

theorem triggerFromMapping_dump (t : TriggerInfo) (candidates : List Json)
    (primary : Option ClusterEvidence) :
    triggerFromMapping rt t.dump candidates primary = .ok t := by
  have hfields : triggerFromMapping rt t.dump candidates primary = (do
      let detected ← requiredBool rt (.bool t.detected)
      let type ← optionalStr (ofText t.type)
      let service ← optionalStr (ofText t.service)
      let occurredAt ← optionalStr (ofText t.occurredAt)
      let correlation ← optionalStr (ofText t.correlation)
      return ⟨detected, type, service, occurredAt, correlation⟩) := rfl
  rw [hfields]
  simp only [optionalStr_ofText]
  rfl

theorem str_orElse_empty (s : String) : str rt (orElse (.str s) (.str "")) = s := by
  rw [str_orElse]
  split
  · rename_i h
    exact h.symm
  · rfl

/-- The members of a dumped candidate. -/
def candidateFields (c : RootCauseCandidate) : Fields :=
  [("service", .str c.service), ("score", .float c.score), ("modalities", ofTexts c.modalities),
    ("evidence", .arr (c.evidence.map fun e =>
      .obj [("modality", .str e.modality), ("detail", .str e.detail)]))]

theorem rcaCandidateFrom_fields (c : RootCauseCandidate) :
    rcaCandidateFrom rt (candidateFields c) = .ok c := by
  obtain ⟨service, score, modalities, evidence⟩ := c
  have hfields : rcaCandidateFrom rt (candidateFields ⟨service, score, modalities, evidence⟩) =
      (do
        let score ← toFloat rt (orElse (.float score) (.float 0))
        let modalities ← elements (ofTexts modalities)
        let evidence ← elements (.arr (evidence.map fun e =>
          .obj [("modality", .str e.modality), ("detail", .str e.detail)]))
        return ⟨str rt (orElse (.str service) (.str "")), score, modalities.map (str rt),
          evidence.filterMap (rootCauseEvidenceFrom rt)⟩) := rfl
  have hscore : toFloat rt (orElse (.float score) (.float 0)) = .ok score := by
    by_cases h : score = 0
    · subst h
      rfl
    · rw [orElse_of_truthy (by simpa [isTruthy] using h)]
      rfl
  have hevidence : (evidence.map fun e => Json.obj [("modality", .str e.modality),
      ("detail", .str e.detail)]).filterMap (rootCauseEvidenceFrom rt) = evidence := by
    rw [List.filterMap_map]
    refine (List.filterMap_congr fun e _ => ?_).trans List.filterMap_some
    show some (RootCauseEvidence.mk (str rt (orElse (.str e.modality) (.str "")))
      (str rt (orElse (.str e.detail) (.str "")))) = some e
    rw [str_orElse_empty, str_orElse_empty]
  rw [hfields, hscore, elements_ofTexts, elements_arr, str_orElse_empty]
  show Except.ok (RootCauseCandidate.mk service score ((modalities.map Json.str).map (str rt)) _) =
    _
  rw [hevidence, List.map_map]
  exact congrArg (fun names => Except.ok (RootCauseCandidate.mk service score names evidence))
    (List.map_id' modalities)

theorem rcaCandidatesFrom_dump (candidates : List RootCauseCandidate) :
    rcaCandidatesFrom rt (.arr (candidates.map RootCauseCandidate.dump)) = .ok candidates := by
  have hall : (candidates.map candidateFields).mapM (rcaCandidateFrom rt) = .ok candidates := by
    rw [List.mapM_map]
    exact (mapM_ok fun c _ => rcaCandidateFrom_fields c).trans (congrArg _ (List.map_id' _))
  have hfields : (candidates.map RootCauseCandidate.dump).filterMap objectOf =
      candidates.map candidateFields := by
    rw [List.filterMap_map, ← List.filterMap_eq_map]
    rfl
  rw [rcaCandidatesFrom, hfields, hall]

/-- A body as a fresh one is made. -/
structure Canonical (rt : Runtime) (windowStart windowEnd : Timestamp) (noLlm : Bool)
    (scope : String) (llmProvider : Option String) (b : ExplainResponse) : Prop where
  schema : b.schemaVersion = schemaVersion
  scope_eq : b.scope = scope
  window : b.window = windowFromBounds rt windowStart windowEnd
  label : b.confidence.label ≠ ""
  score : 0 ≤ b.confidence.score ∧ b.confidence.score ≤ 1
  summary : b.summary = shortSummary rt b.renderedText
  primary : ∀ c ∈ b.primaryCluster, CanonicalCluster c
  secondary : ∀ c ∈ b.secondaryClusters, CanonicalCluster c
  evidence : ∀ e ∈ b.evidence, e.kind ≠ ""
  llm : b.llm = llmFromMode rt b.mode (llmRequested rt.settings noLlm llmProvider) llmProvider
  mode : b.mode ≠ ""

/-- A body as it comes back from the cache. -/
def replayed (b : ExplainResponse) : ExplainResponse :=
  { b with
    cached := true
    markdown := none
    confidence := { b.confidence with calibrated := false } }

/-- A canonical body comes back from the cache. -/
theorem explainFromCached_stored {windowStart windowEnd : Timestamp} {noLlm : Bool}
    {scope : String} {llmProvider : Option String} {b : ExplainResponse}
    (h : Canonical rt windowStart windowEnd noLlm scope llmProvider b) :
    explainFromCached rt b.cachePayload windowStart windowEnd noLlm scope llmProvider =
      .ok (replayed b) := by
  have hprimary : clusterFromMapping rt (get (stored b) "primary_cluster") =
      .ok b.primaryCluster := by
    show clusterFromMapping rt ((b.primaryCluster.map ClusterEvidence.dump).getD .null) = _
    cases hc : b.primaryCluster with
    | none => rfl
    | some c => exact clusterFromMapping_dump (h.primary c hc)
  have hsecondary : elements (get (stored b) "secondary_clusters") =
      .ok (b.secondaryClusters.map ClusterEvidence.dump) := elements_arr _
  have hcandidates : elements (get (stored b) "trigger_candidates") = .ok [] := rfl
  have hevidence : evidenceFromItems rt (get (stored b) "evidence") = .ok b.evidence := by
    show evidenceFromItems rt (.arr (b.evidence.map (EvidenceItem.dump true))) = _
    rw [evidenceFromItems, elements_arr]
    show (b.evidence.map (EvidenceItem.dump true)).mapM (evidenceFromItem rt) = _
    rw [List.mapM_map]
    exact (mapM_ok fun e he => evidenceFromItem_dump (h.evidence e he)).trans
      (congrArg _ (List.map_id' _))
  have hconfidence : confidenceFromValue rt (get (stored b) "confidence") =
      .ok { b.confidence with calibrated := false } := confidenceFromValue_dump h.label h.score
  have htrigger : ∀ candidates primary, triggerFromMapping rt (get (stored b) "trigger")
      candidates primary = .ok b.trigger := triggerFromMapping_dump b.trigger
  have hlogs : toInt rt (orElse (get (stored b) "total_logs") (.int 0)) = .ok b.totalLogs :=
    toInt_orElse_zero b.totalLogs
  have hservices : elements (get (stored b) "services_affected") =
      .ok (b.servicesAffected.map .str) := elements_ofTexts _
  have hnames := mapM_requiredStr b.servicesAffected
  have hroots : rcaCandidatesFrom rt (get (stored b) "root_cause_candidates") =
      .ok b.rootCauseCandidates := rcaCandidatesFrom_dump _
  have habsence : elements (get (stored b) "absence_candidates") =
      .ok (b.absenceCandidates.map .str) := elements_ofTexts _
  have hprose : str rt (orElse (get (stored b) "rendered_text")
      (orElse (get (stored b) "summary") (.str ""))) = b.renderedText := str_prose h.summary
  have hscope : str rt (orElse (get (stored b) "scope") (.str scope)) = b.scope := by
    show str rt (orElse (.str b.scope) (.str scope)) = _
    rw [str_orElse, h.scope_eq, ite_self]
  have hbound : ∀ t : String, str rt (orElse (.str t) (orElse .null (orElse .null (.str t)))) = t ∧
      str rt (orElse (.str t) (orElse .null (.str t))) = t := by
    intro t
    by_cases hempty : t = ""
    · subst hempty
      exact ⟨rfl, rfl⟩
    · have htruthy := isTruthy_str.mpr hempty
      exact ⟨congrArg (str rt) (orElse_of_truthy htruthy),
        congrArg (str rt) (orElse_of_truthy htruthy)⟩
  have hwindow : windowFromMapping rt (get (stored b) "window")
      (rt.isoformat rt.zones.start windowStart) (rt.isoformat rt.zones.stop windowEnd) =
        b.window := by
    have hget : get (stored b) "window" =
        .obj [("from", .str b.window.start), ("to", .str b.window.stop)] := rfl
    rw [hget, h.window]
    exact congrArg₂ TimeBounds.mk (hbound _).1 (hbound _).2
  have hv1 : (isObject (get (stored b) "confidence") &&
      isTruthy (get (stored b) "schema_version")) = true := by
    show (true && isTruthy (.str b.schemaVersion)) = true
    rw [h.schema]
    rfl
  have hsummary : str rt (orElse (get (stored b) "summary") (.str b.summary)) = b.summary := by
    show str rt (orElse (.str b.summary) (.str b.summary)) = _
    rw [str_orElse, ite_self]
  have hmode : str rt (orElse (get (stored b) "mode") (.str "rules")) = b.mode := by
    show str rt (orElse (.str b.mode) (.str "rules")) = _
    rw [str_orElse, if_neg h.mode]
  have hroot : isText (get (stored b) "predicted_root_cause") = b.predictedRootCause :=
    isText_ofText _
  have hpredicted : isNumber (get (stored b) "predicted_root_cause_confidence") =
      b.predictedRootCauseConfidence := isNumber_ofFloat _
  have hsilent : (b.absenceCandidates.map Json.str).filterMap isText = b.absenceCandidates := by
    rw [List.filterMap_map]
    exact List.filterMap_some
  rw [cachePayload_eq, explainFromCached, hprimary, hsecondary, hcandidates, hprose, hconfidence,
    hevidence, hlogs, hservices, hroots, habsence]
  simp only [bind, Except.bind, clustersFrom_dump h.secondary, htrigger, hnames, hscope, hwindow,
    hv1, ← h.summary, hsummary, hmode, hroot, hpredicted, hsilent, ite_self, ← h.llm,
    ← h.schema]
  rfl

end Raglogs.CachedBodies
