import Raglogs.Explanations

/-!
Explanations that are answered from the cache. A body made from an explanation is canonical,
so it comes back from the cache as it was, but for the flag of a calibrated confidence.
-/

namespace Raglogs.ExplanationLaws

open CachedBodies Clusters Collections Confidences EvidencePackets ExplainSchema Explanations
  LogEntries Text

variable {f : Formats} {rt : Runtime}

/-- A cluster as it is answered. -/
def clusterEvidence (f : Formats) (c : ClusterData ℚ) : ClusterEvidence where
  fingerprint := some c.fingerprint
  template := truthy (some c.representativeMessage)
  count := some c.count
  baselineCount := some c.baselineCount
  changeRatio := some (f.round2 c.changeRatio)
  services := orderedServices f c
  levels := f.keys.toList c.levels
  firstSeen := c.firstSeen.map f.isoformat
  lastSeen := c.lastSeen.map f.isoformat
  message := truthy (some c.representativeMessage)

theorem canonical_clusterEvidence (c : ClusterData ℚ) : CanonicalCluster (clusterEvidence f c) where
  message := rfl
  template h :=
    have h' : truthy (some c.representativeMessage) = some "" := h
    (truthy_eq_some.mp h').2 rfl

theorem clusterFromMapping_clusterFields (c : ClusterData ℚ) :
    clusterFromMapping rt (.obj (clusterFields f c)) = .ok (some (clusterEvidence f c)) := by
  have hfields : clusterFromMapping rt (.obj (clusterFields f c)) = (do
      let template := orElse .null (orElse (.str c.representativeMessage) .null)
      let text := if Push.isNull template then none else some (str rt template)
      let firstSeen ← optionalStr (ofText (c.firstSeen.map f.isoformat))
      let lastSeen ← optionalStr (ofText (c.lastSeen.map f.isoformat))
      return some ⟨some c.fingerprint, text, some c.count, some c.baselineCount,
        some (f.round2 c.changeRatio), namesOf rt (ofTexts (orderedServices f c)),
        namesOf rt (ofTexts (f.keys.toList c.levels)), firstSeen, lastSeen, text⟩) := rfl
  rw [hfields]
  simp only [optionalStr_ofText, namesOf_ofTexts]
  by_cases hmessage : c.representativeMessage = ""
  · rw [hmessage, clusterEvidence, hmessage]
    rfl
  · have htext : orElse .null (orElse (.str c.representativeMessage) .null) =
        .str c.representativeMessage := by
      rw [orElse_of_truthy (isTruthy_str.mpr hmessage)]
      rfl
    have htruthy : truthy (some c.representativeMessage) = some c.representativeMessage :=
      truthy_eq_some.mpr ⟨rfl, hmessage⟩
    rw [htext, clusterEvidence, htruthy]
    rfl

theorem clustersFrom_clusterFields (clusters : List (ClusterData ℚ)) :
    clustersFrom rt ((clusters.map (clusterFields f)).map .obj) =
      .ok (clusters.map (clusterEvidence f)) := by
  have hall : ((clusters.map (clusterFields f)).map Json.obj).mapM (clusterFromMapping rt) =
      .ok (clusters.map fun c => some (clusterEvidence f c)) := by
    rw [List.map_map, List.mapM_map]
    exact mapM_ok fun c _ => clusterFromMapping_clusterFields c
  rw [clustersFrom, hall]
  show Except.ok ((clusters.map fun c => some (clusterEvidence f c)).filterMap id) = _
  rw [List.filterMap_map]
  simp

theorem evidenceFromItems_ofTexts (items : List String) :
    evidenceFromItems rt (ofTexts items) = .ok (items.map fun s => ⟨"log", s, none, none⟩) := by
  rw [evidenceFromItems, elements_ofTexts]
  show (items.map Json.str).mapM (evidenceFromItem rt) = _
  rw [List.mapM_map]
  exact mapM_ok fun _ _ => rfl

theorem confidence_eq_ok {label : String} {score : ℚ} {calibrated : Bool} {c : Confidence}
    (h : confidence label score calibrated = .ok c) :
    c = ⟨label, score, calibrated⟩ ∧ 0 ≤ score ∧ score ≤ 1 := by
  unfold confidence at h
  split at h
  · rename_i hscore
    exact ⟨(Except.ok.inj h).symm, hscore⟩
  · cases h

/-- A confidence has the label of the explanation, and its score is a fraction. -/
theorem confidenceForResult_eq_ok {result : ExplainResult} (hlabel : result.confidence ≠ "")
    {c : Confidence} (h : confidenceForResult rt result = .ok c) :
    c.label = result.confidence ∧ (0 ≤ c.score ∧ c.score ≤ 1) ∧
      (c.calibrated = true ↔ result.confidenceCalibrated = true ∧
        result.predictedRootCauseConfidence.isSome = true) := by
  unfold confidenceForResult at h
  split at h
  · rename_i p hcalibrated hp
    obtain ⟨rfl, hscore⟩ := confidence_eq_ok h
    exact ⟨rfl, hscore, by simp [hcalibrated, hp]⟩
  · rename_i hno
    have hvalue : confidenceFromValue rt (.str result.confidence) =
        confidence (str rt (orElse (.str result.confidence) (.str "low")))
          (scoreFromLabel rt (str rt (orElse (.str result.confidence) (.str "low")))) false := rfl
    rw [hvalue, str_orElse, if_neg hlabel] at h
    obtain ⟨rfl, hscore⟩ := confidence_eq_ok h
    refine ⟨rfl, hscore, iff_of_false Bool.false_ne_true ?_⟩
    rintro ⟨hcalibrated, hsome⟩
    obtain ⟨p, hp⟩ := Option.isSome_iff_exists.mp hsome
    exact hno p hcalibrated hp

/-- An explanation as it is made from clusters. -/
structure MadeFrom (f : Formats) (primary : Option (ClusterData ℚ))
    (secondary : List (ClusterData ℚ)) (result : ExplainResult) : Prop where
  primary_eq : result.primaryCluster = primary.map (clusterFields f)
  secondary_eq : result.secondaryClusters = secondary.map (clusterFields f)
  evidence : ∀ item ∈ result.evidenceItems, item ≠ ""
  label : result.confidence ≠ ""
  mode : result.mode ≠ ""

theorem primaryFrom {primary : Option (ClusterData ℚ)} :
    clusterFromMapping rt (((primary.map (clusterFields f)).map Json.obj).getD .null) =
      .ok (primary.map (clusterEvidence f)) := by
  cases primary with
  | none => rfl
  | some c => exact clusterFromMapping_clusterFields c

variable {primary : Option (ClusterData ℚ)} {secondary : List (ClusterData ℚ)}
  {result : ExplainResult} {noLlm cached : Bool} {scope : String} {llmProvider : Option String}
  {body : ExplainResponse}

/-- What a body says. -/
theorem explainFromResult_eq_ok (hmade : MadeFrom f primary secondary result)
    (h : explainFromResult rt result noLlm cached scope llmProvider = .ok body) :
    ∃ c roots, confidenceForResult rt result = .ok c ∧
      rcaCandidatesFrom rt (.arr (result.rootCauseCandidates.map .obj)) = .ok roots ∧
      body =
        { schemaVersion := schemaVersion
          scope := scope
          window := windowFromBounds rt result.windowStart result.windowEnd
          confidence := c
          summary := shortSummary rt result.summaryText
          trigger := triggerFromCandidates rt (result.triggerCandidates.map .obj)
            (primary.map (clusterEvidence f))
          primaryCluster := primary.map (clusterEvidence f)
          secondaryClusters := secondary.map (clusterEvidence f)
          evidence := result.evidenceItems.map fun s => ⟨"log", s, none, none⟩
          llm := llmFromMode rt result.mode (llmRequested rt.settings noLlm llmProvider) llmProvider
          renderedText := result.summaryText
          markdown := none
          cached := cached
          totalLogs := result.totalLogs
          mode := result.mode
          servicesAffected := result.servicesAffected
          predictedRootCause := result.predictedRootCause
          rootCauseCandidates := roots
          predictedRootCauseConfidence := result.predictedRootCauseConfidence
          absenceCandidates := result.absenceCandidates } := by
  have hprimary : clusterFromMapping rt ((result.primaryCluster.map Json.obj).getD .null) =
      .ok (primary.map (clusterEvidence f)) := by
    rw [hmade.primary_eq]
    exact primaryFrom
  have hsecondary : clustersFrom rt (result.secondaryClusters.map .obj) =
      .ok (secondary.map (clusterEvidence f)) := by
    rw [hmade.secondary_eq]
    exact clustersFrom_clusterFields secondary
  have hevidence : evidenceFromItems rt (ofTexts result.evidenceItems) = .ok _ :=
    evidenceFromItems_ofTexts result.evidenceItems
  cases hc : confidenceForResult rt result with
  | error e =>
    rw [explainFromResult, hprimary, hsecondary, hc] at h
    cases h
  | ok c =>
    cases hroots : rcaCandidatesFrom rt (.arr (result.rootCauseCandidates.map .obj)) with
    | error e =>
      rw [explainFromResult, hprimary, hsecondary, hc, hevidence, hroots] at h
      cases h
    | ok roots =>
      rw [explainFromResult, hprimary, hsecondary, hc, hevidence, hroots] at h
      simp only [bind, Except.bind, pure, Except.pure, Except.ok.injEq] at h
      exact ⟨c, roots, rfl, rfl, h.symm⟩

theorem log_ne_empty : "log" ≠ "" := by decide

theorem rules_ne_empty : "rules" ≠ "" := by decide

theorem llm_ne_empty : "llm" ≠ "" := by decide

theorem canonical_of_explainFromResult (hmade : MadeFrom f primary secondary result)
    (h : explainFromResult rt result noLlm cached scope llmProvider = .ok body) :
    Canonical rt result.windowStart result.windowEnd noLlm scope llmProvider body := by
  obtain ⟨c, roots, hc, -, rfl⟩ := explainFromResult_eq_ok hmade h
  obtain ⟨hlabel, hscore, -⟩ := confidenceForResult_eq_ok hmade.label hc
  refine ⟨rfl, rfl, rfl, ?_, hscore, Eq.refl (shortSummary rt result.summaryText), ?_, ?_, ?_,
    Eq.refl (llmFromMode rt result.mode _ _), hmade.mode⟩
  · exact hlabel ▸ hmade.label
  · intro evidence hevidence
    obtain ⟨cluster, -, rfl⟩ := Option.map_eq_some_iff.mp hevidence
    exact canonical_clusterEvidence cluster
  · intro evidence hevidence
    obtain ⟨cluster, -, rfl⟩ := List.mem_map.mp hevidence
    exact canonical_clusterEvidence cluster
  · intro e he
    obtain ⟨s, -, rfl⟩ := List.mem_map.mp he
    exact log_ne_empty

/-! What an analysis explains is made from clusters. -/

theorem append_ne_empty {s t : String} (h : s ≠ "") : s ++ t ≠ "" :=
  fun hst => h (String.append_eq_empty_iff.mp hst).1

theorem toString_ne_empty (n : ℕ) : toString n ≠ "" := by
  simp

theorem secondaryItem_ne_empty (primary sec : ClusterData ℚ) :
    secondaryItem f primary sec ≠ "" := by
  have hcount := toString_ne_empty sec.count
  unfold secondaryItem
  dsimp only
  split
  · repeat' apply append_ne_empty
    decide
  · split_ifs <;> repeat' apply append_ne_empty
    all_goals first | exact hcount | decide

theorem buildEvidenceItems_ne_empty {primary : Option (ClusterData ℚ)}
    {secondary : List (ClusterData ℚ)} {triggers : List TriggerScan.TriggerCandidate} {n : ℕ}
    {maxItems : ℤ} :
    ∀ item ∈ buildEvidenceItems f primary secondary triggers n maxItems, item ≠ "" := by
  intro item hitem
  unfold buildEvidenceItems at hitem
  split at hitem
  · simp only [List.mem_cons, List.not_mem_nil, or_false] at hitem
    rcases hitem with rfl | rfl
    · exact append_ne_empty (by decide)
    · decide
  · rename_i primary
    have hmem := List.mem_of_mem_take hitem
    simp only [List.mem_append, List.mem_cons, List.not_mem_nil, or_false, Option.mem_toList,
      List.mem_map] at hmem
    rcases hmem with ((((rfl | rfl) | htiming) | hendpoint) | ⟨sec, -, rfl⟩)
    · exact append_ne_empty (append_ne_empty (toString_ne_empty _))
    · unfold baselineItem
      split_ifs
      · decide
      all_goals repeat' apply append_ne_empty
      all_goals decide
    · unfold timingItem at htiming
      simp only [Option.bind_eq_bind, Option.bind_eq_some_iff,
        Option.ite_none_right_eq_some, Option.some.injEq] at htiming
      obtain ⟨_, -, _, -, _, -, -, rfl⟩ := htiming
      repeat' apply append_ne_empty
      decide
    · obtain ⟨_, -, rfl⟩ := Option.map_eq_some_iff.mp hendpoint
      repeat' apply append_ne_empty
      decide
    · exact secondaryItem_ne_empty _ _

/-- What the evidence of a window is made of. -/
theorem assembleEvidence_eq_ok {env : EvidenceEnvironment} {store : Store} {wf : WindowFilter}
    {clusters : List (ClusterData ℚ)} {maxItems : ℤ} {packet : EvidencePacket}
    (h : assembleEvidence env store wf clusters maxItems = .ok packet) :
    packet.evidenceItems = buildEvidenceItems env.formats packet.primaryCluster
        packet.secondaryClusters packet.triggerCandidates packet.totalLogs maxItems ∧
      packet.totalLogs = countLogsInWindow store wf ∧
      packet.servicesAffected = servicesIn clusters := by
  unfold assembleEvidence at h
  simp only [bind_eq_ok] at h
  obtain ⟨⟨triggers, found, explains⟩, -, h⟩ := h
  cases h
  exact ⟨rfl, rfl, rfl⟩

variable {env : ExplainEnvironment} {store : Store} {llm : Llm} {input : ExplainInput}

/-- Every item that an explanation tells says something. -/
theorem evidence_ne_empty {a : Analysis} (h : analyse env store input = .ok a) :
    ∀ item ∈ a.packet.evidenceItems ++ silentItem a.absence, item ≠ "" := by
  unfold analyse at h
  simp only [bind_eq_ok] at h
  obtain ⟨clusters, -, packet, hpacket, ranked, -, absence, -, h⟩ := h
  cases h
  intro item hitem
  rcases List.mem_append.mp hitem with hmem | hmem
  · rw [(assembleEvidence_eq_ok hpacket).1] at hmem
    exact buildEvidenceItems_ne_empty item hmem
  · unfold silentItem at hmem
    split at hmem
    · exact absurd hmem List.not_mem_nil
    · obtain rfl := List.mem_singleton.mp hmem
      exact append_ne_empty (append_ne_empty (append_ne_empty (toString_ne_empty _)))

theorem madeFrom_explainWindow (h : explainWindow env store llm input = .ok result) :
    ∃ primary secondary, MadeFrom env.evidence.formats primary secondary result := by
  rw [explainWindow] at h
  cases ha : analyse env store input with
  | error e =>
    rw [ha] at h
    cases h
  | ok a =>
    rw [ha] at h
    obtain rfl : summarise env llm input a = result := Except.ok.inj h
    have hitems := evidence_ne_empty ha
    have hinsufficient : MadeFrom env.evidence.formats none [] (insufficientEvidence env input a) :=
      ⟨rfl, rfl, hitems, ConfidenceLabel.low.text_ne_empty, rules_ne_empty⟩
    unfold summarise
    split
    · exact ⟨none, [], hinsufficient⟩
    · split
      · rename_i pc _
        refine ⟨some pc, a.packet.secondaryClusters, rfl, rfl, hitems,
          (explainedLabel env a).text_ne_empty, ?_⟩
        show (if (llmText env llm input a.packet).isSome then "llm" else "rules") ≠ ""
        split
        · exact llm_ne_empty
        · exact rules_ne_empty
      · exact ⟨none, [], hinsufficient⟩

end Raglogs.ExplanationLaws
