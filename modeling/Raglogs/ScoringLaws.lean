import Raglogs.PresentationLaws
import Raglogs.PartitionInvariance

/-!
Ranking only reorders. The ranking of a partition is a ranking of exactly its
packet's classes, so it is always applied, and the packet then shows the classes
of the partition in the order of their scores. The scores of the earlier ranker
reach the packet as a signal and as an order between classes of equal score.
-/

namespace Raglogs.ScoringLaws

open Collections Dicts SortedDicts Observables Hypotheses Partitioning PartitionLaws
open PartitionInvariance Outcomes OutcomeLaws ClassScoring Presentation PresentationLaws

variable {σ τ ρ : Type} [LinearOrder ρ] [OrderBot ρ]

/-! The ranking. -/

/-- The classes in the order of the ranking. -/
def rankedClasses (score : σ → ρ) (useRanker : Bool) (P : Partition σ) :
    List (EquivalenceClass σ) :=
  sortOn (fun c => rankKey (scoredClass score useRanker c P.usableStates)) P.classes

theorem rankedClasses_perm (score : σ → ρ) (useRanker : Bool) (P : Partition σ) :
    (rankedClasses score useRanker P).Perm P.classes := sortOn_perm _ _

theorem rankClasses_eq (score : σ → ρ) (useRanker : Bool) (P : Partition σ) :
    rankClasses score useRanker P = (rankedClasses score useRanker P).map
      (fun c => scoredClass score useRanker c P.usableStates) :=
  sortOn_map _ _ _ (fun _ => rfl) P.classes

/-- The score is the first key. -/
theorem rankedClasses_pairwise (score : σ → ρ) (useRanker : Bool) (P : Partition σ) :
    (rankedClasses score useRanker P).Pairwise
      (fun c d => classScore d P.usableStates ≤ classScore c P.usableStates) := by
  refine (sortOn_pairwise _ _).imp ?_
  intro c d hcd
  have hfst := Prod.Lex.monotone_fst _ _ hcd
  simpa [rankKey, scoredClass] using hfst

/-! The packet under the ranking. -/

/-- What a ranked packet shows of a class. -/
def shownClass (score : σ → ρ) (useRanker : Bool) (P : Partition σ) (gaps : Finset String)
    (c : EquivalenceClass σ) : ClassPacket ρ where
  localizations := fromKeys (c.members.map Hypothesis.localization)
  hypothesisIds := c.members.map Hypothesis.id
  signature := c.signature
  evidence := (classEvidence c P.usableStates).map evidencePacket
  dMissing := inOrder (c.dMissing \ gaps)
  score := some (classScore c P.usableStates)
  rankerSignal := if useRanker then rankerSignal score c.members else none

section Packets

variable {H : List (Hypothesis σ)} {O obs : List Observable} {policy : UsabilityPolicy}
  {P : Partition σ} {R : StructuralResult}

theorem matches_rankClasses (hR : resolve P obs = .ok R) (score : σ → ρ) (useRanker : Bool) :
    Matches R (rankClasses score useRanker P) := by
  unfold Matches
  rw [rankClasses_eq, List.map_map, views_map hR fun c v hv =>
    congrArg List.toFinset (hypothesisIds_eq hv)]
  exact (rankedClasses_perm score useRanker P).map _

theorem idSet_injOn (hP : PartitionOf H O policy P) (hR : resolve P obs = .ok R)
    {c d : EquivalenceClass σ} (hc : c ∈ P.classes) (hd : d ∈ P.classes)
    (h : (c.members.map Hypothesis.id).toFinset = (d.members.map Hypothesis.id).toFinset) :
    c = d := by
  have hnd := idSets_nodup hP hR
  rw [views_map hR fun c v hv => congrArg List.toFinset (hypothesisIds_eq hv)] at hnd
  exact List.inj_on_of_nodup_map hnd hc hd h

/-- The ranking of a partition is applied, and the packet shows its classes in the
order of the ranking, each with its score. -/
theorem structuralPacket_rankClasses (hP : PartitionOf H O policy P)
    (hR : resolve P obs = .ok R) (score : σ → ρ) (useRanker : Bool) :
    ∃ packet, structuralPacket R (rankClasses score useRanker P) = some packet ∧
      packet.classes = (rankedClasses score useRanker P).map
        (shownClass score useRanker P R.integrationGaps.toFinset) := by
  obtain ⟨a, happly, ha⟩ := applyRanking_spec (idSets_nodup hP hR)
    (rankClasses score useRanker P)
  refine ⟨packetFor R a, by rw [structuralPacket, happly, Option.map_some], ?_⟩
  cases ha with
  | rejected hno =>
    obtain ⟨hnil, hclasses⟩ := nil_of_rejected hno (matches_rankClasses hR score useRanker)
    rw [rankClasses_eq, List.map_eq_nil_iff] at hnil
    simp [packetFor, hnil, hclasses]
  | used _ _ _ hperm scored =>
    rw [rankClasses_eq, List.forall₂_map_left_iff] at scored
    refine (map_eq_map_of_forall₂ ((forall₂_mem scored).imp ?_)).symm
    rintro c v ⟨hc, hv, hids, hscore⟩
    obtain ⟨-, hviews, -⟩ := resolve_spec hR
    obtain ⟨d, hd, hview⟩ := exists_source hviews (hperm.mem_iff.mp hv)
    have hdc : d = c := by
      refine idSet_injOn hP hR hd ((rankedClasses_perm score useRanker P).mem_iff.mp hc) ?_
      rw [← hypothesisIds_eq hview]
      exact hids
    subst hdc
    rw [classPacket, hscore, localizations_eq hview, hypothesisIds_eq hview, hview.signature,
      hview.evidence, hview.dMissing]
    rfl

end Packets

/-! Replacing the scores of the ranker. -/

theorem max_congr {l l' : List ℤ} (h : l = l') (hl : l ≠ []) : l.max hl = l'.max (h ▸ hl) := by
  subst h
  rfl

@[simp]
theorem usableStates_mapPartition (s : String → Option τ) (P : Partition σ) :
    (mapPartition s P).usableStates = P.usableStates := rfl

theorem classScore_mapClass (s : String → Option τ) (c : EquivalenceClass σ)
    (observed : Dict String String) :
    classScore (mapClass s c) observed = classScore c observed := by
  refine max_congr ?_ _
  rw [mapClass, List.map_map]
  rfl

/-- A class packet without the signal of the ranker. -/
def withoutSignal (c : ClassPacket ρ) : ClassPacket ρ := { c with rankerSignal := none }

omit [OrderBot ρ] in
theorem withoutSignal_shownClass (s : String → Option τ) (score : σ → ρ) (score' : τ → ρ)
    (useRanker useRanker' : Bool) (P : Partition σ) (gaps : Finset String)
    (c : EquivalenceClass σ) :
    withoutSignal (shownClass score' useRanker' (mapPartition s P) gaps (mapClass s c)) =
      withoutSignal (shownClass score useRanker P gaps c) := by
  simp only [withoutSignal, shownClass, classScore_mapClass, usableStates_mapPartition]
  simp only [mapClass, List.map_map]
  rfl

theorem classView_mapClass (s : String → Option τ) (c : EquivalenceClass σ)
    (fUsable : Finset String) (observed : Dict String String) :
    classView (mapClass s c) fUsable observed = classView c fUsable observed := by
  simp only [classView, eliminationChecks, mapClass, List.map_map, List.flatMap_map]
  rfl

theorem classify_mapPartition (s : String → Option τ) (P : Partition σ) :
    classify (mapPartition s P) = classify P := by
  unfold classify Partition.noSurvivingHypothesis
  match hc : P.classes with
  | [] => simp [mapPartition, hc]
  | [c] => simp [mapPartition, hc, mapClass, EquivalenceClass.isSingleton]
  | c :: d :: rest => simp [mapPartition, hc]

/-- The packet of a partition does not read the provenance. -/
theorem resolve_mapPartition (s : String → Option τ) (P : Partition σ) (obs : List Observable) :
    resolve (mapPartition s P) obs = resolve P obs := by
  have hviews : (mapPartition s P).classes.mapM
      (fun c => classView c P.fUsable.toFinset P.usableStates) =
        P.classes.mapM (fun c => classView c P.fUsable.toFinset P.usableStates) := by
    rw [mapPartition, List.mapM_map]
    simp only [Function.comp_def, classView_mapClass]
  have heliminated : (mapPartition s P).eliminated.map (fun h => eliminatedView h P.usableStates) =
      P.eliminated.map (fun h => eliminatedView h P.usableStates) := by
    rw [mapPartition, List.map_map]
    rfl
  have hfUsable : (mapPartition s P).fUsable = P.fUsable := rfl
  simp only [resolve, classify_mapPartition, usableStates_mapPartition, hfUsable, hviews,
    heliminated]

/-! Two packets of the same classes. -/

/-- Best score first. -/
def ByScore (packet : Packet ρ) : Prop :=
  ∃ scores : List ℤ, packet.classes.map ClassPacket.score = scores.map some ∧
    scores.Pairwise (fun a b => b ≤ a)

/-- The same classes, in an order that differs among equal scores only. -/
structure ReordersTies (packet packet' : Packet ρ) : Prop where
  classes_perm : (packet'.classes.map withoutSignal).Perm (packet.classes.map withoutSignal)
  scores_eq : packet'.classes.map ClassPacket.score = packet.classes.map ClassPacket.score

omit [LinearOrder ρ] [OrderBot ρ] in
/-- Two packets in order of their scores that show the same classes reorder ties. -/
theorem reordersTies {packet packet' : Packet ρ} (h : ByScore packet) (h' : ByScore packet')
    (hperm : (packet'.classes.map withoutSignal).Perm (packet.classes.map withoutSignal)) :
    ReordersTies packet packet' := by
  refine ⟨hperm, ?_⟩
  obtain ⟨scores, heq, hsorted⟩ := h
  obtain ⟨scores', heq', hsorted'⟩ := h'
  have hscores : (scores'.map some).Perm (scores.map some) := by
    rw [← heq, ← heq']
    have hmap := hperm.map ClassPacket.score
    rw [List.map_map, List.map_map] at hmap
    exact hmap
  have hsame : scores'.Perm scores := (List.map_perm_map_iff (Option.some_injective ℤ)).mp hscores
  rw [heq, heq', hsame.eq_of_pairwise (fun _ _ _ _ hab hba => le_antisymm hba hab) hsorted'
    hsorted]

theorem byScore_ranked {P : Partition σ} {score : σ → ρ} {useRanker : Bool} {gaps : Finset String}
    {packet : Packet ρ}
    (h : packet.classes =
      (rankedClasses score useRanker P).map (shownClass score useRanker P gaps)) :
    ByScore packet := by
  refine ⟨(rankedClasses score useRanker P).map (fun c => classScore c P.usableStates), ?_, ?_⟩
  · rw [h, List.map_map, List.map_map]
    rfl
  · exact List.pairwise_map.mpr (rankedClasses_pairwise score useRanker P)

/-- Another assignment of scores shows the same classes. -/
theorem ranked_perm (s : String → Option τ) {P : Partition σ} {score : σ → ρ} {score' : τ → ρ}
    {useRanker useRanker' : Bool} {gaps : Finset String} {packet packet' : Packet ρ}
    (h : packet.classes = (rankedClasses score useRanker P).map (shownClass score useRanker P gaps))
    (h' : packet'.classes = (rankedClasses score' useRanker' (mapPartition s P)).map
      (shownClass score' useRanker' (mapPartition s P) gaps)) :
    (packet'.classes.map withoutSignal).Perm (packet.classes.map withoutSignal) := by
  rw [h, h', List.map_map, List.map_map]
  have hperm := (rankedClasses_perm score useRanker P).map
    (withoutSignal ∘ shownClass score useRanker P gaps)
  have hperm' := (rankedClasses_perm score' useRanker' (mapPartition s P)).map
    (withoutSignal ∘ shownClass score' useRanker' (mapPartition s P) gaps)
  refine hperm'.trans (List.Perm.trans (List.Perm.of_eq ?_) hperm.symm)
  rw [mapPartition, List.map_map]
  exact List.map_congr_left fun c _ =>
    withoutSignal_shownClass s score score' useRanker useRanker' P gaps c

/-- The ranking of a partition is applied to its packet, which then shows the classes
of the partition, without the gaps among their distinguishers, best score first; other
scores of the ranker, or none, reorder classes of equal score and change nothing else. -/
theorem ranking_only_reorders [DecidableEq σ] [DecidableEq τ] {H : List (Hypothesis σ)}
    {O obs : List Observable} {policy : UsabilityPolicy} {P : Partition σ} {R : StructuralResult}
    (hP : partition H O policy = .ok P) (hR : resolve P obs = .ok R) (score : σ → ρ)
    (useRanker : Bool) :
    ∃ packet, structuralPacket R (rankClasses score useRanker P) = some packet ∧
      packet.classes.map (fun c => (c.hypothesisIds, c.score, c.rankerSignal)) =
        (rankClasses score useRanker P).map
          (fun r => (r.hypothesisIds, some r.score, r.rankerSignal)) ∧
      (packet.classes.map (fun c => (c.hypothesisIds, c.localizations, c.signature, c.evidence,
          c.dMissing, c.score))).Perm
        (P.classes.map (fun c => (c.members.map Hypothesis.id,
          fromKeys (c.members.map Hypothesis.localization), c.signature,
          (classEvidence c P.usableStates).map evidencePacket,
          inOrder (c.dMissing \ R.integrationGaps.toFinset),
          some (classScore c P.usableStates)))) ∧
      ByScore packet ∧
      ∀ (s : String → Option τ) (score' : τ → ρ) (useRanker' : Bool), ∃ P' packet',
        partition (H.map (resource s)) O policy = .ok P' ∧ resolve P' obs = .ok R ∧
        structuralPacket R (rankClasses score' useRanker' P') = some packet' ∧
        ReordersTies packet packet' := by
  obtain ⟨packet, hpacket, hclasses⟩ :=
    structuralPacket_rankClasses (partition_spec hP) hR score useRanker
  refine ⟨packet, hpacket, ?_, ?_, byScore_ranked hclasses, ?_⟩
  · rw [hclasses, rankClasses_eq, List.map_map, List.map_map]
    rfl
  · rw [hclasses, List.map_map]
    exact (rankedClasses_perm score useRanker P).map _
  · intro s score' useRanker'
    have hP' := partition_resource hP s
    have hR' := (resolve_mapPartition s P obs).trans hR
    obtain ⟨packet', hpacket', hclasses'⟩ :=
      structuralPacket_rankClasses (partition_spec hP') hR' score' useRanker'
    exact ⟨mapPartition s P, packet', hP', hR', hpacket',
      reordersTies (byScore_ranked hclasses) (byScore_ranked hclasses')
        (ranked_perm s hclasses hclasses')⟩

/-- Two causes that an unmeasured latency would separate, whatever the ranker gives them. -/
theorem ranking_only_reorders_unmeasured :
    ∃ P R packet, partition [slowCheckout 3, fastPayment 5] [latencyUnknown] defaultPolicy = .ok P ∧
      resolve P [latencyUnknown] = .ok R ∧
      structuralPacket R (rankClasses id true P) = some packet ∧ ByScore packet := by
  have hnd : ([latencyUnknown].map Observable.id).Nodup := by decide
  obtain ⟨P, hP⟩ := exists_partition_two hnd
  obtain ⟨R, hR, -⟩ := resolve_computes (partition_spec hP) hnd hnd
  obtain ⟨packet, hpacket, -, -, hsorted, -⟩ :=
    ranking_only_reorders (τ := ℕ) hP hR (id : ℕ → ℕ) true
  exact ⟨P, R, packet, hP, hR, hpacket, hsorted⟩

/-- The latency that separates the two causes cannot be collected: the partition has it
as a missing distinguisher and the packet has not. -/
theorem ranking_drops_gap :
    ∃ P R packet, partition [slowCheckout 3, fastPayment 5]
        [uncollectable "latency" (by decide)] defaultPolicy = .ok P ∧
      resolve P [uncollectable "latency" (by decide)] = .ok R ∧
      structuralPacket R (rankClasses id true P) = some packet ∧
      ¬ (packet.classes.map ClassPacket.dMissing).Perm
        (P.classes.map (fun c => inOrder c.dMissing)) := by
  have hnd : ([uncollectable "latency" (by decide)].map Observable.id).Nodup := by simp
  obtain ⟨P, hP⟩ := exists_partition_two hnd
  have hspec := partition_spec hP
  obtain ⟨R, hR, -⟩ := resolve_computes hspec hnd hnd
  obtain ⟨packet, hpacket, hclasses⟩ :=
    structuralPacket_rankClasses hspec hR (id : ℕ → ℕ) true
  refine ⟨P, R, packet, hP, hR, hpacket, fun hperm => ?_⟩
  have husable : usableSet [uncollectable "latency" (by decide)] defaultPolicy = [] := by decide
  have hsurvives : ∀ a ∈ [slowCheckout 3, fastPayment 5],
      Survives [slowCheckout 3, fastPayment 5] [uncollectable "latency" (by decide)]
        defaultPolicy a := by
    rintro a ha
    refine ⟨ha, ?_⟩
    rintro ⟨o, ho, -⟩
    rw [husable] at ho
    cases ho
  -- nothing is usable, so the two causes share a class and the latency is missing
  obtain ⟨c, hc⟩ : ∃ c, P.classes = [c] := by
    have hfew := one_lt_classes_iff hspec
    rw [husable] at hfew
    rcases hc : P.classes with _ | ⟨c, _ | ⟨d, rest⟩⟩
    · exact absurd ⟨_, hsurvives _ List.mem_cons_self⟩ ((classes_eq_nil_iff hspec).mp hc)
    · exact ⟨c, rfl⟩
    · obtain ⟨o, ho, -⟩ := hfew.mp (by simp [hc])
      cases ho
  have hmissing : "latency" ∈ c.dMissing :=
    (mem_dMissing_single hspec hc).mpr ⟨slowCheckout 3, fastPayment 5,
      hsurvives _ (by simp), hsurvives _ (by simp), by decide⟩
  have hgap : "latency" ∈ R.integrationGaps :=
    (mem_integrationGaps hnd hR).mpr ⟨_, List.mem_cons_self, rfl, rfl⟩
  have hlisted : inOrder c.dMissing ∈ packet.classes.map ClassPacket.dMissing := by
    rw [hperm.mem_iff, hc]
    exact List.mem_cons_self
  obtain ⟨shown, hshown, heq⟩ := List.mem_map.mp hlisted
  rw [hclasses] at hshown
  obtain ⟨d, -, rfl⟩ := List.mem_map.mp hshown
  have hmem : "latency" ∈ inOrder (d.dMissing \ R.integrationGaps.toFinset) := by
    rw [show inOrder (d.dMissing \ R.integrationGaps.toFinset) = inOrder c.dMissing from heq]
    exact mem_inOrder.mpr hmissing
  rw [mem_inOrder, Finset.mem_sdiff, List.mem_toFinset] at hmem
  exact hmem.2 hgap

end Raglogs.ScoringLaws
