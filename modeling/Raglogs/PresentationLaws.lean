import Raglogs.Presentation
import Raglogs.OutcomeLaws

/-!
What a reader is shown. Every surviving class is shown once with its members, in
the order of the ranking when the ranking is one of exactly these classes and in
the packet's order otherwise. An observable that cannot be collected is shown as
an integration gap, and nowhere else unless a survivor could be ruled out by it:
the elimination checks are listed without the exclusion the distinguishers have.
-/

namespace Raglogs.PresentationLaws

open Collections Dicts SortedDicts Observables Hypotheses Partitioning PartitionLaws Outcomes
open OutcomeLaws ClassScoring Presentation

variable {σ ρ : Type}

/-! The acceptance test. -/

/-- The id-sets of the ranking are those of the packet's classes, with multiplicity. -/
def Matches (R : StructuralResult) (ranking : List (ScoredClass ρ)) : Prop :=
  (ranking.map (fun r => r.hypothesisIds.toFinset)).Perm
    (R.classes.map (fun c => c.hypothesisIds.toFinset))

theorem sortedIds_perm (l : List (List String)) :
    ((sortedIds l).map List.toFinset).Perm (l.map List.toFinset) := by
  unfold sortedIds
  refine ((sortOn_perm id _).map List.toFinset).trans (List.Perm.of_eq ?_)
  rw [List.map_map]
  apply List.map_congr_left
  intro ids _
  ext s
  simp [mem_inOrder]

theorem sortedIds_eq_iff {l l' : List (List String)} :
    sortedIds l = sortedIds l' ↔ (l.map List.toFinset).Perm (l'.map List.toFinset) := by
  constructor
  · intro h
    exact (sortedIds_perm l).symm.trans (h ▸ sortedIds_perm l')
  · intro h
    refine sortOn_eq_of_perm id ?_ (fun _ _ _ _ hab => hab)
    have hmap := h.map inOrder
    simpa only [List.map_map, Function.comp_def] using hmap

/-- What became of a ranking: used as a whole, or rejected as a whole. -/
inductive AppliedTo (R : StructuralResult) (ranking : List (ScoredClass ρ)) : Applied ρ → Prop
  | used (a : Applied ρ) (hmatch : Matches R ranking) (applied : a.applied = true)
      (perm : a.ordered.Perm R.classes)
      (scored : List.Forall₂ (fun r c => c.hypothesisIds.toFinset = r.hypothesisIds.toFinset ∧
        a.scored c = some r) ranking a.ordered) : AppliedTo R ranking a
  | rejected (hno : ranking ≠ [] → ¬ Matches R ranking) :
      AppliedTo R ranking ⟨R.classes, none, false⟩

section Ranking

variable {R : StructuralResult} {ranking : List (ScoredClass ρ)}

/-- A ranking is applied without a missing key, or it is rejected. -/
theorem applyRanking_spec (hnd : (R.classes.map (fun c => c.hypothesisIds.toFinset)).Nodup)
    (ranking : List (ScoredClass ρ)) :
    ∃ a, applyRanking R ranking = some a ∧ AppliedTo R ranking a := by
  unfold applyRanking
  by_cases hnil : ranking.isEmpty = true
  · rw [if_pos hnil]
    exact ⟨_, rfl, .rejected fun hne => absurd (List.isEmpty_iff.mp hnil) hne⟩
  rw [if_neg hnil]
  have hmatches : sortedIds (ranking.map ScoredClass.hypothesisIds) =
      sortedIds (R.classes.map ClassView.hypothesisIds) ↔ Matches R ranking := by
    rw [sortedIds_eq_iff, List.map_map, List.map_map]
    rfl
  by_cases hm : Matches R ranking
  · rw [if_neg (not_not.mpr (hmatches.mpr hm))]
    have hndr : (ranking.map (fun r => r.hypothesisIds.toFinset)).Nodup := hm.nodup_iff.mpr hnd
    obtain ⟨ordered, hordered, hrows⟩ := exists_mapM_eq_some
      (f := fun r : ScoredClass ρ => (dictOf (R.classes.map
        (fun c => (c.hypothesisIds.toFinset, c)))).lookup r.hypothesisIds.toFinset)
      (l := ranking) (by
        intro r hr
        obtain ⟨c, hc, hcr⟩ := List.mem_map.mp (hm.mem_iff.mp (List.mem_map_of_mem hr))
        exact ⟨c, (lookup_dictOf_key hnd _ c).mpr ⟨hc, hcr⟩⟩)
    simp only [lookup_dictOf_key hnd] at hrows
    dsimp only
    rw [hordered]
    refine ⟨_, rfl, .used _ hm rfl ?_ ?_⟩
    · refine perm_of_map_perm (fun c hc => ?_) hnd ?_
      · obtain ⟨r, -, hcr⟩ := exists_source hrows hc
        exact hcr.1
      · have hkeys : ordered.map (fun c => c.hypothesisIds.toFinset) =
            ranking.map (fun r => r.hypothesisIds.toFinset) :=
          map_eq_map_of_forall₂ (hrows.imp fun r c hrc => hrc.2.symm) |>.symm
        rw [hkeys]
        exact hm
    · refine (forall₂_mem hrows).imp ?_
      rintro r c ⟨hr, -, -, hcr⟩
      exact ⟨hcr, (lookup_dictOf_key hndr _ r).mpr ⟨hr, hcr.symm⟩⟩
  · rw [if_pos (fun h => hm (hmatches.mp h))]
    exact ⟨_, rfl, .rejected fun _ => hm⟩

/-- A ranking of exactly these classes is rejected only when there are none. -/
theorem nil_of_rejected (hno : ranking ≠ [] → ¬ Matches R ranking) (h : Matches R ranking) :
    ranking = [] ∧ R.classes = [] := by
  have hnil : ranking = [] := not_not.mp fun hne => hno hne h
  subst hnil
  exact ⟨rfl, by simpa using List.Perm.nil_eq h⟩

end Ranking

/-! What the packet has of its partition. -/

section Resolved

variable {H : List (Hypothesis σ)} {O : List Observable} {policy : UsabilityPolicy}
  {P : Partition σ} {R : StructuralResult}

/-- The views show their classes in the partition's order. -/
theorem views_map {γ : Type*} {obs : List Observable} (hR : resolve P obs = .ok R)
    {f : ClassView → γ} {g : EquivalenceClass σ → γ}
    (hfg : ∀ c v, ViewOf P.fUsable.toFinset P.usableStates c v → f v = g c) :
    R.classes.map f = P.classes.map g := by
  obtain ⟨-, hviews, -⟩ := resolve_spec hR
  exact (map_eq_map_of_forall₂ (hviews.imp fun c v hv => (hfg c v hv).symm)).symm

theorem hypothesisIds_eq {fUsable : Finset String} {observed : Dict String String}
    {c : EquivalenceClass σ} {v : ClassView} (hv : ViewOf fUsable observed c v) :
    v.hypothesisIds = c.members.map Hypothesis.id := by
  rw [ClassView.hypothesisIds, hv.members, List.map_map]
  rfl

theorem localizations_eq {fUsable : Finset String} {observed : Dict String String}
    {c : EquivalenceClass σ} {v : ClassView} (hv : ViewOf fUsable observed c v) :
    v.localizations = fromKeys (c.members.map Hypothesis.localization) := by
  rw [ClassView.localizations, hv.members, List.map_map]
  rfl

/-- No hypothesis is in two classes, so the classes' ids are distinct together. -/
theorem flatMap_ids_nodup (hP : PartitionOf H O policy P) {obs : List Observable}
    (hR : resolve P obs = .ok R) : (R.classes.flatMap ClassView.hypothesisIds).Nodup := by
  have hids := hP.ids_nodup
  rw [Partition.survivors, List.map_flatMap] at hids
  rwa [List.flatMap_def, views_map hR fun c v hv => hypothesisIds_eq hv, ← List.flatMap_def]

theorem idSets_nodup (hP : PartitionOf H O policy P) {obs : List Observable}
    (hR : resolve P obs = .ok R) :
    (R.classes.map (fun c => c.hypothesisIds.toFinset)).Nodup := by
  have hdisjoint := (List.nodup_flatMap.mp (flatMap_ids_nodup hP hR)).2
  refine List.pairwise_map.mpr (hdisjoint.imp_of_mem ?_)
  intro c d hc hd hcd heq
  obtain ⟨m, hm⟩ := List.exists_mem_of_ne_nil _ c.members_ne
  have hmc : m.id ∈ c.hypothesisIds := List.mem_map_of_mem hm
  have hmd : m.id ∈ d.hypothesisIds := by
    rw [← List.mem_toFinset, ← heq, List.mem_toFinset]
    exact hmc
  exact hcd hmc hmd

theorem mem_integrationGaps {obs : List Observable} (hobs : (obs.map Observable.id).Nodup)
    (hR : resolve P obs = .ok R) {f : String} :
    f ∈ R.integrationGaps ↔ ∃ o ∈ obs, o.collectable = false ∧ o.id = f := by
  obtain ⟨-, -, -, hgaps⟩ := resolve_spec hR
  rw [integrationGaps_of_nodup hobs] at hgaps
  rw [← Except.ok.inj hgaps]
  simp [and_assoc]

/-- What was usable can be collected. -/
theorem usable_ne (hO : (O.map Observable.id).Nodup) {o : Observable} (ho : o ∈ O)
    (hno : o.collectable = false) {u : Observable} (hu : u ∈ usableSet O policy) :
    u.id ≠ o.id := by
  intro hid
  obtain ⟨hmem, husable, -⟩ := mem_usableSet.mp hu
  rw [eq_of_id_eq hO hmem ho hid] at husable
  simp [Observable.isUsable, hno] at husable

/-- The evidence of a class was measured. -/
theorem exists_usable_of_evidence (hP : PartitionOf H O policy P)
    (hO : (O.map Observable.id).Nodup) {obs : List Observable} (hR : resolve P obs = .ok R)
    {v : ClassView} (hv : v ∈ R.classes) {e : EvidenceItem} (he : e ∈ v.evidence) :
    ∃ u ∈ usableSet O policy, u.id = e.observableId := by
  obtain ⟨-, hviews, -⟩ := resolve_spec hR
  obtain ⟨c, -, hview⟩ := exists_source hviews hv
  rw [hview.evidence, classEvidence, List.mem_filterMap] at he
  obtain ⟨p, -, hp⟩ := he
  obtain ⟨st, hst, rfl⟩ := Option.map_eq_some_iff.mp hp
  obtain ⟨u, hu, hid, -⟩ := (lookup_usableStates hP hO).mp hst
  exact ⟨u, hu, hid⟩

/-- So was what eliminated a hypothesis. -/
theorem exists_usable_of_eliminated (hP : PartitionOf H O policy P)
    (hO : (O.map Observable.id).Nodup) {obs : List Observable} (hR : resolve P obs = .ok R)
    {v : EliminatedView} (hv : v ∈ R.eliminated) {e : EvidenceItem} (he : e ∈ v.evidence) :
    ∃ u ∈ usableSet O policy, u.id = e.observableId := by
  obtain ⟨-, -, helim, -⟩ := resolve_spec hR
  rw [helim] at hv
  obtain ⟨h, -, rfl⟩ := List.mem_map.mp hv
  obtain ⟨-, u, hu, -, -, hid, -⟩ := eliminates_of_mem hP hO he
  exact ⟨u, hu, hid⟩

/-- The elimination checks: the rules of the survivors on what was not usable. -/
theorem mem_checks (hP : PartitionOf H O policy P) {obs : List Observable}
    (hR : resolve P obs = .ok R) {chk : EliminationCheck} :
    chk ∈ R.potentialEliminationChecks ↔ ∃ a, Survives H O policy a ∧
      ∃ c ∈ a.contradictions, c.observableId ∉ P.fUsable ∧
        chk = ⟨a.id, c.observableId, c.states.sort⟩ := by
  obtain ⟨-, hviews, -⟩ := resolve_spec hR
  have hclass : ∀ c : EquivalenceClass σ, chk ∈ eliminationChecks c P.fUsable.toFinset ↔
      ∃ a ∈ c.members, ∃ k ∈ a.contradictions, k.observableId ∉ P.fUsable ∧
        chk = ⟨a.id, k.observableId, k.states.sort⟩ := by
    intro c
    simp only [eliminationChecks, mem_sortOn, List.mem_flatMap, List.mem_map, List.mem_filter,
      List.mem_toFinset, decide_eq_true_eq, and_assoc, @eq_comm _ _ chk]
  rw [R.checks_eq, unionChecks, mem_sortOn, mem_fromKeys, List.mem_flatMap]
  constructor
  · rintro ⟨v, hv, hchk⟩
    obtain ⟨c, hc, hview⟩ := exists_source hviews hv
    rw [hview.checks] at hchk
    obtain ⟨a, ha, k, hk⟩ := (hclass c).mp hchk
    exact ⟨a, survives_of_mem hP hc ha, k, hk⟩
  · rintro ⟨a, ha, k, hk⟩
    obtain ⟨c, hc, hac⟩ := List.mem_flatMap.mp ((survives_iff hP).mpr ha)
    obtain ⟨v, hv, hview⟩ := exists_source hviews.flip hc
    refine ⟨v, hv, ?_⟩
    rw [hview.checks]
    exact (hclass c).mpr ⟨a, hac, k, hk⟩

end Resolved

/-! What is shown. -/

/-- The observables that a suggested line is about: those of the items that read so. -/
def namedBy (R : StructuralResult) (text : String) : List String :=
  ((nextItems R).filter (fun i => i.text = text)).map NextObservation.observableId

/-- The observables a line shows. -/
def observablesOf (R : StructuralResult) : Line → List String
  | .ruledOut e => e.evidence.map EvidenceItem.observableId
  | .evidence e => [e.observableId]
  | .missing f => [f]
  | .next text => namedBy R text
  | _ => []

/-- The lines that list hypotheses. -/
def listsHypotheses : Line → Bool
  | .hypothesis _ => true
  | .competing _ => true
  | _ => false

/-- A single class is listed by its members' localizations, several one by one. -/
def listed : List (ClassPacket ρ) → List Line
  | [c] => c.localizations.map .hypothesis
  | classes => classes.map (fun c => .competing c.localizations)

/-- Every class is shown once, with exactly its members. -/
structure ShowsClasses (P : Partition σ) (packet : Packet ρ) (lines : List Line) : Prop where
  classes_perm : (packet.classes.map (fun c => (c.hypothesisIds, c.localizations))).Perm
    (P.classes.map (fun c => (c.members.map Hypothesis.id,
      fromKeys (c.members.map Hypothesis.localization))))
  ids_nodup : (packet.classes.flatMap ClassPacket.hypothesisIds).Nodup
  lines_eq : lines.filter listsHypotheses = listed packet.classes

/-- Scores and a support order are those of a ranking of exactly the packet's classes. -/
structure RanksExactly (R : StructuralResult) (ranking : List (ScoredClass ρ))
    (packet : Packet ρ) (lines : List Line) : Prop where
  scored_only : (∃ c ∈ packet.classes, c.score ≠ none ∨ c.rankerSignal ≠ none) →
    Matches R ranking
  ordered_only : Line.competingHeader true ∈ lines → Matches R ranking
  ranked : Matches R ranking →
    packet.classes.map (fun c => (c.hypothesisIds.toFinset, c.score, c.rankerSignal)) =
      ranking.map (fun r => (r.hypothesisIds.toFinset, some r.score, r.rankerSignal))

/-- An observable is shown on its integration-gap line and nowhere else. -/
structure OnlyGap (R : StructuralResult) (packet : Packet ρ) (lines : List Line) (f : String) :
    Prop where
  gap : (NextObservation.gap f).text ∈ packet.nextObservations
  evidence : ∀ c ∈ packet.classes, ∀ e ∈ c.evidence, e.observable ≠ f
  eliminated : ∀ e ∈ packet.eliminated, ∀ p ∈ e.evidence, p.1 ≠ f
  classMissing : ∀ c ∈ packet.classes, f ∉ c.dMissing
  missing : f ∉ packet.dMissing
  next : ∀ text ∈ packet.nextObservations, f ∈ namedBy R text →
    text = (NextObservation.gap f).text
  lines : ∀ line ∈ lines, f ∈ observablesOf R line → line = .next (NextObservation.gap f).text

/-- A check never reads like a gap. -/
theorem check_text_ne (f h : String) :
    (NextObservation.check f h).text ≠ (NextObservation.gap f).text := by
  intro heq
  have hlist := congrArg String.toList heq
  simp [NextObservation.text] at hlist

theorem mem_namedBy {R : StructuralResult} {text f : String} :
    f ∈ namedBy R text ↔ ∃ i ∈ nextItems R, i.text = text ∧ i.observableId = f := by
  simp [namedBy, and_assoc]

theorem mem_nextItems {R : StructuralResult} {i : NextObservation} :
    i ∈ nextItems R ↔ (∃ f ∈ separableMissing R, .distinguisher f = i) ∨
      (∃ chk ∈ R.potentialEliminationChecks, .check chk.observableId chk.hypothesisId = i) ∨
      ∃ f ∈ R.integrationGaps, .gap f = i := by
  simp [nextItems, mem_inOrder]

theorem text_mem_nextObservations {R : StructuralResult} {i : NextObservation}
    (hi : i ∈ nextItems R) : i.text ∈ nextObservations R :=
  mem_fromKeys.mpr (List.mem_map_of_mem hi)

theorem not_mem_separableMissing {R : StructuralResult} {f : String}
    (hf : f ∈ R.integrationGaps) : f ∉ separableMissing R := by
  simp [separableMissing, hf]

theorem mem_supportingEvidence {classes : List ClassView} {e : EvidenceItem}
    (he : e ∈ supportingEvidence classes) : ∃ c ∈ classes, e ∈ c.evidence := by
  have hfold : ∀ (l out : List EvidenceItem), e ∈ l.foldl supportingStep out →
      e ∈ out ∨ e ∈ l := by
    intro l
    induction l with
    | nil => exact fun out h => Or.inl h
    | cons x l ih =>
      intro out h
      rw [List.foldl_cons] at h
      rcases ih _ h with h | h
      · unfold supportingStep at h
        split at h
        · rcases List.mem_append.mp h with h | h
          · exact Or.inl h
          · exact Or.inr (by simp [List.mem_singleton.mp h])
        · exact Or.inl h
      · exact Or.inr (List.mem_cons_of_mem x h)
  rcases hfold _ _ he with h | h
  · cases h
  · exact List.mem_flatMap.mp h

/-! What a line comes from. -/

section Lines

variable {R : StructuralResult} {a : Applied ρ}

/-- The result that a line of each kind was read from. -/
def Sourced (R : StructuralResult) (a : Applied ρ) : Line → Prop
  | .ruledOut e => e ∈ R.eliminated
  | .evidence e => ∃ c ∈ a.ordered, e ∈ c.evidence
  | .missing f => f ∈ separableMissing R
  | .competingHeader ranked => ranked = a.applied
  | _ => True

theorem sourced_next : ∀ line ∈ nextLines R, Sourced R a line := by
  intro line hline
  unfold nextLines at hline
  split at hline
  · cases hline
  · rcases List.mem_cons.mp hline with rfl | hline
    · trivial
    · obtain ⟨t, -, rfl⟩ := List.mem_map.mp hline
      trivial

theorem sourced_hypotheses :
    ∀ line ∈ hypothesisLines a.ordered a.applied, Sourced R a line := by
  intro line hline
  unfold hypothesisLines at hline
  split at hline
  · rcases List.mem_cons.mp hline with rfl | hline
    · trivial
    · obtain ⟨loc, -, rfl⟩ := List.mem_map.mp hline
      trivial
  · rcases List.mem_cons.mp hline with rfl | hline
    · rfl
    · obtain ⟨c, -, rfl⟩ := List.mem_map.mp hline
      trivial

theorem sourced_evidence : ∀ line ∈ evidenceLines a.ordered, Sourced R a line := by
  intro line hline
  simp only [evidenceLines] at hline
  split at hline
  · cases hline
  · rcases List.mem_cons.mp hline with rfl | hline
    · trivial
    · obtain ⟨e, he, rfl⟩ := List.mem_map.mp hline
      exact mem_supportingEvidence he

theorem sourced_inseparable : ∀ line ∈ inseparableLines R, Sourced R a line := by
  intro line hline
  unfold inseparableLines at hline
  split at hline
  · dsimp only at hline
    rcases List.mem_cons.mp hline with rfl | hline
    · trivial
    · split at hline
      · rw [List.mem_singleton.mp hline]
        trivial
      · obtain ⟨f, hf, rfl⟩ := List.mem_map.mp hline
        exact mem_inOrder.mp hf
  · simp only [List.mem_cons, List.not_mem_nil, or_false] at hline
    rcases hline with rfl | rfl <;> trivial
  · cases hline

theorem sourced : ∀ line ∈ linesFor R a, Sourced R a line := by
  unfold linesFor
  split
  · simp only [List.forall_mem_append, List.forall_mem_cons, List.forall_mem_map]
    exact ⟨⟨trivial, trivial, fun e he => he⟩, sourced_next⟩
  · simp only [List.forall_mem_append]
    refine ⟨⟨⟨⟨?_, sourced_hypotheses⟩, sourced_evidence⟩, sourced_inseparable⟩, sourced_next⟩
    intro line hline
    split at hline <;> simp only [List.mem_cons, List.not_mem_nil, or_false] at hline
    · rw [hline]
      trivial
    · rcases hline with rfl | rfl <;> trivial

theorem filter_map_eq_nil {α : Type*} {f : α → Line} (hf : ∀ x, listsHypotheses (f x) = false)
    (l : List α) : (l.map f).filter listsHypotheses = [] := by
  rw [List.filter_eq_nil_iff]
  intro line hline
  obtain ⟨x, -, rfl⟩ := List.mem_map.mp hline
  simp [hf x]

theorem filter_map_eq_self {α : Type*} {f : α → Line} (hf : ∀ x, listsHypotheses (f x) = true)
    (l : List α) : (l.map f).filter listsHypotheses = l.map f := by
  rw [List.filter_eq_self]
  intro line hline
  obtain ⟨x, -, rfl⟩ := List.mem_map.mp hline
  exact hf x

theorem filter_nextLines : (nextLines R).filter listsHypotheses = [] := by
  unfold nextLines
  split
  · rfl
  · exact filter_map_eq_nil (fun _ => rfl) _

theorem filter_evidenceLines {classes : List ClassView} :
    (evidenceLines classes).filter listsHypotheses = [] := by
  simp only [evidenceLines]
  split
  · rfl
  · exact filter_map_eq_nil (fun _ => rfl) _

theorem filter_inseparableLines : (inseparableLines R).filter listsHypotheses = [] := by
  unfold inseparableLines
  split
  · dsimp only
    split
    · rfl
    · exact filter_map_eq_nil (fun _ => rfl) _
  · rfl
  · rfl

theorem filter_hypothesisLines (shown : ClassView → ClassPacket ρ)
    (hshown : ∀ c, (shown c).localizations = c.localizations) (classes : List ClassView)
    (applied : Bool) :
    (hypothesisLines classes applied).filter listsHypotheses = listed (classes.map shown) := by
  match classes with
  | [] => rfl
  | [c] =>
    calc
      _ = (c.localizations.map Line.hypothesis).filter listsHypotheses := rfl
      _ = c.localizations.map Line.hypothesis := filter_map_eq_self (fun _ => rfl) _
      _ = (shown c).localizations.map Line.hypothesis := by rw [hshown]
  | c :: d :: rest =>
    calc
      _ = ((c :: d :: rest).map (fun c => Line.competing c.localizations)).filter
          listsHypotheses := rfl
      _ = (c :: d :: rest).map (fun c => Line.competing c.localizations) :=
        filter_map_eq_self (fun _ => rfl) _
      _ = (c :: d :: rest).map (fun c => Line.competing (shown c).localizations) := by
        simp only [hshown]
      _ = listed ((c :: d :: rest).map shown) := by
        simp only [listed, List.map_cons, List.map_map, Function.comp_def]

theorem classes_eq_nil (h : R.outcome = .noCompatibleHypothesis) : R.classes = [] := by
  have hexp := R.outcome_eq.symm.trans h
  match hc : R.classes with
  | [] => rfl
  | [c] =>
    rw [hc] at hexp
    dsimp only [expectedOutcome] at hexp
    split at hexp
    · cases hexp
    · split at hexp <;> cases hexp
  | c :: d :: rest =>
    rw [hc] at hexp
    cases hexp

/-- The lines list the classes of the packet and nothing else. -/
theorem filter_linesFor (hperm : a.ordered.Perm R.classes) :
    (linesFor R a).filter listsHypotheses = listed (packetFor R a).classes := by
  unfold linesFor
  split
  · rename_i hnone
    have hnil : a.ordered = [] := List.Perm.eq_nil (classes_eq_nil hnone ▸ hperm)
    have hlisted : listed (packetFor R a).classes = [] := by
      rw [packetFor, hnil]
      rfl
    rw [hlisted, List.filter_append, filter_nextLines, List.append_nil]
    exact filter_map_eq_nil (f := Line.ruledOut) (fun _ => rfl) R.eliminated
  · simp only [List.filter_append, filter_nextLines, filter_evidenceLines,
      filter_inseparableLines, List.append_nil]
    rw [filter_hypothesisLines (fun c => classPacket R.integrationGaps.toFinset (a.scored c) c)
      (fun _ => rfl)]
    split <;> rfl

end Lines

/-! The three parts of the claim. -/

section Parts

variable {H : List (Hypothesis σ)} {O : List Observable} {policy : UsabilityPolicy}
  {P : Partition σ} {R : StructuralResult} {ranking : List (ScoredClass ρ)} {a : Applied ρ}

theorem AppliedTo.perm (h : AppliedTo R ranking a) : a.ordered.Perm R.classes := by
  cases h with
  | used _ _ _ hperm _ => exact hperm
  | rejected hno => exact List.Perm.refl _

theorem showsClasses (hP : PartitionOf H O policy P) {obs : List Observable}
    (hR : resolve P obs = .ok R) (ha : AppliedTo R ranking a) :
    ShowsClasses P (packetFor R a) (linesFor R a) := by
  refine ⟨?_, ?_, filter_linesFor ha.perm⟩
  · rw [← views_map hR fun c v hv => congrArg₂ Prod.mk (hypothesisIds_eq hv) (localizations_eq hv),
      packetFor, List.map_map]
    exact ha.perm.map _
  · rw [packetFor, List.flatMap_map]
    exact (ha.perm.flatMap_right _).nodup_iff.mpr (flatMap_ids_nodup hP hR)

theorem ranksExactly (ha : AppliedTo R ranking a) :
    RanksExactly R ranking (packetFor R a) (linesFor R a) := by
  cases ha with
  | used _ hmatch _ _ scored =>
    refine ⟨fun _ => hmatch, fun _ => hmatch, fun _ => ?_⟩
    rw [packetFor, List.map_map]
    refine (map_eq_map_of_forall₂ (scored.imp ?_)).symm
    rintro r c ⟨hids, hscore⟩
    simp [classPacket, hids, hscore]
  | rejected hno =>
    refine ⟨?_, ?_, ?_⟩
    · rintro ⟨c, hc, hscore⟩
      obtain ⟨v, -, rfl⟩ := List.mem_map.mp hc
      simp [classPacket, Applied.scored] at hscore
    · intro hmem
      cases sourced _ hmem
    · intro hmatch
      obtain ⟨rfl, hclasses⟩ := nil_of_rejected hno hmatch
      simp [packetFor, hclasses]

/-- A gap is shown as a gap only, as long as no check is about it. -/
theorem onlyGap_iff {f : String} (hgap : f ∈ R.integrationGaps) (ha : a.ordered.Perm R.classes)
    (hevidence : ∀ v ∈ R.classes, ∀ e ∈ v.evidence, e.observableId ≠ f)
    (heliminated : ∀ v ∈ R.eliminated, ∀ e ∈ v.evidence, e.observableId ≠ f) :
    OnlyGap R (packetFor R a) (linesFor R a) f ↔
      ∀ chk ∈ R.potentialEliminationChecks, chk.observableId ≠ f := by
  constructor
  · intro h chk hchk hf
    have hitem : NextObservation.check chk.observableId chk.hypothesisId ∈ nextItems R :=
      mem_nextItems.mpr (Or.inr (Or.inl ⟨chk, hchk, rfl⟩))
    have htext := h.next _ (text_mem_nextObservations hitem)
      (mem_namedBy.mpr ⟨_, hitem, rfl, hf⟩)
    rw [hf] at htext
    exact check_text_ne _ _ htext
  · intro hno
    have hnamed : ∀ text, f ∈ namedBy R text → text = (NextObservation.gap f).text := by
      intro text hmem
      obtain ⟨i, hi, rfl, hid⟩ := mem_namedBy.mp hmem
      rcases mem_nextItems.mp hi with ⟨g, hg, rfl⟩ | ⟨chk, hchk, rfl⟩ | ⟨g, hg, rfl⟩
      · obtain rfl : g = f := hid
        exact absurd hg (not_mem_separableMissing hgap)
      · exact absurd hid (hno chk hchk)
      · obtain rfl : g = f := hid
        rfl
    have hshown : ∀ c ∈ (packetFor R a).classes, ∃ v ∈ R.classes,
        c.evidence = v.evidence.map evidencePacket ∧
          c.dMissing = inOrder (v.dMissing \ R.integrationGaps.toFinset) := by
      intro c hc
      obtain ⟨v, hv, rfl⟩ := List.mem_map.mp hc
      exact ⟨v, ha.mem_iff.mp hv, rfl, rfl⟩
    refine ⟨?_, ?_, ?_, ?_, ?_, fun text _ => hnamed text, ?_⟩
    · exact text_mem_nextObservations (mem_nextItems.mpr (Or.inr (Or.inr ⟨f, hgap, rfl⟩)))
    · intro c hc e he
      obtain ⟨v, hv, hce, -⟩ := hshown c hc
      rw [hce] at he
      obtain ⟨item, hitem, rfl⟩ := List.mem_map.mp he
      exact hevidence v hv item hitem
    · intro e he p hp
      obtain ⟨v, hv, rfl⟩ := List.mem_map.mp he
      obtain ⟨item, hitem, rfl⟩ := List.mem_map.mp hp
      exact heliminated v hv item hitem
    · intro c hc hmem
      obtain ⟨v, -, -, hmissing⟩ := hshown c hc
      rw [hmissing, mem_inOrder, Finset.mem_sdiff, List.mem_toFinset] at hmem
      exact hmem.2 hgap
    · intro hmem
      exact not_mem_separableMissing hgap (mem_inOrder.mp hmem)
    · intro line hline hmem
      have hsource := sourced line hline
      cases line with
      | ruledOut e =>
        obtain ⟨item, hitem, hid⟩ := List.mem_map.mp hmem
        exact absurd hid (heliminated e hsource item hitem)
      | evidence e =>
        obtain ⟨c, hc, he⟩ := hsource
        exact absurd (List.mem_singleton.mp hmem).symm (hevidence c (ha.mem_iff.mp hc) e he)
      | missing g =>
        obtain rfl : f = g := List.mem_singleton.mp hmem
        exact absurd hsource (not_mem_separableMissing hgap)
      | next text => rw [hnamed text hmem]
      | _ => cases hmem

end Parts

/-- No survivor has a contradiction rule on an observable that cannot be collected. -/
def NoUncollectableCheck (H : List (Hypothesis σ)) (O : List Observable)
    (policy : UsabilityPolicy) : Prop :=
  ∀ a, Survives H O policy a → ∀ c ∈ a.contradictions, ∀ o ∈ O, o.collectable = false →
    c.observableId ≠ o.id

theorem noUncollectableCheck_iff {H : List (Hypothesis σ)} {O : List Observable}
    {policy : UsabilityPolicy} {P : Partition σ} {R : StructuralResult}
    (hP : PartitionOf H O policy P) (hO : (O.map Observable.id).Nodup)
    (hR : resolve P O = .ok R) :
    NoUncollectableCheck H O policy ↔ ∀ o ∈ O, o.collectable = false →
      ∀ chk ∈ R.potentialEliminationChecks, chk.observableId ≠ o.id := by
  constructor
  · intro h o ho hno chk hchk
    obtain ⟨a, ha, c, hc, -, rfl⟩ := (mem_checks hP hR).mp hchk
    exact h a ha c hc o ho hno
  · intro h a ha c hc o ho hno hid
    refine h o ho hno _ ((mem_checks hP hR).mpr ⟨a, ha, c, hc, ?_, rfl⟩) hid
    intro hmem
    obtain ⟨u, hu, hu'⟩ := hP.mem_fUsable.mp hmem
    exact usable_ne hO ho hno hu (hu'.trans hid)

/-- What is presented of a resolved partition, under any ranking: each class once,
scores and an order only from a ranking of exactly these classes, and, exactly if
no survivor has a contradiction rule on it, an uncollectable observable as a gap only. -/
theorem presentation_iff [DecidableEq σ] {H : List (Hypothesis σ)} {O : List Observable}
    {policy : UsabilityPolicy} {P : Partition σ} {R : StructuralResult}
    (hP : partition H O policy = .ok P) (hR : resolve P O = .ok R)
    (ranking : List (ScoredClass ρ)) :
    (∃ packet lines, structuralPacket R ranking = some packet ∧
        renderLines R ranking = some lines ∧ ShowsClasses P packet lines ∧
        RanksExactly R ranking packet lines ∧
        ∀ o ∈ O, o.collectable = false → OnlyGap R packet lines o.id) ↔
      NoUncollectableCheck H O policy := by
  have hO := ((partition_ok_iff H O policy).mp ⟨P, hP⟩).2.2
  have hspec := partition_spec hP
  obtain ⟨a, happly, ha⟩ := applyRanking_spec (idSets_nodup hspec hR) ranking
  have hpacket : structuralPacket R ranking = some (packetFor R a) := by
    rw [structuralPacket, happly, Option.map_some]
  have hlines : renderLines R ranking = some (linesFor R a) := by
    rw [renderLines, happly, Option.map_some]
  have honly : ∀ o ∈ O, o.collectable = false →
      (OnlyGap R (packetFor R a) (linesFor R a) o.id ↔
        ∀ chk ∈ R.potentialEliminationChecks, chk.observableId ≠ o.id) := by
    intro o ho hno
    refine onlyGap_iff ((mem_integrationGaps hO hR).mpr ⟨o, ho, hno, rfl⟩) ha.perm ?_ ?_
    · intro v hv e he
      obtain ⟨u, hu, hid⟩ := exists_usable_of_evidence hspec hO hR hv he
      exact hid ▸ usable_ne hO ho hno hu
    · intro v hv e he
      obtain ⟨u, hu, hid⟩ := exists_usable_of_eliminated hspec hO hR hv he
      exact hid ▸ usable_ne hO ho hno hu
  rw [noUncollectableCheck_iff hspec hO hR]
  constructor
  · rintro ⟨packet, lines, hp, hl, -, -, hall⟩ o ho hno
    obtain rfl := Option.some.inj (hpacket.symm.trans hp)
    obtain rfl := Option.some.inj (hlines.symm.trans hl)
    exact (honly o ho hno).mp (hall o ho hno)
  · intro h
    exact ⟨_, _, hpacket, hlines, showsClasses hspec hR ha, ranksExactly ha,
      fun o ho hno => (honly o ho hno).mpr (h o ho hno)⟩

/-- Two causes that an unmeasured latency would separate are shown under no ranking. -/
theorem presentation_iff_unmeasured :
    ∃ P R, partition [slowCheckout 3, fastPayment 5] [latencyUnknown] defaultPolicy = .ok P ∧
      resolve P [latencyUnknown] = .ok R ∧
      ∃ packet lines, structuralPacket R ([] : List (ScoredClass ℕ)) = some packet ∧
        renderLines R ([] : List (ScoredClass ℕ)) = some lines ∧ ShowsClasses P packet lines := by
  have hnd : ([latencyUnknown].map Observable.id).Nodup := by decide
  obtain ⟨P, hP⟩ := exists_partition_two hnd
  obtain ⟨R, hR, -⟩ := resolve_computes (partition_spec hP) hnd hnd
  have hno : NoUncollectableCheck [slowCheckout 3, fastPayment 5] [latencyUnknown]
      defaultPolicy := by
    intro a _ c _ o ho hcollectable
    obtain rfl := List.mem_singleton.mp ho
    cases hcollectable
  obtain ⟨packet, lines, hpacket, hlines, hshows, -⟩ :=
    (presentation_iff hP hR ([] : List (ScoredClass ℕ))).mpr hno
  exact ⟨P, R, hP, hR, packet, lines, hpacket, hlines, hshows⟩

/-- A worker that a drained queue would rule out. -/
def stalledWorker : Hypothesis ℕ where
  id := "worker"
  kind := .process
  localization := "worker"
  predictions := ∅
  observationModel := some {
    expected := []
    contradictions := [⟨"queue", {"drained"}, by decide, by simp, by simp⟩]
    expected_nodup := by simp
    contradictions_nodup := by simp
    coherent := by simp }
  source := none
  id_ne := by decide
  localization_ne := by decide
  predictions_eq model h := by
    obtain rfl := Option.some.inj h
    rfl

/-- No integration reports the queue, and the reader is asked to look at it. -/
theorem presentation_asks_for_uncollectable :
    ∃ P R packet,
      partition [stalledWorker] [uncollectable "queue" (by decide)] defaultPolicy = .ok P ∧
      resolve P [uncollectable "queue" (by decide)] = .ok R ∧
      structuralPacket R ([] : List (ScoredClass ℕ)) = some packet ∧
      "queue (would rule out worker)" ∈ packet.nextObservations ∧
      ∀ lines, ¬ OnlyGap R packet lines "queue" := by
  have hnd : ([uncollectable "queue" (by decide)].map Observable.id).Nodup := by simp
  obtain ⟨P, hP⟩ := (partition_ok_iff [stalledWorker] [uncollectable "queue" (by decide)]
    defaultPolicy).mpr ⟨by simp, by simp [OneDefinition], hnd⟩
  have hspec := partition_spec hP
  obtain ⟨R, hR, -⟩ := resolve_computes hspec hnd hnd
  have husable : usableSet [uncollectable "queue" (by decide)] defaultPolicy = [] := by decide
  have hsurvives : Survives [stalledWorker] [uncollectable "queue" (by decide)] defaultPolicy
      stalledWorker := by
    refine ⟨List.mem_cons_self, ?_⟩
    rintro ⟨o, ho, -⟩
    rw [husable] at ho
    cases ho
  have hchk := (mem_checks hspec hR).mpr ⟨stalledWorker, hsurvives, _, List.mem_cons_self, by
    rw [hspec.fUsable_eq, husable]
    exact List.not_mem_nil, rfl⟩
  have hitem : NextObservation.check "queue" "worker" ∈ nextItems R :=
    mem_nextItems.mpr (Or.inr (Or.inl ⟨_, hchk, rfl⟩))
  have htext := text_mem_nextObservations hitem
  refine ⟨P, R, _, hP, hR, rfl, htext, fun lines honly => ?_⟩
  exact check_text_ne _ _ (honly.next _ htext (mem_namedBy.mpr ⟨_, hitem, rfl, rfl⟩))

end Raglogs.PresentationLaws
