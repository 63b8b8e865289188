import Raglogs.Outcomes
import Raglogs.PartitionLaws

/-!
Resolution is total on every partition that `partition` returns, and its outcome
says exactly how many hypotheses survive and where the survivors differ. The
packet's checks on itself never fail: its views have the shape of the classes,
and a hypothesis is eliminated only by a usable observation that it can cite.
-/

namespace Raglogs.OutcomeLaws

open Collections Dicts Observables Hypotheses Partitioning PartitionLaws Outcomes

variable {σ : Type}

/-! The packet is built. -/

theorem classView_eq (c : EquivalenceClass σ) (fUsable : Finset String)
    (observed : Dict String String) :
    ∃ v, classView c fUsable observed = .ok v ∧
      (v.members.length, v.dMissing) = (c.members.length, c.dMissing) := by
  have hne : c.members.map memberView ≠ [] := by simpa using c.members_ne
  refine ⟨⟨c.members.map memberView, c.signature, c.dMissing, classEvidence c observed,
    eliminationChecks c fUsable, hne⟩, ?_, by simp⟩
  simp only [classView, ClassView.make]
  rw [dif_pos hne]

theorem expectedOutcome_eq_classify {P : Partition σ} {views : List ClassView}
    (h : views.map (fun v => (v.members.length, v.dMissing)) =
      P.classes.map (fun c => (c.members.length, c.dMissing))) :
    expectedOutcome views = classify P := by
  unfold classify Partition.noSurvivingHypothesis
  cases hc : P.classes with
  | nil =>
    rw [hc, List.map_nil, List.map_eq_nil_iff] at h
    simp [h, expectedOutcome]
  | cons c rest =>
    rw [hc] at h
    obtain ⟨v, vs, rfl, hv, hvs⟩ := List.map_eq_cons_iff.mp h
    cases rest with
    | nil =>
      rw [List.map_nil, List.map_eq_nil_iff] at hvs
      obtain ⟨hlen, hmissing⟩ := Prod.mk.inj hv
      simp [hvs, expectedOutcome, ClassView.isSingleton, EquivalenceClass.isSingleton, hlen,
        hmissing]
    | cons d rest =>
      obtain ⟨w, ws, rfl, -, -⟩ := List.map_eq_cons_iff.mp hvs
      simp [expectedOutcome]

theorem mem_unionDMissing {views : List ClassView} {f : String} :
    f ∈ unionDMissing views ↔ ∃ v ∈ views, f ∈ v.dMissing := by
  have hfold : ∀ acc : Finset String,
      f ∈ views.foldl (fun missing v => missing ∪ v.dMissing) acc ↔
        f ∈ acc ∨ ∃ v ∈ views, f ∈ v.dMissing := by
    induction views with
    | nil => simp
    | cons v views ih =>
      intro acc
      rw [List.foldl_cons, ih, Finset.mem_union]
      simp [or_assoc]
  simpa [unionDMissing] using hfold ∅

/-- The evidence of an eliminated hypothesis: each usable observation in a state
that one of its contradiction rules names. -/
theorem mem_eliminatedView {h : Hypothesis σ} {observed : Dict String String}
    {item : EvidenceItem} :
    item ∈ (eliminatedView h observed).evidence ↔
      ∃ c ∈ h.contradictions, ∃ st, observed.lookup c.observableId = some st ∧ st ∈ c.states ∧
        item = ⟨c.observableId, st, none, .hardEliminates⟩ := by
  simp only [eliminatedView, mem_sortOn, List.mem_filterMap]
  constructor
  · rintro ⟨c, hc, heq⟩
    cases hl : observed.lookup c.observableId with
    | none => simp [hl] at heq
    | some st =>
      by_cases hst : st ∈ c.states
      · simp only [hl, hst, if_true, Option.some.injEq] at heq
        exact ⟨c, hc, st, hl, hst, heq.symm⟩
      · simp [hl, hst] at heq
  · rintro ⟨c, hc, st, hl, hst, rfl⟩
    exact ⟨c, hc, by simp [hl, hst]⟩

/-! The survivors, and where they differ. -/

/-- Given, and not eliminated by a usable observation. -/
def Survives (H : List (Hypothesis σ)) (O : List Observable) (policy : UsabilityPolicy)
    (h : Hypothesis σ) : Prop :=
  h ∈ H ∧ ¬ h.Contradicted (usableSet O policy)

def TwoSurvive (H : List (Hypothesis σ)) (O : List Observable) (policy : UsabilityPolicy) :
    Prop :=
  ∃ a b, Survives H O policy a ∧ Survives H O policy b ∧ a ≠ b

/-- Two survivors predict differently on an observable. -/
def DifferOn (H : List (Hypothesis σ)) (O : List Observable) (policy : UsabilityPolicy)
    (f : String) : Prop :=
  ∃ a b, Survives H O policy a ∧ Survives H O policy b ∧
    a.predictions.lookup f ≠ b.predictions.lookup f

theorem twoSurvive_of_differOn {H : List (Hypothesis σ)} {O : List Observable}
    {policy : UsabilityPolicy} {f : String} (h : DifferOn H O policy f) :
    TwoSurvive H O policy := by
  obtain ⟨a, b, ha, hb, hne⟩ := h
  exact ⟨a, b, ha, hb, fun hab => hne (by rw [hab])⟩

theorem existsUnique_survives_iff {H : List (Hypothesis σ)} {O : List Observable}
    {policy : UsabilityPolicy} :
    (∃! a, Survives H O policy a) ↔ (∃ a, Survives H O policy a) ∧ ¬ TwoSurvive H O policy := by
  constructor
  · rintro ⟨a, ha, huniq⟩
    refine ⟨⟨a, ha⟩, ?_⟩
    rintro ⟨b, c, hb, hc, hne⟩
    exact hne ((huniq b hb).trans (huniq c hc).symm)
  · rintro ⟨⟨a, ha⟩, hno⟩
    refine ⟨a, ha, fun b hb => ?_⟩
    by_contra hne
    exact hno ⟨b, a, hb, ha, hne⟩

section Shapes

variable {H : List (Hypothesis σ)} {O : List Observable} {policy : UsabilityPolicy}
  {P : Partition σ}

theorem survives_iff (hP : PartitionOf H O policy P) {a : Hypothesis σ} :
    a ∈ P.survivors ↔ Survives H O policy a := hP.mem_survivors a

theorem survives_of_mem (hP : PartitionOf H O policy P) {c : EquivalenceClass σ}
    (hc : c ∈ P.classes) {a : Hypothesis σ} (ha : a ∈ c.members) : Survives H O policy a :=
  (survives_iff hP).mp (PartitionOf.mem_survivors_of_mem hc ha)

theorem classes_eq_nil_iff (hP : PartitionOf H O policy P) :
    P.classes = [] ↔ ¬ ∃ a, Survives H O policy a := by
  constructor
  · rintro hnil ⟨a, ha⟩
    have hmem := (survives_iff hP).mpr ha
    simp [Partition.survivors, hnil] at hmem
  · intro hno
    rw [List.eq_nil_iff_forall_not_mem]
    intro c hc
    obtain ⟨a, ha⟩ := List.exists_mem_of_ne_nil _ c.members_ne
    exact hno ⟨a, survives_of_mem hP hc ha⟩

/-- Several classes exactly when a usable observable separates two survivors. -/
theorem one_lt_classes_iff (hP : PartitionOf H O policy P) :
    1 < P.classes.length ↔ ∃ o ∈ usableSet O policy, DifferOn H O policy o.id := by
  constructor
  · intro hlen
    by_contra hno
    obtain ⟨c, d, rest, hcd⟩ : ∃ c d rest, P.classes = c :: d :: rest := by
      match hP' : P.classes, hlen with
      | c :: d :: rest, _ => exact ⟨c, d, rest, rfl⟩
    have hc : c ∈ P.classes := by simp [hcd]
    have hd : d ∈ P.classes := by simp [hcd]
    obtain ⟨a, ha⟩ := List.exists_mem_of_ne_nil _ c.members_ne
    obtain ⟨b, hb⟩ := List.exists_mem_of_ne_nil _ d.members_ne
    have hagree : ∀ o ∈ usableSet O policy,
        a.predictions.lookup o.id = b.predictions.lookup o.id := by
      intro o ho
      by_contra hne
      exact hno ⟨o, ho, a, b, survives_of_mem hP hc ha, survives_of_mem hP hd hb, hne⟩
    have hsame := (hP.sameClass_iff (PartitionOf.mem_survivors_of_mem hc ha)
      (PartitionOf.mem_survivors_of_mem hd hb)).mpr hagree
    have hsig : c.signature = d.signature := by
      rw [hP.signature_eq c hc b (hP.mem_class_of_sameClass hc ha hsame),
        hP.signature_eq d hd b hb]
    have hnd := hP.signatures_nodup
    simp [hcd, hsig] at hnd
  · rintro ⟨o, ho, a, b, ha, hb, hne⟩
    by_contra hlen
    obtain ⟨c, hc, hac⟩ := List.mem_flatMap.mp ((survives_iff hP).mpr ha)
    obtain ⟨d, hd, hbd⟩ := List.mem_flatMap.mp ((survives_iff hP).mpr hb)
    have hcd : c = d := by
      match hP' : P.classes with
      | [] => simp [hP'] at hc
      | [e] => simp_all
      | _ :: _ :: _ => simp [hP'] at hlen
    subst hcd
    exact hne ((hP.sameClass_iff ((survives_iff hP).mpr ha) ((survives_iff hP).mpr hb)).mp
      ⟨c, hc, hac, hbd⟩ o ho)

/-! A single class holds all survivors. -/

variable {c : EquivalenceClass σ}

theorem mem_single_iff (hP : PartitionOf H O policy P) (hc : P.classes = [c])
    {a : Hypothesis σ} : a ∈ c.members ↔ Survives H O policy a := by
  rw [← survives_iff hP]
  simp [Partition.survivors, hc]

theorem single_members_nodup (hP : PartitionOf H O policy P) (hc : P.classes = [c]) :
    c.members.Nodup := by
  have hnd := (List.nodup_append.mp hP.nodup).1
  simpa [Partition.survivors, hc] using hnd

theorem isSingleton_iff (hP : PartitionOf H O policy P) (hc : P.classes = [c]) :
    c.isSingleton = true ↔ ¬ TwoSurvive H O policy := by
  unfold EquivalenceClass.isSingleton TwoSurvive
  rw [beq_iff_eq]
  simp only [← mem_single_iff hP hc]
  have hnd := single_members_nodup hP hc
  match hm : c.members, c.members_ne with
  | [a], _ => simp
  | a :: b :: rest, _ =>
    rw [hm] at hnd
    have hab : a ≠ b := by
      rintro rfl
      simp at hnd
    simp only [List.length_cons]
    refine iff_of_false (by omega) (not_not.mpr ⟨a, b, by simp, by simp, hab⟩)

/-- The missing distinguishers of the only class: where two survivors differ. -/
theorem mem_dMissing_single (hP : PartitionOf H O policy P) (hc : P.classes = [c])
    {f : String} : f ∈ c.dMissing ↔ DifferOn H O policy f := by
  have hmem : c ∈ P.classes := by simp [hc]
  rw [hP.dMissing_eq c hmem, mem_dMissing, List.mem_toFinset]
  simp only [mem_single_iff hP hc]
  constructor
  · rintro ⟨-, a, ha, b, hb, hne⟩
    exact ⟨a, b, ha, hb, hne⟩
  · rintro ⟨a, b, ha, hb, hne⟩
    refine ⟨?_, a, ha, b, hb, hne⟩
    intro hf
    obtain ⟨o, ho, rfl⟩ := hP.mem_fUsable.mp hf
    have hlen := (one_lt_classes_iff hP).mpr ⟨o, ho, a, b, ha, hb, hne⟩
    simp [hc] at hlen

theorem dMissing_single_ne_empty (hP : PartitionOf H O policy P) (hc : P.classes = [c]) :
    c.dMissing ≠ ∅ ↔ ∃ f, DifferOn H O policy f := by
  rw [← Finset.nonempty_iff_ne_empty]
  constructor
  · rintro ⟨f, hf⟩
    exact ⟨f, (mem_dMissing_single hP hc).mp hf⟩
  · rintro ⟨f, hf⟩
    exact ⟨f, (mem_dMissing_single hP hc).mpr hf⟩

/-- Each shape of the partition, with its outcome and the survivors it stands for. -/
theorem classify_cases (hP : PartitionOf H O policy P) :
    (classify P = .noCompatibleHypothesis ∧ ¬ ∃ a, Survives H O policy a) ∨
      (classify P = .identified ∧
        (∃ a, Survives H O policy a) ∧ ¬ TwoSurvive H O policy) ∨
      (classify P = .irreducible ∧
        TwoSurvive H O policy ∧ ¬ ∃ f, DifferOn H O policy f) ∨
      (classify P = .nonIdentifiable ∧ (∃ f, DifferOn H O policy f) ∧
        ¬ ∃ o ∈ usableSet O policy, DifferOn H O policy o.id) ∨
      (classify P = .uncertain ∧ ∃ o ∈ usableSet O policy, DifferOn H O policy o.id) := by
  have hmany := one_lt_classes_iff hP
  match hc : P.classes with
  | [] =>
    refine Or.inl ⟨?_, (classes_eq_nil_iff hP).mp hc⟩
    simp [classify, Partition.noSurvivingHypothesis, hc]
  | [c] =>
    have hsome : ∃ a, Survives H O policy a := by
      by_contra hno
      simp [(classes_eq_nil_iff hP).mpr hno] at hc
    have hfew : ¬ ∃ o ∈ usableSet O policy, DifferOn H O policy o.id := by
      intro h
      simpa [hc] using hmany.mpr h
    have htwo := isSingleton_iff hP hc
    have hmiss := dMissing_single_ne_empty hP hc
    by_cases hs : c.isSingleton = true
    · refine Or.inr (Or.inl ⟨?_, hsome, htwo.mp hs⟩)
      simp [classify, Partition.noSurvivingHypothesis, hc, hs]
    · by_cases hm : c.dMissing = ∅
      · refine Or.inr (Or.inr (Or.inl ⟨?_, ?_, fun h => hmiss.mpr h hm⟩))
        · simp [classify, Partition.noSurvivingHypothesis, hc, hs, hm]
        · exact not_not.mp (fun hno => hs (htwo.mpr hno))
      · refine Or.inr (Or.inr (Or.inr (Or.inl ⟨?_, hmiss.mp hm, hfew⟩)))
        simp [classify, Partition.noSurvivingHypothesis, hc, hs, hm]
  | c :: d :: rest =>
    refine Or.inr (Or.inr (Or.inr (Or.inr ⟨?_, hmany.mp (by simp [hc])⟩)))
    simp [classify, Partition.noSurvivingHypothesis, hc]

end Shapes

/-- The five conditions are a chain of properties, cut at five places. -/
private theorem outcome_iff_of_cases {some two differ separated : Prop} {o : Outcome}
    (htwo : two → some) (hdiffer : differ → two) (hseparated : separated → differ)
    (h : (o = .noCompatibleHypothesis ∧ ¬ some) ∨ (o = .identified ∧ some ∧ ¬ two) ∨
      (o = .irreducible ∧ two ∧ ¬ differ) ∨ (o = .nonIdentifiable ∧ differ ∧ ¬ separated) ∨
      (o = .uncertain ∧ separated)) :
    (o = .noCompatibleHypothesis ↔ ¬ some) ∧ (o = .identified ↔ some ∧ ¬ two) ∧
      (o = .irreducible ↔ two ∧ ¬ differ) ∧ (o = .nonIdentifiable ↔ differ ∧ ¬ separated) ∧
      (o = .uncertain ↔ separated) := by
  rcases h with ⟨rfl, h⟩ | ⟨rfl, h⟩ | ⟨rfl, h⟩ | ⟨rfl, h⟩ | ⟨rfl, h⟩ <;>
    simp only [reduceCtorEq, false_iff, true_iff] <;> tauto

/-! Resolution. -/

section Resolve

variable {H : List (Hypothesis σ)} {O : List Observable} {policy : UsabilityPolicy}
  {P : Partition σ}

theorem lookup_usableStates (hP : PartitionOf H O policy P)
    (hO : (O.map Observable.id).Nodup) {f st : String} :
    P.usableStates.lookup f = some st ↔
      ∃ o ∈ usableSet O policy, o.id = f ∧ o.state = some st := by
  have hnd := usableSet_ids_nodup hO policy
  unfold Partition.usableStates
  rw [hP.usable_eq, ← statesOf_perm hnd (sortOn_perm Observable.id _).symm,
    lookup_statesOf hnd]

/-- Why a hypothesis was ruled out: a usable observation in a state that one of its
rules names. -/
def Eliminates (O : List Observable) (policy : UsabilityPolicy) (h : Hypothesis σ)
    (item : EvidenceItem) : Prop :=
  item.relation = .hardEliminates ∧ ∃ o ∈ usableSet O policy, ∃ c ∈ h.contradictions,
    o.id = item.observableId ∧ c.observableId = item.observableId ∧
      o.state = some item.observedState ∧ item.observedState ∈ c.states

theorem eliminates_of_mem (hP : PartitionOf H O policy P) (hO : (O.map Observable.id).Nodup)
    {h : Hypothesis σ} {item : EvidenceItem}
    (hitem : item ∈ (eliminatedView h P.usableStates).evidence) : Eliminates O policy h item := by
  obtain ⟨c, hc, st, hl, hst, rfl⟩ := mem_eliminatedView.mp hitem
  obtain ⟨o, ho, hid, hstate⟩ := (lookup_usableStates hP hO).mp hl
  exact ⟨rfl, o, ho, c, hc, hid, rfl, hstate, hst⟩

theorem evidence_ne_nil (hP : PartitionOf H O policy P) (hO : (O.map Observable.id).Nodup)
    {h : Hypothesis σ} (hc : h.Contradicted (usableSet O policy)) :
    (eliminatedView h P.usableStates).evidence ≠ [] := by
  obtain ⟨o, ho, c, hc, hid, st, hstate, hst⟩ := hc
  have hl : P.usableStates.lookup c.observableId = some st :=
    (lookup_usableStates hP hO).mpr ⟨o, ho, hid, hstate⟩
  exact List.ne_nil_of_mem (mem_eliminatedView.mpr ⟨c, hc, st, hl, hst, rfl⟩)

/-- The packet of a partition is built, with the partition's own outcome, the union
of its missing distinguishers and a view of each eliminated hypothesis. -/
theorem resolve_computes (hP : PartitionOf H O policy P) (hO : (O.map Observable.id).Nodup)
    {obs : List Observable} (hobs : (obs.map Observable.id).Nodup) :
    ∃ R, resolve P obs = .ok R ∧ R.outcome = classify P ∧
      (∀ f, f ∈ R.dMissing ↔ ∃ c ∈ P.classes, f ∈ c.dMissing) ∧
      R.eliminated = P.eliminated.map (fun h => eliminatedView h P.usableStates) := by
  obtain ⟨views, hviews, hshape⟩ := mapM_exists (l := P.classes)
    (f := fun c => classView c P.fUsable.toFinset P.usableStates)
    (fun c _ => classView_eq c P.fUsable.toFinset P.usableStates)
  have hout := (expectedOutcome_eq_classify hshape).symm
  have hmissing : ∀ f, f ∈ unionDMissing views ↔ ∃ c ∈ P.classes, f ∈ c.dMissing := by
    intro f
    have hsets : views.map ClassView.dMissing = P.classes.map EquivalenceClass.dMissing := by
      simpa [List.map_map, Function.comp_def] using congrArg (List.map Prod.snd) hshape
    rw [mem_unionDMissing]
    calc
      (∃ v ∈ views, f ∈ v.dMissing) ↔ ∃ s ∈ views.map ClassView.dMissing, f ∈ s := by simp
      _ ↔ ∃ c ∈ P.classes, f ∈ c.dMissing := by rw [hsets]; simp
  have helim : classify P = .noCompatibleHypothesis →
      P.eliminated.map (fun h => eliminatedView h P.usableStates) ≠ [] ∧
        ∀ e ∈ P.eliminated.map (fun h => eliminatedView h P.usableStates), e.evidence ≠ [] := by
    intro hnone
    have hnil : P.classes = [] := by
      rw [classes_eq_nil_iff hP]
      rcases classify_cases hP with h | h | h | h | h
      · exact h.2
      all_goals simp [hnone] at h
    refine ⟨by simpa using P.nonempty.resolve_left (not_not.mpr hnil), ?_⟩
    intro e he
    obtain ⟨h, hh, rfl⟩ := List.mem_map.mp he
    exact evidence_ne_nil hP hO ((hP.mem_eliminated h).mp hh).2
  obtain ⟨gaps, hgaps⟩ : ∃ gaps, integrationGaps obs = .ok gaps :=
    ⟨_, integrationGaps_of_nodup hobs⟩
  refine ⟨⟨classify P, summaryLocalization views, views, unionDMissing views, unionChecks views,
    P.eliminated.map (fun h => eliminatedView h P.usableStates), gaps, hout, rfl, rfl, rfl,
    helim⟩, ?_, rfl, hmissing, rfl⟩
  simp only [resolve, hviews, hgaps, StructuralResult.make, bind, Except.bind]
  rw [dif_pos hout, dif_pos trivial, dif_pos trivial, dif_pos trivial, dif_pos helim]

/-- What a view shows is its class. -/
structure ViewOf (fUsable : Finset String) (observed : Dict String String)
    (c : EquivalenceClass σ) (v : ClassView) : Prop where
  members : v.members = c.members.map memberView
  signature : v.signature = c.signature
  dMissing : v.dMissing = c.dMissing
  evidence : v.evidence = classEvidence c observed
  checks : v.eliminationChecks = eliminationChecks c fUsable

theorem viewOf_of_classView {c : EquivalenceClass σ} {fUsable : Finset String}
    {observed : Dict String String} {v : ClassView} (h : classView c fUsable observed = .ok v) :
    ViewOf fUsable observed c v := by
  unfold classView ClassView.make at h
  split at h
  · obtain rfl := Except.ok.inj h
    exact ⟨rfl, rfl, rfl, rfl, rfl⟩
  · cases h

theorem make_eq_ok {outcome : Outcome} {localization : List String} {classes : List ClassView}
    {dMissing : Finset String} {checks : List EliminationCheck} {eliminated : List EliminatedView}
    {gaps : List String} {R : StructuralResult}
    (h : StructuralResult.make outcome localization classes dMissing checks eliminated gaps =
      .ok R) :
    R.outcome = outcome ∧ R.classes = classes ∧ R.eliminated = eliminated ∧
      R.integrationGaps = gaps := by
  unfold StructuralResult.make at h
  split at h
  · split at h
    · split at h
      · split at h
        · split at h
          · obtain rfl := Except.ok.inj h
            exact ⟨rfl, rfl, rfl, rfl⟩
          · cases h
        · cases h
      · cases h
    · cases h
  · cases h

theorem classify_ne_none {P : Partition σ} (h : P.classes ≠ []) :
    classify P ≠ .noCompatibleHypothesis := by
  unfold classify Partition.noSurvivingHypothesis
  rw [List.isEmpty_eq_false_iff.mpr h]
  cases hc : P.classes with
  | nil => exact absurd hc h
  | cons c rest =>
    cases rest with
    | cons d rest => simp
    | nil =>
      dsimp only
      cases hs : c.isSingleton <;> by_cases hm : c.dMissing = ∅ <;> simp [hm]

/-- What a packet shows of its partition. -/
theorem resolve_spec {P : Partition σ} {obs : List Observable} {R : StructuralResult}
    (h : resolve P obs = .ok R) :
    R.outcome = classify P ∧
      List.Forall₂ (ViewOf P.fUsable.toFinset P.usableStates) P.classes R.classes ∧
      R.eliminated = P.eliminated.map (fun h => eliminatedView h P.usableStates) ∧
      integrationGaps obs = .ok R.integrationGaps := by
  obtain ⟨views, hviews, h⟩ := bind_eq_ok.mp h
  obtain ⟨gaps, hgaps, h⟩ := bind_eq_ok.mp h
  obtain ⟨hout, hclasses, helim, hgaps'⟩ := make_eq_ok h
  refine ⟨hout, ?_, helim, by rw [hgaps, hgaps']⟩
  rw [hclasses]
  exact (mapM_eq_ok_iff.mp hviews).imp fun c v hv => viewOf_of_classView hv

/-- The packet localizes in the services of the survivors. -/
theorem mem_localization {P : Partition σ} {obs : List Observable} {R : StructuralResult}
    (h : resolve P obs = .ok R) {s : String} :
    s ∈ R.localization ↔ ∃ a ∈ P.survivors, a.localization = s := by
  obtain ⟨-, hviews, -⟩ := resolve_spec h
  rw [R.localization_eq, summaryLocalization, mem_fromKeys]
  unfold Partition.survivors
  simp only [List.mem_flatMap, List.mem_map]
  constructor
  · rintro ⟨v, hv, m, hm, rfl⟩
    obtain ⟨c, hc, hview⟩ := exists_source hviews hv
    rw [hview.members] at hm
    obtain ⟨a, ha, rfl⟩ := List.mem_map.mp hm
    exact ⟨a, ⟨c, hc, ha⟩, rfl⟩
  · rintro ⟨a, ⟨c, hc, ha⟩, rfl⟩
    obtain ⟨v, hv, hview⟩ := exists_source hviews.flip hc
    refine ⟨v, hv, memberView a, ?_, rfl⟩
    rw [hview.members]
    exact List.mem_map_of_mem ha

end Resolve

/-- Resolution never raises on a partition, and each of the five outcomes says
exactly what survived. -/
theorem resolve_characterised [DecidableEq σ] {H : List (Hypothesis σ)} {O : List Observable}
    {policy : UsabilityPolicy} {P : Partition σ} (h : partition H O policy = .ok P)
    (obs : List Observable) (hobs : (obs.map Observable.id).Nodup) :
    ∃ R, resolve P obs = .ok R ∧
      (R.outcome = .identified ↔ ∃! a, Survives H O policy a) ∧
      (R.outcome = .irreducible ↔ TwoSurvive H O policy ∧
        ∀ a b, Survives H O policy a → Survives H O policy b →
          ∀ f, a.predictions.lookup f = b.predictions.lookup f) ∧
      (R.outcome = .nonIdentifiable ↔ TwoSurvive H O policy ∧
        (∀ a b, Survives H O policy a → Survives H O policy b →
          ∀ o ∈ usableSet O policy, a.predictions.lookup o.id = b.predictions.lookup o.id) ∧
        ∃ f, (∀ o ∈ usableSet O policy, o.id ≠ f) ∧ DifferOn H O policy f) ∧
      (R.outcome = .nonIdentifiable → R.dMissing.Nonempty ∧
        (∀ o ∈ usableSet O policy, o.id ∉ R.dMissing) ∧
        ∀ f, f ∈ R.dMissing ↔ DifferOn H O policy f) ∧
      (R.outcome = .uncertain ↔ ∃ o ∈ usableSet O policy, DifferOn H O policy o.id) ∧
      (R.outcome = .noCompatibleHypothesis ↔
        ∀ a ∈ H, a.Contradicted (usableSet O policy)) ∧
      (R.outcome = .noCompatibleHypothesis → ∀ a ∈ H, ∃ v ∈ R.eliminated,
        v.member = memberView a ∧ v.evidence ≠ [] ∧
        ∀ item ∈ v.evidence, Eliminates O policy a item) := by
  have hO := ((partition_ok_iff H O policy).mp ⟨P, h⟩).2.2
  have hP := partition_spec h
  obtain ⟨R, hR, hout, hmissing, helim⟩ := resolve_computes hP hO hobs
  obtain ⟨hnone, hone, hirr, hnon, hunc⟩ := outcome_iff_of_cases
    (fun ⟨a, _, ha, _⟩ => ⟨a, ha⟩) (fun ⟨_, hf⟩ => twoSurvive_of_differOn hf)
    (fun ⟨o, _, ho⟩ => ⟨o.id, ho⟩) (classify_cases hP)
  rw [← hout] at hnone hone hirr hnon hunc
  have hall : R.outcome = .noCompatibleHypothesis ↔
      ∀ a ∈ H, a.Contradicted (usableSet O policy) := by
    rw [hnone]
    unfold Survives
    push Not
    rfl
  refine ⟨R, hR, ?_, ?_, ?_, ?_, hunc, hall, ?_⟩
  · rw [hone, existsUnique_survives_iff]
  · rw [hirr, and_congr_right_iff]
    intro _
    constructor
    · intro hno a b ha hb f
      by_contra hne
      exact hno ⟨f, a, b, ha, hb, hne⟩
    · rintro hagree ⟨f, a, b, ha, hb, hne⟩
      exact hne (hagree a b ha hb f)
  · rw [hnon]
    constructor
    · rintro ⟨⟨f, hf⟩, hno⟩
      refine ⟨twoSurvive_of_differOn hf, ?_, f, ?_, hf⟩
      · intro a b ha hb o ho
        by_contra hne
        exact hno ⟨o, ho, a, b, ha, hb, hne⟩
      · rintro o ho rfl
        exact hno ⟨o, ho, hf⟩
    · rintro ⟨-, hagree, f, -, hf⟩
      refine ⟨⟨f, hf⟩, ?_⟩
      rintro ⟨o, ho, a, b, ha, hb, hne⟩
      exact hne (hagree a b ha hb o ho)
  · intro hR'
    obtain ⟨⟨f, hf⟩, hno⟩ := hnon.mp hR'
    have hsingle : ∃ c, P.classes = [c] := by
      match hc : P.classes with
      | [] =>
        obtain ⟨a, _, ha, _⟩ := hf
        exact absurd ⟨a, ha⟩ ((classes_eq_nil_iff hP).mp hc)
      | [c] => exact ⟨c, rfl⟩
      | _ :: _ :: _ => exact absurd ((one_lt_classes_iff hP).mp (by simp [hc])) hno
    obtain ⟨c, hc⟩ := hsingle
    have hmem : ∀ f, f ∈ R.dMissing ↔ DifferOn H O policy f := by
      intro f
      rw [hmissing, ← mem_dMissing_single hP hc]
      simp [hc]
    refine ⟨⟨f, (hmem f).mpr hf⟩, ?_, hmem⟩
    exact fun o ho hmo => hno ⟨o, ho, (hmem o.id).mp hmo⟩
  · intro hR' a ha
    have hcon := hall.mp hR' a ha
    have hmem : a ∈ P.eliminated := (hP.mem_eliminated a).mpr ⟨ha, hcon⟩
    refine ⟨eliminatedView a P.usableStates, ?_, rfl, evidence_ne_nil hP hO hcon, ?_⟩
    · rw [helim]
      exact List.mem_map_of_mem hmem
    · exact fun item hitem => eliminates_of_mem hP hO hitem

/-- Two causes that an unmeasured latency would separate. -/
theorem resolve_characterised_unmeasured :
    ∃ P R, partition [slowCheckout 3, fastPayment 5] [latencyUnknown] defaultPolicy = .ok P ∧
      resolve P [latencyUnknown] = .ok R ∧ R.outcome ≠ .noCompatibleHypothesis := by
  obtain ⟨P, hP⟩ := exists_partition_two (O := [latencyUnknown]) (by decide)
  obtain ⟨R, hR, -, -, -, -, -, hnone, -⟩ :=
    resolve_characterised hP [latencyUnknown] (by decide)
  refine ⟨P, R, hP, hR, ?_⟩
  rw [ne_eq, hnone]
  intro hall
  obtain ⟨o, ho, -⟩ := hall _ List.mem_cons_self
  simp [usableSet, latencyUnknown, unknown, Observable.isUsable] at ho

end Raglogs.OutcomeLaws
