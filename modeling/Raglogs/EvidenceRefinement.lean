import Raglogs.PartitionLaws

/-!
More evidence only refines. Measuring coordinates that could not be used before
grows the usable set, so it can only eliminate more hypotheses and split classes
further. Once every missing distinguisher of a class has been measured, members
that still share a class cannot be told apart by any prediction.
-/

namespace Raglogs.EvidenceRefinement

open Collections Dicts Observables Hypotheses Partitioning PartitionLaws

variable {σ : Type}

/-- The same coordinates, some that were not usable turned into usable ones. -/
structure MoreEvidence (policy : UsabilityPolicy) (O O' : List Observable) : Prop where
  ids_perm : (O'.map Observable.id).Perm (O.map Observable.id)
  changed : ∀ o ∈ O, ∀ o' ∈ O', o'.id = o.id →
    o' = o ∨ (o ∉ usableSet O policy ∧ o' ∈ usableSet O' policy)

theorem MoreEvidence.usable_subset {policy : UsabilityPolicy} {O O' : List Observable}
    (h : MoreEvidence policy O O') {o : Observable} (ho : o ∈ usableSet O policy) :
    o ∈ usableSet O' policy := by
  obtain ⟨hmem, husable, hconfident⟩ := mem_usableSet.mp ho
  have hid : o.id ∈ O'.map Observable.id :=
    h.ids_perm.mem_iff.mpr (List.mem_map_of_mem hmem)
  obtain ⟨o', ho', hid'⟩ := List.mem_map.mp hid
  rcases h.changed o hmem o' ho' hid' with rfl | ⟨hno, -⟩
  · exact mem_usableSet.mpr ⟨ho', husable, hconfident⟩
  · exact absurd ho hno

theorem contradicted_mono {h : Hypothesis σ} {U U' : List Observable}
    (hsub : ∀ o ∈ U, o ∈ U') (hc : h.Contradicted U) : h.Contradicted U' := by
  obtain ⟨o, ho, hrest⟩ := hc
  exact ⟨o, hsub o ho, hrest⟩

section TwoRuns

variable {H : List (Hypothesis σ)} {O O' : List Observable} {policy : UsabilityPolicy}
  {P P' : Partition σ}

theorem survivors_subset (hP : PartitionOf H O policy P) (hP' : PartitionOf H O' policy P')
    (hsub : ∀ o ∈ usableSet O policy, o ∈ usableSet O' policy) {a : Hypothesis σ}
    (ha : a ∈ P'.survivors) : a ∈ P.survivors := by
  obtain ⟨hH, hno⟩ := (hP'.mem_survivors a).mp ha
  exact (hP.mem_survivors a).mpr ⟨hH, fun hc => hno (contradicted_mono hsub hc)⟩

theorem sameClass_of_refined (hP : PartitionOf H O policy P) (hP' : PartitionOf H O' policy P')
    (hsub : ∀ o ∈ usableSet O policy, o ∈ usableSet O' policy) {a b : Hypothesis σ}
    (h : SameClass P' a b) : SameClass P a b := by
  obtain ⟨c, hc, hac, hbc⟩ := h
  have ha := PartitionOf.mem_survivors_of_mem hc hac
  have hb := PartitionOf.mem_survivors_of_mem hc hbc
  have hagree := (hP'.sameClass_iff ha hb).mp ⟨c, hc, hac, hbc⟩
  exact (hP.sameClass_iff (survivors_subset hP hP' hsub ha)
    (survivors_subset hP hP' hsub hb)).mpr (fun o ho => hagree o (hsub o ho))

/-- Every refined class lies in one of the coarser classes. -/
theorem class_subset (hP : PartitionOf H O policy P) (hP' : PartitionOf H O' policy P')
    (hsub : ∀ o ∈ usableSet O policy, o ∈ usableSet O' policy) {c' : EquivalenceClass σ}
    (hc' : c' ∈ P'.classes) : ∃ c ∈ P.classes, ∀ a ∈ c'.members, a ∈ c.members := by
  obtain ⟨a₀, ha₀⟩ := List.exists_mem_of_ne_nil _ c'.members_ne
  have hsame : ∀ a ∈ c'.members, SameClass P a₀ a := fun a ha =>
    sameClass_of_refined hP hP' hsub ⟨c', hc', ha₀, ha⟩
  obtain ⟨c, hc, hmem, -⟩ := hsame a₀ ha₀
  exact ⟨c, hc, fun a ha => hP.mem_class_of_sameClass hc hmem (hsame a ha)⟩

/-- Members of one class differ only on its missing distinguishers. -/
theorem mem_dMissing_of_ne (hP : PartitionOf H O policy P) {c : EquivalenceClass σ}
    (hc : c ∈ P.classes) {a b : Hypothesis σ} (ha : a ∈ c.members) (hb : b ∈ c.members)
    {f : String} (hne : a.predictions.lookup f ≠ b.predictions.lookup f) : f ∈ c.dMissing := by
  rw [hP.dMissing_eq c hc, mem_dMissing, List.mem_toFinset]
  refine ⟨?_, a, ha, b, hb, hne⟩
  intro hf
  obtain ⟨o, ho, rfl⟩ := hP.mem_fUsable.mp hf
  exact hne ((hP.sameClass_iff (PartitionOf.mem_survivors_of_mem hc ha)
    (PartitionOf.mem_survivors_of_mem hc hb)).mp ⟨c, hc, ha, hb⟩ o ho)

end TwoRuns

/-- With more evidence the survivors shrink, the classes refine, and a class whose
missing distinguishers were all measured keeps together only hypotheses that
predict alike everywhere. -/
theorem partition_refines [DecidableEq σ] {H : List (Hypothesis σ)} {O O' : List Observable}
    {policy : UsabilityPolicy} {P : Partition σ} (h : partition H O policy = .ok P)
    (hmore : MoreEvidence policy O O') :
    ∃ P', partition H O' policy = .ok P' ∧
      (∀ a ∈ P'.survivors, a ∈ P.survivors) ∧
      (∀ c' ∈ P'.classes, ∃ c ∈ P.classes, ∀ a ∈ c'.members, a ∈ c.members) ∧
      (∀ c ∈ P.classes, (∀ f ∈ c.dMissing, f ∈ P'.fUsable) →
        ∀ a ∈ c.members, ∀ b ∈ c.members, SameClass P' a b →
          ∀ f, a.predictions.lookup f = b.predictions.lookup f) := by
  obtain ⟨hne, hone, hnd⟩ := (partition_ok_iff H O policy).mp ⟨P, h⟩
  obtain ⟨P', h'⟩ := (partition_ok_iff H O' policy).mpr
    ⟨hne, hone, hmore.ids_perm.nodup_iff.mpr hnd⟩
  have hP := partition_spec h
  have hP' := partition_spec h'
  have hsub : ∀ o ∈ usableSet O policy, o ∈ usableSet O' policy := fun o ho =>
    hmore.usable_subset ho
  refine ⟨P', h', ?_, ?_, ?_⟩
  · exact fun a ha => survivors_subset hP hP' hsub ha
  · exact fun c' hc' => class_subset hP hP' hsub hc'
  · intro c hc hmeasured a ha b hb hsame f
    by_contra hdiff
    have hf : f ∈ P'.fUsable := hmeasured f (mem_dMissing_of_ne hP hc ha hb hdiff)
    obtain ⟨o, ho, rfl⟩ := hP'.mem_fUsable.mp hf
    obtain ⟨d, hd, had, hbd⟩ := hsame
    exact hdiff ((hP'.sameClass_iff (PartitionOf.mem_survivors_of_mem hd had)
      (PartitionOf.mem_survivors_of_mem hd hbd)).mp ⟨d, hd, had, hbd⟩ o ho)

/-- Two causes that an unmeasured latency cannot separate, and the latency measured. -/
theorem partition_refines_measured :
    ∃ P P', partition [slowCheckout 3, fastPayment 5] [latencyUnknown] defaultPolicy = .ok P ∧
      partition [slowCheckout 3, fastPayment 5] [latencyHigh] defaultPolicy = .ok P' ∧
      ∀ c' ∈ P'.classes, ∃ c ∈ P.classes, ∀ a ∈ c'.members, a ∈ c.members := by
  obtain ⟨P, hP⟩ := exists_partition_two (O := [latencyUnknown]) (by decide)
  have hmore : MoreEvidence defaultPolicy [latencyUnknown] [latencyHigh] := by
    refine ⟨by decide, ?_⟩
    intro o ho o' ho' _
    rw [List.mem_singleton] at ho ho'
    subst ho ho'
    refine Or.inr ⟨?_, ?_⟩
    · intro hmem
      have husable := (mem_usableSet.mp hmem).2.1
      simp [latencyUnknown, unknown, Observable.isUsable] at husable
    · exact mem_usableSet.mpr
        ⟨List.mem_singleton_self _, rfl, latencyHigh.measurementConfidence.2.1⟩
  obtain ⟨P', hP', -, hclasses, -⟩ := partition_refines hP hmore
  exact ⟨P, P', hP, hP', hclasses⟩

end Raglogs.EvidenceRefinement
