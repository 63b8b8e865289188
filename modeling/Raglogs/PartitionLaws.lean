import Raglogs.Partitioning

/-!
What `partition` computes. Its result is described once by the fields of
`PartitionOf`: who is eliminated, who survives, and when two survivors share a
class. It depends on the hypothesis set and the observation set only, not on
their order or multiplicity, and it commutes with replacing the provenance.
-/

namespace Raglogs.PartitionLaws

open Collections Dicts Observables Hypotheses Partitioning

variable {σ : Type}

/-! Signatures and missing distinguishers. -/

theorem mem_signature {p : Dict String String} {fs : List String} {f s : String} :
    (f, s) ∈ signature p fs ↔ f ∈ fs ∧ p.lookup f = some s := by
  unfold signature
  rw [List.mem_filterMap]
  constructor
  · rintro ⟨g, hg, hgs⟩
    obtain ⟨s', hs', heq⟩ := Option.map_eq_some_iff.mp hgs
    obtain ⟨rfl, rfl⟩ := Prod.mk.inj heq
    exact ⟨hg, hs'⟩
  · rintro ⟨hf, hs⟩
    exact ⟨f, hf, by simp [hs]⟩

/-- Equal signatures mean equal predictions on every usable id, both omitting
one counting as agreement. -/
theorem signature_eq_iff {pa pb : Dict String String} {fs : List String} :
    signature pa fs = signature pb fs ↔ ∀ f ∈ fs, pa.lookup f = pb.lookup f := by
  constructor
  · intro h f hf
    apply Option.ext
    intro s
    have ha : (f, s) ∈ signature pa fs ↔ pa.lookup f = some s := by
      rw [mem_signature, and_iff_right hf]
    have hb : (f, s) ∈ signature pb fs ↔ pb.lookup f = some s := by
      rw [mem_signature, and_iff_right hf]
    rw [← ha, h, hb]
  · intro h
    unfold signature
    apply List.filterMap_congr
    intro f hf
    rw [h f hf]

theorem mem_differences {fUsable : Finset String} {pa pb : Dict String String} {f : String} :
    f ∈ differences fUsable pa pb ↔ f ∉ fUsable ∧ pa.lookup f ≠ pb.lookup f := by
  unfold differences
  rw [Finset.mem_filter, and_iff_right_iff_imp]
  rintro ⟨-, hne⟩
  rw [Finset.mem_union, Finmap.mem_keys, Finmap.mem_keys]
  by_contra hno
  rw [not_or] at hno
  exact hne ((Finmap.lookup_eq_none.mpr hno.1).trans (Finmap.lookup_eq_none.mpr hno.2).symm)

theorem mem_foldl_differences (ps : List (Hypothesis σ × Hypothesis σ))
    (fUsable acc : Finset String) (f : String) :
    f ∈ ps.foldl (fun missing p =>
        missing ∪ differences fUsable p.1.predictions p.2.predictions) acc ↔
      f ∈ acc ∨ ∃ p ∈ ps, f ∈ differences fUsable p.1.predictions p.2.predictions := by
  induction ps generalizing acc with
  | nil => simp
  | cons p ps ih =>
    rw [List.foldl_cons, ih, Finset.mem_union]
    simp [or_assoc]

/-- A missing distinguisher: not usable, and two members differ on it. -/
theorem mem_dMissing {members : List (Hypothesis σ)} {fUsable : Finset String} {f : String} :
    f ∈ dMissing members fUsable ↔ f ∉ fUsable ∧
      ∃ a ∈ members, ∃ b ∈ members, a.predictions.lookup f ≠ b.predictions.lookup f := by
  unfold dMissing
  rw [mem_foldl_differences]
  constructor
  · rintro (h | ⟨⟨a, b⟩, hab, hf⟩)
    · simp at h
    · obtain ⟨hno, hne⟩ := mem_differences.mp hf
      exact ⟨hno, a, (mem_of_mem_pairs hab).1, b, (mem_of_mem_pairs hab).2, hne⟩
  · rintro ⟨hno, a, ha, b, hb, hne⟩
    have hab : a ≠ b := fun h => hne (by rw [h])
    rcases mem_pairs_or ha hb hab with h | h
    · exact Or.inr ⟨(a, b), h, mem_differences.mpr ⟨hno, hne⟩⟩
    · exact Or.inr ⟨(b, a), h, mem_differences.mpr ⟨hno, fun heq => hne heq.symm⟩⟩

/-! The result, from the hypothesis set and the usable set. -/

def usableIds (usable : List Observable) : List String :=
  sortOn id (usable.map Observable.id)

/-- The classes as data: signature, members and missing distinguishers. -/
def classData (usable : List Observable) (survivors : List (Hypothesis σ)) :
    List (Signature × List (Hypothesis σ) × Finset String) :=
  (sortOn (fun p => p.1.sortKey)
      (groupOn (fun h => signature h.predictions (usableIds usable)) survivors)).map
    (fun p => (p.1, sortOn Hypothesis.id p.2,
      dMissing (sortOn Hypothesis.id p.2) (usableIds usable).toFinset))

def dataOf (c : EquivalenceClass σ) : Signature × List (Hypothesis σ) × Finset String :=
  (c.signature, c.members, c.dMissing)

theorem dataOf_injective : Function.Injective (dataOf (σ := σ)) := by
  intro a b h
  simp only [dataOf, Prod.mk.injEq] at h
  exact EquivalenceClass.ext h.1 h.2.1 h.2.2

/-- The loop that tags each hypothesis with its elimination does not raise. -/
theorem tagged_eq {U : List Observable} (hnd : (U.map Observable.id).Nodup)
    (hus : ∀ o ∈ U, o.isUsable = true) (D : List (Hypothesis σ)) :
    (D.mapM (fun h => do
      let out ← h.hardIncompatibility U
      return (h, out)) : Except StructuralError _) =
      .ok (D.map (fun h => (h, contradictedBy (statesOf U) h))) := by
  apply mapM_ok
  intro h _
  rw [hardIncompatibility_eq h hnd hus]
  rfl

/-- No group is empty, so every class can be built. -/
theorem exists_classes (U : List Observable) (S : List (Hypothesis σ)) :
    ∃ classes, (sortOn (fun p => p.1.sortKey)
        (groupOn (fun h => signature h.predictions (usableIds U)) S)).mapM
          (fun p => classOf (usableIds U).toFinset p.1 p.2) = .ok classes ∧
      classes.map dataOf = classData U S := by
  apply mapM_exists
  rintro ⟨sig, hs⟩ hmem
  have hne : sortOn Hypothesis.id hs ≠ [] := by
    rw [ne_eq, sortOn_eq_nil]
    exact ((mem_groupOn _ _ _ _).mp ((mem_sortOn _).mp hmem)).2
  refine ⟨⟨sig, sortOn Hypothesis.id hs,
    dMissing (sortOn Hypothesis.id hs) (usableIds U).toFinset, hne⟩, ?_, rfl⟩
  simp only [classOf, EquivalenceClass.make]
  rw [dif_pos hne]

theorem classData_ne_nil (U : List Observable) {S : List (Hypothesis σ)} (hS : S ≠ []) :
    classData U S ≠ [] := by
  obtain ⟨h, hh⟩ := List.exists_mem_of_ne_nil S hS
  have hkey := (mem_groupOn_keys (fun h => signature h.predictions (usableIds U)) S _).mpr
    ⟨h, hh, rfl⟩
  obtain ⟨p, hp, -⟩ := List.mem_map.mp hkey
  unfold classData
  rw [ne_eq, List.map_eq_nil_iff, sortOn_eq_nil]
  exact List.ne_nil_of_mem hp

theorem partition_computes [DecidableEq σ] {H D : List (Hypothesis σ)} {O : List Observable}
    (policy : UsabilityPolicy) (hO : (O.map Observable.id).Nodup) (hD : distinct H = .ok D)
    (hne : D ≠ []) :
    ∃ P, partition H O policy = .ok P ∧
      P.usable = sortOn Observable.id (usableSet O policy) ∧
      P.eliminated = sortOn Hypothesis.id
        (D.filter (contradictedBy (statesOf (usableSet O policy)))) ∧
      P.classes.map dataOf = classData (usableSet O policy)
        (D.filter (fun h => !contradictedBy (statesOf (usableSet O policy)) h)) := by
  set U := usableSet O policy with hU
  have hUnd : (U.map Observable.id).Nodup := usableSet_ids_nodup hO policy
  have hUus : ∀ o ∈ U, o.isUsable = true := fun o ho => (mem_usableSet.mp ho).2.1
  have htag := tagged_eq hUnd hUus D
  have hsurv : ((D.map (fun h => (h, contradictedBy (statesOf U) h))).filter
      (fun p => !p.2)).map Prod.fst = D.filter (fun h => !contradictedBy (statesOf U) h) := by
    rw [List.filter_map, List.map_map]
    simp [Function.comp_def]
  have helim : ((D.map (fun h => (h, contradictedBy (statesOf U) h))).filter
      (fun p => p.2)).map Prod.fst = D.filter (contradictedBy (statesOf U)) := by
    rw [List.filter_map, List.map_map]
    simp [Function.comp_def]
  obtain ⟨classes, hclasses, hdata⟩ :=
    exists_classes U (D.filter (fun h => !contradictedBy (statesOf U) h))
  have hsome : classes ≠ [] ∨
      sortOn Hypothesis.id (D.filter (contradictedBy (statesOf U))) ≠ [] := by
    obtain ⟨h, hh⟩ := List.exists_mem_of_ne_nil D hne
    cases hc : contradictedBy (statesOf U) h with
    | true =>
      exact Or.inr (List.ne_nil_of_mem
        ((mem_sortOn _).mpr (List.mem_filter.mpr ⟨hh, hc⟩)))
    | false =>
      refine Or.inl fun hnil => ?_
      rw [hnil, List.map_nil] at hdata
      exact classData_ne_nil U
        (List.ne_nil_of_mem (List.mem_filter.mpr ⟨hh, by simp [hc]⟩)) hdata.symm
  refine ⟨⟨classes, sortOn Observable.id U, _, hsome⟩, ?_, rfl, rfl, hdata⟩
  simp only [partition, usableObservations_of_nodup hO, ← hU, hD, bind, Except.bind]
  rw [if_neg hne]
  simp only [bind, Except.bind] at htag
  rw [htag]
  simp only [hsurv, helim]
  unfold usableIds at hclasses
  rw [hclasses]
  simp only [Partition.make, hsome, dif_pos]

theorem distinct_ne_nil [DecidableEq σ] {H D : List (Hypothesis σ)} (hD : distinct H = .ok D) :
    D ≠ [] ↔ H ≠ [] := by
  have hmem := (distinct_spec hD).mem_iff
  simp only [ne_eq, List.eq_nil_iff_forall_not_mem, hmem]

/-- What `partition` accepts: a non-empty hypothesis list with one definition and
one provenance for each id, and observations with distinct ids. -/
def Accepted (H : List (Hypothesis σ)) (O : List Observable) : Prop :=
  H ≠ [] ∧ OneDefinition H ∧ (O.map Observable.id).Nodup

theorem partition_ok_iff [DecidableEq σ] (H : List (Hypothesis σ)) (O : List Observable)
    (policy : UsabilityPolicy) : (∃ P, partition H O policy = .ok P) ↔ Accepted H O := by
  constructor
  · rintro ⟨P, h⟩
    obtain ⟨U, hU, h⟩ := bind_eq_ok.mp h
    obtain ⟨D, hD, h⟩ := bind_eq_ok.mp h
    have hne : D ≠ [] := by
      rintro rfl
      simp at h
    exact ⟨(distinct_ne_nil hD).mp hne, (distinct_ok_iff H).mp ⟨D, hD⟩,
      nodup_of_usableObservations_ok hU⟩
  · rintro ⟨hne, hone, hO⟩
    obtain ⟨D, hD⟩ := (distinct_ok_iff H).mpr hone
    obtain ⟨P, hP, -⟩ := partition_computes policy hO hD
      ((distinct_ne_nil hD).mpr hne)
    exact ⟨P, hP⟩

theorem exists_partition_two {O : List Observable} (hO : (O.map Observable.id).Nodup) :
    ∃ P, partition [slowCheckout 3, fastPayment 5] O defaultPolicy = .ok P :=
  (partition_ok_iff _ _ _).mpr
    ⟨by simp, by simp [OneDefinition, slowCheckout, fastPayment, predicting], hO⟩

/-- The result described: who is eliminated, who survives, and what a class is. -/
structure PartitionOf (H : List (Hypothesis σ)) (O : List Observable)
    (policy : UsabilityPolicy) (P : Partition σ) : Prop where
  usable_eq : P.usable = sortOn Observable.id (usableSet O policy)
  mem_eliminated : ∀ h, h ∈ P.eliminated ↔ h ∈ H ∧ h.Contradicted (usableSet O policy)
  mem_survivors : ∀ h, h ∈ P.survivors ↔ h ∈ H ∧ ¬ h.Contradicted (usableSet O policy)
  nodup : (P.survivors ++ P.eliminated).Nodup
  ids_nodup : (P.survivors.map Hypothesis.id).Nodup
  signatures_nodup : (P.classes.map EquivalenceClass.signature).Nodup
  signature_eq : ∀ c ∈ P.classes, ∀ h ∈ c.members,
    c.signature = signature h.predictions P.fUsable
  dMissing_eq : ∀ c ∈ P.classes, c.dMissing = dMissing c.members P.fUsable.toFinset

theorem usableIds_sortOn (U : List Observable) :
    usableIds (sortOn Observable.id U) = usableIds U :=
  sortOn_eq_of_perm id ((sortOn_perm Observable.id U).map _) (fun _ _ _ _ h => h)

@[simp]
theorem mem_usableIds {U : List Observable} {f : String} :
    f ∈ usableIds U ↔ ∃ o ∈ U, o.id = f := by
  simp [usableIds]

/-- The data of the classes: one class for each signature of a survivor. -/
theorem mem_classData {U : List Observable} {S : List (Hypothesis σ)} {sig : Signature}
    {members : List (Hypothesis σ)} {missing : Finset String} :
    (sig, members, missing) ∈ classData U S ↔
      members = sortOn Hypothesis.id
        (S.filter (fun h => signature h.predictions (usableIds U) = sig)) ∧
      members ≠ [] ∧ missing = dMissing members (usableIds U).toFinset := by
  unfold classData
  rw [List.mem_map]
  constructor
  · rintro ⟨⟨sig', hs⟩, hmem, heq⟩
    obtain ⟨hhs, hne⟩ := (mem_groupOn _ _ _ _).mp ((mem_sortOn _).mp hmem)
    simp only [Prod.mk.injEq] at heq
    obtain ⟨rfl, rfl, rfl⟩ := heq
    refine ⟨by rw [hhs], ?_, rfl⟩
    rwa [ne_eq, sortOn_eq_nil]
  · rintro ⟨rfl, hne, rfl⟩
    rw [ne_eq, sortOn_eq_nil] at hne
    exact ⟨(sig, _), (mem_sortOn _).mpr ((mem_groupOn _ _ _ _).mpr ⟨rfl, hne⟩), rfl⟩

theorem classData_signatures_nodup (U : List Observable) (S : List (Hypothesis σ)) :
    ((classData U S).map Prod.fst).Nodup := by
  unfold classData
  rw [List.map_map]
  exact ((sortOn_perm _ _).map _).nodup_iff.mpr (groupOn_keys_nodup _ S)

section ClassViews

variable {P : Partition σ} {U : List Observable} {S : List (Hypothesis σ)}

theorem class_eq (h : P.classes.map dataOf = classData U S) {c : EquivalenceClass σ}
    (hc : c ∈ P.classes) :
    c.members = sortOn Hypothesis.id
        (S.filter (fun h => signature h.predictions (usableIds U) = c.signature)) ∧
      c.dMissing = dMissing c.members (usableIds U).toFinset := by
  have hmem : dataOf c ∈ classData U S := h ▸ List.mem_map_of_mem hc
  obtain ⟨hm, -, hd⟩ := mem_classData.mp hmem
  exact ⟨hm, hd⟩

theorem mem_class (h : P.classes.map dataOf = classData U S) {c : EquivalenceClass σ}
    (hc : c ∈ P.classes) (a : Hypothesis σ) :
    a ∈ c.members ↔ a ∈ S ∧ signature a.predictions (usableIds U) = c.signature := by
  rw [(class_eq h hc).1, mem_sortOn, List.mem_filter, decide_eq_true_eq]

theorem signatures_nodup (h : P.classes.map dataOf = classData U S) :
    (P.classes.map EquivalenceClass.signature).Nodup := by
  have := classData_signatures_nodup U S
  rwa [← h, List.map_map] at this

theorem mem_survivors_iff (h : P.classes.map dataOf = classData U S) (a : Hypothesis σ) :
    a ∈ P.survivors ↔ a ∈ S := by
  unfold Partition.survivors
  rw [List.mem_flatMap]
  constructor
  · rintro ⟨c, hc, ha⟩
    exact ((mem_class h hc a).mp ha).1
  · intro ha
    have hdata : (signature a.predictions (usableIds U), _, _) ∈ classData U S :=
      mem_classData.mpr ⟨rfl, List.ne_nil_of_mem ((mem_sortOn _).mpr
        (List.mem_filter.mpr ⟨ha, by simp⟩)), rfl⟩
    rw [← h, List.mem_map] at hdata
    obtain ⟨c, hc, hcd⟩ := hdata
    have hsig : c.signature = signature a.predictions (usableIds U) := congrArg Prod.fst hcd
    exact ⟨c, hc, (mem_class h hc a).mpr ⟨ha, hsig.symm⟩⟩

theorem survivors_nodup (h : P.classes.map dataOf = classData U S) (hS : S.Nodup) :
    P.survivors.Nodup := by
  unfold Partition.survivors
  rw [List.nodup_flatMap]
  constructor
  · intro c hc
    rw [(class_eq h hc).1]
    exact (sortOn_perm _ _).nodup_iff.mpr (hS.filter _)
  · have hpw : P.classes.Pairwise (fun c d => c.signature ≠ d.signature) :=
      List.pairwise_map.mp (signatures_nodup h)
    refine hpw.imp_of_mem ?_
    intro c d hc hd hne a hac had
    exact hne (((mem_class h hc a).mp hac).2.symm.trans ((mem_class h hd a).mp had).2)

end ClassViews

/-- Whatever `partition` returns is described by `PartitionOf`. -/
theorem partition_spec [DecidableEq σ] {H : List (Hypothesis σ)} {O : List Observable}
    {policy : UsabilityPolicy} {P : Partition σ} (h : partition H O policy = .ok P) :
    PartitionOf H O policy P := by
  obtain ⟨hne, hone, hO⟩ := (partition_ok_iff H O policy).mp ⟨P, h⟩
  obtain ⟨D, hD⟩ := (distinct_ok_iff H).mpr hone
  obtain ⟨P', hP', husable, helim, hdata⟩ := partition_computes policy hO hD
    ((distinct_ne_nil hD).mpr hne)
  obtain rfl : P' = P := Except.ok.inj (hP'.symm.trans h)
  set U := usableSet O policy
  have hUnd : (U.map Observable.id).Nodup := usableSet_ids_nodup hO policy
  have hspec := distinct_spec hD
  have hfU : P'.fUsable = usableIds U := by
    rw [Partition.fUsable, husable]
    exact usableIds_sortOn U
  have hcontra : ∀ a : Hypothesis σ, contradictedBy (statesOf U) a = true ↔ a.Contradicted U :=
    fun a => contradictedBy_iff a hUnd
  have hsurv : ∀ a, a ∈ P'.survivors ↔ a ∈ H ∧ ¬ a.Contradicted U := by
    intro a
    rw [mem_survivors_iff hdata, List.mem_filter, hspec.mem_iff, ← hcontra]
    simp
  have helim' : ∀ a, a ∈ P'.eliminated ↔ a ∈ H ∧ a.Contradicted U := by
    intro a
    rw [helim, mem_sortOn, List.mem_filter, hspec.mem_iff, hcontra]
  refine ⟨husable, helim', hsurv, ?_, ?_, signatures_nodup hdata, ?_, ?_⟩
  · rw [List.nodup_append]
    refine ⟨survivors_nodup hdata (hspec.nodup.filter _), ?_, ?_⟩
    · rw [helim]
      exact (sortOn_perm _ _).nodup_iff.mpr (hspec.nodup.filter _)
    · intro a ha b hb hab
      exact ((hsurv a).mp ha).2 (hab ▸ ((helim' b).mp hb).2)
  · refine List.Nodup.map_on ?_ (survivors_nodup hdata (hspec.nodup.filter _))
    intro a ha b hb hab
    exact hone a ((hsurv a).mp ha).1 b ((hsurv b).mp hb).1 hab
  · intro c hc a ha
    rw [hfU]
    exact ((mem_class hdata hc a).mp ha).2.symm
  · intro c hc
    rw [hfU]
    exact (class_eq hdata hc).2

/-! Sharing a class. -/

def SameClass (P : Partition σ) (a b : Hypothesis σ) : Prop :=
  ∃ c ∈ P.classes, a ∈ c.members ∧ b ∈ c.members

namespace PartitionOf

variable {H : List (Hypothesis σ)} {O : List Observable} {policy : UsabilityPolicy}
  {P : Partition σ}

theorem fUsable_eq (hP : PartitionOf H O policy P) :
    P.fUsable = usableIds (usableSet O policy) := by
  rw [Partition.fUsable, hP.usable_eq]
  exact usableIds_sortOn _

theorem mem_fUsable (hP : PartitionOf H O policy P) {f : String} :
    f ∈ P.fUsable ↔ ∃ o ∈ usableSet O policy, o.id = f := by
  rw [hP.fUsable_eq, mem_usableIds]

theorem sameClass_iff_signature (hP : PartitionOf H O policy P) {a b : Hypothesis σ}
    (ha : a ∈ P.survivors) (hb : b ∈ P.survivors) :
    SameClass P a b ↔ signature a.predictions P.fUsable = signature b.predictions P.fUsable := by
  constructor
  · rintro ⟨c, hc, hac, hbc⟩
    rw [← hP.signature_eq c hc a hac, ← hP.signature_eq c hc b hbc]
  · intro heq
    obtain ⟨c, hc, hac⟩ := List.mem_flatMap.mp ha
    obtain ⟨d, hd, hbd⟩ := List.mem_flatMap.mp hb
    have hcd : c.signature = d.signature := by
      rw [hP.signature_eq c hc a hac, hP.signature_eq d hd b hbd, heq]
    rw [List.inj_on_of_nodup_map hP.signatures_nodup hc hd hcd] at hac
    exact ⟨d, hd, hac, hbd⟩

/-- Survivors share a class exactly when they predict alike on the usable ids. -/
theorem sameClass_iff (hP : PartitionOf H O policy P) {a b : Hypothesis σ}
    (ha : a ∈ P.survivors) (hb : b ∈ P.survivors) :
    SameClass P a b ↔
      ∀ o ∈ usableSet O policy, a.predictions.lookup o.id = b.predictions.lookup o.id := by
  rw [hP.sameClass_iff_signature ha hb, signature_eq_iff]
  simp only [hP.mem_fUsable, forall_exists_index, and_imp, forall_apply_eq_imp_iff₂]

theorem mem_survivors_of_mem {c : EquivalenceClass σ} (hc : c ∈ P.classes) {a : Hypothesis σ}
    (ha : a ∈ c.members) : a ∈ P.survivors :=
  List.mem_flatMap.mpr ⟨c, hc, ha⟩

/-- A survivor that shares a class with a member is a member. -/
theorem mem_class_of_sameClass (hP : PartitionOf H O policy P) {c : EquivalenceClass σ}
    (hc : c ∈ P.classes) {a b : Hypothesis σ} (ha : a ∈ c.members) (h : SameClass P a b) :
    b ∈ c.members := by
  obtain ⟨d, hd, had, hbd⟩ := h
  have hcd : c.signature = d.signature := by
    rw [hP.signature_eq c hc a ha, hP.signature_eq d hd a had]
  rwa [List.inj_on_of_nodup_map hP.signatures_nodup hc hd hcd]

end PartitionOf

end Raglogs.PartitionLaws
