import Raglogs.PartitionLaws

/-!
The partition reads the hypothesis set and the observation set only. Two lists
with the same hypotheses, in any order and with any repeats, and two orders of
the observations give the same result; replacing the ranking provenance, one for
each id, replaces it in the result and changes nothing else. Two copies of an id
that carry different provenance are rejected.
-/

namespace Raglogs.PartitionInvariance

open Collections Dicts Observables Hypotheses Partitioning PartitionLaws

variable {σ τ : Type}

theorem usableIds_perm {U U' : List Observable} (h : U.Perm U') :
    usableIds U = usableIds U' :=
  sortOn_eq_of_perm id (h.map _) (fun _ _ _ _ h => h)

theorem classData_perm {U U' : List Observable} {S S' : List (Hypothesis σ)}
    (hU : U.Perm U') (hS : S.Perm S') (hone : OneDefinition S) :
    classData U S = classData U' S' := by
  have hids := usableIds_perm hU
  unfold classData
  rw [← hids]
  set key : Hypothesis σ → Signature := fun h => signature h.predictions (usableIds U)
  set F : Signature → List (Hypothesis σ) → Signature × List (Hypothesis σ) × Finset String :=
    fun sig hs => (sig, sortOn Hypothesis.id hs,
      dMissing (sortOn Hypothesis.id hs) (usableIds U).toFinset)
  have hsorted : ∀ k, sortOn Hypothesis.id (S.filter (fun h => key h = k)) =
      sortOn Hypothesis.id (S'.filter (fun h => key h = k)) := by
    intro k
    refine sortOn_eq_of_perm _ (hS.filter _) ?_
    intro a ha b hb hab
    exact hone a (List.mem_of_mem_filter ha) b (List.mem_of_mem_filter hb) hab
  have hF : ∀ k, F k (S.filter (fun h => key h = k)) = F k (S'.filter (fun h => key h = k)) := by
    intro k
    simp only [F, hsorted k]
  have hperm := groupOn_map_perm key F hS hF
  -- the signatures of the groups are distinct, so sorting by them is canonical
  have hkey : ∀ a ∈ (groupOn key S).map (fun p => F p.1 p.2),
      ∀ b ∈ (groupOn key S).map (fun p => F p.1 p.2),
      a.1.sortKey = b.1.sortKey → a = b := by
    intro a ha b hb hab
    obtain ⟨p, hp, rfl⟩ := List.mem_map.mp ha
    obtain ⟨q, hq, rfl⟩ := List.mem_map.mp hb
    have hpq : p.1 = q.1 := Signature.sortKey_injective hab
    rw [List.inj_on_of_nodup_map (groupOn_keys_nodup key S) hp hq hpq]
  rw [← sortOn_map (fun p : Signature × List (Hypothesis σ) => p.1.sortKey)
      (fun q : Signature × List (Hypothesis σ) × Finset String => q.1.sortKey)
      (fun p => F p.1 p.2) (fun _ => rfl),
    ← sortOn_map (fun p : Signature × List (Hypothesis σ) => p.1.sortKey)
      (fun q : Signature × List (Hypothesis σ) × Finset String => q.1.sortKey)
      (fun p => F p.1 p.2) (fun _ => rfl)]
  exact sortOn_eq_of_perm _ hperm hkey

/-- Lists with the same hypotheses and orders of the same observations have the
same partition. -/
theorem partition_congr [DecidableEq σ] {H H' : List (Hypothesis σ)} {O O' : List Observable}
    {policy : UsabilityPolicy} {P : Partition σ} (h : partition H O policy = .ok P)
    (hH : ∀ a, a ∈ H' ↔ a ∈ H) (hO : O'.Perm O) : partition H' O' policy = .ok P := by
  obtain ⟨hne, hone, hnd⟩ := (partition_ok_iff H O policy).mp ⟨P, h⟩
  have hone' : OneDefinition H' := fun a ha b hb =>
    hone a ((hH a).mp ha) b ((hH b).mp hb)
  have hnd' : (O'.map Observable.id).Nodup := (hO.map _).nodup_iff.mpr hnd
  obtain ⟨D, hD⟩ := (distinct_ok_iff H).mpr hone
  obtain ⟨D', hD'⟩ := (distinct_ok_iff H').mpr hone'
  have hspec := distinct_spec hD
  have hspec' := distinct_spec hD'
  have hDD : D'.Perm D := by
    rw [List.perm_ext_iff_of_nodup hspec'.nodup hspec.nodup]
    intro a
    rw [hspec'.mem_iff, hspec.mem_iff, hH]
  have hneD : D ≠ [] := (distinct_ne_nil hD).mpr hne
  have hneD' : D' ≠ [] := fun hnil => hneD ((hnil ▸ hDD).nil_eq).symm
  obtain ⟨Q, hQ, hQu, hQe, hQc⟩ := partition_computes policy hnd hD hneD
  obtain ⟨Q', hQ', hQu', hQe', hQc'⟩ := partition_computes policy hnd' hD' hneD'
  obtain rfl : Q = P := Except.ok.inj (hQ.symm.trans h)
  have hUU := usableSet_perm hO policy
  have hUnd' := usableSet_ids_nodup hnd' policy
  have hstates := statesOf_perm hUnd' hUU
  have honeD : OneDefinition D' := fun a ha b hb =>
    hone' a ((hspec'.mem_iff a).mp ha) b ((hspec'.mem_iff b).mp hb)
  rw [hQ']
  refine congrArg Except.ok (Partitioning.Partition.ext ?_ ?_ ?_)
  · refine List.map_injective_iff.mpr dataOf_injective ?_
    rw [hQc, hQc', hstates]
    refine classData_perm hUU (hDD.filter _) ?_
    intro a ha b hb
    exact honeD a (List.mem_of_mem_filter ha) b (List.mem_of_mem_filter hb)
  · rw [hQu, hQu']
    exact sortOn_eq_of_perm _ hUU (fun a ha b hb => List.inj_on_of_nodup_map hUnd' ha hb)
  · rw [hQe, hQe', hstates]
    refine sortOn_eq_of_perm _ (hDD.filter _) ?_
    intro a ha b hb
    exact honeD a (List.mem_of_mem_filter ha) b (List.mem_of_mem_filter hb)

/-! Replacing the provenance. -/

/-- Give every hypothesis the provenance of its id. -/
def resource (s : String → Option τ) (h : Hypothesis σ) : Hypothesis τ := h.withSource (s h.id)

/-- The same class or partition, with the provenance replaced. -/
def mapClass (s : String → Option τ) (c : EquivalenceClass σ) : EquivalenceClass τ where
  signature := c.signature
  members := c.members.map (resource s)
  dMissing := c.dMissing
  members_ne := by simpa using c.members_ne

def mapPartition (s : String → Option τ) (p : Partition σ) : Partition τ where
  classes := p.classes.map (mapClass s)
  usable := p.usable
  eliminated := p.eliminated.map (resource s)
  nonempty := by simpa using p.nonempty

theorem dMissing_resource (s : String → Option τ) (hs : List (Hypothesis σ))
    (fUsable : Finset String) : dMissing (hs.map (resource s)) fUsable = dMissing hs fUsable := by
  ext f
  rw [mem_dMissing, mem_dMissing]
  simp only [List.mem_map, exists_exists_and_eq_and]
  rfl

/-- One class of the data, with the provenance replaced. -/
def mapData (s : String → Option τ) (d : Signature × List (Hypothesis σ) × Finset String) :
    Signature × List (Hypothesis τ) × Finset String :=
  (d.1, d.2.1.map (resource s), d.2.2)

theorem sortOn_id_resource (s : String → Option τ) (hs : List (Hypothesis σ)) :
    sortOn Hypothesis.id (hs.map (resource s)) = (sortOn Hypothesis.id hs).map (resource s) :=
  sortOn_map (Hypothesis.id : Hypothesis σ → String) (Hypothesis.id : Hypothesis τ → String)
    (resource s) (fun _ => rfl) hs

theorem classData_resource (s : String → Option τ) (U : List Observable)
    (S : List (Hypothesis σ)) :
    classData U (S.map (resource s)) = (classData U S).map (mapData s) := by
  unfold classData
  rw [groupOn_map (f := resource s)
      (fun h : Hypothesis σ => (rfl : signature (resource s h).predictions (usableIds U) =
        signature h.predictions (usableIds U))),
    sortOn_map (fun p : Signature × List (Hypothesis σ) => p.1.sortKey)
      (fun p : Signature × List (Hypothesis τ) => p.1.sortKey)
      (fun p => (p.1, p.2.map (resource s))) (fun _ => rfl),
    List.map_map, List.map_map]
  apply List.map_congr_left
  rintro ⟨sig, hs⟩ -
  simp only [Function.comp_apply, mapData, sortOn_id_resource, dMissing_resource]

theorem map_dataOf_mapPartition (s : String → Option τ) (P : Partition σ) :
    (mapPartition s P).classes.map dataOf = (P.classes.map dataOf).map (mapData s) := by
  simp only [mapPartition, List.map_map]
  rfl

theorem oneDefinition_resource (s : String → Option τ) {H : List (Hypothesis σ)}
    (h : OneDefinition H) : OneDefinition (H.map (resource s)) := by
  intro a ha b hb hab
  obtain ⟨a₀, ha₀, rfl⟩ := List.mem_map.mp ha
  obtain ⟨b₀, hb₀, rfl⟩ := List.mem_map.mp hb
  rw [h a₀ ha₀ b₀ hb₀ hab]

/-- Scores cannot move a hypothesis: with the provenance replaced, the partition
is the same partition with the provenance replaced. -/
theorem partition_resource [DecidableEq σ] [DecidableEq τ] {H : List (Hypothesis σ)}
    {O : List Observable} {policy : UsabilityPolicy} {P : Partition σ}
    (h : partition H O policy = .ok P) (s : String → Option τ) :
    partition (H.map (resource s)) O policy = .ok (mapPartition s P) := by
  obtain ⟨hne, hone, hnd⟩ := (partition_ok_iff H O policy).mp ⟨P, h⟩
  have hone' := oneDefinition_resource s hone
  obtain ⟨D, hD⟩ := (distinct_ok_iff H).mpr hone
  obtain ⟨D', hD'⟩ := (distinct_ok_iff _).mpr hone'
  have hspec := distinct_spec hD
  have hspec' := distinct_spec hD'
  have hids : ((D.map (resource s)).map Hypothesis.id).Nodup := by
    rw [List.map_map]
    exact hspec.ids_nodup
  have hDD : D'.Perm (D.map (resource s)) := by
    rw [List.perm_ext_iff_of_nodup hspec'.nodup (hids.of_map _)]
    intro a
    rw [hspec'.mem_iff, List.mem_map, List.mem_map]
    simp only [hspec.mem_iff]
  have honeD : OneDefinition D' := fun a ha b hb =>
    hone' a ((hspec'.mem_iff a).mp ha) b ((hspec'.mem_iff b).mp hb)
  obtain ⟨Q, hQ, hQu, hQe, hQc⟩ :=
    partition_computes policy hnd hD ((distinct_ne_nil hD).mpr hne)
  obtain ⟨Q', hQ', hQu', hQe', hQc'⟩ :=
    partition_computes policy hnd hD' ((distinct_ne_nil hD').mpr (by simpa using hne))
  obtain rfl : Q = P := Except.ok.inj (hQ.symm.trans h)
  rw [hQ']
  refine congrArg Except.ok (Partitioning.Partition.ext ?_ ?_ ?_)
  · refine List.map_injective_iff.mpr dataOf_injective ?_
    rw [map_dataOf_mapPartition, hQc, hQc', ← classData_resource]
    have hfilter := hDD.filter
      (fun a => !contradictedBy (statesOf (usableSet O policy)) a)
    rw [List.filter_map] at hfilter
    refine classData_perm (List.Perm.refl _) hfilter ?_
    intro a ha b hb
    exact honeD a (List.mem_of_mem_filter ha) b (List.mem_of_mem_filter hb)
  · rw [hQu']
    exact hQu.symm
  · have hfilter := hDD.filter (contradictedBy (statesOf (usableSet O policy)))
    rw [List.filter_map] at hfilter
    have hsort := sortOn_eq_of_perm Hypothesis.id hfilter (fun a ha b hb =>
      honeD a (List.mem_of_mem_filter ha) b (List.mem_of_mem_filter hb))
    rw [hQe', hsort, sortOn_id_resource]
    simp only [mapPartition, hQe]
    rfl

/-! The contract of `partition`. -/

/-- No id has two definitions; the provenance is not part of a definition. -/
def NoConflict (H : List (Hypothesis σ)) : Prop :=
  ∀ a ∈ H, ∀ b ∈ H, a.id = b.id → a.identity = b.identity

/-- The copies of one id carry one provenance. -/
def OneProvenance (H : List (Hypothesis σ)) : Prop :=
  ∀ a ∈ H, ∀ b ∈ H, a.id = b.id → a.source = b.source

theorem oneDefinition_of_noConflict {H : List (Hypothesis σ)} (hdef : NoConflict H)
    (hsource : OneProvenance H) : OneDefinition H := fun a ha b hb hab =>
  Hypothesis.eq_of_identity (hdef a ha b hb hab) (hsource a ha b hb hab)

/-- The members of the classes and the eliminated hypotheses are the hypotheses
given, each once; usable contradictions eliminate and nothing else does; a class
is agreement on the usable ids; and the result ignores order, repeats and scores. -/
theorem partition_correct [DecidableEq σ] (H : List (Hypothesis σ)) (O : List Observable)
    (policy : UsabilityPolicy) (hne : H ≠ []) (hdef : NoConflict H)
    (hsource : OneProvenance H) (hO : (O.map Observable.id).Nodup) :
    ∃ P, partition H O policy = .ok P ∧
      (P.survivors ++ P.eliminated).Nodup ∧
      (∀ h, h ∈ P.survivors ++ P.eliminated ↔ h ∈ H) ∧
      (∀ h ∈ H, h ∈ P.eliminated ↔ h.Contradicted (usableSet O policy)) ∧
      (∀ a ∈ P.survivors, ∀ b ∈ P.survivors, SameClass P a b ↔
        ∀ o ∈ usableSet O policy, a.predictions.lookup o.id = b.predictions.lookup o.id) ∧
      (∀ H' O', (∀ h, h ∈ H' ↔ h ∈ H) → O'.Perm O → partition H' O' policy = .ok P) ∧
      (∀ (τ : Type) [DecidableEq τ] (s : String → Option τ),
        partition (H.map (resource s)) O policy = .ok (mapPartition s P)) := by
  obtain ⟨P, hP⟩ := (partition_ok_iff H O policy).mpr
    ⟨hne, oneDefinition_of_noConflict hdef hsource, hO⟩
  have hspec := partition_spec hP
  refine ⟨P, hP, hspec.nodup, ?_, ?_, ?_, ?_, ?_⟩
  · intro h
    rw [List.mem_append, hspec.mem_survivors, hspec.mem_eliminated, ← and_or_left]
    exact and_iff_left (Classical.em _).symm
  · intro h hh
    rw [hspec.mem_eliminated]
    exact and_iff_right hh
  · exact fun a ha b hb => hspec.sameClass_iff ha hb
  · exact fun H' O' hH' hO' => partition_congr hP hH' hO'
  · exact fun τ _ s => partition_resource hP s

/-- Two causes, in one order and in the other with a repeat. -/
theorem partition_correct_two :
    ∃ P, partition [slowCheckout 3, fastPayment 5] [latencyHigh] defaultPolicy = .ok P ∧
      partition [fastPayment 5, slowCheckout 3, fastPayment 5] [latencyHigh] defaultPolicy =
        .ok P := by
  obtain ⟨P, hP, -, -, -, -, hcongr, -⟩ := partition_correct
    [slowCheckout 3, fastPayment 5] [latencyHigh] defaultPolicy (by simp)
    (by simp [NoConflict, slowCheckout, fastPayment, predicting, Hypothesis.identity])
    (by simp [OneProvenance, slowCheckout, fastPayment, predicting]) (by decide)
  exact ⟨P, hP, hcongr _ _ (by simp) (List.Perm.refl _)⟩

/-- Two copies of a cause are accepted while they carry one score. Replacing the
score of one copy leaves the definitions alone, and the list is rejected. -/
theorem partition_rejects_divergent_provenance :
    (∃ P, partition [slowCheckout 3, slowCheckout 3] [] defaultPolicy = .ok P) ∧
    NoConflict [slowCheckout 3, slowCheckout 5] ∧
    partition [slowCheckout 3, slowCheckout 5] [] defaultPolicy =
      .error (.divergentProvenance "checkout") := by
  refine ⟨?_, ?_, ?_⟩
  · exact (partition_ok_iff _ _ _).mpr ⟨by simp, by simp [OneDefinition], by simp⟩
  · simp [NoConflict, slowCheckout, predicting, Hypothesis.identity]
  · rfl

end Raglogs.PartitionInvariance
