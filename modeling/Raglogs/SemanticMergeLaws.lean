import Raglogs.Components
import Raglogs.SemanticMerge

/-!
Semantic merge is a quotient by connected components. The scan of the pairs
represents the relation that the links generate, each component collapses into one
cluster that sums and spans its members, and no counter, row or fingerprint is
lost or repeated. The result depends on the clusters and their embeddings, not on
the order they are listed in.
-/

namespace Raglogs.SemanticMergeLaws

open Collections Dicts LogEntries Clusters UnionFind Components SemanticMerge

/-! Sums of counts. -/

theorem count_foldl_addCounts (totals : Counter String) (dicts : List (Counter String))
    (k : String) :
    count (dicts.foldl addCounts totals) k =
      count totals k + (dicts.map (fun d => count d k)).sum := by
  induction dicts generalizing totals with
  | nil => simp
  | cons d dicts ih =>
    rw [List.foldl_cons, ih, count_addCounts, List.map_cons, List.sum_cons, Nat.add_assoc]

theorem count_sumCounts (dicts : List (Counter String)) (k : String) :
    count (sumCounts dicts) k = (dicts.map (fun d => count d k)).sum := by
  rw [sumCounts, count_foldl_addCounts, count_empty, Nat.zero_add]

theorem mem_foldl_addCounts (totals : Counter String) (dicts : List (Counter String))
    (k : String) : k ∈ dicts.foldl addCounts totals ↔ k ∈ totals ∨ ∃ d ∈ dicts, k ∈ d := by
  induction dicts generalizing totals with
  | nil => simp
  | cons d dicts ih =>
    rw [List.foldl_cons, ih, mem_addCounts]
    simp [or_assoc]

theorem sumCounts_perm {dicts dicts' : List (Counter String)} (h : dicts.Perm dicts') :
    sumCounts dicts = sumCounts dicts' := by
  apply counter_ext
  · intro k
    unfold sumCounts
    rw [mem_foldl_addCounts, mem_foldl_addCounts]
    simp only [h.mem_iff]
  · intro k
    rw [count_sumCounts, count_sumCounts, (h.map _).sum_eq]

/-! One component. -/

variable {K : Type} [ScoreArithmetic K] [LinearOrder K]

/-- A cluster that stands for a component: it sums its members and spans their times. -/
structure Collapsed (g : List (ClusterData K)) (m : ClusterData K) : Prop where
  fingerprints : (m.fingerprint :: m.mergedFingerprints).Perm (g.map ClusterData.fingerprint)
  count_eq : m.count = (g.map ClusterData.count).sum
  baselineCount_eq : m.baselineCount = (g.map ClusterData.baselineCount).sum
  services_eq : ∀ k, count m.services k = (g.map (fun c => count c.services k)).sum
  levels_eq : ∀ k, count m.levels k = (g.map (fun c => count c.levels k)).sum
  errors_eq : ∀ k, count m.errorServiceCounts k =
    (g.map (fun c => count c.errorServiceCounts k)).sum
  ids_perm : m.logEntryIds.Perm (g.flatMap ClusterData.logEntryIds)
  firstSeen_eq : m.firstSeen = (g.filterMap ClusterData.firstSeen).min?
  lastSeen_eq : m.lastSeen = (g.filterMap ClusterData.lastSeen).max?

omit [ScoreArithmetic K] [LinearOrder K] in
theorem collapsed_single {c : ClusterData K} (hmerged : c.mergedFingerprints = []) :
    Collapsed [c] c := by
  refine ⟨by simp [hmerged], by simp, by simp, by simp, by simp, by simp, by simp, ?_, ?_⟩
  · cases h : c.firstSeen <;> simp [h, List.min?]
  · cases h : c.lastSeen <;> simp [h, List.max?]

omit [ScoreArithmetic K] [LinearOrder K] in
theorem canonical_separates {g : List (ClusterData K)}
    (hfp : (g.map ClusterData.fingerprint).Nodup) :
    ∀ a ∈ g, ∀ b ∈ g, canonicalKey a = canonicalKey b → a = b := by
  intro a ha b hb hab
  have hpair := (Prod.mk.inj (toLex.injective hab)).2
  exact List.inj_on_of_nodup_map hfp ha hb (Prod.mk.inj (toLex.injective hpair)).2

omit [ScoreArithmetic K] [LinearOrder K] in
/-- The members other than the canonical one are those with another fingerprint. -/
theorem filter_ne_canonical {g : List (ClusterData K)}
    (hfp : (g.map ClusterData.fingerprint).Nodup) {c : ClusterData K} (hc : c ∈ g) :
    (c :: g.filter (fun m => m.fingerprint ≠ c.fingerprint)).Perm g := by
  have hnd : g.Nodup := hfp.of_map _
  refine (List.perm_ext_iff_of_nodup ?_ hnd).mpr ?_
  · refine List.nodup_cons.mpr ⟨?_, hnd.filter _⟩
    simp
  · intro m
    rw [List.mem_cons, List.mem_filter, decide_eq_true_eq]
    constructor
    · rintro (rfl | ⟨hm, -⟩)
      · exact hc
      · exact hm
    · intro hm
      by_cases h : m.fingerprint = c.fingerprint
      · exact Or.inl (List.inj_on_of_nodup_map hfp hm hc h)
      · exact Or.inr ⟨hm, h⟩

theorem collapsed_mergeComponent (s : Scoring K) {first : ClusterData K}
    {others : List (ClusterData K)}
    (hfp : ((first :: others).map ClusterData.fingerprint).Nodup) :
    Collapsed (first :: others) (mergeComponent s first others) := by
  have hmem := minOn_mem canonicalKey first others
  refine ⟨?_, rfl, rfl, ?_, ?_, ?_, ?_, rfl, rfl⟩
  · have hperm := (filter_ne_canonical hfp hmem).map ClusterData.fingerprint
    rw [List.map_cons] at hperm
    exact ((sortOn_perm id _).cons _).trans hperm
  · intro k
    simp only [mergeComponent, count_sumCounts, List.map_map]
    rfl
  · intro k
    simp only [mergeComponent, count_sumCounts, List.map_map]
    rfl
  · intro k
    simp only [mergeComponent, count_sumCounts, List.map_map]
    rfl
  · have hperm := (List.perm_cons_erase hmem).flatMap_right ClusterData.logEntryIds
    rw [List.flatMap_cons] at hperm
    exact hperm.symm

/-- A non-empty component collapses into one cluster that stands for it. -/
theorem exists_collapsed (s : Scoring K) {g : List (ClusterData K)} (hne : g ≠ [])
    (hfp : (g.map ClusterData.fingerprint).Nodup)
    (hmerged : ∀ c ∈ g, c.mergedFingerprints = []) :
    ∃ m, collapse s g = [m] ∧ Collapsed g m := by
  match g with
  | [c] => exact ⟨c, rfl, collapsed_single (hmerged c (List.mem_singleton_self c))⟩
  | c :: d :: rest => exact ⟨_, rfl, collapsed_mergeComponent s hfp⟩

/-! A component in two orders. -/

/-- A cluster seen without the order of its row ids and of its levels. -/
abbrev ClusterView (K : Type) := ClusterData K × Multiset EntryId × Multiset String

def view (c : ClusterData K) : ClusterView K :=
  ({ c with logEntryIds := [], levelOrder := [] }, c.logEntryIds, c.levelOrder)

/-- The same without the importance. -/
def outline (c : ClusterData K) : ClusterView K := view { c with importanceScore := 0 }

omit [LinearOrder K] in
theorem outline_eq_of_view {c c' : ClusterData K} (h : view c = view c') :
    outline c = outline c' :=
  congrArg (fun v : ClusterView K => ({ v.1 with importanceScore := 0 }, v.2)) h

omit [LinearOrder K] in
/-- Whether the severity is settled can be seen from the outline. -/
theorem sumSettled_of_outline {s : Scoring K} {c c' : ClusterData K} (h : outline c = outline c')
    (hsettled : SumSettled s c) : SumSettled s c' := by
  have hlevels : c.levels = c'.levels := congrArg (fun v : ClusterView K => v.1.levels) h
  have horder : c.levelOrder.Perm c'.levelOrder :=
    Multiset.coe_eq_coe.mp (congrArg (fun v : ClusterView K => v.2.2) h)
  intro order hperm
  rw [← hlevels, hsettled order (hperm.trans horder.symm), hsettled c'.levelOrder horder.symm]

omit [ScoreArithmetic K] [LinearOrder K] in
/-- What is read of the views is the same, up to the order. -/
theorem perm_of_views {β : Type*} {g g' : List (ClusterData K)}
    (h : (g.map view).Perm (g'.map view)) (f : ClusterView K → β) :
    (g.map fun c => f (view c)).Perm (g'.map fun c => f (view c)) := by
  have hmap := h.map f
  rwa [List.map_map, List.map_map] at hmap

omit [ScoreArithmetic K] [LinearOrder K] in
theorem coe_flatMap_ids (g : List (ClusterData K)) :
    ((g.flatMap ClusterData.logEntryIds : List EntryId) : Multiset EntryId) =
      (g.map fun c => (view c).2.1).sum := by
  induction g with
  | nil => rfl
  | cons c g ih =>
    rw [List.flatMap_cons, ← Multiset.coe_add, ih, List.map_cons, List.sum_cons]
    rfl

/-- The entries of a sum of counts are the same, up to the order. -/
theorem sumOrder_perm {orders orders' : List (List String)}
    (h : ∀ k, (∃ o ∈ orders, k ∈ o) ↔ ∃ o ∈ orders', k ∈ o) :
    (sumOrder orders).Perm (sumOrder orders') := by
  unfold sumOrder
  rw [List.perm_ext_iff_of_nodup (fromKeys_nodup _) (fromKeys_nodup _)]
  intro k
  rw [mem_fromKeys, mem_fromKeys, List.mem_flatten, List.mem_flatten]
  exact h k

omit [ScoreArithmetic K] [LinearOrder K] in
/-- The levels of the members are those of another listing, in some order. -/
theorem sumOrder_levels_perm {g g' : List (ClusterData K)}
    (h : (g.map view).Perm (g'.map view)) :
    (sumOrder (g.map ClusterData.levelOrder)).Perm (sumOrder (g'.map ClusterData.levelOrder)) := by
  have hseen : ∀ {l l' : List (ClusterData K)}, (l.map view).Perm (l'.map view) → ∀ k,
      (∃ o ∈ l.map ClusterData.levelOrder, k ∈ o) → ∃ o ∈ l'.map ClusterData.levelOrder, k ∈ o := by
    rintro l l' hviews k ⟨o, ho, hk⟩
    obtain ⟨c, hc, rfl⟩ := List.mem_map.mp ho
    obtain ⟨c', hc', hview⟩ := List.mem_map.mp (hviews.mem_iff.mp (List.mem_map_of_mem hc))
    have hsame : c'.levelOrder.Perm c.levelOrder :=
      Multiset.coe_eq_coe.mp (congrArg (fun v : ClusterView K => v.2.2) hview)
    exact ⟨_, List.mem_map_of_mem hc', hsame.mem_iff.mpr hk⟩
  exact sumOrder_perm fun k => ⟨hseen h k, hseen h.symm k⟩

omit [ScoreArithmetic K] [LinearOrder K] in
/-- The fingerprints besides one are those of another listing. -/
theorem sortOn_others_eq {g g' : List (ClusterData K)} (h : (g.map view).Perm (g'.map view))
    (fp : String) :
    sortOn id ((g.filter (fun m => m.fingerprint ≠ fp)).map ClusterData.fingerprint) =
      sortOn id ((g'.filter (fun m => m.fingerprint ≠ fp)).map ClusterData.fingerprint) := by
  have hfingerprints : (g.map ClusterData.fingerprint).Perm (g'.map ClusterData.fingerprint) :=
    perm_of_views h fun v => v.1.fingerprint
  have hothers := hfingerprints.filter (fun name => name ≠ fp)
  rw [List.filter_map, List.filter_map] at hothers
  exact sortOn_eq_of_perm id hothers (fun _ _ _ _ heq => heq)

/-- The row ids of a merged cluster are those of its members. -/
theorem coe_ids_mergeComponent (s : Scoring K) {first : ClusterData K}
    {others : List (ClusterData K)}
    (hfp : ((first :: others).map ClusterData.fingerprint).Nodup) :
    ((mergeComponent s first others).logEntryIds : Multiset EntryId) =
      ((first :: others).map fun c => (view c).2.1).sum := by
  rw [← coe_flatMap_ids]
  exact Multiset.coe_eq_coe.mpr (collapsed_mergeComponent s hfp).ids_perm

omit [ScoreArithmetic K] in
/-- The canonical members of two listings are seen as one. -/
theorem view_canonical {first first' : ClusterData K} {others others' : List (ClusterData K)}
    (hperm : ((first :: others).map view).Perm ((first' :: others').map view))
    (hfp : ((first :: others).map ClusterData.fingerprint).Nodup) :
    view (minOn canonicalKey first others) = view (minOn canonicalKey first' others') := by
  have hkey : ∀ {c c' : ClusterData K}, view c = view c' → canonicalKey c = canonicalKey c' :=
    fun h => congrArg (fun v : ClusterView K => canonicalKey v.1) h
  have hmem := minOn_mem canonicalKey first others
  have hmem' := minOn_mem canonicalKey first' others'
  obtain ⟨c, hc, hview⟩ := List.mem_map.mp (hperm.mem_iff.mpr (List.mem_map_of_mem hmem'))
  obtain ⟨c', hc', hview'⟩ := List.mem_map.mp (hperm.mem_iff.mp (List.mem_map_of_mem hmem))
  have hle : canonicalKey (minOn canonicalKey first others) ≤ canonicalKey c :=
    minOn_le canonicalKey first others hc
  have hge : canonicalKey (minOn canonicalKey first' others') ≤ canonicalKey c' :=
    minOn_le canonicalKey first' others' hc'
  have heq : minOn canonicalKey first others = c := by
    refine canonical_separates hfp _ hmem c hc (le_antisymm hle ?_)
    rw [hkey hview, ← hkey hview']
    exact hge
  rw [heq, hview]

/-- The merged cluster of another listing differs at most in its importance, and not in that
if its severity is settled. -/
theorem view_mergeComponent (s : Scoring K) {first first' : ClusterData K}
    {others others' : List (ClusterData K)}
    (hperm : ((first :: others).map view).Perm ((first' :: others').map view))
    (hfp : ((first :: others).map ClusterData.fingerprint).Nodup) :
    outline (mergeComponent s first others) = outline (mergeComponent s first' others') ∧
      (SumSettled s (mergeComponent s first others) →
        view (mergeComponent s first others) = view (mergeComponent s first' others')) := by
  have hcanonical := view_canonical hperm hfp
  have hmessage : (minOn canonicalKey first others).representativeMessage =
      (minOn canonicalKey first' others').representativeMessage :=
    congrArg (fun v : ClusterView K => v.1.representativeMessage) hcanonical
  have hname : (minOn canonicalKey first others).fingerprint =
      (minOn canonicalKey first' others').fingerprint :=
    congrArg (fun v : ClusterView K => v.1.fingerprint) hcanonical
  have hcount : ((first :: others).map ClusterData.count).sum =
      ((first' :: others').map ClusterData.count).sum :=
    (perm_of_views hperm fun v => v.1.count).sum_eq
  have hbaseline : ((first :: others).map ClusterData.baselineCount).sum =
      ((first' :: others').map ClusterData.baselineCount).sum :=
    (perm_of_views hperm fun v => v.1.baselineCount).sum_eq
  have hservices : sumCounts ((first :: others).map ClusterData.services) =
      sumCounts ((first' :: others').map ClusterData.services) :=
    sumCounts_perm (perm_of_views hperm fun v => v.1.services)
  have hlevels : sumCounts ((first :: others).map ClusterData.levels) =
      sumCounts ((first' :: others').map ClusterData.levels) :=
    sumCounts_perm (perm_of_views hperm fun v => v.1.levels)
  have herrors : sumCounts ((first :: others).map ClusterData.errorServiceCounts) =
      sumCounts ((first' :: others').map ClusterData.errorServiceCounts) :=
    sumCounts_perm (perm_of_views hperm fun v => v.1.errorServiceCounts)
  have hfingerprints : ((first :: others).map ClusterData.fingerprint).Perm
      ((first' :: others').map ClusterData.fingerprint) :=
    perm_of_views hperm fun v => v.1.fingerprint
  have htrigger : (first :: others).any ClusterData.isTrigger =
      (first' :: others').any ClusterData.isTrigger := by
    have hflags := (perm_of_views hperm fun v => v.1.isTrigger).mem_iff (a := true)
    rw [Bool.eq_iff_iff, List.any_eq_true, List.any_eq_true]
    simpa [List.mem_map, view] using hflags
  have hfirst : ((first :: others).filterMap ClusterData.firstSeen).min? =
      ((first' :: others').filterMap ClusterData.firstSeen).min? := by
    have htimes := (perm_of_views hperm fun v => v.1.firstSeen).filterMap id
    rw [List.filterMap_map, List.filterMap_map] at htimes
    exact min?_eq_of_perm htimes
  have hlast : ((first :: others).filterMap ClusterData.lastSeen).max? =
      ((first' :: others').filterMap ClusterData.lastSeen).max? := by
    have htimes := (perm_of_views hperm fun v => v.1.lastSeen).filterMap id
    rw [List.filterMap_map, List.filterMap_map] at htimes
    exact max?_eq_of_perm htimes
  have hmerged := sortOn_others_eq hperm (minOn canonicalKey first' others').fingerprint
  have hids : ((mergeComponent s first others).logEntryIds : Multiset EntryId) =
      (mergeComponent s first' others').logEntryIds := by
    rw [coe_ids_mergeComponent s hfp,
      coe_ids_mergeComponent s (hfingerprints.nodup_iff.mp hfp)]
    exact (perm_of_views hperm fun v => v.2.1).sum_eq
  have horder := sumOrder_levels_perm hperm
  have hview : ∀ x : K, view { mergeComponent s first others with importanceScore := x } =
      view { mergeComponent s first' others' with importanceScore := x } := by
    intro x
    refine Prod.ext ?_ (Prod.ext hids (Multiset.coe_eq_coe.mpr horder))
    simp only [view, mergeComponent, hmessage, hmerged, hname, hcount, hbaseline, hservices,
      hlevels, herrors, htrigger, hfirst, hlast]
  refine ⟨hview 0, fun hsettled => ?_⟩
  have hseverity := hsettled _ horder.symm
  have himportance : (mergeComponent s first others).importanceScore =
      (mergeComponent s first' others').importanceScore := by
    simp only [mergeComponent] at hseverity
    simp only [mergeComponent, hmessage, hcount, hbaseline, hservices, hlevels, htrigger,
      Scoring.computeImportanceScore] at hseverity ⊢
    rw [hseverity]
  calc view (mergeComponent s first others)
      = view { mergeComponent s first' others' with
          importanceScore := (mergeComponent s first others).importanceScore } := hview _
    _ = view (mergeComponent s first' others') := by rw [himportance]

/-- The severity of every cluster is settled. -/
def AllSettled (s : Scoring K) (l : List (ClusterData K)) : Prop := ∀ c ∈ l, SumSettled s c

/-- What a component collapses into does not depend on how it is listed. -/
theorem view_collapse (s : Scoring K) {g g' : List (ClusterData K)}
    (hperm : (g.map view).Perm (g'.map view)) (hfp : (g.map ClusterData.fingerprint).Nodup) :
    (collapse s g).map outline = (collapse s g').map outline ∧
      (AllSettled s (collapse s g) → (collapse s g).map view = (collapse s g').map view) := by
  match g, g' with
  | [], [] => exact ⟨rfl, fun _ => rfl⟩
  | [c], [c'] =>
    have hview : view c = view c' := List.singleton_perm_singleton.mp hperm
    exact ⟨congrArg (fun v => [v]) (outline_eq_of_view hview),
      fun _ => congrArg (fun v => [v]) hview⟩
  | c :: d :: rest, c' :: d' :: rest' =>
    obtain ⟨houtline, hview⟩ := view_mergeComponent s hperm hfp
    exact ⟨congrArg (fun v => [v]) houtline, fun hsettled =>
      congrArg (fun v => [v]) (hview (hsettled _ (List.mem_singleton_self _)))⟩
  | [], _ :: _ => exact absurd hperm.length_eq (by simp)
  | _ :: _, [] => exact absurd hperm.length_eq (by simp)
  | [_], _ :: _ :: _ => exact absurd hperm.length_eq (by simp)
  | _ :: _ :: _, [_] => exact absurd hperm.length_eq (by simp)

/-! The scan of the pairs. -/

/-- Connected by links between listed clusters. -/
def Connected (similarity : List K → List K → K) (threshold : K) (minCount : ℤ)
    (members : List (ClusterData K × List K)) (p q : ClusterData K × List K) : Prop :=
  Relation.EqvGen (fun p q => p ∈ members ∧ q ∈ members ∧
    linked similarity threshold minCount p q = true) p q

section Scan

variable {similarity : List K → List K → K} {threshold : K} {minCount : ℤ}
  {members : List (ClusterData K × List K)}

theorem linked_symm (hsymm : ∀ u v, similarity u v = similarity v u)
    {p q : ClusterData K × List K} (h : linked similarity threshold minCount p q = true) :
    linked similarity threshold minCount q p = true := by
  simp only [linked, Bool.and_eq_true, decide_eq_true_eq] at h ⊢
  exact ⟨⟨h.1.2, h.1.1⟩, hsymm p.2 q.2 ▸ h.2⟩

theorem connected_mem_iff {p q : ClusterData K × List K}
    (h : Connected similarity threshold minCount members p q) : p ∈ members ↔ q ∈ members := by
  induction h with
  | rel p q h => exact iff_of_true h.1 h.2.1
  | refl => exact Iff.rfl
  | symm _ _ _ ih => exact ih.symm
  | trans _ _ _ _ _ ih₁ ih₂ => exact ih₁.trans ih₂

/-- The pairs of indices that the scan joins generate connectedness of the clusters. -/
theorem eqvGen_pairs_iff (hsymm : ∀ u v, similarity u v = similarity v u) (hnd : members.Nodup)
    (i j : Fin members.length) :
    Relation.EqvGen (fun i j => (i, j) ∈ pairs (List.finRange members.length) ∧
      linked similarity threshold minCount (members.get i) (members.get j) = true) i j ↔
    Connected similarity threshold minCount members (members.get i) (members.get j) := by
  constructor
  · intro h
    induction h with
    | rel i j h =>
      exact Relation.EqvGen.rel _ _ ⟨members.get_mem i, members.get_mem j, h.2⟩
    | refl i => exact Relation.EqvGen.refl _
    | symm _ _ _ ih => exact ih.symm _ _
    | trans _ _ _ _ _ ih₁ ih₂ => exact ih₁.trans _ _ _ ih₂
  · intro h
    have hinj : Function.Injective members.get := List.nodup_iff_injective_get.mp hnd
    generalize hp : members.get i = p at h
    generalize hq : members.get j = q at h
    induction h generalizing i j with
    | rel p q h =>
      subst hp hq
      by_cases hij : i = j
      · rw [hij]
        exact Relation.EqvGen.refl j
      · rcases mem_pairs_or (List.mem_finRange i) (List.mem_finRange j) hij with hmem | hmem
        · exact Relation.EqvGen.rel _ _ ⟨hmem, h.2.2⟩
        · exact (Relation.EqvGen.rel _ _ ⟨hmem, linked_symm hsymm h.2.2⟩).symm _ _
    | refl p =>
      rw [hinj (hp.trans hq.symm)]
      exact Relation.EqvGen.refl j
    | symm p q _ ih => exact (ih j i hq hp).symm _ _
    | trans p r q hpr _ ih₁ ih₂ =>
      have hr : r ∈ members := (connected_mem_iff hpr).mp (hp ▸ members.get_mem i)
      obtain ⟨k, hk⟩ := List.mem_iff_get.mp hr
      exact (ih₁ i k hp hk).trans _ _ _ (ih₂ k j hk hq)

variable (threshold minCount) in
/-- The scan cuts the clusters into the components of their links, and collapses each. -/
theorem mergeItems_components (s : Scoring K) (hsymm : ∀ u v, similarity u v = similarity v u)
    (hnd : members.Nodup) :
    ∃ groups, ComponentsOf (Connected similarity threshold minCount members) members groups ∧
      mergeItems s similarity threshold minCount members =
        groups.flatMap (fun g => collapse s (g.map Prod.fst)) := by
  have hinj : Function.Injective members.get := List.nodup_iff_injective_get.mp hnd
  set nodes := List.finRange members.length with hnodes
  set scan := Forest.unionAll
    (fun p => linked similarity threshold minCount (members.get p.1) (members.get p.2))
    Forest.discrete (pairs nodes) with hscan
  have hroot : ∀ i j, scan.1.root i = scan.1.root j ↔
      Connected similarity threshold minCount members (members.get i) (members.get j) := by
    intro i j
    rw [← eqvGen_pairs_iff hsymm hnd]
    exact Forest.unionAll_represents _ _ i j
  have hitems : mergeItems s similarity threshold minCount members =
      if scan.2 then
        (sortOn (fun p => ((p.2.map Fin.val).min?).getD 0) (scan.1.components nodes)).flatMap
          (fun p => collapse s (p.2.map (fun i => (members.get i).1)))
      else members.map Prod.fst := rfl
  rw [hitems]
  cases hmerged : scan.2 with
  | true =>
    rw [if_pos rfl, Forest.components_eq]
    set ordered := sortOn (fun p : Fin members.length × List (Fin members.length) =>
      ((p.2.map Fin.val).min?).getD 0) (groupOn scan.1.root nodes) with hordered
    have hcut := (ComponentsOf.of_groupOn scan.1.root nodes).of_perm
      ((sortOn_perm (fun p : Fin members.length × List (Fin members.length) =>
        ((p.2.map Fin.val).min?).getD 0) (groupOn scan.1.root nodes)).map Prod.snd)
    have hmap := hcut.map members.get hinj (fun i _ j _ => hroot i j)
    rw [List.map_get_finRange] at hmap
    refine ⟨_, hmap, ?_⟩
    rw [← hordered, List.flatMap_map, List.flatMap_map]
    simp only [List.map_map]
    rfl
  | false =>
    rw [if_neg Bool.false_ne_true]
    have hfixed := (Forest.root_of_not_merged (pairs nodes) hmerged).2
    refine ⟨members.map (fun p => [p]), ComponentsOf.singletons ?_, ?_⟩
    · intro p hp q hq
      obtain ⟨i, rfl⟩ := List.mem_iff_get.mp hp
      obtain ⟨j, rfl⟩ := List.mem_iff_get.mp hq
      rw [← hroot]
      have hi : scan.1.root i = i := by
        rw [hscan]
        exact (hfixed i).trans (Forest.root_discrete i)
      have hj : scan.1.root j = j := by
        rw [hscan]
        exact (hfixed j).trans (Forest.root_discrete j)
      rw [hi, hj]
      exact ⟨fun h => by rw [h], fun h => hinj h⟩
    · rw [List.flatMap_map]
      exact (List.map_eq_flatMap : members.map Prod.fst = _)

/-- Connectedness looks at which clusters are listed, not at where. -/
theorem connected_congr {members' : List (ClusterData K × List K)}
    (hperm : members'.Perm members) (p q : ClusterData K × List K) :
    Connected similarity threshold minCount members' p q ↔
      Connected similarity threshold minCount members p q := by
  unfold Connected
  simp only [hperm.mem_iff]

/-- Another order of the clusters gives the same clusters in some order, as far as what is
seen of a component does not depend on its order. -/
theorem map_mergeItems_perm {β : Type*} (s : Scoring K) (see : ClusterData K → β)
    (hsymm : ∀ u v, similarity u v = similarity v u)
    (hfp : (members.map (fun p => p.1.fingerprint)).Nodup)
    (hsee : ∀ g : List (ClusterData K), (g.map ClusterData.fingerprint).Nodup →
      collapse s g ⊆ mergeItems s similarity threshold minCount members →
      ∀ g' : List (ClusterData K), g'.Perm g → (collapse s g').map see = (collapse s g).map see)
    {members' : List (ClusterData K × List K)} (hperm : members'.Perm members) :
    ((mergeItems s similarity threshold minCount members').map see).Perm
      ((mergeItems s similarity threshold minCount members).map see) := by
  have hnd : members.Nodup := hfp.of_map _
  have hnd' : members'.Nodup := hperm.nodup_iff.mpr hnd
  obtain ⟨groups, hgroups, heq⟩ := mergeItems_components threshold minCount s hsymm hnd
  obtain ⟨groups', hgroups', heq'⟩ := mergeItems_components threshold minCount s hsymm hnd'
  rw [heq] at hsee
  rw [heq, heq', List.map_flatMap, List.map_flatMap, List.flatMap_def, List.flatMap_def]
  refine List.Perm.flatten (hgroups.map_perm hnd (hgroups'.congr (connected_congr hperm))
    hperm.symm (fun g => (collapse s (g.map Prod.fst)).map see) ?_).symm
  intro g hg g' hgg
  refine hsee (g.map Prod.fst) ?_ (fun c hc => List.mem_flatMap.mpr ⟨g, hg, hc⟩) _
    (hgg.map Prod.fst)
  have hsub : g.Sublist groups.flatten := List.sublist_flatten_of_mem hg
  have hflat := (hgroups.flatten_perm.map (fun p => p.1.fingerprint)).nodup_iff.mpr hfp
  rw [List.map_map]
  exact hflat.sublist (hsub.map _)

omit [ScoreArithmetic K] [LinearOrder K] in
theorem exists_listed {α β : Type*} {f : α → β} {l : List α} {out : List β}
    (h : out.Perm (l.map f)) : ∃ l' : List α, l'.Perm l ∧ l'.map f = out := by
  have hcomp := congrFun (congrFun (List.eq_map_comp_perm f) out) l
  obtain ⟨l', rfl, hperm⟩ := hcomp.mpr h
  exact ⟨l', hperm, rfl⟩

/-- A cluster and its embedding, seen without the order of ids and levels. -/
def seen (p : ClusterData K × List K) : ClusterView K × List K := (view p.1, p.2)

variable (similarity threshold minCount) in
/-- The scan of some members that are listed by a function. -/
theorem mergeItems_eq_scan (s : Scoring K) {n : ℕ} (hlength : members.length = n)
    {m : Fin n → ClusterData K × List K} (hm : ∀ i, members.get (i.cast hlength.symm) = m i) :
    mergeItems s similarity threshold minCount members =
      let scan := Forest.unionAll
        (fun p => linked similarity threshold minCount (m p.1) (m p.2))
        Forest.discrete (pairs (List.finRange n))
      if scan.2 then
        (sortOn (fun p => ((p.2.map Fin.val).min?).getD 0)
          (scan.1.components (List.finRange n))).flatMap
            (fun p => collapse s (p.2.map (fun i => (m i).1)))
      else (List.finRange n).flatMap (fun i => collapse s [(m i).1]) := by
  subst hlength
  obtain rfl : members.get = m := funext hm
  have hfst : (List.finRange members.length).flatMap (fun i => collapse s [(members.get i).1]) =
      members.map Prod.fst := by
    have hone : (fun i : Fin members.length => collapse s [(members.get i).1]) =
        fun i => [(members.get i).1] := rfl
    have hget := congrArg (List.map Prod.fst) (List.map_get_finRange members)
    rw [List.map_map] at hget
    rw [hone, ← List.map_eq_flatMap]
    exact hget
  rw [hfst]
  rfl

omit [ScoreArithmetic K] [LinearOrder K] in
theorem flatMap_eq_of_views {β : Type*} {see : List (ClusterData K) → List β}
    {groups groups' : List (List (ClusterData K))}
    (h : groups.map (List.map view) = groups'.map (List.map view))
    (hsee : ∀ g ∈ groups, ∀ g' : List (ClusterData K), g.map view = g'.map view →
      see g = see g') : groups.flatMap see = groups'.flatMap see := by
  induction groups generalizing groups' with
  | nil => rw [List.map_eq_nil_iff.mp h.symm]
  | cons g groups ih =>
    obtain ⟨g', rest, rfl, hg, hrest⟩ := List.map_eq_cons_iff.mp h.symm
    rw [List.forall_mem_cons] at hsee
    rw [List.flatMap_cons, List.flatMap_cons, hsee.1 g' hg.symm, ih hrest.symm hsee.2]

variable (similarity threshold minCount) in
/-- Members that are seen alike are merged alike. -/
theorem mergeItems_of_seen (s : Scoring K) {members' : List (ClusterData K × List K)}
    (h : members.map seen = members'.map seen) :
    ∃ groups groups' : List (List (ClusterData K)),
      mergeItems s similarity threshold minCount members = groups.flatMap (collapse s) ∧
      mergeItems s similarity threshold minCount members' = groups'.flatMap (collapse s) ∧
      groups.map (List.map view) = groups'.map (List.map view) ∧
      ∀ g ∈ groups, g.Sublist (members.map Prod.fst) := by
  have hlength : members'.length = members.length := by
    simpa using (congrArg List.length h).symm
  set m := members.get with hm
  set m' : Fin members.length → ClusterData K × List K :=
    fun i => members'.get (i.cast hlength.symm) with hm'
  have hseen : ∀ i, seen (m i) = seen (m' i) := by
    intro i
    have hi : (i : ℕ) < members'.length := hlength.symm ▸ i.isLt
    have hget := congrArg (fun l => l[(i : ℕ)]?) h
    rw [List.getElem?_map, List.getElem?_map, List.getElem?_eq_getElem i.isLt,
      List.getElem?_eq_getElem hi, Option.map_some, Option.map_some, Option.some_inj] at hget
    exact hget
  have hview : ∀ i, view (m i).1 = view (m' i).1 := fun i => congrArg Prod.fst (hseen i)
  have hlinked : (fun q : Fin members.length × Fin members.length =>
      linked similarity threshold minCount (m q.1) (m q.2)) =
      fun q => linked similarity threshold minCount (m' q.1) (m' q.2) := by
    have heligible : ∀ i, isMergeEligible (m i).1 (m i).2 minCount =
        isMergeEligible (m' i).1 (m' i).2 minCount := fun i =>
      congrArg (fun v : ClusterView K × List K => isMergeEligible v.1.1 v.2 minCount) (hseen i)
    have hvector : ∀ i, (m i).2 = (m' i).2 := fun i =>
      congrArg (fun v : ClusterView K × List K => v.2) (hseen i)
    funext q
    unfold linked
    rw [heligible, heligible, hvector, hvector]
  have hfirst := mergeItems_eq_scan similarity threshold minCount s rfl (m := m) fun i => rfl
  have hsecond := mergeItems_eq_scan similarity threshold minCount s hlength (m := m')
    fun i => rfl
  rw [← hlinked] at hsecond
  have hall : (List.finRange members.length).map (fun i => (m i).1) = members.map Prod.fst := by
    have hget := congrArg (List.map Prod.fst) (List.map_get_finRange members)
    rwa [List.map_map] at hget
  rw [hfirst, hsecond]
  set scan := Forest.unionAll
    (fun q : Fin members.length × Fin members.length =>
      linked similarity threshold minCount (m q.1) (m q.2))
    Forest.discrete (pairs (List.finRange members.length)) with hscan
  set ordered := sortOn (fun p : Fin members.length × List (Fin members.length) =>
    ((p.2.map Fin.val).min?).getD 0) (scan.1.components (List.finRange members.length))
    with hordered
  dsimp only
  split
  · refine ⟨ordered.map fun p => p.2.map fun i => (m i).1,
      ordered.map fun p => p.2.map fun i => (m' i).1, ?_, ?_, ?_, ?_⟩
    · rw [List.flatMap_map]
    · rw [List.flatMap_map]
    · simp only [List.map_map, Function.comp_def, hview]
    · intro g hg
      obtain ⟨⟨root, p⟩, hp, rfl⟩ := List.mem_map.mp hg
      rw [hordered, mem_sortOn, Forest.components_eq, mem_groupOn] at hp
      rw [← hall, hp.1]
      exact List.filter_sublist.map _
  · refine ⟨(List.finRange members.length).map fun i => [(m i).1],
      (List.finRange members.length).map fun i => [(m' i).1], ?_, ?_, ?_, ?_⟩
    · rw [List.flatMap_map]
    · rw [List.flatMap_map]
    · simp only [List.map_map, Function.comp_def, List.map_cons, List.map_nil, hview]
    · intro g hg
      obtain ⟨i, hi, rfl⟩ := List.mem_map.mp hg
      rw [← hall]
      exact List.singleton_sublist.mpr (List.mem_map_of_mem hi)

/-- Another listing of the clusters gives the same clusters in some order, but for their
importance, and for that too if every severity is settled. -/
theorem view_mergeItems_perm (s : Scoring K) (hsymm : ∀ u v, similarity u v = similarity v u)
    (hfp : (members.map (fun p => p.1.fingerprint)).Nodup)
    {members' : List (ClusterData K × List K)}
    (hperm : (members'.map seen).Perm (members.map seen)) :
    ((mergeItems s similarity threshold minCount members').map outline).Perm
        ((mergeItems s similarity threshold minCount members).map outline) ∧
      (AllSettled s (mergeItems s similarity threshold minCount members) →
        ((mergeItems s similarity threshold minCount members').map view).Perm
          ((mergeItems s similarity threshold minCount members).map view)) := by
  obtain ⟨listed, hlisted, hmap⟩ := exists_listed hperm
  obtain ⟨groups, groups', heq, heq', hgroups, hsub⟩ := mergeItems_of_seen similarity threshold
    minCount s hmap
  have hnames : ∀ g ∈ groups, (g.map ClusterData.fingerprint).Nodup := by
    intro g hg
    have hlist := (hlisted.map fun p => p.1.fingerprint).nodup_iff.mpr hfp
    rw [← Function.comp_def, ← List.map_map] at hlist
    exact hlist.sublist ((hsub g hg).map _)
  have houtline : ((mergeItems s similarity threshold minCount listed).map outline).Perm
      ((mergeItems s similarity threshold minCount members).map outline) :=
    map_mergeItems_perm s outline hsymm hfp (fun g hg _ g' hperm =>
      (view_collapse s (hperm.symm.map view) hg).1.symm) hlisted
  constructor
  · have hsame : groups.flatMap (fun g => (collapse s g).map outline) =
        groups'.flatMap (fun g => (collapse s g).map outline) :=
      flatMap_eq_of_views hgroups fun g hg g' h => (view_collapse s (.of_eq h) (hnames g hg)).1
    rwa [heq', List.map_flatMap, ← hsame, ← List.map_flatMap, ← heq]
  · intro hsettled
    have hviews : ((mergeItems s similarity threshold minCount listed).map view).Perm
        ((mergeItems s similarity threshold minCount members).map view) :=
      map_mergeItems_perm s view hsymm hfp (fun g hg hcollapse g' hperm =>
        ((view_collapse s (hperm.symm.map view) hg).2
          fun c hc => hsettled c (hcollapse hc)).symm) hlisted
    have hlistedSettled : AllSettled s (mergeItems s similarity threshold minCount listed) := by
      intro c hc
      obtain ⟨c', hc', hsame⟩ := List.mem_map.mp (houtline.mem_iff.mp (List.mem_map_of_mem hc))
      exact sumSettled_of_outline hsame (hsettled c' hc')
    rw [heq] at hlistedSettled
    have hsame : groups.flatMap (fun g => (collapse s g).map view) =
        groups'.flatMap (fun g => (collapse s g).map view) :=
      flatMap_eq_of_views hgroups fun g hg g' h =>
        (view_collapse s (.of_eq h) (hnames g hg)).2 fun c hc =>
          hlistedSettled c (List.mem_flatMap.mpr ⟨g, hg, hc⟩)
    rwa [heq', List.map_flatMap, ← hsame, ← List.map_flatMap, ← heq]


/-- The importance of a merged cluster is computed anew. -/
theorem mergeItems_scored (s : Scoring K) (hsymm : ∀ u v, similarity u v = similarity v u)
    (hnd : members.Nodup) {c : ClusterData K}
    (hc : c ∈ mergeItems s similarity threshold minCount members) :
    c ∈ members.map Prod.fst ∨ c.importanceScore = s.importanceOf c := by
  obtain ⟨groups, hgroups, heq⟩ := mergeItems_components threshold minCount s hsymm hnd
  rw [heq, List.mem_flatMap] at hc
  obtain ⟨g, hg, hc⟩ := hc
  match hmatch : g.map Prod.fst with
  | [] =>
    rw [hmatch] at hc
    cases hc
  | [d] =>
    rw [hmatch] at hc
    obtain rfl := List.mem_singleton.mp hc
    left
    have hmem : c ∈ g.map Prod.fst := by
      rw [hmatch]
      exact List.mem_singleton_self c
    obtain ⟨p, hp, rfl⟩ := List.mem_map.mp hmem
    exact List.mem_map_of_mem (hgroups.mem_of_mem hg hp)
  | d :: d' :: rest =>
    rw [hmatch] at hc
    obtain rfl := List.mem_singleton.mp hc
    exact Or.inr rfl

end Scan

/-! What a merge conserves. -/

/-- The totals, the rows and the fingerprints of the clusters are those of the result. -/
structure Conserves (clusters out : List (ClusterData K)) : Prop where
  count_eq : (out.map ClusterData.count).sum = (clusters.map ClusterData.count).sum
  baselineCount_eq :
    (out.map ClusterData.baselineCount).sum = (clusters.map ClusterData.baselineCount).sum
  services_eq : ∀ k, (out.map (fun c => count c.services k)).sum =
    (clusters.map (fun c => count c.services k)).sum
  levels_eq : ∀ k, (out.map (fun c => count c.levels k)).sum =
    (clusters.map (fun c => count c.levels k)).sum
  errors_eq : ∀ k, (out.map (fun c => count c.errorServiceCounts k)).sum =
    (clusters.map (fun c => count c.errorServiceCounts k)).sum
  ids_perm : (out.flatMap ClusterData.logEntryIds).Perm
    (clusters.flatMap ClusterData.logEntryIds)
  fingerprints_perm : (out.flatMap (fun c => c.fingerprint :: c.mergedFingerprints)).Perm
    (clusters.map ClusterData.fingerprint)

omit [ScoreArithmetic K] [LinearOrder K] in
theorem conserves_of_collapsed {clusters : List (ClusterData K)}
    {groups : List (List (ClusterData K))} {out : List (ClusterData K)}
    (hperm : groups.flatten.Perm clusters) (h : List.Forall₂ Collapsed groups out) :
    Conserves clusters out where
  count_eq := by
    rw [sum_of_forall₂ (h.imp fun _ _ hm => hm.count_eq), (hperm.map _).sum_eq]
  baselineCount_eq := by
    rw [sum_of_forall₂ (h.imp fun _ _ hm => hm.baselineCount_eq), (hperm.map _).sum_eq]
  services_eq := by
    intro k
    rw [sum_of_forall₂ (h.imp fun _ _ hm => hm.services_eq k), (hperm.map _).sum_eq]
  levels_eq := by
    intro k
    rw [sum_of_forall₂ (h.imp fun _ _ hm => hm.levels_eq k), (hperm.map _).sum_eq]
  errors_eq := by
    intro k
    rw [sum_of_forall₂ (h.imp fun _ _ hm => hm.errors_eq k), (hperm.map _).sum_eq]
  ids_perm :=
    (flatMap_perm_of_forall₂ (h.imp fun _ _ hm => hm.ids_perm)).trans (hperm.flatMap_right _)
  fingerprints_perm := by
    have hflat := flatMap_perm_of_forall₂ (e := fun c : ClusterData K => [c.fingerprint])
      (h.imp fun _ _ hm => List.map_eq_flatMap ▸ hm.fingerprints)
    rw [← List.map_eq_flatMap] at hflat
    exact hflat.trans (hperm.map _)

theorem mergeItems_collapsed (s : Scoring K) {similarity : List K → List K → K}
    (threshold : K) (minCount : ℤ) {members : List (ClusterData K × List K)}
    (hsymm : ∀ u v, similarity u v = similarity v u)
    (hfp : (members.map (fun p => p.1.fingerprint)).Nodup)
    (hmerged : ∀ p ∈ members, p.1.mergedFingerprints = []) :
    ∃ groups, ComponentsOf (Connected similarity threshold minCount members) members groups ∧
      List.Forall₂ (fun g m => Collapsed (g.map Prod.fst) m) groups
        (mergeItems s similarity threshold minCount members) := by
  obtain ⟨groups, hgroups, heq⟩ := mergeItems_components threshold minCount s hsymm (hfp.of_map _)
  refine ⟨groups, hgroups, ?_⟩
  rw [heq]
  refine forall₂_flatMap_of_singletons ?_
  intro g hg
  have hsub : g.Sublist groups.flatten := List.sublist_flatten_of_mem hg
  have hflat := (hgroups.flatten_perm.map (fun p => p.1.fingerprint)).nodup_iff.mpr hfp
  refine exists_collapsed s (by simpa using hgroups.nonempty g hg) ?_ ?_
  · rw [List.map_map]
    exact hflat.sublist (hsub.map _)
  · intro c hc
    obtain ⟨p, hp, rfl⟩ := List.mem_map.mp hc
    exact hmerged p (hgroups.mem_of_mem hg hp)

/-! The pass as a whole. -/

omit [ScoreArithmetic K] [LinearOrder K] in
theorem checkVectors_iff (embeddings : List (List K)) :
    checkVectors embeddings = .ok () ↔
      ∀ u ∈ embeddings, u ≠ [] ∧ ∀ v ∈ embeddings, v.length = u.length := by
  cases embeddings with
  | nil => simp [checkVectors]
  | cons first rest =>
    simp only [checkVectors]
    split
    · rename_i hbad
      refine iff_of_false (by simp) ?_
      intro h
      have hfirst := h first List.mem_cons_self
      rcases hbad with hzero | hany
      · exact hfirst.1 (List.length_eq_zero_iff.mp hzero)
      · obtain ⟨v, hv, hne⟩ := List.any_eq_true.mp hany
        exact of_decide_eq_true hne (hfirst.2 v hv)
    · rename_i hgood
      rw [not_or] at hgood
      have hsame : ∀ v ∈ first :: rest, v.length = first.length := by
        intro v hv
        by_contra hne
        exact hgood.2 (List.any_eq_true.mpr ⟨v, hv, decide_eq_true hne⟩)
      refine iff_of_true rfl ?_
      intro u hu
      refine ⟨?_, fun v hv => (hsame v hv).trans (hsame u hu).symm⟩
      rintro rfl
      exact hgood.1 (hsame [] hu).symm

omit [ScoreArithmetic K] [LinearOrder K] in
theorem checkVectors_congr {embeddings embeddings' : List (List K)}
    (hperm : embeddings'.Perm embeddings) :
    checkVectors embeddings' = .ok () ↔ checkVectors embeddings = .ok () := by
  rw [checkVectors_iff, checkVectors_iff]
  simp only [hperm.mem_iff]

theorem mergeItems_of_length_lt_two (s : Scoring K) (similarity : List K → List K → K)
    (threshold : K) (minCount : ℤ) {members : List (ClusterData K × List K)}
    (hlen : members.length < 2) :
    mergeItems s similarity threshold minCount members = members.map Prod.fst := by
  match members with
  | [] => rfl
  | [p] => rfl
  | _ :: _ :: _ => exact absurd hlen (by simp)

/-- Merging succeeds unless there is something to merge and a vector is bad. -/
theorem mergeSemanticClusters_eq_ok_iff (s : Scoring K) (similarity : List K → List K → K)
    (threshold : K) (minCount : ℤ) (members : List (ClusterData K × List K))
    (out : List (ClusterData K)) :
    mergeSemanticClusters s similarity (members.map Prod.fst) (members.map Prod.snd) threshold
      minCount = .ok out ↔
    (members.length < 2 ∨ checkVectors (members.map Prod.snd) = .ok ()) ∧
      mergeItems s similarity threshold minCount members = out := by
  unfold mergeSemanticClusters
  rw [List.length_map, List.length_map]
  by_cases hlen : members.length < 2
  · rw [if_pos hlen, mergeItems_of_length_lt_two s similarity threshold minCount hlen]
    simp [hlen]
  · rw [if_neg hlen, if_neg (not_not.mpr rfl), ← List.unzip_fst, ← List.unzip_snd,
      List.zip_unzip]
    cases hvectors : checkVectors members.unzip.2 with
    | ok u => simp [hlen, bind, Except.bind, pure, Except.pure]
    | error e => simp [hlen, bind, Except.bind]

/-- The provider works: it is there, it answers, and it gives a vector for every cluster. -/
def Embeds (env : MergeEnvironment K) (clusters : List (ClusterData K))
    (provider : Option (Provider K)) (settings : MergeSettings K)
    (embeddings : List (List K)) : Prop :=
  env.getSettings = .ok settings ∧
  ∃ p, (provider = some p ∨ provider = none ∧ env.getEmbeddingsProvider settings = .ok p) ∧
    p.isAvailable = .ok true ∧
    p.embedTexts (clusters.map ClusterData.representativeMessage) = .ok embeddings ∧
    embeddings.length = clusters.length

omit [ScoreArithmetic K] [LinearOrder K] in
/-- One provider is asked: the one handed over, or else the configured one. -/
theorem provider_unique {env : MergeEnvironment K} {provider : Option (Provider K)}
    {settings : MergeSettings K} {p q : Provider K}
    (hp : provider = some p ∨ provider = none ∧ env.getEmbeddingsProvider settings = .ok p)
    (hq : provider = some q ∨ provider = none ∧ env.getEmbeddingsProvider settings = .ok q) :
    p = q := by
  rcases hp with rfl | ⟨rfl, hget⟩
  · rcases hq with hq | ⟨hq, -⟩
    · exact Option.some.inj hq
    · cases hq
  · rcases hq with hq | ⟨-, hq⟩
    · cases hq
    · exact Except.ok.inj (hget.symm.trans hq)

section Pass

variable (s : Scoring K) (similarity : List K → List K → K) (env : MergeEnvironment K)
  (clusters : List (ClusterData K)) (provider : Option (Provider K))
  (similarityThreshold : Option K) (minCount : Option ℤ)

/-- With a working provider the pass is the merge, unless the merge itself fails. -/
theorem maybeSemanticMerge_of_embeds {settings : MergeSettings K} {embeddings : List (List K)}
    (h : Embeds env clusters provider settings embeddings) (hlen : ¬clusters.length < 2) :
    maybeSemanticMerge s similarity env clusters provider similarityThreshold minCount =
      match mergeSemanticClusters s similarity clusters embeddings
        (similarityThreshold.getD settings.clusterMergeSimilarityThreshold)
        (minCount.getD settings.clusterMergeMinCount) with
      | .ok merged => (merged, true)
      | .error _ => (clusters, false) := by
  obtain ⟨hsettings, p, hprovider, havailable, hembed, hcount⟩ := h
  unfold maybeSemanticMerge tryMerge
  rw [if_neg hlen, hsettings]
  rcases hprovider with rfl | ⟨rfl, hget⟩ <;>
    simp only [bind, Except.bind, pure, Except.pure, *] <;>
    cases mergeSemanticClusters s similarity clusters embeddings
        (similarityThreshold.getD settings.clusterMergeSimilarityThreshold)
        (minCount.getD settings.clusterMergeMinCount) <;> simp

/-- Without a working provider the clusters come back as they were. -/
theorem maybeSemanticMerge_of_not_embeds
    (h : ¬∃ settings embeddings, Embeds env clusters provider settings embeddings) :
    maybeSemanticMerge s similarity env clusters provider similarityThreshold minCount =
      (clusters, false) := by
  unfold maybeSemanticMerge
  split
  · rfl
  cases hsettings : env.getSettings with
  | error e => simp [tryMerge, hsettings, bind, Except.bind]
  | ok settings =>
    have hchoice : (provider = none ∧ ∃ e, env.getEmbeddingsProvider settings = .error e) ∨
        ∃ p, provider = some p ∨
          provider = none ∧ env.getEmbeddingsProvider settings = .ok p := by
      cases provider with
      | some p => exact Or.inr ⟨p, Or.inl rfl⟩
      | none =>
        cases env.getEmbeddingsProvider settings with
        | error e => exact Or.inl ⟨rfl, e, rfl⟩
        | ok p => exact Or.inr ⟨p, Or.inr ⟨rfl, rfl⟩⟩
    rcases hchoice with ⟨rfl, e, he⟩ | ⟨p, hp⟩
    · simp [tryMerge, hsettings, he, bind, Except.bind]
    · cases havailable : p.isAvailable with
      | error e =>
        rcases hp with rfl | ⟨rfl, hp⟩ <;>
          simp [tryMerge, bind, Except.bind, pure, Except.pure, *]
      | ok available =>
        cases available with
        | false =>
          rcases hp with rfl | ⟨rfl, hp⟩ <;>
            simp [tryMerge, bind, Except.bind, pure, Except.pure, *]
        | true =>
          cases hembed : p.embedTexts (clusters.map ClusterData.representativeMessage) with
          | error e =>
            rcases hp with rfl | ⟨rfl, hp⟩ <;>
              simp [tryMerge, bind, Except.bind, pure, Except.pure, *]
          | ok embeddings =>
            have hcount : embeddings.length ≠ clusters.length := fun hcount =>
              h ⟨settings, embeddings, hsettings, p, hp, havailable, hembed, hcount⟩
            rcases hp with rfl | ⟨rfl, hp⟩ <;>
              simp [tryMerge, bind, Except.bind, pure, Except.pure, *]

end Pass

/-- Merging is the quotient of the clusters by connectedness. It conserves what the
clusters count, does not depend on their order but for the order in which the shares of a
severity are added, and without a working backend the clusters stay as they are. -/
theorem semantic_merge_is_quotient (s : Scoring K) (similarity : List K → List K → K)
    (hsymm : ∀ u v, similarity u v = similarity v u) (threshold : K) (minCount : ℤ)
    (members : List (ClusterData K × List K))
    (hfp : (members.map (fun p => p.1.fingerprint)).Nodup)
    (hmerged : ∀ p ∈ members, p.1.mergedFingerprints = []) :
    (checkVectors (members.map Prod.snd) = .ok () →
      ∃ out, mergeSemanticClusters s similarity (members.map Prod.fst) (members.map Prod.snd)
        threshold minCount = .ok out) ∧
    (∀ out, mergeSemanticClusters s similarity (members.map Prod.fst) (members.map Prod.snd)
        threshold minCount = .ok out →
      (∃ groups,
        ComponentsOf (Connected similarity threshold minCount members) members groups ∧
        List.Forall₂ (fun g m => Collapsed (g.map Prod.fst) m) groups out) ∧
      Conserves (members.map Prod.fst) out ∧
      (∀ c ∈ out, c ∈ members.map Prod.fst ∨ c.importanceScore = s.importanceOf c) ∧
      ∀ members' : List (ClusterData K × List K), (members'.map seen).Perm (members.map seen) →
        ∃ out', mergeSemanticClusters s similarity (members'.map Prod.fst)
          (members'.map Prod.snd) threshold minCount = .ok out' ∧
          (out'.map outline).Perm (out.map outline) ∧
          (AllSettled s out → (out'.map view).Perm (out.map view))) ∧
    ∀ (env : MergeEnvironment K) (provider : Option (Provider K))
      (similarityThreshold : Option K) (sizeFloor : Option ℤ),
      (∀ settings embeddings,
        Embeds env (members.map Prod.fst) provider settings embeddings →
        ¬(members.map Prod.fst).length < 2 →
        maybeSemanticMerge s similarity env (members.map Prod.fst) provider
            similarityThreshold sizeFloor =
          match mergeSemanticClusters s similarity (members.map Prod.fst) embeddings
            (similarityThreshold.getD settings.clusterMergeSimilarityThreshold)
            (sizeFloor.getD settings.clusterMergeMinCount) with
          | .ok merged => (merged, true)
          | .error _ => (members.map Prod.fst, false)) ∧
      ((¬∃ settings embeddings,
          Embeds env (members.map Prod.fst) provider settings embeddings) →
        maybeSemanticMerge s similarity env (members.map Prod.fst) provider
          similarityThreshold sizeFloor = (members.map Prod.fst, false)) := by
  refine ⟨?_, ?_, ?_⟩
  · intro hvectors
    exact ⟨_, (mergeSemanticClusters_eq_ok_iff s similarity threshold minCount members _).mpr
      ⟨Or.inr hvectors, rfl⟩⟩
  · intro out hout
    obtain ⟨hgood, rfl⟩ :=
      (mergeSemanticClusters_eq_ok_iff s similarity threshold minCount members out).mp hout
    obtain ⟨groups, hgroups, hall⟩ := mergeItems_collapsed s threshold minCount hsymm hfp
      hmerged
    have hflat : (groups.map (List.map Prod.fst)).flatten.Perm (members.map Prod.fst) := by
      rw [← List.map_flatten]
      exact hgroups.flatten_perm.map Prod.fst
    refine ⟨⟨groups, hgroups, hall⟩,
      conserves_of_collapsed hflat (List.forall₂_map_left_iff.mpr hall),
      fun c hc => mergeItems_scored s hsymm (hfp.of_map _) hc, ?_⟩
    intro members' hperm
    have hlength : members'.length = members.length := by
      simpa using hperm.length_eq
    have hvectors : (members'.map Prod.snd).Perm (members.map Prod.snd) := by
      have hsnd := hperm.map Prod.snd
      rwa [List.map_map, List.map_map] at hsnd
    refine ⟨_, (mergeSemanticClusters_eq_ok_iff s similarity threshold minCount members' _).mpr
      ⟨?_, rfl⟩, view_mergeItems_perm s hsymm hfp hperm⟩
    rw [hlength, checkVectors_congr hvectors]
    exact hgood
  · intro env provider similarityThreshold sizeFloor
    exact ⟨fun settings embeddings h hlen => maybeSemanticMerge_of_embeds s similarity env _
        provider similarityThreshold sizeFloor h hlen,
      maybeSemanticMerge_of_not_embeds s similarity env _ provider similarityThreshold
        sizeFloor⟩

/-- A cluster of three lines of one service. -/
def sampleCluster (fingerprint message : String) (ids : List EntryId) : ClusterData ℝ where
  fingerprint := fingerprint
  representativeMessage := message
  count := 3
  services := dictOf [("checkout", 3)]
  levels := dictOf [("ERROR", 3)]
  levelOrder := ["ERROR"]
  firstSeen := some 10
  lastSeen := none
  baselineCount := 1
  changeRatio := 1
  importanceScore := 0
  isTrigger := false
  logEntryIds := ids
  mergedFingerprints := []
  errorServiceCounts := ∅

/-- The similarity of vectors of one number. -/
def sampleSimilarity (u v : List ℝ) : ℝ := u.headD 0 * v.headD 0

def sampleMembers : List (ClusterData ℝ × List ℝ) :=
  [(sampleCluster "f1" "connection refused" [1, 2, 3], [1]),
    (sampleCluster "f2" "connection reset" [4, 5, 6], [1])]

theorem semantic_merge_is_quotient_sample :
    ∃ out, mergeSemanticClusters defaultScoring sampleSimilarity (sampleMembers.map Prod.fst)
        (sampleMembers.map Prod.snd) 1 1 = .ok out ∧
      Conserves (sampleMembers.map Prod.fst) out := by
  have h := semantic_merge_is_quotient defaultScoring sampleSimilarity
    (fun u v => mul_comm _ _) 1 1 sampleMembers (by simp [sampleMembers, sampleCluster])
    (by simp [sampleMembers, sampleCluster])
  obtain ⟨out, hout⟩ := h.1 (by simp [sampleMembers, checkVectors])
  exact ⟨out, hout, (h.2.1 out hout).2.1⟩

/-! Three clusters in two orders. -/

/-- A cluster of one service whose lines have one level. -/
def levelCluster (fingerprint level : String) (n : ℕ) : ClusterData Double where
  fingerprint := fingerprint
  representativeMessage := "connection refused"
  count := n
  services := dictOf [("checkout", n)]
  levels := dictOf [(level, n)]
  levelOrder := [level]
  firstSeen := some 10
  lastSeen := some 20
  baselineCount := 0
  changeRatio := Double.round (n + 1)
  importanceScore := 0
  isTrigger := false
  logEntryIds := []
  mergedFingerprints := []
  errorServiceCounts := ∅

/-- Embeddings that are all alike. -/
def oneVector : List Double := [Double.round 1]

def alike (_ _ : List Double) : Double := Double.round 1

def threeMembers : List (ClusterData Double × List Double) :=
  [(levelCluster "f1" "error" 2, oneVector), (levelCluster "f2" "warn" 2, oneVector),
    (levelCluster "f3" "info" 1, oneVector)]

/-- The merged cluster adds 1.6, 1.2 and 0.2 in one order and 0.2, 1.2 and 1.6 in the other,
and its importance differs in the last place. -/
theorem merged_importance_by_order :
    ((mergeSemanticClusters doubleScoring alike (threeMembers.map Prod.fst)
      (threeMembers.map Prod.snd) (Double.round 1) 1).toOption.map fun out =>
        out.map ClusterData.importanceScore) = some [Double.round 7.0842432085633416] ∧
    ((mergeSemanticClusters doubleScoring alike (threeMembers.reverse.map Prod.fst)
      (threeMembers.reverse.map Prod.snd) (Double.round 1) 1).toOption.map fun out =>
        out.map ClusterData.importanceScore) = some [Double.round 7.084243208563341] ∧
    Double.round 7.0842432085633416 ≠ Double.round 7.084243208563341 := by
  refine ⟨?_, ?_, ?_⟩
  · decide +kernel
  · decide +kernel
  · decide +kernel

end Raglogs.SemanticMergeLaws
