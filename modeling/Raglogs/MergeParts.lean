import Raglogs.CapLaws

/-!
What the merge pass and the cap leave of a window's clusters, read off the clusters as
they are before: which of them are linked, the parts that the links cut them into, the
member that gives a part its name, and the parts that the cap keeps.
-/

namespace Raglogs.MergeParts

open Collections Dicts LogEntries Triggers Clusters UnionFind Components SemanticMerge
  SemanticMergeLaws Ranking RootCause CapLaws

variable {K : Type} [ScoreArithmetic K] [LinearOrder K]

section Parts

variable (similarity : List K → List K → K) (env : MergeEnvironment K)
  (clusters : List (ClusterData K))

/-- The configured provider gives all clusters vectors, and by these an earlier cluster is
similar to a later one. -/
def Links (c d : ClusterData K) : Prop :=
  ∃ settings embeddings, Embeds env clusters none settings embeddings ∧
    checkVectors embeddings = .ok () ∧
    ∃ u v, [(c, u), (d, v)].Sublist (clusters.zip embeddings) ∧
      linked similarity settings.clusterMergeSimilarityThreshold settings.clusterMergeMinCount
        (c, u) (d, v) = true

/-- Joined by a chain of links. -/
def Joined : ClusterData K → ClusterData K → Prop :=
  Relation.EqvGen (Links similarity env clusters)

open Classical in
/-- The classes of the clusters, in the order of their first members. -/
noncomputable def parts : List (List (ClusterData K)) :=
  (groupOn (Joined similarity env clusters) clusters).map Prod.snd

end Parts

/-! What the cap reads of a part. -/

/-- The member that gives a part its name goes before the others. -/
def Leads (part : List (ClusterData K)) (c : ClusterData K) : Prop :=
  c ∈ part ∧ ∀ d ∈ part, canonicalKey c ≤ canonicalKey d

def partCount (part : List (ClusterData K)) : ℕ := (part.map ClusterData.count).sum

/-- The importance of a part: that of its only member, or the score of what its members
count together. -/
def partImportance (s : Scoring K) : List (ClusterData K) → K
  | [c] => c.importanceScore
  | part =>
      s.computeImportanceScore (partCount part) (sumCounts (part.map ClusterData.levels))
        (sumOrder (part.map ClusterData.levelOrder))
        (computeChangeRatio (partCount part) (part.map ClusterData.baselineCount).sum)
        (items (sumCounts (part.map ClusterData.services))).card
        (part.any ClusterData.isTrigger)

/-- The largest error group of one service, all members together, then the count. -/
def partKey (part : List (ClusterData K)) : ℕ ×ₗ ℕ :=
  toLex (((items (sumCounts (part.map ClusterData.errorServiceCounts))).map Prod.snd).sup,
    partCount part)

/-- The cap keeps a part: fewer than `maxClusters` parts are ahead of it by importance, or
no part has more error lines. -/
def PartKept (s : Scoring K) (maxClusters : ℤ) (all : List (List (ClusterData K)))
    (part : List (ClusterData K)) : Prop :=
  IsKept (partImportance s) partKey hasErrors (sliceStop maxClusters all.length) all part

section Equivalence

variable {similarity : List K → List K → K} {env : MergeEnvironment K}
  {clusters : List (ClusterData K)}

theorem joined_equivalence : Equivalence (Joined similarity env clusters) :=
  ⟨.refl, fun h => h.symm, fun h h' => h.trans _ _ _ h'⟩

/-- Clusters are joined to the same clusters when they are joined. -/
theorem joined_eq_iff {c d : ClusterData K} :
    Joined similarity env clusters c = Joined similarity env clusters d ↔
      Joined similarity env clusters c d := by
  constructor
  · intro h
    rw [h]
    exact joined_equivalence.refl d
  · intro h
    funext e
    exact propext ⟨joined_equivalence.trans (joined_equivalence.symm h),
      joined_equivalence.trans h⟩

theorem parts_componentsOf :
    ComponentsOf (Joined similarity env clusters) clusters (parts similarity env clusters) := by
  classical
  exact (ComponentsOf.of_groupOn (Joined similarity env clusters) clusters).congr
    fun c d => joined_eq_iff

/-- Without links every cluster is a part of its own. -/
theorem parts_of_unjoined (hnd : clusters.Nodup)
    (h : ∀ c ∈ clusters, ∀ d ∈ clusters, Joined similarity env clusters c d → c = d) :
    parts similarity env clusters = clusters.map (fun c => [c]) := by
  classical
  exact pieces_singletons hnd fun c hc d hd heq => h c hc d hd (joined_eq_iff.mp heq)

theorem eq_of_joined_of_no_links (h : ∀ c d, ¬Links similarity env clusters c d)
    {c d : ClusterData K} (hjoined : Joined similarity env clusters c d) : c = d := by
  induction hjoined with
  | rel c d hlink => exact absurd hlink (h c d)
  | refl c => rfl
  | symm _ _ _ ih => exact ih.symm
  | trans _ _ _ _ _ ih₁ ih₂ => exact ih₁.trans ih₂

omit [ScoreArithmetic K] [LinearOrder K] in
/-- The backend answers in one way. -/
theorem embeds_unique {settings settings' : MergeSettings K}
    {embeddings embeddings' : List (List K)}
    (h : Embeds env clusters none settings embeddings)
    (h' : Embeds env clusters none settings' embeddings') :
    settings = settings' ∧ embeddings = embeddings' := by
  obtain ⟨hsettings, p, hp, -, hembed, -⟩ := h
  obtain ⟨hsettings', p', hp', -, hembed', -⟩ := h'
  obtain rfl := Except.ok.inj (hsettings.symm.trans hsettings')
  obtain rfl := provider_unique hp hp'
  exact ⟨rfl, Except.ok.inj (hembed.symm.trans hembed')⟩

/-- Two clusters at least take part in a link. -/
theorem two_le_length_of_links {c d : ClusterData K} (h : Links similarity env clusters c d) :
    2 ≤ clusters.length := by
  obtain ⟨settings, embeddings, -, -, u, v, hsub, -⟩ := h
  have hlen := hsub.length_le
  rw [List.length_zip] at hlen
  exact le_trans hlen (Nat.min_le_left _ _)

end Equivalence

/-! The scan of the pairs finds the parts. -/

section Scan

variable {similarity : List K → List K → K} {env : MergeEnvironment K}
  {clusters : List (ClusterData K)} {settings : MergeSettings K} {embeddings : List (List K)}

omit [ScoreArithmetic K] [LinearOrder K] in
/-- The embedded clusters are the clusters. -/
theorem map_get_zip (hembeds : Embeds env clusters none settings embeddings)
    {members : List (ClusterData K × List K)} (hmembers : clusters.zip embeddings = members) :
    (List.finRange members.length).map (fun i => (members.get i).1) = clusters := by
  obtain ⟨-, p, -, -, -, hlength⟩ := hembeds
  have hget := congrArg (List.map Prod.fst) (List.map_get_finRange members)
  rw [List.map_map] at hget
  rw [← List.map_fst_zip (le_of_eq hlength.symm), hmembers]
  exact hget

variable (similarity) in
/-- The pairs of indices that the scan joins generate the joined clusters. -/
theorem eqvGen_pairs_iff_joined (hnd : clusters.Nodup)
    (hembeds : Embeds env clusters none settings embeddings)
    (hcheck : checkVectors embeddings = .ok ()) {members : List (ClusterData K × List K)}
    (hmembers : clusters.zip embeddings = members) (i j : Fin members.length) :
    Relation.EqvGen (fun i j => (i, j) ∈ pairs (List.finRange members.length) ∧
      linked similarity settings.clusterMergeSimilarityThreshold settings.clusterMergeMinCount
        (members.get i) (members.get j) = true) i j ↔
    Joined similarity env clusters (members.get i).1 (members.get j).1 := by
  have hmapped := map_get_zip hembeds hmembers
  have hinj : Function.Injective (fun i : Fin members.length => (members.get i).1) := by
    have hinjOn := List.inj_on_of_nodup_map (hmapped.symm ▸ hnd)
    exact fun i j heq => hinjOn (List.mem_finRange i) (List.mem_finRange j) heq
  refine eqvGen_iff_of_injective hinj ?_ ?_ i j
  · rintro i j ⟨hpair, hlinked⟩
    refine ⟨settings, embeddings, hembeds, hcheck, (members.get i).2, (members.get j).2, ?_,
      hlinked⟩
    have hsub := (mem_pairs_iff.mp hpair).map members.get
    rw [List.map_get_finRange] at hsub
    exact hmembers ▸ hsub
  · rintro c d ⟨settings', embeddings', hembeds', -, u, v, hsub, hlinked⟩
    obtain ⟨rfl, rfl⟩ := embeds_unique hembeds hembeds'
    rw [hmembers, ← List.map_get_finRange members] at hsub
    obtain ⟨indices, hsub, heq⟩ := List.sublist_map_iff.mp hsub
    obtain ⟨a, rest, rfl, ha, hrest⟩ := List.map_eq_cons_iff.mp heq.symm
    obtain ⟨b, rest, rfl, hb, hrest⟩ := List.map_eq_cons_iff.mp hrest
    obtain rfl := List.map_eq_nil_iff.mp hrest
    refine ⟨a, b, congrArg Prod.fst ha, congrArg Prod.fst hb, mem_pairs_iff.mpr hsub, ?_⟩
    rw [ha, hb]
    exact hlinked

/-- The merge collapses the parts, one after the other. -/
theorem mergeItems_eq_parts (s : Scoring K) (hnd : clusters.Nodup)
    (hembeds : Embeds env clusters none settings embeddings)
    (hcheck : checkVectors embeddings = .ok ()) :
    mergeItems s similarity settings.clusterMergeSimilarityThreshold settings.clusterMergeMinCount
        (clusters.zip embeddings) =
      (parts similarity env clusters).flatMap (collapse s) := by
  classical
  have hjoined := eqvGen_pairs_iff_joined similarity hnd hembeds hcheck rfl
  have hmapped := map_get_zip hembeds rfl
  have hlength := hembeds.2.choose_spec.2.2.2
  set members := clusters.zip embeddings with hmembers
  set nodes := List.finRange members.length with hnodes
  set scan := Forest.unionAll
    (fun p => linked similarity settings.clusterMergeSimilarityThreshold
      settings.clusterMergeMinCount (members.get p.1) (members.get p.2))
    Forest.discrete (pairs nodes) with hscan
  have hroot : ∀ i j, scan.1.root i = scan.1.root j ↔
      Joined similarity env clusters (members.get i).1 (members.get j).1 := by
    intro i j
    rw [← hjoined]
    exact Forest.unionAll_represents _ _ i j
  have hitems : mergeItems s similarity settings.clusterMergeSimilarityThreshold
      settings.clusterMergeMinCount members =
      if scan.2 then
        (sortOn (fun p => ((p.2.map Fin.val).min?).getD 0) (scan.1.components nodes)).flatMap
          (fun p => collapse s (p.2.map (fun i => (members.get i).1)))
      else members.map Prod.fst := rfl
  rw [hitems]
  cases hmerged : scan.2 with
  | true =>
    have hpieces : (groupOn scan.1.root nodes).map Prod.snd =
        (groupOn (fun i => Joined similarity env clusters (members.get i).1) nodes).map Prod.snd :=
      pieces_congr fun i _ j _ => (hroot i j).trans joined_eq_iff.symm
    have hparts : parts similarity env clusters =
        ((groupOn scan.1.root nodes).map Prod.snd).map
          (List.map (fun i => (members.get i).1)) := by
      have hgroup : groupOn (Joined similarity env clusters)
          (nodes.map fun i => (members.get i).1) =
          (groupOn (fun i => Joined similarity env clusters (members.get i).1) nodes).map
            (fun p => (p.1, p.2.map fun i => (members.get i).1)) :=
        groupOn_map (fun _ => rfl) nodes
      rw [hmapped] at hgroup
      rw [hpieces, List.map_map, parts, hgroup, List.map_map]
      rfl
    rw [if_pos rfl, Forest.components_eq, sortOn_groupOn_finRange, hparts, List.flatMap_map,
      List.flatMap_map]
  | false =>
    rw [if_neg Bool.false_ne_true]
    have hfixed := (Forest.root_of_not_merged (pairs nodes) hmerged).2
    have hdiscrete : ∀ i, scan.1.root i = i := by
      intro i
      rw [hscan]
      exact (hfixed i).trans (Forest.root_discrete i)
    have hsingle : parts similarity env clusters = clusters.map (fun c => [c]) := by
      apply parts_of_unjoined hnd
      intro c hc d hd h
      rw [← hmapped] at hc hd
      obtain ⟨i, -, rfl⟩ := List.mem_map.mp hc
      obtain ⟨j, -, rfl⟩ := List.mem_map.mp hd
      have hij := (hroot i j).mpr h
      rw [hdiscrete, hdiscrete] at hij
      rw [hij]
    rw [hsingle, List.flatMap_map, List.map_fst_zip (le_of_eq hlength.symm)]
    exact (List.flatMap_singleton' clusters).symm

end Scan

/-! The merged clusters are the parts. -/

section Merged

variable {similarity : List K → List K → K} {env : MergeEnvironment K}
  {clusters : List (ClusterData K)}

theorem flatMap_collapse_of_no_links (s : Scoring K) (hnd : clusters.Nodup)
    (h : ∀ c d, ¬Links similarity env clusters c d) :
    (parts similarity env clusters).flatMap (collapse s) = clusters := by
  rw [parts_of_unjoined hnd fun c _ d _ => eq_of_joined_of_no_links h, List.flatMap_map]
  exact List.flatMap_singleton' clusters

/-- Whatever the backend does, the merge pass leaves one cluster for each part. -/
theorem mergedClusters_eq_parts (s : Scoring K) (hnd : clusters.Nodup) :
    mergedClusters s similarity env clusters none =
      (parts similarity env clusters).flatMap (collapse s) := by
  unfold mergedClusters
  by_cases hlen : clusters.length < 2
  · rw [flatMap_collapse_of_no_links s hnd fun c d h => by
      have htwo := two_le_length_of_links h
      omega]
    simp [maybeSemanticMerge, hlen]
  by_cases hworks : ∃ settings embeddings, Embeds env clusters none settings embeddings
  · obtain ⟨settings, embeddings, hembeds⟩ := hworks
    have hlength := hembeds.2.choose_spec.2.2.2
    rw [maybeSemanticMerge_of_embeds s similarity env clusters none none none hembeds hlen]
    unfold mergeSemanticClusters
    rw [if_neg hlen, if_neg (not_not.mpr hlength)]
    cases hcheck : checkVectors embeddings with
    | ok u =>
      exact mergeItems_eq_parts s hnd hembeds hcheck
    | error e =>
      refine (flatMap_collapse_of_no_links s hnd ?_).symm
      rintro c d ⟨settings', embeddings', hembeds', hok, -⟩
      obtain ⟨rfl, rfl⟩ := embeds_unique hembeds hembeds'
      rw [hcheck] at hok
      exact absurd hok (by simp)
  · rw [maybeSemanticMerge_of_not_embeds s similarity env clusters none none none hworks]
    refine (flatMap_collapse_of_no_links s hnd ?_).symm
    rintro c d ⟨settings, embeddings, hembeds, -⟩
    exact hworks ⟨settings, embeddings, hembeds⟩

/-- The cluster of a part as the part describes it. -/
structure Stands (s : Scoring K) (part : List (ClusterData K)) (m : ClusterData K) : Prop where
  importance : m.importanceScore = partImportance s part
  key : candidateKey m = partKey part
  leader : ∀ c, Leads part c → m.fingerprint = c.fingerprint ∧
    m.representativeMessage = c.representativeMessage
  exists_leader : ∃ c, Leads part c

theorem sumCounts_singleton (d : Counter String) : sumCounts [d] = d := by
  apply counter_ext
  · intro k
    simp [sumCounts, mem_addCounts, Finmap.notMem_empty]
  · intro k
    simp [count_sumCounts]

omit [ScoreArithmetic K] in
/-- The canonical member leads, and it is the only one to do so. -/
theorem leads_minOn {first c : ClusterData K} {others : List (ClusterData K)}
    (hfp : ((first :: others).map ClusterData.fingerprint).Nodup) :
    Leads (first :: others) c ↔ minOn canonicalKey first others = c := by
  have hmem := minOn_mem canonicalKey first others
  constructor
  · intro hleads
    exact canonical_separates hfp _ hmem c hleads.1
      (le_antisymm (minOn_le canonicalKey first others hleads.1) (hleads.2 _ hmem))
  · rintro rfl
    exact ⟨hmem, fun d hd => minOn_le canonicalKey first others hd⟩

/-- A part collapses into one cluster, which stands for it. -/
theorem exists_stands (s : Scoring K) {part : List (ClusterData K)} (hne : part ≠ [])
    (hfp : (part.map ClusterData.fingerprint).Nodup)
    (htrigger : ∀ c ∈ part, c.isTrigger = isTriggerMessage c.representativeMessage) :
    ∃ m, collapse s part = [m] ∧ Stands s part m := by
  match part with
  | [c] =>
    refine ⟨c, rfl, rfl, ?_, ?_, ?_⟩
    · simp only [candidateKey, topErrorServiceCount, partKey, partCount, List.map_cons,
        List.map_nil, sumCounts_singleton, List.sum_singleton]
    · intro d hd
      obtain rfl := List.mem_singleton.mp hd.1
      exact ⟨rfl, rfl⟩
    · exact ⟨c, List.mem_singleton_self c, fun d hd => by rw [List.mem_singleton.mp hd]⟩
  | first :: second :: rest =>
    have hmem := minOn_mem canonicalKey first (second :: rest)
    -- the canonical message is among those of the members
    have hany : ((first :: second :: rest).any ClusterData.isTrigger ||
        isTriggerMessage (minOn canonicalKey first (second :: rest)).representativeMessage) =
        (first :: second :: rest).any ClusterData.isTrigger := by
      rw [← htrigger _ hmem, Bool.or_eq_left_iff_imp]
      exact fun h => List.any_eq_true.mpr ⟨_, hmem, h⟩
    refine ⟨mergeComponent s first (second :: rest), rfl, ?_, rfl, ?_, ?_⟩
    · simp only [mergeComponent, hany]
      rfl
    · intro c hc
      obtain rfl := (leads_minOn hfp).mp hc
      exact ⟨rfl, rfl⟩
    · exact ⟨_, (leads_minOn hfp).mpr rfl⟩

end Merged

/-! The cap. -/

section Cap

variable {similarity : List K → List K → K} {env : MergeEnvironment K}
  {clusters : List (ClusterData K)}

/-- The cap keeps the clusters that stand for the parts it keeps. -/
theorem keptByCap_iff (s : Scoring K) (maxClusters : ℤ) {all : List (List (ClusterData K))}
    {stand : List (ClusterData K) → ClusterData K}
    (hstand : ∀ part ∈ all, Stands s part (stand part))
    (hinj : ∀ p ∈ all, ∀ q ∈ all, stand p = stand q → p = q) {c : ClusterData K} :
    KeptByCap maxClusters (all.map stand) c ↔
      ∃ part, PartKept s maxClusters all part ∧ stand part = c := by
  rw [← mem_capClusters]
  unfold capClusters PartKept
  rw [List.length_map]
  exact mem_capped_map _ _ _ _ _ _ stand (fun part hpart => (hstand part hpart).importance)
    (fun part hpart => (hstand part hpart).key) hinj

variable (similarity env clusters) in
/-- A cluster that is joined to this one goes before it. -/
def Absorbed (c : ClusterData K) : Prop :=
  ∃ d ∈ clusters, Joined similarity env clusters c d ∧ canonicalKey d < canonicalKey c

variable (similarity env clusters) in
/-- The cap keeps the part of the cluster. -/
def InKeptPart (s : Scoring K) (maxClusters : ℤ) (c : ClusterData K) : Prop :=
  ∃ part, PartKept s maxClusters (parts similarity env clusters) part ∧ c ∈ part

theorem eq_of_mem_parts {p q : List (ClusterData K)} (hp : p ∈ parts similarity env clusters)
    (hq : q ∈ parts similarity env clusters) {c : ClusterData K} (hcp : c ∈ p) (hcq : c ∈ q) :
    p = q := by
  classical
  have hfilter : ∀ g ∈ parts similarity env clusters, c ∈ g → g = clusters.filter (fun d =>
      Joined similarity env clusters d = Joined similarity env clusters c) := by
    intro g hg hcg
    obtain ⟨⟨k, g⟩, hmem, rfl⟩ := List.mem_map.mp hg
    obtain ⟨rfl, -⟩ := (mem_groupOn _ _ k g).mp hmem
    obtain rfl : Joined similarity env clusters c = k :=
      of_decide_eq_true (List.mem_filter.mp hcg).2
    rfl
  rw [hfilter p hp hcp, hfilter q hq hcq]

/-- In a part the leader is the member that is not absorbed. -/
theorem leads_iff_not_absorbed {part : List (ClusterData K)}
    (hpart : part ∈ parts similarity env clusters) {c : ClusterData K} (hc : c ∈ part) :
    Leads part c ↔ ¬Absorbed similarity env clusters c := by
  have hjoined := parts_componentsOf.mem_iff part hpart c hc
  constructor
  · rintro ⟨-, hleast⟩ ⟨d, hd, hcd, hlt⟩
    exact absurd hlt (not_lt.mpr (hleast d ((hjoined d hd).mpr hcd)))
  · intro habsorbed
    refine ⟨hc, fun d hd => not_lt.mp fun hlt => habsorbed ?_⟩
    have hmem := parts_componentsOf.mem_of_mem hpart hd
    exact ⟨d, hmem, (hjoined d hmem).mp hd, hlt⟩

/-- What the cap keeps of the merged clusters has the names of those clusters that are not
absorbed and whose parts it keeps. -/
theorem kept_names_iff (s : Scoring K) (maxClusters : ℤ)
    (hfp : (clusters.map ClusterData.fingerprint).Nodup)
    (htrigger : ∀ c ∈ clusters, c.isTrigger = isTriggerMessage c.representativeMessage)
    (names : String → String → Prop) :
    (∃ m, KeptByCap maxClusters (mergedClusters s similarity env clusters none) m ∧
        names m.fingerprint m.representativeMessage) ↔
      ∃ c ∈ clusters, ¬Absorbed similarity env clusters c ∧
        InKeptPart similarity env clusters s maxClusters c ∧
        names c.fingerprint c.representativeMessage := by
  have hparts := @parts_componentsOf K _ _ similarity env clusters
  have hcollapse : ∀ part ∈ parts similarity env clusters,
      ∃ m, collapse s part = [m] ∧ Stands s part m := by
    intro part hpart
    refine exists_stands s (hparts.nonempty part hpart) ?_
      fun c hc => htrigger c (hparts.mem_of_mem hpart hc)
    have hflat := (hparts.flatten_perm.map ClusterData.fingerprint).nodup_iff.mpr hfp
    exact hflat.sublist ((List.sublist_flatten_of_mem hpart).map _)
  rcases isEmpty_or_nonempty (ClusterData K) with hempty | hnonempty
  · exact ⟨fun ⟨m, _⟩ => hempty.elim m, fun ⟨c, _⟩ => hempty.elim c⟩
  choose! stand hstand using hcollapse
  have hmerged : mergedClusters s similarity env clusters none =
      (parts similarity env clusters).map stand := by
    rw [mergedClusters_eq_parts s (hfp.of_map _), List.map_eq_flatMap]
    exact List.flatMap_congr fun part hpart => (hstand part hpart).1
  have hinj : ∀ p ∈ parts similarity env clusters, ∀ q ∈ parts similarity env clusters,
      stand p = stand q → p = q := by
    intro p hp q hq heq
    obtain ⟨c, hc⟩ := (hstand p hp).2.exists_leader
    obtain ⟨d, hd⟩ := (hstand q hq).2.exists_leader
    have hsame : c.fingerprint = d.fingerprint := by
      rw [← ((hstand p hp).2.leader c hc).1, heq, ((hstand q hq).2.leader d hd).1]
    obtain rfl := List.inj_on_of_nodup_map hfp (hparts.mem_of_mem hp hc.1)
      (hparts.mem_of_mem hq hd.1) hsame
    exact eq_of_mem_parts hp hq hc.1 hd.1
  rw [hmerged]
  simp only [keptByCap_iff s maxClusters (fun part hpart => (hstand part hpart).2) hinj]
  constructor
  · rintro ⟨m, ⟨part, hkept, rfl⟩, hnames⟩
    have hpart := hkept.1
    obtain ⟨c, hc⟩ := (hstand part hpart).2.exists_leader
    obtain ⟨hfingerprint, hmessage⟩ := (hstand part hpart).2.leader c hc
    exact ⟨c, hparts.mem_of_mem hpart hc.1, (leads_iff_not_absorbed hpart hc.1).mp hc,
      ⟨part, hkept, hc.1⟩, hfingerprint ▸ hmessage ▸ hnames⟩
  · rintro ⟨c, -, habsorbed, ⟨part, hkept, hc⟩, hnames⟩
    have hleads := (leads_iff_not_absorbed hkept.1 hc).mpr habsorbed
    obtain ⟨hfingerprint, hmessage⟩ := (hstand part hkept.1).2.leader c hleads
    exact ⟨stand part, ⟨part, hkept, rfl⟩, hfingerprint.symm ▸ hmessage.symm ▸ hnames⟩

end Cap

end Raglogs.MergeParts
