import Raglogs.DirectionLaws

/-!
Window comparison as a partition. Every fingerprint that remains after noise is
collapsed gets one entry in one bucket, the counts of a window add up to its clusters,
and swapping the windows mirrors the comparison. It is so exactly when no cluster has
the key that an entry of collapsed noise is to get, the totals and quotients are in
the range of the doubles, and no quotient of counts is rounded across the threshold.
-/

namespace Raglogs.DifferLaws

open Collections Dicts Doubles Durations Text Clusters Grouping Ranking Differ DirectionLaws

variable {K : Type} {isWord : Char → Bool}

/-! What remains. -/

/-- The key and the total of the entry for some noise. -/
def noiseCounts (group : List (ClusterData K)) (key : String) : List (String × ℕ) :=
  if group = [] then []
  else [("__collapsed_" ++ key ++ "__", (group.map ClusterData.count).sum)]

/-- The entries of collapsed noise. -/
def collapsedEntries (isWord : Char → Bool) (clusters : List (ClusterData K)) :
    List (String × ℕ) :=
  noiseCounts (retryGroup isWord clusters) "retries" ++
    noiseCounts (queueGroup isWord clusters) "queue_growth"

/-- The fingerprints that remain after collapsing, with their counts. -/
def remaining (isWord : Char → Bool) (clusters : List (ClusterData K)) : List (String × ℕ) :=
  (normalGroup isWord clusters).map (fun c => (c.fingerprint, c.count)) ++
    collapsedEntries isWord clusters

/-- No cluster that passes through has the key of an entry of collapsed noise. -/
def Unreserved (isWord : Char → Bool) (clusters : List (ClusterData K)) : Prop :=
  ∀ c ∈ normalGroup isWord clusters, ∀ p ∈ collapsedEntries isWord clusters, c.fingerprint ≠ p.1

/-- The totals of collapsed noise are in the range of the doubles. -/
def TotalsInRange (isWord : Char → Bool) (clusters : List (ClusterData K)) : Prop :=
  ∀ p ∈ collapsedEntries isWord clusters, p.2 < doubleLimit

theorem sum_noiseCounts (group : List (ClusterData K)) (key : String) :
    ((noiseCounts group key).map Prod.snd).sum = (group.map ClusterData.count).sum := by
  unfold noiseCounts
  split
  · rename_i h
    rw [h]
    rfl
  · simp

theorem sum_groups (isWord : Char → Bool) (clusters : List (ClusterData K)) :
    ((normalGroup isWord clusters).map ClusterData.count).sum +
      (((retryGroup isWord clusters).map ClusterData.count).sum +
        ((queueGroup isWord clusters).map ClusterData.count).sum) =
      (clusters.map ClusterData.count).sum := by
  unfold normalGroup retryGroup queueGroup
  induction clusters with
  | nil => rfl
  | cons c rest ih =>
    cases hretry : isRetry isWord c.representativeMessage <;>
      cases hgrowth : isQueueGrowth c.representativeMessage <;>
        simp [hretry, hgrowth] at ih ⊢ <;> omega

/-- Collapsing conserves the count of a window. -/
theorem sum_remaining (isWord : Char → Bool) (clusters : List (ClusterData K)) :
    ((remaining isWord clusters).map Prod.snd).sum = (clusters.map ClusterData.count).sum := by
  have hnoise : ((collapsedEntries isWord clusters).map Prod.snd).sum =
      ((retryGroup isWord clusters).map ClusterData.count).sum +
        ((queueGroup isWord clusters).map ClusterData.count).sum := by
    unfold collapsedEntries
    rw [List.map_append, List.sum_append, sum_noiseCounts, sum_noiseCounts]
  rw [← sum_groups isWord clusters, ← hnoise]
  unfold remaining
  rw [List.map_append, List.sum_append, List.map_map]
  rfl

theorem one_le_remaining {clusters : List (ClusterData K)} (hpos : ∀ c ∈ clusters, 1 ≤ c.count) :
    ∀ p ∈ remaining isWord clusters, 1 ≤ p.2 := by
  have hnoise : ∀ (group : List (ClusterData K)) (key : String), (∀ c ∈ group, 1 ≤ c.count) →
      ∀ p ∈ noiseCounts group key, 1 ≤ p.2 := by
    intro group key hgroup p hp
    cases group with
    | nil => exact absurd hp List.not_mem_nil
    | cons c rest =>
      have hc := hgroup c List.mem_cons_self
      rw [List.mem_singleton.mp hp]
      simp only [List.map_cons, List.sum_cons]
      omega
  intro p hp
  rcases List.mem_append.mp hp with hp | hp
  · obtain ⟨c, hc, rfl⟩ := List.mem_map.mp hp
    exact hpos c (List.mem_of_mem_filter hc)
  · rcases List.mem_append.mp hp with hp | hp
    · exact hnoise _ _ (fun c hc => hpos c (List.mem_of_mem_filter hc)) p hp
    · exact hnoise _ _ (fun c hc => hpos c (List.mem_of_mem_filter hc)) p hp

theorem collapsedEntries_keys_nodup (clusters : List (ClusterData K)) :
    ((collapsedEntries isWord clusters).map Prod.fst).Nodup := by
  unfold collapsedEntries noiseCounts
  split <;> split <;> simp

/-- What remains has distinct keys unless a cluster has the key of collapsed noise. -/
theorem remaining_keys_nodup_iff {clusters : List (ClusterData K)}
    (hfp : (clusters.map ClusterData.fingerprint).Nodup) :
    ((remaining isWord clusters).map Prod.fst).Nodup ↔ Unreserved isWord clusters := by
  have hnormal : ((normalGroup isWord clusters).map ClusterData.fingerprint).Nodup :=
    hfp.sublist (List.filter_sublist.map _)
  have hkeys : (remaining isWord clusters).map Prod.fst =
      (normalGroup isWord clusters).map ClusterData.fingerprint ++
        (collapsedEntries isWord clusters).map Prod.fst := by
    unfold remaining
    rw [List.map_append, List.map_map]
    rfl
  rw [hkeys, List.nodup_append]
  unfold Unreserved
  constructor
  · rintro ⟨-, -, hdisj⟩ c hc p hp
    exact hdisj _ (List.mem_map_of_mem hc) _ (List.mem_map_of_mem hp)
  · intro hdisj
    refine ⟨hnormal, collapsedEntries_keys_nodup clusters, ?_⟩
    intro a ha b hb
    obtain ⟨c, hc, rfl⟩ := List.mem_map.mp ha
    obtain ⟨p, hp, rfl⟩ := List.mem_map.mp hb
    exact hdisj c hc p hp

section Collapsing

variable [ScoreArithmetic K]

theorem toFloat_returns_iff (n : ℕ) : (∃ x, toFloat n = .ok x) ↔ n < doubleLimit := by
  have hin : 2 ^ 1024 ≤ roundDouble n ↔ doubleLimit ≤ n := by
    rcases Nat.eq_zero_or_pos n with rfl | hpos
    · have hzero : roundDouble ((0 : ℕ) : ℚ) = 0 := by
        unfold roundDouble roundHalfEven
        simp
      rw [hzero]
      refine iff_of_false ?_ doubleLimit_pos.not_ge
      rw [not_le]
      exact pow_pos (by norm_num) 1024
    · rw [roundDouble_overflows_iff (by exact_mod_cast hpos), Nat.cast_le]
  unfold toFloat
  by_cases hover : 2 ^ 1024 ≤ roundDouble n
  · rw [if_pos hover]
    exact iff_of_false (by simp) (hin.mp hover).not_gt
  · rw [if_neg hover]
    exact iff_of_true ⟨_, rfl⟩ (not_le.mp (fun h => hover (hin.mpr h)))

theorem noiseEntry_returns_iff (group : List (ClusterData K)) (label key : String) :
    (∃ l, noiseEntry group label key = .ok l) ↔
      ∀ p ∈ noiseCounts group key, p.2 < doubleLimit := by
  unfold noiseEntry noiseCounts
  by_cases hnil : group = []
  · rw [if_pos hnil, if_pos hnil]
    exact iff_of_true ⟨[], rfl⟩ (by simp)
  · rw [if_neg hnil, if_neg hnil, List.forall_mem_singleton, ← toFloat_returns_iff]
    constructor
    · rintro ⟨l, h⟩
      obtain ⟨m, hm, -⟩ := bind_eq_ok.mp h
      obtain ⟨ratio, hratio, -⟩ := bind_eq_ok.mp hm
      exact ⟨ratio, hratio⟩
    · rintro ⟨ratio, hratio⟩
      exact ⟨_, bind_eq_ok.mpr ⟨_, bind_eq_ok.mpr ⟨ratio, hratio, rfl⟩, rfl⟩⟩

theorem noiseEntry_counts {group l : List (ClusterData K)} {label key : String} (hkey : key ≠ "")
    (h : noiseEntry group label key = .ok l) :
    l.map (fun c => (c.fingerprint, c.count)) = noiseCounts group key := by
  unfold noiseEntry at h
  unfold noiseCounts
  by_cases hnil : group = []
  · rw [if_pos hnil] at h ⊢
    rw [← Except.ok.inj h]
    rfl
  · rw [if_neg hnil] at h ⊢
    obtain ⟨m, hm, h⟩ := bind_eq_ok.mp h
    obtain ⟨ratio, -, hm⟩ := bind_eq_ok.mp hm
    rw [← Except.ok.inj h, ← Except.ok.inj hm, if_neg hkey]
    rfl

theorem collapseClusters_returns_iff (clusters : List (ClusterData K)) :
    (∃ l, collapseClusters isWord clusters = .ok l) ↔ TotalsInRange isWord clusters := by
  have hall : TotalsInRange isWord clusters ↔
      (∃ l, noiseEntry (retryGroup isWord clusters) (retryLabel (retryGroup isWord clusters))
        "retries" = .ok l) ∧
      (∃ l, noiseEntry (queueGroup isWord clusters) "Queue growth" "queue_growth" = .ok l) := by
    rw [noiseEntry_returns_iff, noiseEntry_returns_iff]
    unfold TotalsInRange collapsedEntries
    rw [List.forall_mem_append]
  rw [hall]
  unfold collapseClusters
  simp only [bind_eq_ok]
  constructor
  · rintro ⟨l, retries, hretries, growth, hgrowth, -⟩
    exact ⟨⟨retries, hretries⟩, ⟨growth, hgrowth⟩⟩
  · rintro ⟨⟨retries, hretries⟩, ⟨growth, hgrowth⟩⟩
    exact ⟨_, retries, hretries, growth, hgrowth, rfl⟩

theorem collapseClusters_counts {clusters l : List (ClusterData K)}
    (h : collapseClusters isWord clusters = .ok l) :
    l.map (fun c => (c.fingerprint, c.count)) = remaining isWord clusters := by
  obtain ⟨retries, hretries, h⟩ := bind_eq_ok.mp h
  obtain ⟨growth, hgrowth, h⟩ := bind_eq_ok.mp h
  rw [← Except.ok.inj h, List.map_append, List.map_append,
    noiseEntry_counts (by decide) hretries, noiseEntry_counts (by decide) hgrowth,
    List.append_assoc]
  rfl

end Collapsing

/-! Buckets. -/

def directions : List Direction := [.new, .disappeared, .increased, .decreased, .stable]

def bucket (r : CompareResult) : Direction → List ClusterDiff
  | .new => r.newClusters
  | .disappeared => r.disappearedClusters
  | .increased => r.increasedClusters
  | .decreased => r.decreasedClusters
  | .stable => r.stableClusters

/-- The entries of all buckets. -/
def entries (r : CompareResult) : List ClusterDiff := directions.flatMap (bucket r)

/-- An entry without its texts. -/
def counts (e : ClusterDiff) : String × Option ℕ × Option ℕ := (e.fingerprint, e.countA, e.countB)

/-- The entry of a fingerprint without its texts. -/
def row (countA countB : String → Option ℕ) (fp : String) : String × Option ℕ × Option ℕ :=
  (fp, countA fp, countB fp)

/-- What a comparison of the counts of two windows over some keys consists of. -/
structure Compared (countA countB : String → Option ℕ) (keys : List String)
    (r : CompareResult) : Prop where
  entries_perm : ((entries r).map counts).Perm (keys.map (row countA countB))
  mem_bucket : ∀ d v, v ∈ (bucket r d).map counts ↔
    ∃ fp ∈ keys, v = row countA countB fp ∧ directionOf (countA fp) (countB fp) = .ok d

/-- The count of a fingerprint in a dict of clusters. -/
def countIn (map : Dict String (ClusterData K)) (fp : String) : Option ℕ :=
  (map.lookup fp).map ClusterData.count

theorem counts_clusterDiff (mapA mapB : Dict String (ClusterData K)) (fp : String) :
    counts (clusterDiff mapA mapB fp) = row (countIn mapA) (countIn mapB) fp := rfl

theorem classify_eq_ok_iff {mapA mapB : Dict String (ClusterData K)} {fp : String}
    {p : Direction × ClusterDiff} :
    classify mapA mapB fp = .ok p ↔
      p.2 = clusterDiff mapA mapB fp ∧ (clusterDiff mapA mapB fp).direction = .ok p.1 := by
  unfold classify
  simp only [bind_eq_ok]
  constructor
  · rintro ⟨d, hd, h⟩
    rw [← Except.ok.inj h]
    exact ⟨rfl, hd⟩
  · rintro ⟨hp, hd⟩
    refine ⟨p.1, hd, ?_⟩
    rw [← hp]
    rfl

theorem snd_of_classified {mapA mapB : Dict String (ClusterData K)} {keys : List String}
    {diffs : List (Direction × ClusterDiff)}
    (h : List.Forall₂ (fun fp p => classify mapA mapB fp = .ok p) keys diffs) :
    diffs.map Prod.snd = keys.map (clusterDiff mapA mapB) := by
  induction h with
  | nil => rfl
  | cons hfp _ ih => rw [List.map_cons, List.map_cons, (classify_eq_ok_iff.mp hfp).1, ih]

theorem mem_of_classified {mapA mapB : Dict String (ClusterData K)} {keys : List String}
    {diffs : List (Direction × ClusterDiff)}
    (h : List.Forall₂ (fun fp p => classify mapA mapB fp = .ok p) keys diffs)
    (p : Direction × ClusterDiff) :
    p ∈ diffs ↔ ∃ fp ∈ keys, classify mapA mapB fp = .ok p := by
  constructor
  · intro hp
    exact exists_source h hp
  · rintro ⟨fp, hfp, hok⟩
    obtain ⟨q, hq, hok'⟩ := exists_source h.flip hfp
    rwa [Except.ok.inj (hok.symm.trans hok')]

/-- The buckets are a sorting of the entries. -/
theorem compared_of_classified {mapA mapB : Dict String (ClusterData K)} {keys : List String}
    {diffs : List (Direction × ClusterDiff)}
    (h : List.Forall₂ (fun fp p => classify mapA mapB fp = .ok p) keys diffs) {r : CompareResult}
    (hr : ∀ d, (bucket r d).Perm (appended diffs d)) :
    Compared (countIn mapA) (countIn mapB) keys r := by
  constructor
  · have hall : diffs.filter (fun p => p.1 ∈ directions) = diffs := by
      rw [List.filter_eq_self]
      rintro ⟨d, e⟩ -
      cases d <;> rfl
    have hpieces : (entries r).Perm (directions.flatMap (appended diffs)) :=
      List.Perm.flatMap_left _ (fun d _ => hr d)
    have hsorted := flatMap_filter_perm Prod.fst (by decide : directions.Nodup) diffs
    rw [hall] at hsorted
    have hmap := hsorted.map Prod.snd
    rw [List.map_flatMap, snd_of_classified h] at hmap
    have hcounts := (hpieces.trans hmap).map counts
    rwa [List.map_map] at hcounts
  · intro d v
    rw [((hr d).map counts).mem_iff]
    unfold appended
    simp only [List.mem_map, List.mem_filter, decide_eq_true_eq, mem_of_classified h,
      classify_eq_ok_iff]
    constructor
    · rintro ⟨e, ⟨p, ⟨⟨fp, hfp, hdiff, hdir⟩, rfl⟩, rfl⟩, rfl⟩
      exact ⟨fp, hfp, by rw [hdiff, counts_clusterDiff], hdir⟩
    · rintro ⟨fp, hfp, rfl, hdir⟩
      exact ⟨clusterDiff mapA mapB fp, ⟨(d, clusterDiff mapA mapB fp),
        ⟨⟨fp, hfp, rfl, hdir⟩, rfl⟩, rfl⟩, rfl⟩

/-- The fingerprints in a bucket are those with its direction. -/
theorem Compared.mem_fingerprints {countA countB : String → Option ℕ} {keys : List String}
    {r : CompareResult} (h : Compared countA countB keys r) (d : Direction) (fp : String) :
    fp ∈ (bucket r d).map ClusterDiff.fingerprint ↔
      fp ∈ keys ∧ directionOf (countA fp) (countB fp) = .ok d := by
  have hfst : (bucket r d).map ClusterDiff.fingerprint =
      ((bucket r d).map counts).map Prod.fst := by
    rw [List.map_map]
    rfl
  rw [hfst, List.mem_map]
  constructor
  · rintro ⟨v, hv, rfl⟩
    obtain ⟨fp, hfp, rfl, hd⟩ := (h.mem_bucket d v).mp hv
    exact ⟨hfp, hd⟩
  · rintro ⟨hfp, hd⟩
    exact ⟨row countA countB fp, (h.mem_bucket d _).mpr ⟨fp, hfp, rfl, hd⟩, rfl⟩

/-! Runs. -/

section Runs

variable [ScoreArithmetic K]

/-- The count of a fingerprint that remains in a window. -/
def countOf (isWord : Char → Bool) (clusters : List (ClusterData K)) (fp : String) : Option ℕ :=
  (dictOf (remaining isWord clusters)).lookup fp

/-- The fingerprints that remain in either window. -/
def keysOf (isWord : Char → Bool) (clustersA clustersB : List (ClusterData K)) : List String :=
  (remaining isWord clustersA).map Prod.fst ++ (remaining isWord clustersB).map Prod.fst

theorem countIn_byFingerprint {clusters collapsed : List (ClusterData K)}
    (h : collapseClusters isWord clusters = .ok collapsed) :
    countIn (byFingerprint collapsed) = countOf isWord clusters := by
  funext fp
  unfold countIn byFingerprint countOf
  rw [← lookup_dictOf_map, ← collapseClusters_counts h, List.map_map]
  rfl

omit [ScoreArithmetic K] in
theorem countOf_ne_none_iff {clusters : List (ClusterData K)} {fp : String} :
    countOf isWord clusters fp ≠ none ↔ fp ∈ (remaining isWord clusters).map Prod.fst := by
  rw [← mem_dictOf, not_iff_comm]
  exact Finmap.lookup_eq_none.symm

theorem fingerprints_collapsed {clusters collapsed : List (ClusterData K)}
    (h : collapseClusters isWord clusters = .ok collapsed) :
    collapsed.map ClusterData.fingerprint = (remaining isWord clusters).map Prod.fst := by
  rw [← collapseClusters_counts h, List.map_map]
  rfl

variable {lowering : Lowering} {order : Shuffle String} {clustersA clustersB : List (ClusterData K)}
  {triggersA triggersB : List TriggerCandidate} {windowA windowB : TimeWindow}

/-- A run that returns compares the counts that remain. -/
theorem compared_of_ok {r : CompareResult}
    (h : compareWindows isWord lowering order clustersA clustersB triggersA triggersB windowA
      windowB = .ok r) :
    Compared (countOf isWord clustersA) (countOf isWord clustersB)
        (order.1 (fromKeys (keysOf isWord clustersA clustersB))) r ∧
      r.newTriggers = triggersOnly isWord lowering .a triggersA triggersB ∧
      r.droppedTriggers = triggersOnly isWord lowering .b triggersB triggersA := by
  obtain ⟨collapsedA, hA, h⟩ := bind_eq_ok.mp h
  obtain ⟨collapsedB, hB, h⟩ := bind_eq_ok.mp h
  obtain ⟨diffs, hdiffs, h⟩ := bind_eq_ok.mp h
  rw [← countIn_byFingerprint hA, ← countIn_byFingerprint hB]
  unfold keysOf
  rw [← fingerprints_collapsed hA, ← fingerprints_collapsed hB]
  rw [← Except.ok.inj h]
  refine ⟨compared_of_classified (mapM_eq_ok_iff.mp hdiffs) ?_, rfl, rfl⟩
  intro d
  cases d with
  | new => exact sortDown_perm _ _
  | disappeared => exact sortDown_perm _ _
  | increased => exact sortDown_perm _ _
  | decreased => exact sortDown_perm _ _
  | stable => exact List.Perm.refl _

/-- Reported as new are the fingerprints that remain in the first list only. -/
theorem mem_newClusters {r : CompareResult}
    (h : compareWindows isWord lowering order clustersA clustersB triggersA triggersB windowA
      windowB = .ok r) (fp : String) :
    fp ∈ r.newClusters.map ClusterDiff.fingerprint ↔
      fp ∈ (remaining isWord clustersA).map Prod.fst ∧
        fp ∉ (remaining isWord clustersB).map Prod.fst := by
  have hc := (compared_of_ok h).1
  have hbucket : r.newClusters = bucket r .new := rfl
  rw [hbucket, hc.mem_fingerprints .new, directionOf_eq_new_iff, ← countOf_ne_none_iff,
    ← countOf_ne_none_iff, not_not, (order.2 _).mem_iff, mem_fromKeys]
  refine and_iff_right_of_imp ?_
  rintro ⟨hA, -⟩
  exact List.mem_append_left _ (countOf_ne_none_iff.mp hA)

/-- Reported as disappeared are the fingerprints that remain in the second list only. -/
theorem mem_disappearedClusters {r : CompareResult}
    (h : compareWindows isWord lowering order clustersA clustersB triggersA triggersB windowA
      windowB = .ok r) (fp : String) :
    fp ∈ r.disappearedClusters.map ClusterDiff.fingerprint ↔
      fp ∈ (remaining isWord clustersB).map Prod.fst ∧
        fp ∉ (remaining isWord clustersA).map Prod.fst := by
  have hc := (compared_of_ok h).1
  have hbucket : r.disappearedClusters = bucket r .disappeared := rfl
  have hA : fp ∈ (remaining isWord clustersA).map Prod.fst ↔ countOf isWord clustersA fp ≠ none :=
    countOf_ne_none_iff.symm
  rw [hbucket, hc.mem_fingerprints .disappeared, directionOf_eq_disappeared_iff,
    (order.2 _).mem_iff, mem_fromKeys]
  unfold keysOf
  rw [List.mem_append, hA, not_not]
  constructor
  · rintro ⟨hA | hB, hnone⟩
    · exact absurd hnone hA
    · exact ⟨hB, hnone⟩
  · rintro ⟨hB, hnone⟩
    exact ⟨Or.inr hB, hnone⟩

/-- A run returns exactly if the totals are in range and each fingerprint has a direction. -/
theorem compareWindows_returns_iff :
    (∃ r, compareWindows isWord lowering order clustersA clustersB triggersA triggersB windowA
      windowB = .ok r) ↔
      TotalsInRange isWord clustersA ∧ TotalsInRange isWord clustersB ∧
        ∀ fp ∈ keysOf isWord clustersA clustersB,
          ∃ d, directionOf (countOf isWord clustersA fp) (countOf isWord clustersB fp) = .ok d := by
  rw [← collapseClusters_returns_iff, ← collapseClusters_returns_iff]
  constructor
  · rintro ⟨r, h⟩
    obtain ⟨collapsedA, hA, h⟩ := bind_eq_ok.mp h
    obtain ⟨collapsedB, hB, h⟩ := bind_eq_ok.mp h
    obtain ⟨diffs, hdiffs, h⟩ := bind_eq_ok.mp h
    refine ⟨⟨collapsedA, hA⟩, ⟨collapsedB, hB⟩, ?_⟩
    intro fp hfp
    have hmem : fp ∈ order.1 (fromKeys (collapsedA.map ClusterData.fingerprint ++
        collapsedB.map ClusterData.fingerprint)) := by
      rw [(order.2 _).mem_iff, mem_fromKeys, fingerprints_collapsed hA, fingerprints_collapsed hB]
      exact hfp
    obtain ⟨p, -, hp⟩ := exists_source (mapM_eq_ok_iff.mp hdiffs).flip hmem
    refine ⟨p.1, ?_⟩
    rw [← countIn_byFingerprint hA, ← countIn_byFingerprint hB]
    exact (classify_eq_ok_iff.mp hp).2
  · rintro ⟨⟨collapsedA, hA⟩, ⟨collapsedB, hB⟩, hall⟩
    have hclassified : ∀ fp ∈ order.1 (fromKeys (collapsedA.map ClusterData.fingerprint ++
        collapsedB.map ClusterData.fingerprint)),
        ∃ p, classify (byFingerprint collapsedA) (byFingerprint collapsedB) fp = .ok p ∧
          () = () := by
      intro fp hfp
      rw [(order.2 _).mem_iff, mem_fromKeys, fingerprints_collapsed hA,
        fingerprints_collapsed hB] at hfp
      obtain ⟨d, hd⟩ := hall fp hfp
      rw [← countIn_byFingerprint hA, ← countIn_byFingerprint hB] at hd
      exact ⟨(d, clusterDiff _ _ fp), classify_eq_ok_iff.mpr ⟨rfl, hd⟩, rfl⟩
    obtain ⟨diffs, hdiffs, -⟩ := mapM_exists hclassified
    exact ⟨_, bind_eq_ok.mpr ⟨collapsedA, hA, bind_eq_ok.mpr ⟨collapsedB, hB,
      bind_eq_ok.mpr ⟨diffs, hdiffs, rfl⟩⟩⟩⟩

end Runs

/-! The law. -/

/-- Every fingerprint that remains has one entry, and the counts add up. -/
structure Partitions (isWord : Char → Bool) (clustersA clustersB : List (ClusterData K))
    (r : CompareResult) : Prop where
  once : ((entries r).map ClusterDiff.fingerprint).Nodup
  covers : ∀ fp, fp ∈ (entries r).map ClusterDiff.fingerprint ↔
    fp ∈ keysOf isWord clustersA clustersB
  conservesA : ((entries r).map (fun e => e.countA.getD 0)).sum =
    (clustersA.map ClusterData.count).sum
  conservesB : ((entries r).map (fun e => e.countB.getD 0)).sum =
    (clustersB.map ClusterData.count).sum

def swapCounts (v : String × Option ℕ × Option ℕ) : String × Option ℕ × Option ℕ :=
  (v.1, v.2.2, v.2.1)

def swapSide (t : TriggerDiff) : TriggerDiff :=
  { t with onlyIn := match t.onlyIn with
      | .a => .b
      | .b => .a }

/-- The comparison with the windows swapped. -/
structure Mirrors (r r' : CompareResult) : Prop where
  buckets : ∀ d, ((bucket r' (swap d)).map counts).Perm
    ((bucket r d).map (fun e => swapCounts (counts e)))
  newTriggers : r'.newTriggers = r.droppedTriggers.map swapSide
  droppedTriggers : r'.droppedTriggers = r.newTriggers.map swapSide

section Laws

variable {clustersA clustersB : List (ClusterData K)} {keys keys' : List String}
  {countA countB : String → Option ℕ} {r r' : CompareResult}

theorem Compared.fingerprints_perm (h : Compared countA countB keys r) :
    ((entries r).map ClusterDiff.fingerprint).Perm keys := by
  have hperm := h.entries_perm.map Prod.fst
  have hkeys : (keys.map (row countA countB)).map Prod.fst = keys := by
    rw [List.map_map]
    exact List.map_id keys
  rw [hkeys, List.map_map] at hperm
  exact hperm

theorem Compared.sum_countA (h : Compared countA countB keys r) :
    ((entries r).map (fun e => e.countA.getD 0)).sum =
      (keys.map (fun fp => (countA fp).getD 0)).sum := by
  have hperm := h.entries_perm.map (fun v => v.2.1.getD 0)
  rw [List.map_map, List.map_map] at hperm
  exact hperm.sum_eq

theorem Compared.sum_countB (h : Compared countA countB keys r) :
    ((entries r).map (fun e => e.countB.getD 0)).sum =
      (keys.map (fun fp => (countB fp).getD 0)).sum := by
  have hperm := h.entries_perm.map (fun v => v.2.2.getD 0)
  rw [List.map_map, List.map_map] at hperm
  exact hperm.sum_eq

/-- The counts of a window add up exactly if what remains of it has distinct keys. -/
theorem sum_countOf_iff (isWord : Char → Bool) {clusters : List (ClusterData K)}
    (hpos : ∀ c ∈ clusters, 1 ≤ c.count) (hnd : keys.Nodup)
    (hkeys : ∀ fp ∈ (remaining isWord clusters).map Prod.fst, fp ∈ keys) :
    (keys.map (fun fp => (countOf isWord clusters fp).getD 0)).sum =
        (clusters.map ClusterData.count).sum ↔
      ((remaining isWord clusters).map Prod.fst).Nodup := by
  rw [← sum_remaining isWord clusters]
  exact sum_count_dictOf_eq_iff hnd (fun p hp => hkeys p.1 (List.mem_map_of_mem hp))
    (one_le_remaining hpos)

/-- A comparison is a partition that conserves the counts, if the keys are distinct. -/
theorem partitions_iff (hposA : ∀ c ∈ clustersA, 1 ≤ c.count)
    (hposB : ∀ c ∈ clustersB, 1 ≤ c.count) (order : Shuffle String)
    (h : Compared (countOf isWord clustersA) (countOf isWord clustersB)
      (order.1 (fromKeys (keysOf isWord clustersA clustersB))) r) :
    Partitions isWord clustersA clustersB r ↔
      ((remaining isWord clustersA).map Prod.fst).Nodup ∧
        ((remaining isWord clustersB).map Prod.fst).Nodup := by
  have hperm := order.2 (fromKeys (keysOf isWord clustersA clustersB))
  have hnd := hperm.nodup_iff.mpr (fromKeys_nodup _)
  have hmem : ∀ fp, fp ∈ order.1 (fromKeys (keysOf isWord clustersA clustersB)) ↔
      fp ∈ keysOf isWord clustersA clustersB := fun fp => by
    rw [hperm.mem_iff, mem_fromKeys]
  have hA := sum_countOf_iff isWord hposA hnd
    (fun fp hfp => (hmem fp).mpr (List.mem_append_left _ hfp))
  have hB := sum_countOf_iff isWord hposB hnd
    (fun fp hfp => (hmem fp).mpr (List.mem_append_right _ hfp))
  rw [← hA, ← hB, ← h.sum_countA, ← h.sum_countB]
  constructor
  · intro hp
    exact ⟨hp.conservesA, hp.conservesB⟩
  · rintro ⟨hsumA, hsumB⟩
    exact ⟨h.fingerprints_perm.nodup_iff.mpr hnd,
      fun fp => (h.fingerprints_perm.mem_iff).trans (hmem fp), hsumA, hsumB⟩

theorem swapCounts_row (fp : String) :
    swapCounts (row countA countB fp) = row countB countA fp := rfl

theorem counts_nodup (h : Compared countA countB keys r) (hnd : keys.Nodup) (d : Direction) :
    ((bucket r d).map counts).Nodup := by
  have hall := h.fingerprints_perm.nodup_iff.mpr hnd
  unfold entries at hall
  rw [List.map_flatMap, List.nodup_flatMap] at hall
  have hd : d ∈ directions := by cases d <;> decide
  have hpiece := hall.1 d hd
  refine List.Nodup.of_map Prod.fst ?_
  rw [List.map_map]
  exact hpiece

/-- The buckets mirror each other exactly if the direction of each key does. -/
theorem mirrors_buckets_iff (h : Compared countA countB keys r)
    (h' : Compared countB countA keys' r') (hnd : keys.Nodup) (hnd' : keys'.Nodup)
    (hkeys : ∀ fp, fp ∈ keys ↔ fp ∈ keys')
    (hdir : ∀ fp ∈ keys, ∃ d, directionOf (countA fp) (countB fp) = .ok d) :
    (∀ d, ((bucket r' (swap d)).map counts).Perm
      ((bucket r d).map (fun e => swapCounts (counts e)))) ↔
      ∀ fp ∈ keys, ∃ d, directionOf (countA fp) (countB fp) = .ok d ∧
        directionOf (countB fp) (countA fp) = .ok (swap d) := by
  have hswap : ∀ d, (bucket r d).map (fun e => swapCounts (counts e)) =
      ((bucket r d).map counts).map swapCounts := fun d => by
    rw [List.map_map]
    rfl
  have hmem : ∀ d v, v ∈ ((bucket r d).map counts).map swapCounts ↔
      ∃ fp ∈ keys, v = row countB countA fp ∧
        directionOf (countA fp) (countB fp) = .ok d := by
    intro d v
    simp only [List.mem_map (f := swapCounts), h.mem_bucket]
    constructor
    · rintro ⟨w, ⟨fp, hfp, rfl, hd⟩, rfl⟩
      exact ⟨fp, hfp, swapCounts_row fp, hd⟩
    · rintro ⟨fp, hfp, rfl, hd⟩
      exact ⟨row countA countB fp, ⟨fp, hfp, rfl, hd⟩, swapCounts_row fp⟩
  constructor
  · intro hb fp hfp
    obtain ⟨d, hd⟩ := hdir fp hfp
    have hin := (hmem d (row countB countA fp)).mpr ⟨fp, hfp, rfl, hd⟩
    rw [← hswap, ← (hb d).mem_iff, h'.mem_bucket] at hin
    obtain ⟨fp', -, hrow, hd'⟩ := hin
    have hsame : fp = fp' := congrArg Prod.fst hrow
    subst hsame
    exact ⟨d, hd, hd'⟩
  · intro hall d
    rw [hswap]
    have hinj : ((bucket r d).map counts).map swapCounts |>.Nodup :=
      (counts_nodup h hnd d).map (fun v w hvw => by
        have hback := congrArg swapCounts hvw
        exact hback)
    rw [List.perm_ext_iff_of_nodup (counts_nodup h' hnd' (swap d)) hinj]
    intro v
    rw [h'.mem_bucket, hmem]
    constructor
    · rintro ⟨fp, hfp, rfl, hd⟩
      obtain ⟨d', hd', hs⟩ := hall fp ((hkeys fp).mpr hfp)
      have heq : d = d' := swap_injective (Except.ok.inj (hd.symm.trans hs))
      exact ⟨fp, (hkeys fp).mpr hfp, rfl, heq ▸ hd'⟩
    · rintro ⟨fp, hfp, rfl, hd⟩
      obtain ⟨d', hd', hs⟩ := hall fp hfp
      have heq : d = d' := Except.ok.inj (hd.symm.trans hd')
      exact ⟨fp, (hkeys fp).mp hfp, rfl, heq ▸ hs⟩

theorem triggersOnly_swapSide (isWord : Char → Bool) (lowering : Lowering)
    (triggers others : List TriggerCandidate) :
    triggersOnly isWord lowering .a triggers others =
      (triggersOnly isWord lowering .b triggers others).map swapSide ∧
    triggersOnly isWord lowering .b triggers others =
      (triggersOnly isWord lowering .a triggers others).map swapSide := by
  unfold triggersOnly
  rw [List.map_map, List.map_map]
  exact ⟨rfl, rfl⟩

/-- What a lawful comparison asks of the clusters of two windows. -/
structure Comparable (isWord : Char → Bool) (clustersA clustersB : List (ClusterData K)) :
    Prop where
  unreservedA : Unreserved isWord clustersA
  unreservedB : Unreserved isWord clustersB
  inRangeA : TotalsInRange isWord clustersA
  inRangeB : TotalsInRange isWord clustersB
  reversible : ∀ p ∈ remaining isWord clustersA, ∀ q ∈ remaining isWord clustersB,
    p.1 = q.1 → Reversible p.2 q.2 ∧ Reversible q.2 p.2

/-- With distinct keys, the directions mirror each other exactly for reversible counts. -/
theorem mirrored_iff_reversible (hposA : ∀ c ∈ clustersA, 1 ≤ c.count)
    (hposB : ∀ c ∈ clustersB, 1 ≤ c.count)
    (hndA : ((remaining isWord clustersA).map Prod.fst).Nodup)
    (hndB : ((remaining isWord clustersB).map Prod.fst).Nodup) :
    (∀ fp ∈ keysOf isWord clustersA clustersB, ∃ d,
      directionOf (countOf isWord clustersA fp) (countOf isWord clustersB fp) = .ok d ∧
        directionOf (countOf isWord clustersB fp) (countOf isWord clustersA fp) = .ok (swap d)) ↔
      ∀ p ∈ remaining isWord clustersA, ∀ q ∈ remaining isWord clustersB,
        p.1 = q.1 → Reversible p.2 q.2 ∧ Reversible q.2 p.2 := by
  have hfound : ∀ {clusters : List (ClusterData K)},
      ((remaining isWord clusters).map Prod.fst).Nodup → ∀ fp n,
        n ∈ countOf isWord clusters fp ↔ (fp, n) ∈ remaining isWord clusters :=
    fun hnd fp n => lookup_dictOf hnd fp n
  have hkey : ∀ fp ∈ keysOf isWord clustersA clustersB,
      ((∃ d, directionOf (countOf isWord clustersA fp) (countOf isWord clustersB fp) = .ok d ∧
        directionOf (countOf isWord clustersB fp) (countOf isWord clustersA fp) = .ok (swap d)) ↔
        ∀ a ∈ countOf isWord clustersA fp, ∀ b ∈ countOf isWord clustersB fp,
          Reversible a b ∧ Reversible b a) := by
    intro fp hfp
    apply mirrored_direction_iff
    · exact fun a ha => one_le_remaining hposA _ ((hfound hndA fp a).mp ha)
    · exact fun b hb => one_le_remaining hposB _ ((hfound hndB fp b).mp hb)
    · exact (List.mem_append.mp hfp).imp countOf_ne_none_iff.mpr countOf_ne_none_iff.mpr
  constructor
  · intro hall p hp q hq hpq
    have hin : p.1 ∈ keysOf isWord clustersA clustersB :=
      List.mem_append_left _ (List.mem_map_of_mem hp)
    refine (hkey p.1 hin).mp (hall p.1 hin) p.2 ((hfound hndA _ _).mpr hp) q.2 ?_
    rw [hpq]
    exact (hfound hndB _ _).mpr hq
  · intro hall fp hfp
    refine (hkey fp hfp).mpr ?_
    intro a ha b hb
    exact hall (fp, a) ((hfound hndA _ _).mp ha) (fp, b) ((hfound hndB _ _).mp hb) rfl

/-- The order in which a set happens to be listed. -/
def listedOrder : Shuffle String := ⟨id, fun l => List.Perm.refl l⟩

variable [ScoreArithmetic K]

/-- In every order both runs return, partition what remains and conserve the counts, and
mirror each other. -/
def Lawful (isWord : Char → Bool) (lowering : Lowering) (clustersA clustersB : List (ClusterData K))
    (triggersA triggersB : List TriggerCandidate) (windowA windowB : TimeWindow) : Prop :=
  ∀ order order' : Shuffle String, ∃ r r',
    compareWindows isWord lowering order clustersA clustersB triggersA triggersB windowA
      windowB = .ok r ∧
    compareWindows isWord lowering order' clustersB clustersA triggersB triggersA windowB
      windowA = .ok r' ∧
    Partitions isWord clustersA clustersB r ∧ Mirrors r r'

theorem keysOf_nodup (order : Shuffle String) (l : List String) :
    (order.1 (fromKeys l)).Nodup :=
  (order.2 _).nodup_iff.mpr (fromKeys_nodup l)

omit [ScoreArithmetic K] in
theorem mem_keysOf_comm (isWord : Char → Bool) (clustersA clustersB : List (ClusterData K))
    (order order' : Shuffle String) (fp : String) :
    fp ∈ order.1 (fromKeys (keysOf isWord clustersA clustersB)) ↔
      fp ∈ order'.1 (fromKeys (keysOf isWord clustersB clustersA)) := by
  rw [(order.2 _).mem_iff, (order'.2 _).mem_iff, mem_fromKeys, mem_fromKeys]
  unfold keysOf
  rw [List.mem_append, List.mem_append]
  exact or_comm

variable {lowering : Lowering} {triggersA triggersB : List TriggerCandidate}
  {windowA windowB : TimeWindow}

theorem comparable_of_lawful (hfpA : (clustersA.map ClusterData.fingerprint).Nodup)
    (hfpB : (clustersB.map ClusterData.fingerprint).Nodup)
    (hposA : ∀ c ∈ clustersA, 1 ≤ c.count) (hposB : ∀ c ∈ clustersB, 1 ≤ c.count)
    (hlaw : Lawful isWord lowering clustersA clustersB triggersA triggersB windowA windowB) :
    Comparable isWord clustersA clustersB := by
  obtain ⟨r, r', hr, hr', hpart, hmirror⟩ := hlaw listedOrder listedOrder
  obtain ⟨hrangeA, hrangeB, hdir⟩ := compareWindows_returns_iff.mp ⟨r, hr⟩
  have hc := (compared_of_ok hr).1
  have hc' := (compared_of_ok hr').1
  obtain ⟨hndA, hndB⟩ := (partitions_iff hposA hposB listedOrder hc).mp hpart
  have hmirrored := (mirrors_buckets_iff hc hc' (keysOf_nodup _ _) (keysOf_nodup _ _)
    (mem_keysOf_comm isWord clustersA clustersB listedOrder listedOrder)
    (fun fp hfp => hdir fp (mem_fromKeys.mp hfp))).mp hmirror.buckets
  exact ⟨(remaining_keys_nodup_iff hfpA).mp hndA, (remaining_keys_nodup_iff hfpB).mp hndB,
    hrangeA, hrangeB, (mirrored_iff_reversible hposA hposB hndA hndB).mp
      (fun fp hfp => hmirrored fp (mem_fromKeys.mpr hfp))⟩

theorem lawful_of_comparable (hfpA : (clustersA.map ClusterData.fingerprint).Nodup)
    (hfpB : (clustersB.map ClusterData.fingerprint).Nodup)
    (hposA : ∀ c ∈ clustersA, 1 ≤ c.count) (hposB : ∀ c ∈ clustersB, 1 ≤ c.count)
    (hcomp : Comparable isWord clustersA clustersB) :
    Lawful isWord lowering clustersA clustersB triggersA triggersB windowA windowB := by
  intro order order'
  have hndA := (remaining_keys_nodup_iff hfpA).mpr hcomp.unreservedA
  have hndB := (remaining_keys_nodup_iff hfpB).mpr hcomp.unreservedB
  have hmirrored := (mirrored_iff_reversible hposA hposB hndA hndB).mpr hcomp.reversible
  obtain ⟨r, hr⟩ : ∃ r, compareWindows isWord lowering order clustersA clustersB triggersA
      triggersB windowA windowB = .ok r := by
    refine compareWindows_returns_iff.mpr ⟨hcomp.inRangeA, hcomp.inRangeB, ?_⟩
    intro fp hfp
    obtain ⟨d, hd, -⟩ := hmirrored fp hfp
    exact ⟨d, hd⟩
  obtain ⟨r', hr'⟩ : ∃ r', compareWindows isWord lowering order' clustersB clustersA triggersB
      triggersA windowB windowA = .ok r' := by
    refine compareWindows_returns_iff.mpr ⟨hcomp.inRangeB, hcomp.inRangeA, ?_⟩
    intro fp hfp
    obtain ⟨d, -, hd⟩ := hmirrored fp (List.mem_append.mpr (List.mem_append.mp hfp).symm)
    exact ⟨swap d, hd⟩
  obtain ⟨hc, hnew, hdropped⟩ := compared_of_ok hr
  obtain ⟨hc', hnew', hdropped'⟩ := compared_of_ok hr'
  have hlisted : ∀ fp ∈ order.1 (fromKeys (keysOf isWord clustersA clustersB)),
      fp ∈ keysOf isWord clustersA clustersB := by
    intro fp hfp
    rwa [(order.2 _).mem_iff, mem_fromKeys] at hfp
  refine ⟨r, r', hr, hr', (partitions_iff hposA hposB order hc).mpr ⟨hndA, hndB⟩, ?_, ?_, ?_⟩
  · refine (mirrors_buckets_iff hc hc' (keysOf_nodup _ _) (keysOf_nodup _ _)
      (mem_keysOf_comm isWord clustersA clustersB order order') ?_).mpr ?_
    · intro fp hfp
      obtain ⟨d, hd, -⟩ := hmirrored fp (hlisted fp hfp)
      exact ⟨d, hd⟩
    · exact fun fp hfp => hmirrored fp (hlisted fp hfp)
  · rw [hnew', hdropped]
    exact (triggersOnly_swapSide isWord lowering triggersB triggersA).1
  · rw [hdropped', hnew]
    exact (triggersOnly_swapSide isWord lowering triggersA triggersB).2

/-- A comparison is lawful exactly for comparable windows. -/
theorem comparison_lawful_iff (isWord : Char → Bool) (lowering : Lowering)
    {clustersA clustersB : List (ClusterData K)}
    (hfpA : (clustersA.map ClusterData.fingerprint).Nodup)
    (hfpB : (clustersB.map ClusterData.fingerprint).Nodup)
    (hposA : ∀ c ∈ clustersA, 1 ≤ c.count) (hposB : ∀ c ∈ clustersB, 1 ≤ c.count)
    (triggersA triggersB : List TriggerCandidate) (windowA windowB : TimeWindow) :
    Lawful isWord lowering clustersA clustersB triggersA triggersB windowA windowB ↔
      Comparable isWord clustersA clustersB :=
  ⟨comparable_of_lawful hfpA hfpB hposA hposB, lawful_of_comparable hfpA hfpB hposA hposB⟩

omit [ScoreArithmetic K] in
theorem snd_le_sum {p : String × ℕ} {clusters : List (ClusterData K)}
    (h : p ∈ remaining isWord clusters) : p.2 ≤ (clusters.map ClusterData.count).sum := by
  rw [← sum_remaining isWord clusters]
  exact List.single_le_sum (fun n _ => Nat.zero_le n) _ (List.mem_map_of_mem h)

/-- The keys of collapsed noise. -/
def reservedKeys : List String := ["__collapsed_retries__", "__collapsed_queue_growth__"]

omit [ScoreArithmetic K] in
theorem fst_mem_reservedKeys {p : String × ℕ} {clusters : List (ClusterData K)}
    (h : p ∈ collapsedEntries isWord clusters) : p.1 ∈ reservedKeys := by
  have hnoise : ∀ (group : List (ClusterData K)) (key : String),
      p ∈ noiseCounts group key → p.1 = "__collapsed_" ++ key ++ "__" := by
    intro group key hp
    unfold noiseCounts at hp
    split at hp
    · exact absurd hp List.not_mem_nil
    · rw [List.mem_singleton.mp hp]
  rcases List.mem_append.mp h with h | h
  · rw [hnoise _ _ h]
    decide
  · rw [hnoise _ _ h]
    decide

omit [ScoreArithmetic K] in
/-- Windows of fewer than `2 ^ 52` lines without reserved fingerprints are comparable. -/
theorem comparable_of_small (hposA : ∀ c ∈ clustersA, 1 ≤ c.count)
    (hposB : ∀ c ∈ clustersB, 1 ≤ c.count)
    (hA : ∀ c ∈ clustersA, c.fingerprint ∉ reservedKeys)
    (hB : ∀ c ∈ clustersB, c.fingerprint ∉ reservedKeys)
    (hsmallA : (clustersA.map ClusterData.count).sum < 2 ^ 52)
    (hsmallB : (clustersB.map ClusterData.count).sum < 2 ^ 52) :
    Comparable isWord clustersA clustersB := by
  have hlimit : 2 ^ 52 ≤ doubleLimit := by
    have h := two_pow_le_doubleLimit
    exact_mod_cast h
  have hunreserved : ∀ {clusters : List (ClusterData K)},
      (∀ c ∈ clusters, c.fingerprint ∉ reservedKeys) → Unreserved isWord clusters :=
    fun h c hc p hp heq => h c (List.mem_of_mem_filter hc) (heq ▸ fst_mem_reservedKeys hp)
  have hrange : ∀ {clusters : List (ClusterData K)},
      (clusters.map ClusterData.count).sum < 2 ^ 52 → TotalsInRange isWord clusters :=
    fun h p hp => ((snd_le_sum (List.mem_append_right _ hp)).trans_lt h).trans_le hlimit
  refine ⟨hunreserved hA, hunreserved hB, hrange hsmallA, hrange hsmallB, ?_⟩
  intro p hp q hq _
  have hpa := one_le_remaining hposA p hp
  have hqb := one_le_remaining hposB q hq
  have hpsmall := (snd_le_sum hp).trans_lt hsmallA
  have hqsmall := (snd_le_sum hq).trans_lt hsmallB
  exact ⟨reversible_of_lt hpa hqb hpsmall hqsmall, reversible_of_lt hqb hpa hqsmall hpsmall⟩

end Laws

/-! Windows of one or two clusters. -/

/-- A letter, a digit or an underscore of ASCII. -/
def asciiWord (c : Char) : Bool := c.isAlphanum || c == '_'

def plainCluster (fingerprint message : String) (count : ℕ) : ClusterData ℚ where
  fingerprint := fingerprint
  representativeMessage := message
  count := count
  services := dictOf [("checkout", count)]
  levels := dictOf [("error", count)]
  levelOrder := ["error"]
  firstSeen := some 10
  lastSeen := some 20
  baselineCount := 0
  changeRatio := 1
  importanceScore := 1
  isTrigger := false
  logEntryIds := []
  mergedFingerprints := []
  errorServiceCounts := ∅

def firstHour : TimeWindow := ⟨0, 10⟩

def secondHour : TimeWindow := ⟨10, 20⟩

theorem comparison_lawful_sample :
    Lawful asciiWord asciiLowering [plainCluster "a" "timeout" 3] [plainCluster "a" "timeout" 2]
      [⟨"deploy started v2", none⟩] [] secondHour firstHour :=
  (comparison_lawful_iff asciiWord asciiLowering (by decide) (by decide) (by decide) (by decide)
    _ _ _ _).mpr (comparable_of_small (by decide) (by decide) (by decide) (by decide) (by decide)
      (by decide))

/-- A cluster whose fingerprint is the key of collapsed retries. -/
def reservedClusters : List (ClusterData ℚ) :=
  [plainCluster "__collapsed_retries__" "timeout" 1, plainCluster "b" "retry" 1]

/-- A reserved fingerprint, a total out of range, and counts whose quotient is rounded up
to the threshold: none of these comparisons is lawful. -/
theorem unlawful_comparisons :
    ¬Lawful asciiWord asciiLowering reservedClusters [] [] [] secondHour firstHour ∧
    ¬Lawful asciiWord asciiLowering [plainCluster "a" "retry" doubleLimit] [] [] []
      secondHour firstHour ∧
    ¬Lawful asciiWord asciiLowering [plainCluster "a" "timeout" (3 * 2 ^ 53 - 1)]
      [plainCluster "a" "timeout" (2 ^ 54)] [] [] secondHour firstHour := by
  have hretry : isRetry asciiWord "retry" = true := by decide +kernel
  have htimeout : isRetry asciiWord "timeout" = false := by decide +kernel
  have hgrowth : isQueueGrowth "timeout" = false := by decide +kernel
  refine ⟨?_, ?_, ?_⟩
  · intro hlaw
    have hcomp := comparable_of_lawful (by decide) (by decide) (by decide) (by decide) hlaw
    refine hcomp.unreservedA (plainCluster "__collapsed_retries__" "timeout" 1) ?_
      ("__collapsed_retries__", 1) ?_ rfl
    · simp [normalGroup, reservedClusters, plainCluster, hretry, htimeout, hgrowth]
    · simp [collapsedEntries, noiseCounts, retryGroup, reservedClusters, plainCluster, hretry,
        htimeout]
  · have hpos := doubleLimit_pos
    have hout : ¬doubleLimit < doubleLimit := lt_irrefl _
    -- the total need not be computed
    generalize htotal : doubleLimit = total at hpos hout ⊢
    intro hlaw
    have hfp : ([plainCluster "a" "retry" total].map ClusterData.fingerprint).Nodup :=
      List.nodup_singleton _
    have hnil : (([] : List (ClusterData ℚ)).map ClusterData.fingerprint).Nodup := List.nodup_nil
    have hcomp := comparable_of_lawful hfp hnil
      (List.forall_mem_singleton.mpr hpos) (List.forall_mem_nil _) hlaw
    have hentry : ("__collapsed_retries__", total) ∈
        collapsedEntries asciiWord [plainCluster "a" "retry" total] := by
      simp [collapsedEntries, noiseCounts, retryGroup, plainCluster, hretry]
    have hrange := hcomp.inRangeA _ hentry
    rw [htotal] at hrange
    exact hout hrange
  · intro hlaw
    have hcomp := comparable_of_lawful (by decide) (by decide) (by decide) (by decide) hlaw
    have hremains : ∀ n, ("a", n) ∈ remaining asciiWord [plainCluster "a" "timeout" n] := by
      intro n
      simp [remaining, normalGroup, plainCluster, htimeout, hgrowth]
    have hrev := (hcomp.reversible _ (hremains _) _ (hremains _) rfl).1.2
    have hinc : increasedFrom ≤ ((3 * 2 ^ 53 - 1 : ℕ) : ℚ) / (2 ^ 54 : ℕ) := by
      norm_num [increasedFrom]
    have hdec : ¬((2 ^ 54 : ℕ) : ℚ) / (3 * 2 ^ 53 - 1 : ℕ) < decreasedBelow := by
      norm_num [decreasedBelow]
    exact hdec (hrev hinc)

end Raglogs.DifferLaws
